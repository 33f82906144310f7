import RosidlBufferBackends.Buffers.ExclusiveWrite
import RosidlBufferBackends.Buffers.WriteRelease
import RosidlBufferBackends.Lib.Sequential

/-! Of two works that touch the same allocation, and one of which writes it, the one that was
launched first is waited for before the other one starts. -/

namespace RosidlBufferBackends.Buffers

open Streams Runs Process Inventory

variable {s s' : Process} {o : Operation} {out : Output} {b hs a k : ℕ} {x y : CudaBuffer}
  {st : Stream} {p : Point Stream} {wk : Work} {rh : ReadHandle}

/-- Works are launched on streams of their own, and write under the open handle of a buffer that
had its write event when the handle was granted. -/
def UnderHandles (s : Process) (o : Operation) : Prop :=
  match o with
  | .launch st _ w => st ≠ none ∧ (w.isSome → (s.writerOf w).isSome)
  | .getWriteHandle b _ => ∀ buf ∈ s.buffers b, buf.devicePtr.isSome → buf.writeEvent.isSome
  | _ => True

structure Disciplined (s : Process) (o : Operation) (out : Output) : Prop where
  steady : Steady s o out
  settled : WriterSettled s o out
  readers : ReadersClosed s o out
  handles : UnderHandles s o

/-- What holds of a process between any two operations of a disciplined run. -/
structure Regular (s : Process) : Prop extends Healthy s where
  manned : Manned s
  attached : Attached s
  guarded : ReadsGuarded s
  used : Used s

/-- The write will be stamped, or is, where the allocation is still in a buffer. -/
structure Tracked (s : Process) (a : ℕ) (p : Point Stream) : Prop where
  lt : a < s.nextAllocation
  awaits : ∀ b x, s.buffers b = some x → x.devicePtr = some a →
    ∃ hs, x.handleState = some hs ∧ x.writeEvent.isSome ∧ Awaits s hs p

/-- Readers and an open writer exclude each other, and readers are behind the writes. -/
structure Separated (s : Process) : Prop where
  streamed : ∀ p wk, s.gpu.Pending p wk → p.stream ≠ none
  tracked : ∀ p wk a, s.gpu.Pending p wk → wk.target = some a → Tracked s a p
  equipped : ∀ b x hs, s.buffers b = some x → x.handleState = some hs →
    (s.states hs).state = .inUse → x.devicePtr.isSome → x.writeEvent.isSome
  unread : ∀ b, s.writerOpen b = true → s.readReferenced b = false
  read : ∀ p wk a b x, s.gpu.Pending p wk → wk.source = some a → s.buffers b = some x →
    x.devicePtr = some a → s.writerOpen b = false
  behind : ∀ p wk a k rh, s.gpu.Pending p wk → wk.target = some a → s.readHandles k = some rh →
    rh.dataPtr = some a → rh.stream ≠ none → s.gpu.Before p (s.gpu.here rh.stream)

section Regular

lemma regular_initial : Regular {} :=
  ⟨healthy_initial, manned_initial, attached_initial, readsGuarded_initial, nofun⟩

lemma act_regular (h : Regular s) (hg : Disciplined s o out) (ha : s.act o = some (out, s')) :
    Regular s' := by
  refine ⟨act_healthy h.toHealthy hg.settled ha, ?_, ?_, ?_, act_used h.used ha⟩
  · exact act_manned h.stocked h.writers h.manned hg.settled ha
  · exact act_attached h.stocked h.attached hg.steady ha
  · exact act_readsGuarded h.stocked h.attached h.guarded hg.steady ha

lemma separated_initial : Separated {} := by
  have hnone : ∀ p wk, ¬ ({} : Process).gpu.Pending p wk := by simp [Gpu.Pending]
  refine ⟨?_, ?_, ?_, fun _ _ => rfl, ?_, ?_⟩
  · exact fun p wk hp => absurd hp (hnone p wk)
  · exact fun p wk a hp => absurd hp (hnone p wk)
  · exact fun b x hs hb => absurd hb (Option.some_ne_none x).symm
  · exact fun p wk a b x hp => absurd hp (hnone p wk)
  · exact fun p wk a k rh hp => absurd hp (hnone p wk)

/-- A work that is not done was not done before, or has been launched. -/
lemma act_pending (ho : s.gpu.Orderly) (ha : s.act o = some (out, s'))
    (hp : s'.gpu.Pending p wk) : s.gpu.Pending p wk ∨ ∃ r w, o = .launch p.stream r w ∧
      wk = s.workOf r w ∧ p = s.gpu.here p.stream := by
  rcases act_gpu ha with he | ⟨st, awaited, he⟩ | ⟨st, r, w, rfl, -, he⟩ | ⟨st, -, hf⟩
  · exact .inl (he ▸ hp)
  · rw [he, Gpu.pending_enqueue ho] at hp
    rcases hp with hp | ⟨-, hop⟩
    · exact .inl hp
    · cases hop
  · rw [he, Gpu.pending_enqueue ho] at hp
    rcases hp with hp | ⟨rfl, hop⟩
    · exact .inl hp
    · exact .inr ⟨r, w, rfl, (Op.work.inj hop).symm, rfl⟩
  · rw [(Gpu.finish_cases hf).1, Gpu.pending_bump] at hp
    exact .inl hp.1

lemma writerOpen_iff : s.writerOpen b = true ↔ ∃ x hs, s.buffers b = some x ∧
    x.handleState = some hs ∧ (s.states hs).state = .inUse := by
  simp [writerOpen, Option.any_eq_true, inUse_iff]

lemma act_reader (ha : s.act o = some (out, s')) (hk : s'.readHandles k = some rh) :
    rh = {} ∨ (∃ k₀, s.readHandles k₀ = some rh) ∨ ∃ b st x, o = .getReadHandle b st ∧
      s.buffers b = some x ∧
        rh = { dataPtr := x.devicePtr, readEvents := some b, stream := st } := by
  have hsame : s'.readHandles = s.readHandles → ∃ k₀, s.readHandles k₀ = some rh :=
    fun he => ⟨k, he ▸ hk⟩
  cases act_cases ha with
  | @destroy b x _ _ =>
    obtain ⟨queue, deleted, he⟩ := destroy_frame s b x
    exact .inr (.inl (hsame (by rw [he])))
  | @getReadHandle b x st hb =>
    obtain ⟨gpu, recorded, states, he, -⟩ := getReadHandle_frame s b x st
    rw [he] at hk
    rcases update_some hk with ⟨-, hnew⟩ | ⟨-, hk⟩
    · exact .inr (.inr ⟨b, st, x, rfl, hb, (Option.some.inj hnew).symm⟩)
    · exact .inr (.inl ⟨k, hk⟩)
  | @finalizeWriteHandle b x _ =>
    obtain ⟨recorded, states, he, -⟩ := finalizeWriteHandle_frame s x
    exact .inr (.inl (hsame (by rw [he])))
  | @moveRead j rh₀ hj =>
    rcases update_some hk with ⟨-, he⟩ | ⟨-, hk⟩
    · exact .inr (.inl ⟨j, hj.trans he⟩)
    · rcases update_some hk with ⟨-, he⟩ | ⟨-, hk⟩
      · exact .inl (Option.some.inj he).symm
      · exact .inr (.inl ⟨k, hk⟩)
  | @assignRead j j' rh₀ rh' hj hj' _ =>
    rcases update_some hk with ⟨-, he⟩ | ⟨-, hk⟩
    · exact .inl (Option.some.inj he).symm
    · rcases update_some hk with ⟨-, he⟩ | ⟨-, hk⟩
      · exact .inr (.inl ⟨j', hj'.trans he⟩)
      · exact .inr (.inl ⟨k, (releaseRead_readHandles s rh₀).1 ▸ hk⟩)
  | @closeRead j rh₀ hj =>
    rcases update_some hk with ⟨-, he⟩ | ⟨-, hk⟩
    · cases he
    · exact .inr (.inl ⟨k, (releaseRead_readHandles s rh₀).1 ▸ hk⟩)
  | @assignWrite _ _ wh _ _ _ _ =>
    obtain ⟨recorded, states, he, -⟩ := releaseWrite_frame s wh
    exact .inr (.inl (hsame (by rw [he]; rfl)))
  | @closeWrite _ wh _ =>
    obtain ⟨recorded, states, he, -⟩ := releaseWrite_frame s wh
    exact .inr (.inl (hsame (by rw [he]; rfl)))
  | recycle _ _ => exact .inr (.inl (hsame (by rw [delete_frame])))
  | _ => exact .inr (.inl (hsame rfl))

/-- A writer is open if it was, or has just been granted. -/
lemma act_writerOpen (h : Regular s) (h' : Regular s') (hg : WriterSettled s o out)
    (ha : s.act o = some (out, s')) (hb : s'.buffers b = some x) (hx : x.handleState = some hs)
    (hu : (s'.states hs).state = .inUse) :
    (∃ y, s.buffers b = some y ∧ y.handleState = some hs ∧ SameStorage y x ∧
      (s.states hs).state = .inUse) ∨ ∃ st, o = .getWriteHandle b st ∧ out = .writing hs := by
  obtain ⟨w, wh, hk, hstate⟩ := h'.manned.owner hs hu
  obtain ⟨-, b', x', hptr, hb', hx'⟩ := (h'.writers.bound w wh hk).points hs hstate hu
  obtain rfl := h'.stocked.state_unique hb hb' hx hx'
  rcases (Finalisation.act_handles h.writers.lt ha w wh hk).2 with rfl | ⟨w₀, hk₀⟩ |
    ⟨b₀, hs₀, -, ⟨st, ho, hout⟩, hptr₀, hstate₀, -⟩
  · cases hstate
  · have hbound := h.writers.bound w₀ wh hk₀
    have hin : (s.states hs).state = .inUse := by
      cases hz : (s.states hs).state with
      | unset => exact absurd hz (hbound.used hs hstate)
      | inUse => rfl
      | finalized =>
        have hf := act_finalized h.writers (hbound.lt hs hstate) hz ha
        cases hf.symm.trans hu
    obtain ⟨-, b₁, y, hptr₁, hb₁, hy⟩ := hbound.points hs hstate hin
    obtain rfl := Option.some.inj (hptr₁.symm.trans hptr)
    refine .inl ⟨y, hb₁, hy, ?_, hin⟩
    rcases act_kept h.stocked hg hb₁ hy ha with ⟨-, href, -⟩ | ⟨b', z, hz, hsame⟩
    · exact absurd hptr (h.writers.not_write (Bool.or_eq_false_iff.mp href).2 hk₀)
    · obtain rfl := h'.stocked.state_unique hb hz hx (hsame.handleState.trans hy)
      obtain rfl := Option.some.inj (hb.symm.trans hz)
      exact hsame
  · obtain rfl := Option.some.inj (hptr₀.symm.trans hptr)
    obtain rfl := Option.some.inj (hstate₀.symm.trans hstate)
    exact .inr ⟨st, ho, hout⟩

end Regular

section Launches

variable {r w : Option ℕ}

lemma launch_some (ha : s.act (.launch st r w) = some (out, s')) : r.all (s.mayRead st) = true ∧
    w.all (s.mayWrite st) = true ∧ out = .launched (s.gpu.here st) (s.writerOf w) ∧
      s' = s.enqueue st (.work (s.workOf r w)) := by
  simp only [act] at ha
  split_ifs at ha with hrw
  obtain ⟨hr, hw⟩ := (Bool.and_eq_true _ _).mp hrw
  obtain ⟨rfl, rfl⟩ := Prod.mk.inj (Option.some.inj ha)
  exact ⟨hr, hw, rfl, rfl⟩

/-- A work reads the storage of a buffer that its handle points into. -/
lemma launch_source (h : Regular s) (hr : r.all (s.mayRead st) = true)
    (hs : (s.workOf r w).source = some a) : ∃ k rh b x, s.readHandles k = some rh ∧
      rh.stream = st ∧ rh.dataPtr = some a ∧ rh.readEvents = some b ∧ s.buffers b = some x ∧
      x.devicePtr = some a := by
  obtain ⟨k, rfl, hs⟩ := Option.bind_eq_some_iff.mp hs
  obtain ⟨rh, hk, hptr⟩ := Option.bind_eq_some_iff.mp hs
  have hmay : s.mayRead st k = true := hr
  simp only [mayRead, hk, Option.any_some, Bool.and_eq_true, decide_eq_true_eq] at hmay
  obtain ⟨b, x, hre, hb, hx⟩ := h.attached.anchored k rh hk a hptr
  exact ⟨k, rh, b, x, hk, hmay.1, hptr, hre, hb, hx⟩

/-- A work writes the storage of a buffer whose writer is open on its stream. -/
lemma launch_target (h : Regular s) (hw : w.all (s.mayWrite st) = true)
    (hin : w.isSome → (s.writerOf w).isSome) (ht : (s.workOf r w).target = some a) :
    ∃ b x hs, s.writerOf w = some hs ∧ s.buffers b = some x ∧ x.devicePtr = some a ∧
      x.handleState = some hs ∧ (s.states hs).state = .inUse ∧
      (s.states hs).writeStream = st := by
  obtain ⟨k, rfl, ht⟩ := Option.bind_eq_some_iff.mp ht
  obtain ⟨wh, hk, hptr⟩ := Option.bind_eq_some_iff.mp ht
  have hmay : s.mayWrite st k = true := hw
  simp only [mayWrite, hk, Option.any_some, Bool.and_eq_true, decide_eq_true_eq] at hmay
  obtain ⟨hs, hwriter⟩ := Option.isSome_iff_exists.mp (hin rfl)
  obtain ⟨hbind, hu⟩ := Option.filter_eq_some_iff.mp hwriter
  have hstate : wh.state = some hs := by simpa [hk] using hbind
  have hopen := inUse_iff.mp hu
  obtain ⟨b, x, hb, hx, haim⟩ := h.manned.aimed k wh hs hk hstate hopen
  obtain ⟨hstream, -⟩ := (h.writers.bound k wh hk).points hs hstate hopen
  exact ⟨b, x, hs, hwriter, hb, haim.symm.trans hptr, hx, hopen, hstream.trans hmay.1⟩

end Launches

section Steps

lemma act_tracked (h : Regular s) (hg : WriterSettled s o out) (ha : s.act o = some (out, s'))
    (ht : Tracked s a p) : Tracked s' a p := by
  refine ⟨ht.lt.trans_le (act_counters ha).2, fun b x hb hx => ?_⟩
  rcases act_stems ha hb with hc | ⟨b₀, y, hd⟩ | ⟨b₀, y, he⟩
  · exact absurd (hc.devicePtr a hx) ht.lt.ne
  · obtain ⟨hs, hy, hev, haw⟩ := ht.awaits b₀ y hd.held (hd.devicePtr.symm.trans hx)
    refine ⟨hs, ?_, hd.writeEvent.symm ▸ hev, act_awaits h.stocked h.writers hg ha haw⟩
    rcases hd.handleState with heq | ⟨hnone, -⟩
    · exact heq.trans hy
    · cases hnone.symm.trans hy
  · obtain ⟨hs, hy, -⟩ := ht.awaits b₀ y he.held (he.devicePtr.symm.trans hx)
    obtain ⟨owns, rfl⟩ := he.called
    have hnone : (s.buffers b₀).all (fun buf => buf.handleState.isNone) = true := hg
    rw [he.held, Option.all_some, hy] at hnone
    cases hnone

lemma launch_tracked {r w : Option ℕ} (h : Regular s) (hsep : Separated s)
    (hg : UnderHandles s (.launch st r w)) (ha : s.act (.launch st r w) = some (out, s'))
    (ht : (s.workOf r w).target = some a) : Tracked s' a (s.gpu.here st) := by
  obtain ⟨-, hw, rfl, rfl⟩ := launch_some ha
  obtain ⟨b, x, hs, hwriter, hb, hx, hstate, hopen, -⟩ := launch_target h hw hg.2 ht
  refine ⟨h.stocked.allocation_lt hb hx, fun b' y hb' hy => ?_⟩
  obtain rfl := h.stocked.holder_unique hb hb' hx hy
  obtain rfl := Option.some.inj (hb.symm.trans hb')
  rw [hwriter] at ha
  have hev := hsep.equipped b x hs hb hstate hopen (by rw [hx]; rfl)
  exact ⟨hs, hstate, hev, launched_awaits h.writers ha⟩

/-- The buffer of a handle that is granted. -/
lemma granted_buffer (ha : s.act (.getWriteHandle b st) = some (.writing hs, s'))
    (hb : s'.buffers b = some x) : ∃ y, s.buffers b = some y ∧ x.devicePtr = y.devicePtr ∧
      x.writeEvent = y.writeEvent := by
  generalize ho : Operation.getWriteHandle b st = o at ha
  generalize hout : Output.writing hs = out at ha
  cases act_cases ha with
  | @granted b' _ y _ hb' _ _ _ =>
    obtain ⟨rfl, -⟩ := Operation.getWriteHandle.inj ho
    obtain rfl := Option.some.inj ((reaped_buffer s b y).symm.trans hb)
    exact ⟨y, hb', rfl, rfl⟩
  | @grantedFirst b' y _ hb' _ _ =>
    obtain ⟨rfl, -⟩ := Operation.getWriteHandle.inj ho
    have hnew := (Function.update_self b _ _).symm.trans hb
    obtain rfl := Option.some.inj hnew
    exact ⟨y, hb', rfl, rfl⟩
  | _ => cases hout

lemma act_equipped (h : Regular s) (h' : Regular s') (hsep : Separated s)
    (hg : Disciplined s o out) (ha : s.act o = some (out, s')) (hb : s'.buffers b = some x)
    (hx : x.handleState = some hs) (hu : (s'.states hs).state = .inUse)
    (hptr : x.devicePtr.isSome) : x.writeEvent.isSome := by
  rcases act_writerOpen h h' hg.settled ha hb hx hu with ⟨y, hy, hstate, hsame, hin⟩ |
    ⟨st, rfl, rfl⟩
  · rw [hsame.writeEvent]
    exact hsep.equipped b y hs hy hstate hin (hsame.devicePtr ▸ hptr)
  · obtain ⟨y, hy, hsame, hev⟩ := granted_buffer ha hb
    rw [hev]
    exact hg.handles y hy (hsame ▸ hptr)

lemma getReadHandle_closed (hx : x.handleState = some hs) :
    ((s.getReadHandle b x st).states hs).state ≠ .inUse := by
  obtain ⟨gpu, he, -⟩ := waitForWrite_frame (readyToRead s b x) x st
  rw [getReadHandle_eq, he]
  change ((readyToRead s b x).states hs).state ≠ .inUse
  rcases finalizeWriteHandle_closes (y := x) (reaped_buffer s b x) rfl rfl with
    ⟨hsame, hclosed⟩ | ⟨hs', hx', hc⟩
  · rw [readyToRead, hsame]
    simpa [inUse] using not_open hclosed (reaped_buffer s b x) hx
  · obtain rfl := Option.some.inj (hx.symm.trans hx')
    exact hc.finalized

lemma getReadHandle_some (hb : s.buffers b = some x)
    (ha : s.act (.getReadHandle b st) = some (out, s')) :
    out = .reading (s'.gpu.here st) x.handleState x.writeEvent ∧ s' = s.getReadHandle b x st := by
  simp only [act, withBuffer, hb] at ha
  obtain ⟨rfl, rfl⟩ := Prod.mk.inj (Option.some.inj ha)
  exact ⟨rfl, rfl⟩

lemma readReferenced_some (h : s.readReferenced b = true) :
    ∃ k rh, s.readHandles k = some rh ∧ rh.readEvents = some b := by
  obtain ⟨k, -, hk⟩ := List.any_eq_true.mp h
  obtain ⟨rh, hrh, hre⟩ := Option.any_eq_true _ _ |>.mp hk
  exact ⟨k, rh, hrh, of_decide_eq_true hre⟩

lemma act_unread (h : Regular s) (h' : Regular s') (hsep : Separated s)
    (hg : Disciplined s o out) (ha : s.act o = some (out, s')) (hopen : s'.writerOpen b = true) :
    s'.readReferenced b = false := by
  obtain ⟨x, hs, hb, hx, hu⟩ := writerOpen_iff.mp hopen
  by_contra hread
  obtain ⟨k, rh, hk, hre⟩ := readReferenced_some (Bool.not_eq_false _ ▸ hread)
  have hold : s.readReferenced b = false := by
    rcases act_writerOpen h h' hg.settled ha hb hx hu with ⟨y, hy, hstate, -, hin⟩ |
      ⟨st, rfl, rfl⟩
    · exact hsep.unread b (writerOpen_iff.mpr ⟨y, hs, hy, hstate, hin⟩)
    · obtain ⟨y, hy, -⟩ := granted_buffer ha hb
      obtain ⟨hnone, hreaped, -⟩ := grant_cases h.used hy ha
      exact hg.readers y hy hnone hreaped
  rcases act_reader ha hk with rfl | ⟨k₀, hk₀⟩ | ⟨b₀, st, y, rfl, hy, rfl⟩
  · cases hre
  · exact h.attached.not_read hold hk₀ hre
  · obtain rfl := Option.some.inj hre
    -- the reader has finalized the writer
    rcases act_writerOpen h h' hg.settled ha hb hx hu with ⟨z, hz, hstate, -⟩ | ⟨st', ho, -⟩
    · obtain rfl := Option.some.inj (hy.symm.trans hz)
      obtain ⟨-, rfl⟩ := getReadHandle_some hy ha
      exact getReadHandle_closed hstate hu
    · cases ho

lemma readReferenced_of (h : Attached s) (hk : s.readHandles k = some rh)
    (hre : rh.readEvents = some b) : s.readReferenced b = true := by
  by_contra hf
  exact h.not_read (Bool.not_eq_true _ ▸ hf) hk hre

/-- What is read under the handles that a writer finds closed is done. -/
lemma act_read (h : Regular s) (h' : Regular s') (hsep : Separated s)
    (hg : Disciplined s o out) (ha : s.act o = some (out, s')) (hp : s'.gpu.Pending p wk)
    (hs : wk.source = some a) (hb : s'.buffers b = some x) (hx : x.devicePtr = some a) :
    s'.writerOpen b = false := by
  by_contra hf
  have hopen : s'.writerOpen b = true := Bool.not_eq_false _ ▸ hf
  have hunread := act_unread h h' hsep hg ha hopen
  rcases act_pending h.orderly ha hp with hp | ⟨r, w, rfl, rfl, -⟩
  · obtain ⟨x', hs', hb', hx', hu⟩ := writerOpen_iff.mp hopen
    obtain rfl := Option.some.inj (hb.symm.trans hb')
    rcases act_writerOpen h h' hg.settled ha hb hx' hu with ⟨y, hy, hstate, hsame, hin⟩ |
      ⟨st, rfl, rfl⟩
    · have hclosed := hsep.read p wk a b y hp hs hy (hsame.devicePtr.symm.trans hx)
      cases hclosed.symm.trans (writerOpen_iff.mpr ⟨y, hs', hy, hstate, hin⟩)
    · obtain ⟨y, hy, hptr, -⟩ := granted_buffer ha hb
      obtain ⟨hnone, hreaped, -⟩ := grant_cases h.used hy ha
      have hclosed : s.readReferenced b = false := hg.readers y hy hnone hreaped
      have hdone := reads_done h.stocked h.attached h.guarded hy hreaped hclosed
        (hptr.symm.trans hx) (hsep.streamed p wk hp) hp.1 hs
      exact absurd hp.2 (Nat.not_le.mpr hdone)
  · obtain ⟨hr, -, -, rfl⟩ := launch_some ha
    obtain ⟨k, rh, b', y, hk, -, -, hre, hb', hy⟩ := launch_source h hr hs
    obtain rfl := h.stocked.holder_unique hb hb' hx hy
    cases hunread.symm.trans (readReferenced_of h'.attached hk hre)

lemma before_here {g g' : Gpu Stream Work} (h : g.Before p (g.here st)) (he : g.Extends g') :
    g'.Before p (g'.here st) := by
  have hle := he.length_le st
  obtain ⟨hs, hlt⟩ | ⟨i, hi, awaited, hw, hs, hlt⟩ := Device.before_extends h he
  · exact .inl ⟨hs, Nat.lt_of_lt_of_le hlt hle⟩
  · exact .inr ⟨i, Nat.lt_of_lt_of_le hi hle, awaited, hw, hs, hlt⟩

/-- A reader is behind the writes that its handle was opened after. -/
lemma act_behind (h : Regular s) (h' : Regular s') (hsep : Separated s)
    (hg : Disciplined s o out) (ha : s.act o = some (out, s')) (hp : s'.gpu.Pending p wk)
    (ht : wk.target = some a) (hk : s'.readHandles k = some rh) (hptr : rh.dataPtr = some a)
    (hne : rh.stream ≠ none) : s'.gpu.Before p (s'.gpu.here rh.stream) := by
  rcases act_pending h.orderly ha hp with hp | ⟨r, w, rfl, rfl, -⟩
  · rcases act_reader ha hk with rfl | ⟨k₀, hk₀⟩ | ⟨b, st, x, rfl, hb, rfl⟩
    · cases hptr
    · exact before_here (hsep.behind p wk a k₀ rh hp ht hk₀ hptr hne) (act_extends ha)
    · obtain ⟨hs, hx, hev, haw⟩ := (hsep.tracked p wk a hp ht).awaits b x hb hptr
      obtain ⟨ev, hev⟩ := Option.isSome_iff_exists.mp hev
      obtain ⟨rfl, -⟩ := getReadHandle_some hb ha
      rw [hx, hev] at ha
      obtain ⟨i, q, hq, hi, hstream, hlt⟩ :=
        reading_ordered h.stocked haw (hsep.streamed p wk hp) hne ha
      exact .inr ⟨i, hi, q, hq, hstream, hlt⟩
  · -- a new write excludes the reader
    obtain ⟨-, hw, rfl, rfl⟩ := launch_some ha
    obtain ⟨b, x, hs, -, hb, hx, hstate, hopen, -⟩ := launch_target h hw hg.handles.2 ht
    obtain ⟨b', y, hre, hb', hy⟩ := h'.attached.anchored k rh hk a hptr
    obtain rfl := h.stocked.holder_unique hb hb' hx hy
    have hunread := hsep.unread b (writerOpen_iff.mpr ⟨x, hs, hb, hstate, hopen⟩)
    cases hunread.symm.trans (readReferenced_of h.attached hk hre)

lemma act_separated (h : Regular s) (hsep : Separated s) (hg : Disciplined s o out)
    (ha : s.act o = some (out, s')) : Separated s' := by
  have h' := act_regular h hg ha
  refine ⟨?_, ?_, ?_, ?_, ?_, ?_⟩
  · intro p wk hp
    rcases act_pending h.orderly ha hp with hp | ⟨r, w, rfl, -⟩
    · exact hsep.streamed p wk hp
    · obtain ⟨-, -, rfl, -⟩ := launch_some ha
      exact hg.handles.1
  · intro p wk a hp ht
    rcases act_pending h.orderly ha hp with hp | ⟨r, w, rfl, rfl, hhere⟩
    · exact act_tracked h hg.settled ha (hsep.tracked p wk a hp ht)
    · rw [hhere]
      exact launch_tracked h hsep hg.handles ha ht
  · exact fun b x hs hb hx hu hptr => act_equipped h h' hsep hg ha hb hx hu hptr
  · exact fun b hopen => act_unread h h' hsep hg ha hopen
  · exact fun p wk a b x hp hs hb hx => act_read h h' hsep hg ha hp hs hb hx
  · exact fun p wk a k rh hp ht hk hptr hne => act_behind h h' hsep hg ha hp ht hk hptr hne

end Steps

/-- One of the works writes what the other one touches. -/
def Work.Conflicts (x y : Work) : Prop :=
  ∃ a, x.target = some a ∧ (y.source = some a ∨ y.target = some a) ∨
    y.target = some a ∧ (x.source = some a ∨ x.target = some a)

/-- A work that is launched waits for the works that it conflicts with. -/
lemma launch_before {r w : Option ℕ} (h : Regular s) (hsep : Separated s)
    (hg : UnderHandles s (.launch st r w)) (ha : s.act (.launch st r w) = some (out, s'))
    (hp : s.gpu.Pending p wk) (hc : wk.Conflicts (s.workOf r w)) :
    s.gpu.Before p (s.gpu.here st) := by
  obtain ⟨hr, hw, rfl, rfl⟩ := launch_some ha
  have hwrites : ∀ a, (s.workOf r w).target = some a → wk.target = some a →
      s.gpu.Before p (s.gpu.here st) := by
    intro a ht ht'
    obtain ⟨b, x, hs, -, hb, hx, hstate, hopen, hstream⟩ := launch_target h hw hg.2 ht
    obtain ⟨hs', hstate', -, haw⟩ := (hsep.tracked p wk a hp ht').awaits b x hb hx
    obtain rfl := Option.some.inj (hstate.symm.trans hstate')
    obtain ⟨-, hp'⟩ | ⟨hfin, -⟩ := haw.cases
    · have hsame : p.stream = st := hp'.symm.trans hstream
      exact .inl ⟨hsame, hsame ▸ haw.enqueued⟩
    · cases hfin.symm.trans hopen
  obtain ⟨a, ⟨ht, hs | ht'⟩ | ⟨ht, hs | ht'⟩⟩ := hc
  · obtain ⟨k, rh, -, -, hk, hstream, hptr, -⟩ := launch_source h hr hs
    exact hstream ▸ hsep.behind p wk a k rh hp ht hk hptr (hstream ▸ hg.1)
  · exact hwrites a ht' ht
  · obtain ⟨b, x, hs', -, hb, hx, hstate, hopen, -⟩ := launch_target h hw hg.2 ht
    have hclosed := hsep.read p wk a b x hp hs hb hx
    cases hclosed.symm.trans (writerOpen_iff.mpr ⟨x, hs', hb, hstate, hopen⟩)
  · exact hwrites a ht ht'

end RosidlBufferBackends.Buffers
