import RosidlBufferBackends.Buffers.DeferredRelease

/-! What a writer has enqueued until its handle is finalized is done before what a
reader enqueues behind its wait for the write event. -/

namespace RosidlBufferBackends.Buffers

open Streams Runs Process Inventory

variable {s s' : Process} {o : Operation} {out : Output} {b b' hs hs' ev : ℕ}
  {x y : CudaBuffer} {st : Stream} {p r : Point Stream}

namespace Process

def inUse (s : Process) (hs : ℕ) : Bool := decide ((s.states hs).state = .inUse)

def writerOpen (s : Process) (b : ℕ) : Bool :=
  (s.buffers b).any (fun buf => buf.handleState.any s.inUse)

end Process

/-- A buffer does not move while its writer is open, and gets its write event before
its first writer. -/
def WriterSettled (s : Process) (o : Operation) (_ : Output) : Prop :=
  match o with
  | .setWriteEvent b _ => (s.buffers b).all (fun buf => buf.handleState.isNone) = true
  | .moveConstruct b => s.writerOpen b = false
  | .moveAssign b b' => b = b' ∨ (s.writerOpen b = false ∧ s.writerOpen b' = false)
  | _ => True

/-- An open write handle is that of the buffer that it points into. -/
structure Bound (s : Process) (wh : WriteHandle) : Prop where
  lt : ∀ hs, wh.state = some hs → hs < s.nextState
  used : ∀ hs, wh.state = some hs → (s.states hs).state ≠ .unset
  points : ∀ hs, wh.state = some hs → (s.states hs).state = .inUse →
    (s.states hs).writeStream = wh.stream ∧
      ∃ b buf, wh.writeEventPtr = some b ∧ s.buffers b = some buf ∧ buf.handleState = some hs

structure Writers (s : Process) : Prop where
  lt : ∀ w wh, s.writeHandles w = some wh → w < s.nextWrite
  bound : ∀ w wh, s.writeHandles w = some wh → Bound s wh

/-- The write event of the buffer is recorded behind the point. -/
def Stamped (s : Process) (hs : ℕ) (p : Point Stream) : Prop :=
  ∀ b buf ev, s.buffers b = some buf → buf.handleState = some hs → buf.writeEvent = some ev →
    ∃ k, s.recorded ev = some ⟨p.stream, k⟩ ∧ p.position < k

/-- A write under the handle state `hs` will be stamped, or is. -/
structure Awaits (s : Process) (hs : ℕ) (p : Point Stream) : Prop where
  lt : hs < s.nextState
  enqueued : p.position < (s.gpu.queue p.stream).length
  cases : (s.states hs).state = .inUse ∧ (s.states hs).writeStream = p.stream ∨
    (s.states hs).state = .finalized ∧ (p.stream ≠ none → Stamped s hs p)

/-- The writer of the buffer is finalized. -/
def Closes (s : Process) (hs : ℕ) (s' : Process) : Prop :=
  ∃ b buf, s.buffers b = some buf ∧ buf.handleState = some hs ∧ s.inUse hs = true ∧
    s' = (s.recordWrite buf.writeEvent (s.states hs).writeStream).setState hs
      { state := .finalized, writeStream := none }

section Unique

lemma tokens_pos (hx : x.writeEvent = some ev) : 0 < x.tokens ev := by
  apply List.count_pos_iff.mpr
  simp [hx]

variable (h : Stocked s)

include h

lemma Stocked.state_unique (hb : s.buffers b = some x) (hb' : s.buffers b' = some y)
    (hx : x.handleState = some hs) (hy : y.handleState = some hs) : b = b' := by
  have hone : total s.nextBuffer s.buffers (CudaBuffer.owns hs) ≤ 1 :=
    (h.states hs).trans (by split_ifs <;> omega)
  apply unique_of_total_le_one hone (h.placed b x hb) (h.placed b' y hb')
  · simp [hb, CudaBuffer.owns, hx]
  · simp [hb', CudaBuffer.owns, hy]

lemma Stocked.state_lt (hb : s.buffers b = some x) (hx : x.handleState = some hs) :
    hs < s.nextState := by
  have hle := le_total (f := s.buffers) (w := CudaBuffer.owns hs) (h.placed b x hb)
  have hst := h.states hs
  rw [hb, Option.elim_some, CudaBuffer.owns, if_pos hx] at hle
  by_contra hlt
  rw [if_neg hlt] at hst
  unfold stock at hst
  omega

lemma Stocked.event_unique (hb : s.buffers b = some x) (hb' : s.buffers b' = some y)
    (hx : x.writeEvent = some ev) (hy : y.writeEvent = some ev) : b = b' := by
  have hone : s.stock (CudaBuffer.tokens ev) + s.queued (PendingWork.tokens ev) ≤ 1 :=
    (h.events ev).trans (by split_ifs <;> omega)
  have htotal : total s.nextBuffer s.buffers (CudaBuffer.tokens ev) ≤ 1 := by
    unfold stock at hone
    omega
  apply unique_of_total_le_one htotal (h.placed b x hb) (h.placed b' y hb')
  · rw [hb]
    exact tokens_pos hx
  · rw [hb']
    exact tokens_pos hy

lemma Stocked.event_lt (hb : s.buffers b = some x) (hx : x.writeEvent = some ev) :
    ev < s.nextEvent := by
  have hle := le_total (f := s.buffers) (w := CudaBuffer.tokens ev) (h.placed b x hb)
  have hpos := tokens_pos hx
  have hev := h.events ev
  rw [hb, Option.elim_some] at hle
  by_contra hlt
  rw [if_neg hlt] at hev
  unfold stock at hev
  omega

end Unique

section Closing

lemma recordWrite_eq (s : Process) (event : Option ℕ) (st : Stream) :
    s.recordWrite event st = { s with
      recorded := fun ev =>
        if event = some ev ∧ st ≠ none then some (s.gpu.here st) else s.recorded ev } := by
  unfold recordWrite
  split
  · simp
  · rename_i ev
    cases st with
    | none => simp [cudaIsStreamUsable]
    | some k =>
      simp only [cudaIsStreamUsable, Option.isSome_some, if_true, record]
      congr 1
      funext ev'
      by_cases hev : ev' = ev
      · subst hev
        simp
      · simp [Function.update_of_ne hev, Ne.symm hev]

lemma inUse_iff : s.inUse hs = true ↔ (s.states hs).state = .inUse := decide_eq_true_iff

lemma finalizeOpenWrite_eq (s : Process) (buf : CudaBuffer) :
    s.finalizeOpenWrite buf = s.finalizeWriteHandle buf := by
  unfold finalizeOpenWrite finalizeWriteHandle
  split
  · rfl
  · unfold finalizeWriteHandleLocked
    split_ifs <;> rfl

lemma finalizeWriteHandle_closes (hb : s.buffers b = some x)
    (hy : y.handleState = x.handleState) (he : y.writeEvent = x.writeEvent) :
    s.finalizeWriteHandle y = s ∧ s.writerOpen b = false ∨
      ∃ hs, x.handleState = some hs ∧ Closes s hs (s.finalizeWriteHandle y) := by
  unfold finalizeWriteHandle
  cases hx : x.handleState with
  | none =>
    rw [hx] at hy
    simp only [hy]
    exact .inl ⟨trivial, by simp [writerOpen, hb, hx]⟩
  | some hs =>
    rw [hx] at hy
    simp only [hy]
    unfold finalizeWriteHandleLocked
    split_ifs with hu
    · exact .inr ⟨hs, rfl, b, x, hb, hx, inUse_iff.mpr hu, by rw [he]⟩
    · exact .inl ⟨rfl, by simp [writerOpen, hb, hx, inUse, hu]⟩

lemma releaseWrite_closes {w : ℕ} {wh : WriteHandle} (h : Writers s)
    (hw : s.writeHandles w = some wh) :
    s.releaseWrite wh = s ∨ ∃ hs, Closes s hs (s.releaseWrite wh) := by
  have hb := h.bound w wh hw
  unfold releaseWrite
  split
  · exact .inl rfl
  · rename_i hs hstate
    split_ifs with hfin
    · exact .inl rfl
    · have hu : (s.states hs).state = .inUse := by
        have hne := hb.used hs hstate
        cases hx : (s.states hs).state with
        | unset => exact absurd hx hne
        | inUse => rfl
        | finalized => exact absurd hx hfin
      obtain ⟨hst, b, buf, hptr, hbuf, hhs⟩ := hb.points hs hstate hu
      refine .inr ⟨hs, b, buf, hbuf, hhs, inUse_iff.mpr hu, ?_⟩
      have hev : s.writeEventAt wh = buf.writeEvent := by
        simp [writeEventAt, hptr, hbuf]
      have hws : s.writeStreamOf wh hs = (s.states hs).writeStream := by
        unfold writeStreamOf
        rw [← hst]
        split_ifs <;> rfl
      rw [hev, hws]

lemma Closes.buffers (h : Closes s hs s') : s'.buffers = s.buffers := by
  obtain ⟨b, buf, _, _, _, rfl⟩ := h
  rw [recordWrite_eq]
  rfl

lemma Closes.finalized (h : Closes s hs s') : (s'.states hs).state ≠ .inUse := by
  obtain ⟨b, buf, _, _, _, rfl⟩ := h
  simp [setState]

lemma Closes.bound (h : Closes s hs s') {wh : WriteHandle} (hw : Bound s wh) : Bound s' wh := by
  obtain ⟨b, buf, _, _, _, rfl⟩ := h
  rw [recordWrite_eq]
  refine ⟨hw.lt, ?_, ?_⟩
  · intro hs' hstate
    by_cases hx : hs' = hs
    · subst hx
      simp [setState]
    · simpa [setState, Function.update_of_ne hx] using hw.used hs' hstate
  · intro hs' hstate hu
    by_cases hx : hs' = hs
    · subst hx
      simp [setState] at hu
    · simp only [setState, Function.update_of_ne hx] at hu ⊢
      exact hw.points hs' hstate hu

lemma Closes.awaits (hst : Stocked s) (hc : Closes s hs s') (h : Awaits s hs' p) :
    Awaits s' hs' p := by
  obtain ⟨b, x, hb, hx, hu, rfl⟩ := hc
  rw [recordWrite_eq]
  refine ⟨h.lt, h.enqueued, ?_⟩
  by_cases he : hs' = hs
  · subst he
    right
    refine ⟨by simp [setState], ?_⟩
    intro hne b' buf ev hb' hhs hev
    obtain rfl := hst.state_unique hb hb' hx hhs
    obtain rfl := Option.some.inj (hb.symm.trans hb')
    have hstream : (s.states hs').writeStream = p.stream := by
      rcases h.cases with ⟨_, hstream⟩ | ⟨hfin, _⟩
      · exact hstream
      · rw [inUse_iff.mp hu] at hfin
        exact nomatch hfin
    refine ⟨(s.gpu.queue p.stream).length, ?_, h.enqueued⟩
    simp only [setState]
    rw [hstream, if_pos ⟨hev, hne⟩]
    rfl
  · have hcases := h.cases
    simp only [setState, Function.update_of_ne he]
    refine hcases.imp_right (And.imp_right fun hstamp hne => ?_)
    intro b' buf ev hb' hhs hev
    obtain ⟨k, hrec, hk⟩ := hstamp hne b' buf ev hb' hhs hev
    refine ⟨k, ?_, hk⟩
    have hother : ¬ (x.writeEvent = some ev ∧ (s.states hs).writeStream ≠ none) := by
      rintro ⟨hxe, _⟩
      obtain rfl := hst.event_unique hb hb' hxe hev
      obtain rfl := Option.some.inj (hb.symm.trans hb')
      exact he (Option.some.inj (hhs.symm.trans hx))
    simp only
    rw [if_neg hother]
    exact hrec

lemma Closes.writers (hc : Closes s hs s') (h : Writers s) : Writers s' := by
  have hw : s'.writeHandles = s.writeHandles ∧ s'.nextWrite = s.nextWrite := by
    obtain ⟨b, buf, _, _, _, rfl⟩ := hc
    rw [recordWrite_eq]
    exact ⟨rfl, rfl⟩
  constructor
  · intro w wh hwh
    rw [hw.2]
    exact h.lt w wh (hw.1 ▸ hwh)
  · intro w wh hwh
    exact hc.bound (h.bound w wh (hw.1 ▸ hwh))

end Closing

section Frames

lemma Awaits.frame (h : Awaits s hs p) (hn : s.nextState ≤ s'.nextState)
    (hg : s.gpu.Extends s'.gpu) (ht : s'.states hs = s.states hs)
    (hb : ∀ b buf ev, s'.buffers b = some buf → buf.handleState = some hs →
      buf.writeEvent = some ev → s'.recorded ev = s.recorded ev ∧
        ∃ b₀ x, s.buffers b₀ = some x ∧ x.handleState = some hs ∧ x.writeEvent = some ev) :
    Awaits s' hs p := by
  refine ⟨h.lt.trans_le hn, h.enqueued.trans_le (hg.length_le _), ?_⟩
  rw [ht]
  refine h.cases.imp_right (And.imp_right fun hstamp hne => ?_)
  intro b buf ev hbuf hhs hev
  obtain ⟨hrec, b₀, x, hx, hxs, hxe⟩ := hb b buf ev hbuf hhs hev
  obtain ⟨k, hk, hlt⟩ := hstamp hne b₀ x ev hx hxs hxe
  exact ⟨k, hrec.trans hk, hlt⟩

lemma Awaits.replace (h : Awaits s hs p) (hn : s.nextState ≤ s'.nextState)
    (hg : s.gpu.Extends s'.gpu) (ht : s'.states hs = s.states hs)
    (hrec : ∀ b x ev, s.buffers b = some x → x.writeEvent = some ev →
      s'.recorded ev = s.recorded ev)
    (hu : s'.buffers = Function.update s.buffers b (some y)) (hb : s.buffers b = some x)
    (hy : y.handleState = some hs → x.handleState = some hs ∧ y.writeEvent = x.writeEvent) :
    Awaits s' hs p := by
  apply h.frame hn hg ht
  intro b₀ buf ev hbuf hhs hev
  rw [hu] at hbuf
  rcases update_some hbuf with ⟨_, he⟩ | ⟨_, h₀⟩
  · obtain rfl := Option.some.inj he
    obtain ⟨hx, hxe⟩ := hy hhs
    rw [hxe] at hev
    exact ⟨hrec b x ev hb hev, b, x, hb, hx, hev⟩
  · exact ⟨hrec b₀ buf ev h₀ hev, b₀, buf, h₀, hhs, hev⟩

lemma Awaits.moved (h : Awaits s hs p) (hn : s.nextState ≤ s'.nextState)
    (hg : s.gpu.Extends s'.gpu) (ht : s'.states hs = s.states hs) (hr : s'.recorded = s.recorded)
    (hb : ∀ b buf, s'.buffers b = some buf → buf.handleState = some hs →
      ∃ b₀, s.buffers b₀ = some buf) : Awaits s' hs p := by
  apply h.frame hn hg ht
  intro b buf ev hbuf hhs hev
  obtain ⟨b₀, h₀⟩ := hb b buf hbuf hhs
  exact ⟨congrFun hr ev, b₀, buf, h₀, hhs, hev⟩

lemma Awaits.same (h : Awaits s hs p) (hn : s.nextState ≤ s'.nextState)
    (hg : s.gpu.Extends s'.gpu) (ht : s'.states hs = s.states hs) (hr : s'.recorded = s.recorded)
    (hb : s'.buffers = s.buffers) : Awaits s' hs p :=
  h.moved hn hg ht hr fun b _ hbuf _ => ⟨b, hb ▸ hbuf⟩

lemma Bound.frame {wh : WriteHandle} (h : Bound s wh) (hn : s.nextState ≤ s'.nextState)
    (ht : ∀ hs, wh.state = some hs → s'.states hs = s.states hs)
    (hb : ∀ hs b buf, wh.writeEventPtr = some b → s.buffers b = some buf →
      buf.handleState = some hs → s.inUse hs = true →
      ∃ buf', s'.buffers b = some buf' ∧ buf'.handleState = some hs) : Bound s' wh := by
  constructor
  · intro hs hstate
    exact (h.lt hs hstate).trans_le hn
  · intro hs hstate
    rw [ht hs hstate]
    exact h.used hs hstate
  · intro hs hstate hu
    rw [ht hs hstate] at hu ⊢
    obtain ⟨hst, b, buf, hptr, hbuf, hhs⟩ := h.points hs hstate hu
    obtain ⟨buf', hbuf', hhs'⟩ := hb hs b buf hptr hbuf hhs (inUse_iff.mpr hu)
    exact ⟨hst, b, buf', hptr, hbuf', hhs'⟩

lemma Writers.frame (h : Writers s) (hw : s'.writeHandles = s.writeHandles)
    (hn : s'.nextWrite = s.nextWrite) (hs : s.nextState ≤ s'.nextState)
    (ht : ∀ hs < s.nextState, s'.states hs = s.states hs)
    (hb : ∀ w wh hs b buf, s.writeHandles w = some wh → wh.writeEventPtr = some b →
      s.buffers b = some buf → buf.handleState = some hs → s.inUse hs = true →
      ∃ buf', s'.buffers b = some buf' ∧ buf'.handleState = some hs) : Writers s' := by
  constructor
  · intro w wh hwh
    rw [hn]
    exact h.lt w wh (hw ▸ hwh)
  · intro w wh hwh
    rw [hw] at hwh
    have hold := h.bound w wh hwh
    refine hold.frame hs ?_ ?_
    · exact fun hs hstate => ht hs (hold.lt hs hstate)
    · exact fun hs b buf => hb w wh hs b buf hwh

lemma Writers.replace (h : Writers s) (hw : s'.writeHandles = s.writeHandles)
    (hn : s'.nextWrite = s.nextWrite) (hs : s.nextState ≤ s'.nextState)
    (ht : ∀ hs < s.nextState, s'.states hs = s.states hs)
    (hu : s'.buffers = Function.update s.buffers b (some y)) (hb : s.buffers b = some x)
    (hy : ∀ hs, x.handleState = some hs → y.handleState = some hs) : Writers s' := by
  apply h.frame hw hn hs ht
  intro w wh hs b₀ buf _ _ h₀ hhs _
  by_cases hx : b₀ = b
  · subst hx
    obtain rfl := Option.some.inj (hb.symm.trans h₀)
    exact ⟨y, by rw [hu, Function.update_self], hy hs hhs⟩
  · exact ⟨buf, by rw [hu, Function.update_of_ne hx, h₀], hhs⟩

lemma Writers.same (h : Writers s) (hw : s'.writeHandles = s.writeHandles)
    (hn : s'.nextWrite = s.nextWrite) (hs : s'.nextState = s.nextState)
    (ht : s'.states = s.states) (hb : s'.buffers = s.buffers) : Writers s' :=
  h.frame hw hn hs.ge (fun hs _ => congrFun ht hs)
    fun _ _ _ _ buf _ _ hbuf hhs _ => ⟨buf, hb ▸ hbuf, hhs⟩

lemma Writers.not_write (h : Writers s) (hf : s.writeReferenced b = false) {w : ℕ}
    {wh : WriteHandle} (hw : s.writeHandles w = some wh) : wh.writeEventPtr ≠ some b := by
  intro hptr
  have hany : s.writeReferenced b = true :=
    List.any_eq_true.mpr ⟨w, List.mem_range.mpr (h.lt w wh hw), by simp [hw, hptr]⟩
  rw [hf] at hany
  exact nomatch hany

lemma not_open (hf : s.writerOpen b = false) (hb : s.buffers b = some x)
    (hx : x.handleState = some hs) : s.inUse hs = false := by
  simpa [writerOpen, hb, hx] using hf

lemma Writers.handles (h : Writers s) {writeHandles : ℕ → Option WriteHandle} {nextWrite : ℕ}
    (hn : s.nextWrite ≤ nextWrite)
    (hh : ∀ k wh, writeHandles k = some wh →
      s.writeHandles k = some wh ∨ (k < nextWrite ∧ Bound s wh)) :
    Writers { s with writeHandles := writeHandles, nextWrite := nextWrite } := by
  constructor
  · intro k wh hk
    rcases hh k wh hk with hk | ⟨hlt, _⟩
    · exact (h.lt k wh hk).trans_le hn
    · exact hlt
  · intro k wh hk
    rcases hh k wh hk with hk | ⟨_, hb⟩
    · have hold := h.bound k wh hk
      exact ⟨hold.lt, hold.used, hold.points⟩
    · exact ⟨hb.lt, hb.used, hb.points⟩

lemma bound_empty (s : Process) : Bound s {} := ⟨nofun, nofun, nofun⟩

end Frames

section Acts

lemma act_nextState (ha : s.act o = some (out, s')) : s.nextState ≤ s'.nextState := by
  cases act_cases ha with
  | @destroy b buf _ _ =>
    obtain ⟨queue, deleted, he⟩ := destroy_frame s b buf
    rw [he]
  | @getReadHandle b buf st _ =>
    obtain ⟨gpu, recorded, states, he, -⟩ := getReadHandle_frame s b buf st
    rw [he]
  | grantedFirst _ _ _ => exact Nat.le_succ _
  | @finalizeWriteHandle b buf _ =>
    obtain ⟨recorded, states, he, -⟩ := finalizeWriteHandle_frame s buf
    rw [he]
  | @assignRead _ _ rh _ _ _ _ | @closeRead _ rh _ =>
    rcases releaseRead_cases s rh with ⟨he, -⟩ | ⟨_, _, -, -, he⟩
    · rw [he]
      exact le_rfl
    · rw [he]
      exact le_rfl
  | @assignWrite _ _ wh _ _ _ _ | @closeWrite _ wh _ =>
    obtain ⟨recorded, states, he, -⟩ := releaseWrite_frame s wh
    rw [he]
    exact le_rfl
  | recycle _ _ => rw [delete_frame]
  | _ => exact le_rfl

lemma finalize_awaits (hst : Stocked s) (hb : s.buffers b = some x)
    (hy : y.handleState = x.handleState) (he : y.writeEvent = x.writeEvent)
    (h : Awaits s hs p) : Awaits (s.finalizeWriteHandle y) hs p := by
  rcases finalizeWriteHandle_closes hb hy he with ⟨heq, _⟩ | ⟨hs', _, hc⟩
  · rwa [heq]
  · exact hc.awaits hst h

lemma finalize_writers (hb : s.buffers b = some x) (hy : y.handleState = x.handleState)
    (he : y.writeEvent = x.writeEvent) (h : Writers s) : Writers (s.finalizeWriteHandle y) := by
  rcases finalizeWriteHandle_closes hb hy he with ⟨heq, _⟩ | ⟨hs', _, hc⟩
  · rwa [heq]
  · exact hc.writers h

lemma reap_awaits (hb : s.buffers b = some x) (h : Awaits s hs p) :
    Awaits (s.reapCompletedReadEvents b x) hs p :=
  h.replace le_rfl (.refl _) rfl (fun _ _ _ _ _ => rfl) rfl hb fun hy => ⟨hy, rfl⟩

lemma reap_writers (hb : s.buffers b = some x) (h : Writers s) :
    Writers (s.reapCompletedReadEvents b x) :=
  h.replace rfl rfl le_rfl (fun _ _ => rfl) rfl hb fun _ hx => hx

/-- `get_read_handle` up to the constructor of the handle. -/
def readyToRead (s : Process) (b : ℕ) (x : CudaBuffer) : Process :=
  (s.reapCompletedReadEvents b x).finalizeWriteHandle x

lemma getReadHandle_eq (s : Process) (b : ℕ) (x : CudaBuffer) (st : Stream) :
    s.getReadHandle b x st = ((readyToRead s b x).waitForWrite x st).addRead
      { dataPtr := x.devicePtr, readEvents := some b, stream := st } := by
  rw [getReadHandle, finalizeOpenWrite_eq, readyToRead]

lemma readyToRead_awaits (hst : Stocked s) (hb : s.buffers b = some x) (h : Awaits s hs p) :
    Awaits (readyToRead s b x) hs p :=
  finalize_awaits (hst.reapCompletedReadEvents hb) (reaped_buffer s b x) rfl rfl (reap_awaits hb h)

lemma readyToRead_writers (hb : s.buffers b = some x) (h : Writers s) :
    Writers (readyToRead s b x) :=
  finalize_writers (reaped_buffer s b x) rfl rfl (reap_writers hb h)

lemma releaseRead_awaits (hst : Stocked s) (rh : ReadHandle) (h : Awaits s hs p) :
    Awaits (s.releaseRead rh) hs p := by
  rcases releaseRead_cases s rh with ⟨he, _⟩ | ⟨b, x, _, hb, he⟩
  · rwa [he]
  · rw [he]
    refine h.replace le_rfl (.refl _) rfl ?_ rfl hb fun hy => ⟨hy, rfl⟩
    intro b₀ x₀ ev h₀ hev
    exact Function.update_of_ne (hst.event_lt h₀ hev).ne _ _

lemma releaseRead_writers (rh : ReadHandle) (h : Writers s) : Writers (s.releaseRead rh) := by
  rcases releaseRead_cases s rh with ⟨he, _⟩ | ⟨b, x, _, hb, he⟩
  · rwa [he]
  · rw [he]
    exact h.replace rfl rfl le_rfl (fun _ _ => rfl) rfl hb fun _ hx => hx

lemma releaseWrite_awaits (hst : Stocked s) (hw : Writers s) {k : ℕ} {wh : WriteHandle}
    (hk : s.writeHandles k = some wh) (h : Awaits s hs p) : Awaits (s.releaseWrite wh) hs p := by
  rcases releaseWrite_closes hw hk with he | ⟨hs', hc⟩
  · rwa [he]
  · exact hc.awaits hst h

lemma releaseWrite_writers {k : ℕ} {wh : WriteHandle} (hk : s.writeHandles k = some wh)
    (h : Writers s) : Writers (s.releaseWrite wh) := by
  rcases releaseWrite_closes h hk with he | ⟨hs', hc⟩
  · rwa [he]
  · exact hc.writers h

/-- A handle is granted under a state that no write was made under. -/
lemma Awaits.granted (h : Awaits s hs p) {hs₀ : ℕ} {z : HandleState} (hne : hs ≠ hs₀)
    {writeHandles : ℕ → Option WriteHandle} {nextWrite : ℕ} :
    Awaits { s.setState hs₀ z with writeHandles := writeHandles, nextWrite := nextWrite } hs p :=
  h.same le_rfl (.refl _) (Function.update_of_ne hne _ _) rfl rfl

lemma act_awaits (hst : Stocked s) (hw : Writers s) (hg : WriterSettled s o out)
    (ha : s.act o = some (out, s')) (h : Awaits s hs p) : Awaits s' hs p := by
  cases act_cases ha with
  | unchanged impls => exact h.same le_rfl (.refl _) rfl rfl rfl
  | constructDefault =>
    refine h.moved le_rfl (.refl _) rfl rfl ?_
    intro b buf hb hhs
    rcases update_some hb with ⟨_, he⟩ | ⟨_, h₀⟩
    · obtain rfl := Option.some.inj he
      exact nomatch hhs
    · exact ⟨b, h₀⟩
  | construct size =>
    refine h.moved le_rfl (.refl _) rfl rfl ?_
    intro b buf hb hhs
    rcases update_some hb with ⟨_, he⟩ | ⟨_, h₀⟩
    · obtain rfl := Option.some.inj he
      exact nomatch hhs
    · exact ⟨b, h₀⟩
  | @setWriteEvent b owns x hb =>
    have hnone : x.handleState = none := by
      have hall : (s.buffers b).all (fun buf => buf.handleState.isNone) = true := hg
      simpa [hb] using hall
    refine h.replace le_rfl (.refl _) rfl (fun _ _ _ _ _ => rfl) rfl hb ?_
    intro hy
    exact absurd (hnone.symm.trans hy) nofun
  | @moveConstruct b x hb =>
    refine h.moved le_rfl (.refl _) rfl rfl ?_
    intro b₀ buf h₀ hhs
    rcases update_some h₀ with ⟨_, he⟩ | ⟨_, h₁⟩
    · exact ⟨b, hb.trans he⟩
    · rcases update_some h₁ with ⟨_, he⟩ | ⟨_, h₂⟩
      · obtain rfl := Option.some.inj he
        exact nomatch hhs
      · exact ⟨b₀, h₂⟩
  | @moveAssign b b' x y hb hb' hne =>
    refine h.moved le_rfl (.refl _) rfl rfl ?_
    intro b₀ buf h₀ _
    rcases update_some h₀ with ⟨_, he⟩ | ⟨_, h₁⟩
    · exact ⟨b, hb.trans he⟩
    · rcases update_some h₁ with ⟨_, he⟩ | ⟨_, h₂⟩
      · exact ⟨b', hb'.trans he⟩
      · exact ⟨b₀, h₂⟩
  | @destroy b x hb _ =>
    obtain ⟨queue, deleted, he⟩ := destroy_frame s b x
    rw [he]
    refine h.moved le_rfl (.refl _) rfl rfl ?_
    intro b₀ buf h₀ _
    rcases update_some h₀ with ⟨_, he⟩ | ⟨_, h₁⟩
    · exact nomatch he
    · exact ⟨b₀, h₁⟩
  | @getReadHandle b x st hb =>
    rw [getReadHandle_eq]
    have hready := readyToRead_awaits hst hb h
    obtain ⟨gpu, he, hgpu⟩ := waitForWrite_frame (readyToRead s b x) x st
    rw [he]
    refine hready.same le_rfl ?_ rfl rfl rfl
    rcases hgpu with hgpu | ⟨p, hgpu⟩
    · rw [hgpu]
      exact .refl _
    · rw [hgpu]
      exact Gpu.enqueue_extends _ _ _
  | refused hb => exact reap_awaits hb h
  | @granted b hs₀ x st hb _ _ hunset =>
    apply (reap_awaits hb h).granted
    rintro rfl
    rcases h.cases with ⟨hu, _⟩ | ⟨hfin, _⟩
    · exact absurd (hunset.symm.trans hu) nofun
    · exact absurd (hunset.symm.trans hfin) nofun
  | @grantedFirst b x st hb _ hnone =>
    have hmade : Awaits ((s.reapCompletedReadEvents b x).makeHandleState b (s.pending x)) hs p := by
      refine (reap_awaits hb h).replace (Nat.le_succ _) (.refl _) rfl (fun _ _ _ _ _ => rfl) rfl
        (reaped_buffer s b x) ?_
      intro hy
      exact absurd (Option.some.inj hy) h.lt.ne'
    exact hmade.granted h.lt.ne
  | finalizeWriteHandle hb => exact finalize_awaits hst hb rfl rfl h
  | launch _ _ => exact h.same le_rfl (Gpu.enqueue_extends _ _ _) rfl rfl rfl
  | moveRead _ => exact h.same le_rfl (.refl _) rfl rfl rfl
  | assignRead _ _ _ =>
    exact (releaseRead_awaits hst _ h).same le_rfl (.refl _) rfl rfl rfl
  | closeRead _ => exact (releaseRead_awaits hst _ h).same le_rfl (.refl _) rfl rfl rfl
  | moveWrite _ => exact h.same le_rfl (.refl _) rfl rfl rfl
  | assignWrite hk _ _ =>
    exact (releaseWrite_awaits hst hw hk h).same le_rfl (.refl _) rfl rfl rfl
  | closeWrite hk => exact (releaseWrite_awaits hst hw hk h).same le_rfl (.refl _) rfl rfl rfl
  | finish hf => exact h.same le_rfl (Gpu.finish_extends hf) rfl rfl rfl
  | recycle _ _ =>
    rw [delete_frame]
    exact h.same le_rfl (.refl _) rfl rfl rfl

/-- No open write handle points into a buffer that changes. -/
lemma Writers.unpointed (h : Writers s) (hs : s.nextState ≤ s'.nextState)
    (hw : s'.writeHandles = s.writeHandles) (hn : s'.nextWrite = s.nextWrite)
    (ht : s'.states = s.states)
    (hb : ∀ b buf, s.buffers b = some buf → s.writerOpen b = true →
      s.writeReferenced b = true → s'.buffers b = some buf) : Writers s' := by
  refine h.frame hw hn hs (fun hs _ => congrFun ht hs) ?_
  intro w wh hs b buf hwh hptr hbuf hhs hu
  refine ⟨buf, hb b buf hbuf ?_ ?_, hhs⟩
  · simp [writerOpen, hbuf, hhs, hu]
  · by_contra hf
    exact h.not_write (Bool.not_eq_true _ ▸ hf) hwh hptr

/-- The writer whose handle is granted has a state that no other handle has. -/
lemma Writers.granted (h : Writers s) (hb : s.buffers b = some x) (hx : x.handleState = some hs)
    (hlt : hs < s.nextState) (hold : ∀ w wh, s.writeHandles w = some wh → wh.state ≠ some hs) :
    Writers (s.grantWriteHandle b y st hs) := by
  constructor
  · intro w wh hw
    rcases update_some hw with ⟨rfl, _⟩ | ⟨_, hw⟩
    · exact Nat.lt_succ_self _
    · exact (h.lt w wh hw).trans (Nat.lt_succ_self _)
  · intro w wh hw
    rcases update_some hw with ⟨_, he⟩ | ⟨_, hw⟩
    · obtain rfl := Option.some.inj he
      refine ⟨?_, ?_, ?_⟩
      · rintro hs' ⟨rfl⟩
        exact hlt
      · rintro hs' ⟨rfl⟩
        simp [grantWriteHandle, addWrite, setWrite, setState]
      · rintro hs' ⟨rfl⟩ _
        exact ⟨by simp [grantWriteHandle, addWrite, setWrite, setState], b, x, rfl, hb, hx⟩
    · refine (h.bound w wh hw).frame le_rfl ?_ fun _ b' buf _ hbuf hhs _ => ⟨buf, hbuf, hhs⟩
      intro hs' hstate
      apply Function.update_of_ne
      rintro rfl
      exact hold w wh hw hstate

lemma act_writers (hst : Stocked s) (h : Writers s) (hg : WriterSettled s o out)
    (ha : s.act o = some (out, s')) : Writers s' := by
  have hfresh : ∀ b buf, s.buffers b = some buf → b ≠ s.nextBuffer :=
    fun b buf hb => (hst.placed b buf hb).ne
  cases act_cases ha with
  | unchanged impls => exact h.same rfl rfl rfl rfl rfl
  | constructDefault =>
    refine h.unpointed le_rfl rfl rfl rfl fun b buf hb _ _ => ?_
    exact (Function.update_of_ne (hfresh b buf hb) _ _).trans hb
  | construct size =>
    refine h.unpointed le_rfl rfl rfl rfl fun b buf hb _ _ => ?_
    exact (Function.update_of_ne (hfresh b buf hb) _ _).trans hb
  | setWriteEvent hb =>
    exact h.replace rfl rfl le_rfl (fun _ _ => rfl) rfl hb fun _ hx => hx
  | @moveConstruct b x hb =>
    refine h.unpointed le_rfl rfl rfl rfl fun b₀ buf h₀ hopen _ => ?_
    have hne : b₀ ≠ b := by
      rintro rfl
      exact nomatch hopen.symm.trans hg
    exact (Function.update_of_ne (hfresh b₀ buf h₀) _ _).trans
      ((Function.update_of_ne hne _ _).trans h₀)
  | @moveAssign b b' x y hb hb' hne =>
    obtain ⟨hclosed, hclosed'⟩ := hg.resolve_left hne
    refine h.unpointed le_rfl rfl rfl rfl fun b₀ buf h₀ hopen _ => ?_
    have hne₀ : b₀ ≠ b := by
      rintro rfl
      exact nomatch hopen.symm.trans hclosed
    have hne' : b₀ ≠ b' := by
      rintro rfl
      exact nomatch hopen.symm.trans hclosed'
    exact (Function.update_of_ne hne' _ _).trans ((Function.update_of_ne hne₀ _ _).trans h₀)
  | @destroy b x hb href =>
    obtain ⟨queue, deleted, he⟩ := destroy_frame s b x
    rw [he]
    refine h.unpointed le_rfl rfl rfl rfl fun b₀ buf h₀ _ hpointed => ?_
    have hne : b₀ ≠ b := by
      rintro rfl
      exact nomatch ((Bool.or_eq_false_iff.mp href).2).symm.trans hpointed
    exact (Function.update_of_ne hne _ _).trans h₀
  | @getReadHandle b x st hb =>
    rw [getReadHandle_eq]
    have hready := readyToRead_writers hb h
    obtain ⟨gpu, he, _⟩ := waitForWrite_frame (readyToRead s b x) x st
    rw [he]
    exact hready.same rfl rfl rfl rfl rfl
  | refused hb => exact reap_writers hb h
  | @granted b hs x st hb _ hhs hunset =>
    refine (reap_writers hb h).granted (reaped_buffer s b x) hhs (hst.state_lt hb hhs) ?_
    intro w wh hw hstate
    exact (h.bound w wh hw).used hs hstate hunset
  | @grantedFirst b x st hb _ hnone =>
    have hmade : Writers ((s.reapCompletedReadEvents b x).makeHandleState b (s.pending x)) := by
      refine (reap_writers hb h).replace rfl rfl (Nat.le_succ _) (fun _ _ => rfl) rfl
        (reaped_buffer s b x) ?_
      intro hs hx
      exact absurd (hnone.symm.trans hx) nofun
    refine hmade.granted (Function.update_self ..) rfl (Nat.lt_succ_self _) ?_
    intro w wh hw hstate
    exact absurd ((h.bound w wh hw).lt _ hstate) (lt_irrefl _)
  | finalizeWriteHandle hb => exact finalize_writers hb rfl rfl h
  | launch _ _ => exact h.same rfl rfl rfl rfl rfl
  | moveRead _ => exact h.same rfl rfl rfl rfl rfl
  | assignRead _ _ _ => exact (releaseRead_writers _ h).same rfl rfl rfl rfl rfl
  | closeRead _ => exact (releaseRead_writers _ h).same rfl rfl rfl rfl rfl
  | @moveWrite k wh hk =>
    refine h.handles (Nat.le_succ _) fun k' wh' hk' => ?_
    rcases update_some hk' with ⟨rfl, he⟩ | ⟨_, hk'⟩
    · obtain rfl := Option.some.inj he
      exact .inr ⟨Nat.lt_succ_self _, h.bound k wh hk⟩
    · rcases update_some hk' with ⟨rfl, he⟩ | ⟨_, hk'⟩
      · obtain rfl := Option.some.inj he
        exact .inr ⟨(h.lt k' wh hk).trans (Nat.lt_succ_self _), bound_empty s⟩
      · exact .inl hk'
  | @assignWrite k k' wh wh' hk hk' hne =>
    have hreleased := releaseWrite_writers hk h
    obtain ⟨recorded, states, he, _⟩ := releaseWrite_frame s wh
    rw [he] at hreleased ⊢
    refine hreleased.handles le_rfl fun j wh₀ hj => ?_
    rcases update_some hj with ⟨rfl, he₀⟩ | ⟨_, hj⟩
    · obtain rfl := Option.some.inj he₀
      exact .inr ⟨h.lt j wh' hk', bound_empty _⟩
    · rcases update_some hj with ⟨rfl, he₀⟩ | ⟨_, hj⟩
      · obtain rfl := Option.some.inj he₀
        exact .inr ⟨h.lt j wh hk, hreleased.bound k' wh' hk'⟩
      · exact .inl hj
  | @closeWrite k wh hk =>
    have hreleased := releaseWrite_writers hk h
    obtain ⟨recorded, states, he, _⟩ := releaseWrite_frame s wh
    rw [he] at hreleased ⊢
    refine hreleased.handles le_rfl fun j wh₀ hj => ?_
    rcases update_some hj with ⟨_, he₀⟩ | ⟨_, hj⟩
    · exact nomatch he₀
    · exact .inl hj
  | finish _ => exact h.same rfl rfl rfl rfl rfl
  | recycle _ _ =>
    rw [delete_frame]
    exact h.same rfl rfl rfl rfl rfl

end Acts

section Runs

variable {tr tr' : List (Operation × Output)} {u : Process} {writer event : Option ℕ}

lemma run_extends (hr : Run act s tr u) : s.gpu.Extends u.gpu := by
  apply hr.invariant (P := fun t => s.gpu.Extends t.gpu)
  · exact .refl _
  · exact fun _ _ _ _ h ha => h.trans (act_extends ha)

lemma run_orderly (hr : Run act {} tr s) : s.gpu.Orderly := by
  apply hr.invariant
  · exact ⟨fun _ => le_rfl, nofun⟩
  · exact fun _ _ _ _ h ha => act_orderly h ha

lemma run_writers (hr : Run act {} tr s) (hg : Every act WriterSettled {} tr) :
    Stocked s ∧ Writers s := by
  refine hr.induction_every (P := fun _ s => Stocked s ∧ Writers s) hg
    ⟨stocked_initial, nofun, nofun⟩ ?_
  rintro _ s o out s' _ ⟨hst, hw⟩ hgood ha
  exact ⟨act_stocked hst ha, act_writers hst hw hgood ha⟩

lemma run_awaits (hst : Stocked s) (hw : Writers s) (h : Awaits s hs p) (hr : Run act s tr u)
    (hg : Every act WriterSettled s tr) : Awaits u hs p := by
  refine (hr.induction_every (P := fun _ t => Stocked t ∧ Writers t ∧ Awaits t hs p) hg
    ⟨hst, hw, h⟩ ?_).2.2
  rintro _ t o out t' _ ⟨hst, hw, h⟩ hgood ha
  exact ⟨act_stocked hst ha, act_writers hst hw hgood ha, act_awaits hst hw hgood ha h⟩

lemma act_launched (ha : s.act o = some (.launched p writer, s')) :
    p.position = (s.gpu.queue p.stream).length ∧
      p.position < (s'.gpu.queue p.stream).length := by
  cases act_cases ha with
  | @launch st r w _ _ =>
    have hlen := Gpu.enqueue_length s.gpu st (.work (s.workOf r w))
    exact ⟨rfl, (Nat.lt_succ_self _).trans_eq hlen.symm⟩

/-- A write is made under a handle state while it is in use. -/
lemma launched_inUse (ha : s.act o = some (.launched p (some hs), s')) :
    (s.states hs).state = .inUse := by
  generalize hwriter : some hs = writer at ha
  cases act_cases ha with
  | launch _ _ => exact inUse_iff.mp (Option.filter_eq_some_iff.mp hwriter.symm).2

/-- A write under an open handle is behind its stream, and will be stamped. -/
lemma launched_awaits (hw : Writers s) (ha : s.act o = some (.launched p (some hs), s')) :
    Awaits s' hs p := by
  have hlt := (act_launched ha).2
  generalize hwriter : some hs = writer at ha
  cases act_cases ha with
  | @launch st r w _ hmay =>
    obtain ⟨hbind, hu⟩ := Option.filter_eq_some_iff.mp hwriter.symm
    obtain ⟨k, rfl, hheld⟩ := Option.bind_eq_some_iff.mp hbind
    obtain ⟨wh, hk, hstate⟩ := Option.bind_eq_some_iff.mp hheld
    have hstream : wh.stream = st := by
      have hmay : s.mayWrite st k = true := hmay
      simp only [mayWrite, hk, Option.any_some, Bool.and_eq_true, decide_eq_true_eq] at hmay
      exact hmay.1
    have hin := inUse_iff.mp hu
    obtain ⟨hst, _⟩ := (hw.bound k wh hk).points hs hstate hin
    exact ⟨(hw.bound k wh hk).lt hs hstate, hlt, .inl ⟨hin, hst.trans hstream⟩⟩

/-- In the queue of `r`, before `r`, there is a wait for a point behind `p`. -/
def Ordered (s : Process) (p r : Point Stream) : Prop :=
  ∃ i q, (s.gpu.queue r.stream)[i]? = some (.wait q) ∧ i < r.position ∧
    q.stream = p.stream ∧ p.position < q.position

/-- The reader waits for the writes that were stamped before its handle was returned. -/
lemma reading_ordered (hst : Stocked s) (h : Awaits s hs p) (hne : p.stream ≠ none)
    (hr : r.stream ≠ none) (ha : s.act o = some (.reading r (some hs) (some ev), s')) :
    Ordered s' p r := by
  generalize hstate : some hs = state at ha
  generalize hevent : some ev = event at ha
  cases act_cases ha with
  | @getReadHandle b x st hb =>
    have hready := readyToRead_awaits hst hb h
    have hopen : (readyToRead s b x).buffers b = some (s.pending x) ∧
        ((readyToRead s b x).states hs).state ≠ .inUse := by
      rcases finalizeWriteHandle_closes (y := x) (reaped_buffer s b x) rfl rfl with
        ⟨he, hclosed⟩ | ⟨hs', hx, hc⟩
      · rw [readyToRead, he]
        refine ⟨reaped_buffer s b x, ?_⟩
        simpa [inUse] using not_open hclosed (reaped_buffer s b x) hstate.symm
      · refine ⟨hc.buffers ▸ reaped_buffer s b x, ?_⟩
        obtain rfl := Option.some.inj (hstate.trans hx)
        exact hc.finalized
    obtain ⟨hbuf, hclosed⟩ := hopen
    obtain ⟨_, hstamp⟩ := hready.cases.resolve_left fun hcase => hclosed hcase.1
    obtain ⟨k, hrec, hk⟩ := hstamp hne b _ ev hbuf hstate.symm hevent.symm
    have hwait : (readyToRead s b x).waitForWrite x st =
        (readyToRead s b x).enqueue st (.wait ⟨p.stream, k⟩) := by
      have hsome : st.isSome = true := Option.isSome_iff_ne_none.mpr hr
      simp [waitForWrite, ← hevent, hsome, streamWaitEvent, hrec]
    rw [getReadHandle_eq, hwait]
    refine ⟨((readyToRead s b x).gpu.queue st).length, ⟨p.stream, k⟩, ?_, ?_, rfl, hk⟩
    · simp [addRead, setRead, enqueue, Gpu.enqueue, Gpu.here]
    · simp [addRead, setRead, enqueue, Gpu.enqueue, Gpu.here]

lemma act_reading (ha : s.act o = some (.reading r writer event, s')) :
    r.position = (s'.gpu.queue r.stream).length := by
  cases act_cases ha with
  | getReadHandle _ => rfl

end Runs

/-- The work has finished. -/
def Process.done (s : Process) (p : Point Stream) : Bool :=
  decide (p.position < s.gpu.finished p.stream)

lemma Ordered.done_of_done (h : Ordered s p r) (hext : s.gpu.Extends s'.gpu)
    (ho : s'.gpu.Orderly) {x : Point Stream} (hx : x.stream = r.stream)
    (hle : r.position ≤ x.position) (hd : s'.done x = true) : s'.done p = true := by
  obtain ⟨i, q, hq, hi, hstream, hlt⟩ := h
  have hfin : x.position < s'.gpu.finished r.stream := hx ▸ of_decide_eq_true hd
  have hpassed := ho.passed_of_finished (hext.getElem hq) (hi.le.trans hle) hfin
  have hqle : q.position ≤ s'.gpu.finished q.stream := of_decide_eq_true hpassed
  exact decide_eq_true (hlt.trans_le (hstream ▸ hqle))

/-- What a reader enqueues on its stream after its handle is returned is done after
the writes that were enqueued on that stream before, and, with neither stream the
default one, after those made under the handle of the writer until it was finalized. -/
theorem read_after_write {m : Machine} {tr : List (Machine.Event × Machine.Report)}
    (hr : Run Machine.step {} tr m) (hg : Every act WriterSettled {} (Machine.performed tr))
    {pre mid mid' post : List (Operation × Output)} {o₁ o₂ o₃ : Operation}
    {w r x : Point Stream} {writer state event writer' : Option ℕ}
    (htr : Machine.performed tr = pre ++ (o₁, .launched w writer) ::
      (mid ++ (o₂, .reading r state event) :: (mid' ++ (o₃, .launched x writer') :: post)))
    (hx : x.stream = r.stream)
    (hw : w.stream = r.stream ∨ w.stream ≠ none ∧ r.stream ≠ none ∧ event ≠ none ∧
      writer ≠ none ∧ writer = state)
    (hdone : m.process.done x = true) : m.process.done w = true := by
  have hrun : Run act {} (Machine.performed tr) m.process := Machine.run_performed hr
  have ho : m.process.gpu.Orderly := run_orderly hrun
  rw [htr] at hrun hg
  obtain ⟨s₁, hpre, hrest⟩ := run_append_iff.mp hrun
  obtain ⟨s₂, hwrite, hrest⟩ := run_cons_iff.mp hrest
  obtain ⟨s₃, hmid, hrest⟩ := run_append_iff.mp hrest
  obtain ⟨s₄, hread, hrest⟩ := run_cons_iff.mp hrest
  obtain ⟨s₅, hmid', hrest⟩ := run_append_iff.mp hrest
  obtain ⟨s₆, hlaunch, hpost⟩ := run_cons_iff.mp hrest
  have hlater : s₄.gpu.Extends s₅.gpu := run_extends hmid'
  have hend : s₅.gpu.Extends m.process.gpu := (act_extends hlaunch).trans (run_extends hpost)
  have hxpos : x.position = (s₅.gpu.queue r.stream).length := hx ▸ (act_launched hlaunch).1
  rcases hw with hsame | ⟨hne, hne', hevent, hwriter, rfl⟩
  · have hgrown : s₂.gpu.Extends s₅.gpu :=
      (run_extends hmid).trans ((act_extends hread).trans hlater)
    have hwpos := (act_launched hwrite).2.trans_le (hgrown.length_le w.stream)
    have hxdone : x.position < m.process.gpu.finished r.stream := hx ▸ of_decide_eq_true hdone
    rw [hxpos, ← hsame] at hxdone
    exact decide_eq_true (hwpos.trans hxdone)
  · obtain ⟨hs, rfl⟩ := Option.ne_none_iff_exists'.mp hwriter
    obtain ⟨ev, rfl⟩ := Option.ne_none_iff_exists'.mp hevent
    obtain ⟨hst₁, hw₁⟩ := run_writers hpre hg.init
    have hg₁ := hg.suffix hpre
    obtain ⟨hgood, hg₂⟩ := hg₁.cons hwrite
    have hst₂ := act_stocked hst₁ hwrite
    have hw₂ := act_writers hst₁ hw₁ hgood hwrite
    have hst₃ : Stocked s₃ := run_stocked ((hpre.snoc hwrite).append hmid)
    have hawaits := run_awaits hst₂ hw₂ (launched_awaits hw₁ hwrite) hmid hg₂.init
    have hordered := reading_ordered hst₃ hawaits hne hne' hread
    have hle : r.position ≤ x.position := by
      rw [hxpos, act_reading hread]
      exact hlater.length_le _
    exact hordered.done_of_done (hlater.trans hend) ho hx hle hdone

instance (s : Process) (o : Operation) (out : Output) : Decidable (WriterSettled s o out) :=
  match o with
  | .setWriteEvent _ _ => inferInstanceAs (Decidable (_ = true))
  | .moveConstruct _ => inferInstanceAs (Decidable (_ = false))
  | .moveAssign _ _ => inferInstanceAs (Decidable (_ ∨ _ ∧ _))
  | .constructDefault | .construct _ | .destroy _ | .getReadHandle _ _
  | .getWriteHandle _ _ | .finalizeWriteHandle _ | .launch _ _ _ | .synchronize _ | .moveRead _
  | .assignRead _ _ | .closeRead _ | .moveWrite _ | .assignWrite _ _ | .closeWrite _
  | .makeImpl _ _ | .setStream _ _ | .setSize _ _ | .finish _ | .recycle => .isTrue trivial

/-- A buffer is written on the stream `st` and read on the stream `st'`. -/
def writtenThenRead (st st' : Stream) : List Operation :=
  [.construct 16, .setWriteEvent 0 true, .getWriteHandle 0 st, .launch st none (some 0),
    .closeWrite 0, .getReadHandle 0 st', .launch st' (some 0) none]

theorem read_after_write_once : ∃ tr m, Run Machine.step {} tr m ∧
    m.process.done ⟨some 2, 1⟩ = true ∧ m.process.done ⟨some 1, 0⟩ = true := by
  let ops := writtenThenRead (some 1) (some 2) ++
    [.finish (some 1), .finish (some 2), .finish (some 2)]
  let done : List (Operation × Output) := ops.zip
    [.quiet, .quiet, .writing 0, .launched ⟨some 1, 0⟩ (some 0), .quiet,
      .reading ⟨some 2, 1⟩ (some 0) (some 0), .launched ⟨some 2, 1⟩ none, .quiet, .quiet, .quiet]
  have hlast : (exec Machine.step {} (calling ops)).any (fun x =>
      decide (Machine.performed x.1 = done) &&
      decide ((exec act {} ops).map Prod.fst = some done) &&
      x.2.process.done ⟨some 2, 1⟩) = true := by
    decide +kernel
  obtain ⟨⟨tr, m⟩, hx, hp⟩ := Option.any_eq_true _ _ |>.mp hlast
  simp only [Bool.and_eq_true, decide_eq_true_eq] at hp
  obtain ⟨⟨hperf, hops⟩, hdone⟩ := hp
  obtain ⟨⟨tr', s⟩, hs, rfl⟩ := Option.map_eq_some_iff.mp hops
  have hg : Every act WriterSettled {} (Machine.performed tr) :=
    hperf ▸ every_of_exec hs (by decide +kernel)
  have htr : Machine.performed tr = done.take 3 ++
      (.launch (some 1) none (some 0), .launched ⟨some 1, 0⟩ (some 0)) ::
        ([(.closeWrite 0, .quiet)] ++
          (.getReadHandle 0 (some 2), .reading ⟨some 2, 1⟩ (some 0) (some 0)) ::
            ([] ++ (.launch (some 2) (some 0) none, .launched ⟨some 2, 1⟩ none) ::
              done.drop 7)) := hperf
  refine ⟨tr, m, exec_run hx, hdone, ?_⟩
  exact read_after_write (exec_run hx) hg htr rfl (.inr ⟨nofun, nofun, nofun, nofun, rfl⟩) hdone

/-- In a run of these operations the read at `r` finishes before the write at `w`. -/
def Raced (ops : List Operation) (w r : Point Stream) : Prop :=
  ∃ tr m, Run Machine.step {} tr m ∧ (Machine.performed tr).map Prod.fst = ops ∧
    (m.process.gpu.queue w.stream)[w.position]? = some (.work ⟨none, some 0⟩) ∧
    (m.process.gpu.queue r.stream)[r.position]? = some (.work ⟨some 0, none⟩) ∧
    m.process.done r = true ∧ m.process.done w = false

lemma raced_of_exec {ops : List Operation} {w r : Point Stream}
    (h : (exec Machine.step {} (calling ops)).any (fun x =>
      decide ((Machine.performed x.1).map Prod.fst = ops ∧
        (x.2.process.gpu.queue w.stream)[w.position]? = some (.work ⟨none, some 0⟩) ∧
        (x.2.process.gpu.queue r.stream)[r.position]? = some (.work ⟨some 0, none⟩) ∧
        x.2.process.done r = true ∧ x.2.process.done w = false)) = true) : Raced ops w r := by
  obtain ⟨⟨tr, m⟩, hx, hp⟩ := Option.any_eq_true _ _ |>.mp h
  exact ⟨tr, m, exec_run hx, of_decide_eq_true hp⟩

/-- A writer or a reader on the default stream has no event to order them, nor has a
write that is enqueued after `finalize_write_handle`. -/
theorem raced_reads :
    Raced (writtenThenRead none (some 1) ++ [.finish (some 1)]) ⟨none, 0⟩ ⟨some 1, 0⟩ ∧
    Raced (writtenThenRead (some 1) none ++ [.finish none]) ⟨some 1, 0⟩ ⟨none, 0⟩ ∧
    Raced
      [.construct 16, .setWriteEvent 0 true, .getWriteHandle 0 (some 1), .finalizeWriteHandle 0,
        .launch (some 1) none (some 0), .getReadHandle 0 (some 2), .launch (some 2) (some 0) none,
        .finish (some 2), .finish (some 2)]
      ⟨some 1, 0⟩ ⟨some 2, 1⟩ := by
  refine ⟨raced_of_exec ?_, raced_of_exec ?_, raced_of_exec ?_⟩
  · decide +kernel
  · decide +kernel
  · decide +kernel

end RosidlBufferBackends.Buffers
