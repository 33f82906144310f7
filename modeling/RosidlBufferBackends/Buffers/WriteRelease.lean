import RosidlBufferBackends.Buffers.DeferredRelease
import RosidlBufferBackends.Buffers.Effects
import RosidlBufferBackends.Buffers.Lineage

/-! Device memory is released only when the writes are done that were made under an open write
handle of its buffer. -/

namespace RosidlBufferBackends.Buffers

open Streams Runs Process Inventory

variable {s s' : Process} {o : Operation} {out : Output} {b b' hs ev a : ℕ} {x y : CudaBuffer}
  {st : Stream} {p : Point Stream}

/-- What a buffer with a writer keeps, wherever it is moved. -/
structure SameStorage (x y : CudaBuffer) : Prop where
  devicePtr : y.devicePtr = x.devicePtr
  handleState : y.handleState = x.handleState
  writeEvent : y.writeEvent = x.writeEvent
  ownsWriteEvent : y.ownsWriteEvent = x.ownsWriteEvent

/-- A handle state in use has a write handle, which points to the storage of its buffer. -/
structure Manned (s : Process) : Prop where
  owner : ∀ hs, (s.states hs).state = .inUse → ∃ w wh, s.writeHandles w = some wh ∧
    wh.state = some hs
  aimed : ∀ w wh hs, s.writeHandles w = some wh → wh.state = some hs →
    (s.states hs).state = .inUse → ∃ b x, s.buffers b = some x ∧ x.handleState = some hs ∧
      wh.dataPtr = x.devicePtr

/-- The storage is in a buffer that owns its write event and has the handle state. -/
def Backed (s : Process) (a hs : ℕ) : Prop :=
  ∃ b x ev, s.buffers b = some x ∧ x.devicePtr = some a ∧ x.handleState = some hs ∧
    x.writeEvent = some ev ∧ x.ownsWriteEvent = true

/-- The recycler waits for an event behind the point before it deletes the storage. -/
def Queued (s : Process) (a : ℕ) (p : Point Stream) : Prop :=
  ∃ item ∈ s.queue, item.devicePtr = some a ∧ ∃ ev ∈ item.events, ∃ k,
    s.recorded ev = some ⟨p.stream, k⟩ ∧ p.position < k

def Fenced (s : Process) (a hs : ℕ) (p : Point Stream) : Prop :=
  (Backed s a hs ∧ Awaits s hs p) ∨ Queued s a p ∨ Done s p

section Buffers

lemma SameStorage.refl (x : CudaBuffer) : SameStorage x x := ⟨rfl, rfl, rfl, rfl⟩

def Kept (s' : Process) (x : CudaBuffer) : Prop := ∃ b y, s'.buffers b = some y ∧ SameStorage x y

lemma kept_same (hb : s.buffers b = some x) (hs : s'.buffers = s.buffers) : Kept s' x :=
  ⟨b, x, hs ▸ hb, .refl x⟩

lemma kept_update (hb : s.buffers b = some x) (hb' : s.buffers b' = some y) {z : CudaBuffer}
    (hu : s'.buffers = Function.update s.buffers b' (some z)) (hz : SameStorage y z) :
    Kept s' x := by
  by_cases hx : b = b'
  · subst hx
    obtain rfl := Option.some.inj (hb.symm.trans hb')
    exact ⟨b, z, by rw [hu, Function.update_self], hz⟩
  · exact ⟨b, x, by rw [hu, Function.update_of_ne hx, hb], .refl x⟩

lemma kept_released (hb : s.buffers b = some x) (rh : ReadHandle) {u : Process}
    (hu : u.buffers = (s.releaseRead rh).buffers) : Kept u x := by
  rcases releaseRead_cases s rh with ⟨he, -⟩ | ⟨b', y, -, hb', he⟩
  · rw [he] at hu
    exact kept_same hb hu
  · rw [he] at hu
    exact kept_update hb hb' hu ⟨rfl, rfl, rfl, rfl⟩

/-- A buffer with a handle state is destroyed, or is somewhere. -/
lemma act_kept (hst : Stocked s) (hg : WriterSettled s o out) (hb : s.buffers b = some x)
    (hx : x.handleState = some hs) (ha : s.act o = some (out, s')) :
    (o = .destroy b ∧ s.referenced b = false ∧ s' = s.destroy b x) ∨ Kept s' x := by
  have hne : b ≠ s.nextBuffer := (hst.placed b x hb).ne
  have hother : ∀ {b' : ℕ} {z : Option CudaBuffer} {u : Process}, b ≠ b' →
      u.buffers = Function.update s.buffers b' z → Kept u x := by
    intro b' z u hx hu
    exact ⟨b, x, by rw [hu, Function.update_of_ne hx, hb], .refl x⟩
  cases act_cases ha with
  | constructDefault => exact .inr (hother hne rfl)
  | construct size => exact .inr (hother hne rfl)
  | @setWriteEvent b' owns buf hb' =>
    by_cases hbb : b = b'
    · subst hbb
      have hnone : (s.buffers b).all (fun buf => buf.handleState.isNone) = true := hg
      rw [hb, Option.all_some, hx] at hnone
      cases hnone
    · exact .inr (hother hbb rfl)
  | @moveConstruct b' buf hb' =>
    right
    by_cases hbb : b = b'
    · subst hbb
      obtain rfl := Option.some.inj (hb.symm.trans hb')
      exact ⟨s.nextBuffer, x, Function.update_self .., .refl x⟩
    · refine ⟨b, x, ?_, .refl x⟩
      have hkeep : (s.moveConstruct b' buf).buffers b =
          Function.update (Function.update s.buffers b' (some {})) s.nextBuffer (some buf) b := rfl
      rw [hkeep, Function.update_of_ne hne, Function.update_of_ne hbb, hb]
  | @moveAssign b₁ b₂ buf buf' h₁ h₂ _ =>
    right
    have hbuffers : (s.swap b₁ b₂ buf buf').buffers =
        Function.update (Function.update s.buffers b₁ (some buf')) b₂ (some buf) := rfl
    by_cases hb₁ : b = b₁
    · subst hb₁
      obtain rfl := Option.some.inj (hb.symm.trans h₁)
      exact ⟨b₂, x, by rw [hbuffers, Function.update_self], .refl x⟩
    · by_cases hb₂ : b = b₂
      · subst hb₂
        obtain rfl := Option.some.inj (hb.symm.trans h₂)
        refine ⟨b₁, x, ?_, .refl x⟩
        rw [hbuffers, Function.update_of_ne (Ne.symm hb₁), Function.update_self]
      · refine ⟨b, x, ?_, .refl x⟩
        rw [hbuffers, Function.update_of_ne hb₂, Function.update_of_ne hb₁, hb]
  | @destroy b' buf hb' href =>
    by_cases hbb : b = b'
    · subst hbb
      obtain rfl := Option.some.inj (hb.symm.trans hb')
      exact .inl ⟨rfl, href, rfl⟩
    · obtain ⟨queue, deleted, he⟩ := destroy_frame s b' buf
      exact .inr (hother hbb (by rw [he]))
  | @getReadHandle b' buf st hb' =>
    obtain ⟨gpu, recorded, states, he, -⟩ := getReadHandle_frame s b' buf st
    rw [he]
    exact .inr (kept_update hb hb' rfl ⟨rfl, rfl, rfl, rfl⟩)
  | refused hb' => exact .inr (kept_update hb hb' rfl ⟨rfl, rfl, rfl, rfl⟩)
  | granted hb' _ _ _ => exact .inr (kept_update hb hb' rfl ⟨rfl, rfl, rfl, rfl⟩)
  | @grantedFirst b' buf st hb' _ hhs =>
    right
    by_cases hbb : b = b'
    · subst hbb
      obtain rfl := Option.some.inj (hb.symm.trans hb')
      exact absurd (hx.symm.trans hhs) (Option.some_ne_none hs)
    · refine ⟨b, x, ?_, .refl x⟩
      have hkeep : (Function.update (Function.update s.buffers b' (some (s.pending buf))) b'
          (some { s.pending buf with handleState := some s.nextState })) b = s.buffers b := by
        rw [Function.update_of_ne hbb, Function.update_of_ne hbb]
      exact hkeep.trans hb
  | @finalizeWriteHandle b' buf _ =>
    obtain ⟨recorded, states, he, -⟩ := finalizeWriteHandle_frame s buf
    rw [he]
    exact .inr (kept_same hb rfl)
  | assignRead _ _ _ => exact .inr (kept_released hb _ rfl)
  | closeRead _ => exact .inr (kept_released hb _ rfl)
  | @assignWrite _ _ wh _ _ _ _ =>
    obtain ⟨recorded, states, he, -⟩ := releaseWrite_frame s wh
    rw [he]
    exact .inr (kept_same hb rfl)
  | @closeWrite _ wh _ =>
    obtain ⟨recorded, states, he, -⟩ := releaseWrite_frame s wh
    rw [he]
    exact .inr (kept_same hb rfl)
  | recycle _ _ =>
    rw [delete_frame]
    exact .inr (kept_same hb rfl)
  | _ => exact .inr (kept_same hb rfl)

end Buffers

section Writing

lemma Closes.inUse (h : Closes s hs s') {hs' : ℕ} (hu : (s'.states hs').state = .inUse) :
    (s.states hs').state = .inUse ∧ hs' ≠ hs := by
  have hne : hs' ≠ hs := by
    rintro rfl
    exact h.finalized hu
  obtain ⟨b, x, -, -, -, rfl⟩ := h
  rw [recordWrite_eq] at hu
  simp only [setState, Function.update_of_ne hne] at hu
  exact ⟨hu, hne⟩

lemma finalizeWriteHandle_inUse (hb : s.buffers b = some x) (hy : y.handleState = x.handleState)
    (he : y.writeEvent = x.writeEvent)
    (hu : ((s.finalizeWriteHandle y).states hs).state = .inUse) :
    (s.states hs).state = .inUse := by
  rcases finalizeWriteHandle_closes hb hy he with ⟨heq, -⟩ | ⟨_, -, hc⟩
  · rwa [heq] at hu
  · exact (hc.inUse hu).1

lemma getReadHandle_inUse
    (hu : ((s.getReadHandle b x st).states hs).state = .inUse) :
    (s.states hs).state = .inUse := by
  obtain ⟨gpu, he, -⟩ := waitForWrite_frame (readyToRead s b x) x st
  rw [getReadHandle_eq, he] at hu
  have hready : (((s.reapCompletedReadEvents b x).finalizeWriteHandle x).states hs).state =
      .inUse :=
    hu
  exact finalizeWriteHandle_inUse (s := s.reapCompletedReadEvents b x) (reaped_buffer s b x) rfl rfl
    hready

lemma releaseWrite_inUse (wh : WriteHandle)
    (hu : ((s.releaseWrite wh).states hs).state = .inUse) :
    (s.states hs).state = .inUse ∧ wh.state ≠ some hs := by
  unfold releaseWrite at hu
  cases hstate : wh.state with
  | none =>
    rw [hstate] at hu
    exact ⟨hu, (Option.some_ne_none hs).symm⟩
  | some k =>
    simp only [hstate] at hu
    rw [recordWrite_eq] at hu
    split_ifs at hu with hfin
    · refine ⟨hu, ?_⟩
      rintro ⟨⟩
      rw [hfin] at hu
      cases hu
    · by_cases hk : hs = k
      · subst hk
        simp [setState] at hu
      · simp only [setState, Function.update_of_ne hk] at hu
        exact ⟨hu, fun he => hk (Option.some.inj he).symm⟩

/-- The buffer that an open handle points to stays, wherever it is moved. -/
lemma aim_kept (hst : Stocked s) (hw : Writers s) (hm : Manned s) (hg : WriterSettled s o out)
    (ha : s.act o = some (out, s')) {w : ℕ} {wh : WriteHandle} (hk : s.writeHandles w = some wh)
    (hstate : wh.state = some hs) (hu : (s.states hs).state = .inUse) :
    ∃ b y, s'.buffers b = some y ∧ y.handleState = some hs ∧ wh.dataPtr = y.devicePtr := by
  obtain ⟨b, x, hb, hx, hptr⟩ := hm.aimed w wh hs hk hstate hu
  rcases act_kept hst hg hb hx ha with ⟨-, href, -⟩ | ⟨b', y, hb', hy⟩
  · obtain ⟨-, b', x', hevent, hb', hx'⟩ := (hw.bound w wh hk).points hs hstate hu
    obtain rfl := hst.state_unique hb hb' hx hx'
    exact absurd hevent (hw.not_write (Bool.or_eq_false_iff.mp href).2 hk)
  · exact ⟨b', y, hb', hy.handleState.trans hx, hptr.trans hy.devicePtr.symm⟩

lemma Manned.frame (hst : Stocked s) (hw : Writers s) (hm : Manned s) (hg : WriterSettled s o out)
    (ha : s.act o = some (out, s'))
    (hu : ∀ hs, (s'.states hs).state = .inUse → (s.states hs).state = .inUse)
    (hkeep : ∀ w wh hs, s.writeHandles w = some wh → wh.state = some hs →
      (s'.states hs).state = .inUse → ∃ w, s'.writeHandles w = some wh)
    (hold : ∀ w wh, s'.writeHandles w = some wh → wh.state = none ∨
      ∃ w, s.writeHandles w = some wh) : Manned s' := by
  constructor
  · intro hs hin
    obtain ⟨w, wh, hk, hstate⟩ := hm.owner hs (hu hs hin)
    obtain ⟨w', hk'⟩ := hkeep w wh hs hk hstate hin
    exact ⟨w', wh, hk', hstate⟩
  · intro w wh hs hk hstate hin
    obtain hnone | ⟨w', hk'⟩ := hold w wh hk
    · rw [hnone] at hstate
      cases hstate
    · exact aim_kept hst hw hm hg ha hk' hstate (hu hs hin)

lemma Manned.same (hst : Stocked s) (hw : Writers s) (hm : Manned s) (hg : WriterSettled s o out)
    (ha : s.act o = some (out, s'))
    (hu : ∀ hs, (s'.states hs).state = .inUse → (s.states hs).state = .inUse)
    (hh : s'.writeHandles = s.writeHandles) : Manned s' :=
  hm.frame hst hw hg ha hu (fun w _ _ hk _ _ => ⟨w, hh ▸ hk⟩) fun w _ hk => .inr ⟨w, hh ▸ hk⟩

/-- The handle state was not in use, and no handle had it. -/
lemma Manned.grant (hst : Stocked s) (hw : Writers s) (hm : Manned s) (hg : WriterSettled s o out)
    (ha : s.act o = some (out, s')) (hb : s'.buffers b = some x) (hx : x.handleState = some hs)
    (hfree : ∀ w wh, s.writeHandles w = some wh → wh.state ≠ some hs)
    (hu : s'.states = Function.update s.states hs { state := .inUse, writeStream := st })
    (hh : s'.writeHandles = Function.update s.writeHandles s.nextWrite
      (some { dataPtr := x.devicePtr, writeEventPtr := some b, stream := st, state := some hs })) :
    Manned s' := by
  have hin : ∀ k, k ≠ hs → (s'.states k).state = .inUse → (s.states k).state = .inUse := by
    intro k hk hin
    rwa [hu, Function.update_of_ne hk] at hin
  constructor
  · intro k hk
    by_cases he : k = hs
    · subst he
      exact ⟨s.nextWrite, _, by rw [hh, Function.update_self], rfl⟩
    · obtain ⟨w, wh, hwh, hstate⟩ := hm.owner k (hin k he hk)
      have hne : w ≠ s.nextWrite := (hw.lt w wh hwh).ne
      exact ⟨w, wh, by rw [hh, Function.update_of_ne hne, hwh], hstate⟩
  · intro w wh k hwh hstate hk
    rw [hh] at hwh
    rcases update_some hwh with ⟨-, he⟩ | ⟨-, hold⟩
    · obtain rfl := Option.some.inj he
      obtain rfl := Option.some.inj hstate
      exact ⟨b, x, hb, hx, rfl⟩
    · have hne : k ≠ hs := fun he => hfree w wh hold (he ▸ hstate)
      exact aim_kept hst hw hm hg ha hold hstate (hin k hne hk)

lemma act_manned (hst : Stocked s) (hw : Writers s) (hm : Manned s) (hg : WriterSettled s o out)
    (ha : s.act o = some (out, s')) : Manned s' := by
  have hsame := hm.same hst hw hg ha
  cases act_cases ha with
  | destroy _ _ =>
    obtain ⟨queue, deleted, he⟩ := destroy_frame s _ _
    refine hsame (fun hs hu => ?_) (by rw [he])
    rwa [he] at hu
  | getReadHandle hb =>
    obtain ⟨gpu, recorded, states, he, -⟩ := getReadHandle_frame s _ _ _
    exact hsame (fun hs hu => getReadHandle_inUse hu) (by rw [he])
  | granted hb _ hhs hunset =>
    refine hm.grant hst hw hg ha (reaped_buffer s _ _) hhs (fun w wh hk hstate => ?_) rfl rfl
    exact (hw.bound w wh hk).used _ hstate hunset
  | grantedFirst hb _ _ =>
    refine hm.grant hst hw hg ha (Function.update_self ..) rfl (fun w wh hk hstate => ?_) rfl rfl
    exact absurd ((hw.bound w wh hk).lt _ hstate) (lt_irrefl _)
  | finalizeWriteHandle hb =>
    obtain ⟨recorded, states, he, -⟩ := finalizeWriteHandle_frame s _
    exact hsame (fun hs hu => finalizeWriteHandle_inUse hb rfl rfl hu) (by rw [he])
  | @moveWrite k wh hk =>
    have hne : s.nextWrite ≠ k := (hw.lt k wh hk).ne'
    refine hm.frame hst hw hg ha (fun _ hu => hu) (fun w wh' hs hw' hstate hu => ?_)
      fun w wh' hw' => ?_
    · by_cases hwk : w = k
      · subst hwk
        obtain rfl := Option.some.inj (hk.symm.trans hw')
        exact ⟨s.nextWrite, Function.update_self ..⟩
      · refine ⟨w, ?_⟩
        have hold : ((s.setWrite k (some {})).addWrite wh).writeHandles w = Function.update
            (Function.update s.writeHandles k (some {})) s.nextWrite (some wh) w := rfl
        rw [hold, Function.update_of_ne (hw.lt w wh' hw').ne, Function.update_of_ne hwk, hw']
    · rcases update_some hw' with ⟨-, he⟩ | ⟨-, hw'⟩
      · exact .inr ⟨k, he ▸ hk⟩
      · rcases update_some hw' with ⟨-, he⟩ | ⟨-, hw'⟩
        · obtain rfl := Option.some.inj he
          exact .inl rfl
        · exact .inr ⟨w, hw'⟩
  | @assignRead _ _ rh _ _ _ _ =>
    obtain ⟨hh, -⟩ := Finalisation.releaseRead_writeHandles s rh
    refine hsame (fun hs hu => ?_) hh
    have hkeep : ((s.releaseRead rh).states hs).state = .inUse := hu
    rwa [releaseRead_states] at hkeep
  | @closeRead _ rh _ =>
    obtain ⟨hh, -⟩ := Finalisation.releaseRead_writeHandles s rh
    refine hsame (fun hs hu => ?_) hh
    have hkeep : ((s.releaseRead rh).states hs).state = .inUse := hu
    rwa [releaseRead_states] at hkeep
  | @assignWrite w₁ w₂ wh₁ wh₂ h₁ h₂ hne =>
    obtain ⟨hh, -⟩ := Finalisation.releaseWrite_handles s wh₁
    have hold : (((s.releaseWrite wh₁).setWrite w₁ (some wh₂)).setWrite w₂ (some {})).writeHandles =
        Function.update (Function.update s.writeHandles w₁ (some wh₂)) w₂ (some {}) := by
      rw [← hh]
      rfl
    refine hm.frame hst hw hg ha (fun _ hu => (releaseWrite_inUse wh₁ hu).1)
      (fun w wh hs hk hstate hu => ?_) fun w wh hk => ?_
    · have hother := (releaseWrite_inUse wh₁ hu).2
      by_cases hw₁ : w = w₁
      · subst hw₁
        obtain rfl := Option.some.inj (h₁.symm.trans hk)
        exact absurd hstate hother
      · by_cases hw₂ : w = w₂
        · subst hw₂
          obtain rfl := Option.some.inj (h₂.symm.trans hk)
          exact ⟨w₁, by rw [hold, Function.update_of_ne hne, Function.update_self]⟩
        · exact ⟨w, by rw [hold, Function.update_of_ne hw₂, Function.update_of_ne hw₁, hk]⟩
    · rw [hold] at hk
      rcases update_some hk with ⟨-, he⟩ | ⟨-, hk⟩
      · obtain rfl := Option.some.inj he
        exact .inl rfl
      · rcases update_some hk with ⟨-, he⟩ | ⟨-, hk⟩
        · exact .inr ⟨w₂, he ▸ h₂⟩
        · exact .inr ⟨w, hk⟩
  | @closeWrite w₁ wh₁ h₁ =>
    obtain ⟨hh, -⟩ := Finalisation.releaseWrite_handles s wh₁
    have hold : ((s.releaseWrite wh₁).setWrite w₁ none).writeHandles =
        Function.update s.writeHandles w₁ none := by
      rw [← hh]
      rfl
    refine hm.frame hst hw hg ha (fun _ hu => (releaseWrite_inUse wh₁ hu).1)
      (fun w wh hs hk hstate hu => ?_) fun w wh hk => ?_
    · have hne : w ≠ w₁ := by
        rintro rfl
        obtain rfl := Option.some.inj (h₁.symm.trans hk)
        exact (releaseWrite_inUse wh₁ hu).2 hstate
      exact ⟨w, by rw [hold, Function.update_of_ne hne, hk]⟩
    · rw [hold] at hk
      rcases update_some hk with ⟨-, he⟩ | ⟨-, hk⟩
      · cases he
      · exact .inr ⟨w, hk⟩
  | recycle _ _ =>
    refine hsame (fun hs hu => ?_) (by rw [delete_frame])
    rwa [delete_frame] at hu
  | _ => exact hsame (fun _ hu => hu) rfl

lemma manned_initial : Manned {} := ⟨nofun, nofun⟩

end Writing

section Fences

lemma Stocked.queued_event (h : Stocked s) {item : PendingWork} (hitem : item ∈ s.queue)
    (hev : ev ∈ item.events) : ev < s.nextEvent ∧ Closed s ev := by
  have hpos : 0 < PendingWork.tokens ev item := List.count_pos_iff.mpr hev
  have hle := le_queued (v := PendingWork.tokens ev) hitem
  have hone := h.events ev
  have hlt : ev < s.nextEvent := by
    by_contra hnot
    rw [if_neg hnot] at hone
    omega
  refine ⟨hlt, fun b x hs hb hx _ => ?_⟩
  -- an event that waits in the recycler is no longer that of a buffer
  have htokens := le_total (f := s.buffers) (w := CudaBuffer.tokens ev) (h.placed b x hb)
  rw [hb, Option.elim_some] at htokens
  have hx' := tokens_pos hx
  rw [if_pos hlt] at hone
  unfold stock at hone
  omega

lemma Done.extends (h : Done s p) (he : s.gpu.Extends s'.gpu) : Done s' p :=
  lt_of_lt_of_le h (he.finished _)

/-- The recycler takes its first item, or the queue has all its items still. -/
lemma act_queue (ha : s.act o = some (out, s')) :
    (∃ item, s.queue = item :: s'.queue ∧ item.events.all s.complete = true ∧ s'.gpu = s.gpu) ∨
      ∀ item ∈ s.queue, item ∈ s'.queue := by
  cases act_cases ha with
  | @destroy b x _ _ =>
    refine .inr fun item hitem => ?_
    unfold destroy
    split_ifs
    · exact List.mem_append_left _ hitem
    · rw [delete_frame]
      exact hitem
  | getReadHandle _ =>
    obtain ⟨gpu, recorded, states, he, -⟩ := getReadHandle_frame s _ _ _
    exact .inr fun item hitem => by rwa [he]
  | finalizeWriteHandle _ =>
    obtain ⟨recorded, states, he, -⟩ := finalizeWriteHandle_frame s _
    exact .inr fun item hitem => by rwa [he]
  | @assignRead _ _ rh _ _ _ _ =>
    rcases releaseRead_cases s rh with ⟨he, -⟩ | ⟨_, _, -, -, he⟩
    · exact .inr fun item hitem => by rwa [he]
    · exact .inr fun item hitem => by rwa [he]
  | @closeRead _ rh _ =>
    rcases releaseRead_cases s rh with ⟨he, -⟩ | ⟨_, _, -, -, he⟩
    · exact .inr fun item hitem => by rwa [he]
    · exact .inr fun item hitem => by rwa [he]
  | @assignWrite _ _ wh _ _ _ _ =>
    obtain ⟨recorded, states, he, -⟩ := releaseWrite_frame s wh
    exact .inr fun item hitem => by rwa [he]
  | @closeWrite _ wh _ =>
    obtain ⟨recorded, states, he, -⟩ := releaseWrite_frame s wh
    exact .inr fun item hitem => by rwa [he]
  | @recycle item rest hq hall =>
    rw [delete_frame]
    exact .inl ⟨item, hq, hall, rfl⟩
  | _ => exact .inr fun _ hitem => hitem

lemma act_queued (hst : Stocked s) (hw : Writers s) (h : Queued s a p)
    (ha : s.act o = some (out, s')) : Queued s' a p ∨ Done s' p := by
  obtain ⟨item, hitem, hptr, ev, hev, k, hk, hlt⟩ := h
  obtain ⟨hnext, hclosed⟩ := hst.queued_event hitem hev
  have hrec : s'.recorded ev = some ⟨p.stream, k⟩ :=
    (act_still hclosed hw (.inl hnext) ha).trans hk
  rcases act_queue ha with ⟨first, hq, hall, hgpu⟩ | hstay
  · rw [hq] at hitem
    obtain rfl | hitem := List.mem_cons.mp hitem
    · right
      have hpassed := List.all_eq_true.mp hall ev hev
      rw [complete, hk, Option.all_some] at hpassed
      have hle : k ≤ s.gpu.finished p.stream := of_decide_eq_true hpassed
      rw [Done, hgpu]
      exact hlt.trans_le hle
    · exact .inl ⟨item, hitem, hptr, ev, hev, k, hrec, hlt⟩
  · exact .inl ⟨item, hstay item hitem, hptr, ev, hev, k, hrec, hlt⟩

/-- A buffer that is destroyed leaves its write event to the recycler. -/
lemma destroy_queued (hst : Stocked s) (hw : Writers s) (hm : Manned s)
    (hb : s.buffers b = some x) (href : s.referenced b = false) (hx : x.handleState = some hs)
    (hptr : x.devicePtr = some a) (hev : x.writeEvent = some ev) (howns : x.ownsWriteEvent = true)
    (h : Awaits s hs p) (hne : p.stream ≠ none) : Queued (s.destroy b x) a p := by
  have hclosed : (s.states hs).state ≠ .inUse := by
    intro hu
    obtain ⟨w, wh, hk, hstate⟩ := hm.owner hs hu
    obtain ⟨-, b', x', hevent, hb', hx'⟩ := (hw.bound w wh hk).points hs hstate hu
    obtain rfl := hst.state_unique hb hb' hx hx'
    exact absurd hevent (hw.not_write (Bool.or_eq_false_iff.mp href).2 hk)
  obtain ⟨-, hstamp⟩ := h.cases.resolve_left fun hopen => hclosed hopen.1
  obtain ⟨k, hrec, hlt⟩ := hstamp hne b x ev hb hx hev
  have hmem : ev ∈ eventsToSync x := by simp [eventsToSync, howns, hev]
  have hsync : (!(eventsToSync x).isEmpty && x.recycler) = true := by
    have hrecycler := hst.recycled b x hb (by rw [hptr]; rfl)
    rw [hrecycler, Bool.and_true, Bool.not_eq_true', List.isEmpty_eq_false_iff]
    exact List.ne_nil_of_mem hmem
  unfold destroy
  rw [if_pos hsync]
  exact ⟨⟨eventsToSync x, x.devicePtr⟩, List.mem_append_right _ List.mem_cons_self, hptr, ev, hmem,
    k, hrec, hlt⟩

lemma act_fenced (hst : Stocked s) (hw : Writers s) (hm : Manned s) (hg : WriterSettled s o out)
    (hne : p.stream ≠ none) (h : Fenced s a hs p) (ha : s.act o = some (out, s')) :
    Fenced s' a hs p := by
  obtain ⟨⟨b, x, ev, hb, hptr, hx, hev, howns⟩, hawaits⟩ | hqueued | hdone := h
  · rcases act_kept hst hg hb hx ha with ⟨rfl, href, rfl⟩ | ⟨b', y, hb', hy⟩
    · exact .inr (.inl (destroy_queued hst hw hm hb href hx hptr hev howns hawaits hne))
    · refine .inl ⟨⟨b', y, ev, hb', hy.devicePtr.trans hptr, hy.handleState.trans hx,
        hy.writeEvent.trans hev, hy.ownsWriteEvent.trans howns⟩, ?_⟩
      exact act_awaits hst hw hg ha hawaits
  · exact .inr (act_queued hst hw hqueued ha)
  · exact .inr (.inr (hdone.extends (act_extends ha)))

lemma not_held_of_deleted (hst : Stocked s) (hd : s.deleted a ≠ 0) :
    ¬ Backed s a hs ∧ ¬ Queued s a p := by
  have hone : s.stock (CudaBuffer.holds a) + s.queued (PendingWork.holds a) + s.deleted a ≤ 1 :=
    (hst.custody a).le.trans (by split_ifs <;> omega)
  constructor
  · rintro ⟨b, x, ev, hb, hptr, -⟩
    have hle := le_total (f := s.buffers) (w := CudaBuffer.holds a) (hst.placed b x hb)
    rw [hb, Option.elim_some, CudaBuffer.holds, if_pos hptr] at hle
    unfold stock at hone
    omega
  · rintro ⟨item, hitem, hptr, -⟩
    have hle := le_queued (v := PendingWork.holds a) hitem
    rw [PendingWork.holds, if_pos hptr] at hle
    omega

end Fences

section Runs

variable {tr pre post : List (Operation × Output)} {u t : Process}

lemma run_manned (hr : Run act {} tr s) (hg : Every act WriterSettled {} tr) :
    Stocked s ∧ Writers s ∧ Manned s := by
  refine hr.induction_every (P := fun _ s => Stocked s ∧ Writers s ∧ Manned s) hg
    ⟨stocked_initial, ⟨nofun, nofun⟩, manned_initial⟩ ?_
  rintro _ s o out s' _ ⟨hst, hw, hm⟩ hgood ha
  exact ⟨act_stocked hst ha, act_writers hst hw hgood ha, act_manned hst hw hm hgood ha⟩

lemma run_fenced (hst : Stocked s) (hw : Writers s) (hm : Manned s) (hne : p.stream ≠ none)
    (h : Fenced s a hs p) (hr : Run act s tr u) (hg : Every act WriterSettled s tr) :
    Fenced u a hs p := by
  refine (hr.induction_every (P := fun _ t => Stocked t ∧ Writers t ∧ Manned t ∧ Fenced t a hs p) hg
    ⟨hst, hw, hm, h⟩ ?_).2.2.2
  rintro _ t o out t' _ ⟨hst, hw, hm, h⟩ hgood ha
  exact ⟨act_stocked hst ha, act_writers hst hw hgood ha, act_manned hst hw hm hgood ha,
    act_fenced hst hw hm hgood hne h ha⟩

/-- The work of a launch under an open handle writes to the storage of the handle's buffer. -/
lemma launched_target (hst : Stocked s) (hm : Manned s) {r w : Option ℕ}
    (ha : s.act (.launch st r w) = some (.launched p (some hs), s'))
    (hb : s.buffers b = some x) (hx : x.handleState = some hs) (hptr : x.devicePtr = some a) :
    p.stream = st ∧ s'.buffers = s.buffers ∧ ∃ src,
      (s'.gpu.queue p.stream)[p.position]? = some (.work ⟨src, some a⟩) := by
  generalize hwriter : some hs = writer at ha
  cases act_cases ha with
  | launch _ hmay =>
    obtain ⟨hbind, hu⟩ := Option.filter_eq_some_iff.mp hwriter.symm
    obtain ⟨k, rfl, hheld⟩ := Option.bind_eq_some_iff.mp hbind
    obtain ⟨wh, hk, hstate⟩ := Option.bind_eq_some_iff.mp hheld
    obtain ⟨b', x', hb', hx', haim⟩ := hm.aimed k wh hs hk hstate (inUse_iff.mp hu)
    obtain rfl := hst.state_unique hb hb' hx hx'
    obtain rfl := Option.some.inj (hb.symm.trans hb')
    have htarget : (s.workOf r (some k)).target = some a := by
      simp [workOf, hk, haim, hptr]
    refine ⟨rfl, rfl, (s.workOf r (some k)).source, ?_⟩
    rw [← htarget]
    simp [enqueue, Gpu.enqueue, Gpu.here]

/-- The run lemma: a write that is launched in the middle of a run. -/
lemma run_write_released {ops : List (Operation × Output)} (hrun : Run act {} ops s)
    (hg : Every act WriterSettled {} ops) {pre post : List (Operation × Output)} {r w : Option ℕ}
    {t : Process} (hops : ops = pre ++ (.launch st r w, .launched p (some hs)) :: post)
    (ht : Run act {} pre t) (hb : t.buffers b = some x) (hx : x.handleState = some hs)
    (hptr : x.devicePtr = some a) (howns : x.ownsWriteEvent = true) (hev : x.writeEvent ≠ none)
    (hne : st ≠ none) :
    (∃ src, (s.gpu.queue p.stream)[p.position]? = some (.work ⟨src, some a⟩)) ∧
      (s.deleted a ≠ 0 → s.done p = true) := by
  rw [hops] at hrun hg
  obtain ⟨s₁, hpre, hrest⟩ := run_append_iff.mp hrun
  obtain rfl := hpre.unique ht
  obtain ⟨s₂, hlaunch, hpost⟩ := run_cons_iff.mp hrest
  obtain ⟨hst, hw, hm⟩ := run_manned hpre hg.init
  have hsuffix := hg.suffix hpre
  obtain ⟨hgood, htail⟩ := hsuffix.cons hlaunch
  obtain ⟨hstream, hbuffers, src, hqueue⟩ := launched_target hst hm hlaunch hb hx hptr
  obtain ⟨ev, hevent⟩ := Option.ne_none_iff_exists'.mp hev
  have hst₂ := act_stocked hst hlaunch
  have hfenced : Fenced s₂ a hs p := .inl
    ⟨⟨b, x, ev, hbuffers ▸ hb, hptr, hx, hevent, howns⟩, launched_awaits hw hlaunch⟩
  have hlast := run_fenced hst₂ (act_writers hst hw hgood hlaunch)
    (act_manned hst hw hm hgood hlaunch) (hstream ▸ hne) hfenced hpost htail
  refine ⟨⟨src, (run_extends hpost).getElem hqueue⟩, fun hd => ?_⟩
  obtain ⟨hback, hqueued⟩ : ¬ Backed s a hs ∧ ¬ Queued s a p :=
    not_held_of_deleted (run_stocked hrun) hd
  obtain ⟨h, -⟩ | h | h := hlast
  · exact absurd h hback
  · exact absurd h hqueued
  · exact decide_eq_true h

end Runs

end RosidlBufferBackends.Buffers
