import RosidlBufferBackends.Buffers.WriteOrder

/-! Where the buffers of a process come from, and which write events are not recorded
any more. -/

namespace RosidlBufferBackends.Buffers

open Streams Runs Process Inventory

variable {s s' : Process} {o : Operation} {out : Output} {b hs ev a : ℕ} {x y : CudaBuffer}
  {st : Stream}

/-- The buffer has been kept, or moved, or got its handle state. -/
structure Descends (s : Process) (o : Operation) (x : CudaBuffer) (b : ℕ) (y : CudaBuffer) :
    Prop where
  held : s.buffers b = some y
  devicePtr : x.devicePtr = y.devicePtr
  writeEvent : x.writeEvent = y.writeEvent
  handleState : x.handleState = y.handleState ∨
    y.handleState = none ∧ x.handleState ≠ none ∧ ∃ st, o = .getWriteHandle b st

structure Created (s : Process) (x : CudaBuffer) : Prop where
  devicePtr : ∀ a, x.devicePtr = some a → a = s.nextAllocation
  writeEvent : x.writeEvent = none

/-- A new write event has been set. -/
structure Equipped (s : Process) (o : Operation) (x : CudaBuffer) (b : ℕ) (y : CudaBuffer) :
    Prop where
  held : s.buffers b = some y
  devicePtr : x.devicePtr = y.devicePtr
  writeEvent : x.writeEvent = some s.nextEvent
  called : ∃ owns, o = .setWriteEvent b owns

def Stems (s : Process) (o : Operation) (x : CudaBuffer) : Prop :=
  Created s x ∨ (∃ b y, Descends s o x b y) ∨ ∃ b y, Equipped s o x b y

section Stems

lemma Descends.same (hb : s.buffers b = some x) : Descends s o x b x := ⟨hb, rfl, rfl, .inl rfl⟩

lemma stems_of_held (hb : s.buffers b = some x) : Stems s o x := .inr (.inl ⟨b, x, .same hb⟩)

lemma stems_of_update {u : Process} {b' : ℕ} {y : Option CudaBuffer} (hb : u.buffers b = some x)
    (hu : u.buffers = Function.update s.buffers b' y) (hy : ∀ z, y = some z → Stems s o z) :
    Stems s o x := by
  rw [hu] at hb
  rcases update_some hb with ⟨_, he⟩ | ⟨_, hb⟩
  · exact hy x he
  · exact stems_of_held hb

lemma stems_reaped (hx : s.buffers b = some x) : Stems s o (s.pending x) :=
  .inr (.inl ⟨b, x, hx, rfl, rfl, .inl rfl⟩)

lemma releaseRead_stems {rh : ReadHandle} (hb : (s.releaseRead rh).buffers b = some x) :
    Stems s o x := by
  rcases releaseRead_cases s rh with ⟨he, _⟩ | ⟨b', y, _, hy, he⟩
  · exact stems_of_held (he ▸ hb)
  · rw [he] at hb
    refine stems_of_update (s := s) (u := { s with buffers := _ }) hb rfl ?_
    rintro z ⟨rfl⟩
    exact .inr (.inl ⟨b', y, hy, rfl, rfl, .inl rfl⟩)

lemma releaseWrite_buffers (s : Process) (wh : WriteHandle) :
    (s.releaseWrite wh).buffers = s.buffers := by
  obtain ⟨recorded, states, he, _⟩ := releaseWrite_frame s wh
  rw [he]

lemma act_stems (ha : s.act o = some (out, s')) (hb : s'.buffers b = some x) : Stems s o x := by
  have hcreated : ∀ {z}, Created s z → ∀ w, some z = some w → Stems s o w := by
    rintro z hz w ⟨rfl⟩
    exact .inl hz
  have hheld : ∀ {b' z}, s.buffers b' = some z → ∀ w, some z = some w → Stems s o w := by
    rintro b' z hz w ⟨rfl⟩
    exact stems_of_held hz
  have hempty : Created s {} := ⟨nofun, rfl⟩
  cases act_cases ha with
  | constructDefault => exact stems_of_update hb rfl (hcreated hempty)
  | construct size =>
    exact stems_of_update hb rfl (hcreated ⟨fun _ h => (Option.some.inj h).symm, rfl⟩)
  | @setWriteEvent b' owns y hy =>
    refine stems_of_update hb rfl ?_
    rintro z ⟨rfl⟩
    exact .inr (.inr ⟨b', y, hy, rfl, rfl, owns, rfl⟩)
  | @moveConstruct b' y hy =>
    rcases update_some hb with ⟨_, he⟩ | ⟨_, hb⟩
    · exact hheld hy x he
    · exact stems_of_update (u := s.setBuffer b' (some {})) hb rfl (hcreated hempty)
  | @moveAssign b₁ b₂ y₁ y₂ h₁ h₂ _ =>
    rcases update_some hb with ⟨_, he⟩ | ⟨_, hb⟩
    · exact hheld h₁ x he
    · exact stems_of_update (u := s.setBuffer b₁ (some y₂)) hb rfl (hheld h₂)
  | @destroy b' y _ _ =>
    obtain ⟨queue, deleted, he⟩ := destroy_frame s b' y
    rw [he] at hb
    exact stems_of_update (s := s) (u := { s with buffers := _ }) hb rfl nofun
  | @getReadHandle b' y st hy =>
    obtain ⟨gpu, recorded, states, he, _⟩ := getReadHandle_frame s b' y st
    rw [he] at hb
    refine stems_of_update (s := s) (u := { s with buffers := _ }) hb rfl ?_
    rintro z ⟨rfl⟩
    exact stems_reaped hy
  | @refused b' y st e hy =>
    refine stems_of_update hb rfl ?_
    rintro z ⟨rfl⟩
    exact stems_reaped hy
  | @granted b' hs y st hy _ _ _ =>
    refine stems_of_update (u := s.reapCompletedReadEvents b' y) hb rfl ?_
    rintro z ⟨rfl⟩
    exact stems_reaped hy
  | @grantedFirst b' y st hy _ hnone =>
    rcases update_some hb with ⟨_, he⟩ | ⟨_, hb⟩
    · obtain rfl := Option.some.inj he
      exact .inr (.inl ⟨b', y, hy, rfl, rfl, .inr ⟨hnone, nofun, st, rfl⟩⟩)
    · refine stems_of_update (u := s.reapCompletedReadEvents b' y) hb rfl ?_
      rintro z ⟨rfl⟩
      exact stems_reaped hy
  | @finalizeWriteHandle b' y hy =>
    obtain ⟨recorded, states, he, _⟩ := finalizeWriteHandle_frame s y
    rw [he] at hb
    exact stems_of_held hb
  | assignRead _ _ _ => exact releaseRead_stems hb
  | closeRead _ => exact releaseRead_stems hb
  | @assignWrite _ _ wh _ _ _ _ => exact stems_of_held ((releaseWrite_buffers s wh) ▸ hb)
  | @closeWrite _ wh _ => exact stems_of_held ((releaseWrite_buffers s wh) ▸ hb)
  | recycle _ _ =>
    rw [delete_frame] at hb
    exact stems_of_held hb
  | _ => exact stems_of_held hb

end Stems

/-- No handle of a buffer with the event has still to record it. -/
def Closed (s : Process) (ev : ℕ) : Prop :=
  ∀ b x hs, s.buffers b = some x → x.writeEvent = some ev → x.handleState = some hs →
    (s.states hs).state = .finalized

structure Resting (s : Process) (ev : ℕ) : Prop where
  lt : ev < s.nextEvent
  closed : Closed s ev

/-- A writer of every buffer with the event has been granted. -/
def Written (s : Process) (ev : ℕ) : Prop :=
  ∀ b x, s.buffers b = some x → x.writeEvent = some ev → x.handleState ≠ none

/-- All buffers with the allocation have the event. -/
structure Carries (s : Process) (a ev : ℕ) : Prop where
  lt : a < s.nextAllocation
  event : ∀ b x, s.buffers b = some x → x.devicePtr = some a → x.writeEvent = some ev

/-- The operation grants no write handle of a buffer with the event, and sets no other
event of one. -/
def Reads (s : Process) (ev : ℕ) (o : Operation) : Prop :=
  ∀ b x, s.buffers b = some x → x.writeEvent = some ev →
    (∀ st, o ≠ .getWriteHandle b st) ∧ ∀ owns, o ≠ .setWriteEvent b owns

section States

lemma Closes.states (h : Closes s hs s') {hs' : ℕ} (hf : (s.states hs').state = .finalized) :
    (s'.states hs').state = .finalized := by
  obtain ⟨b, x, _, _, _, rfl⟩ := h
  by_cases hx : hs' = hs
  · subst hx
    simp [setState]
  · rw [recordWrite_eq]
    simpa [setState, Function.update_of_ne hx] using hf

lemma finalizeWriteHandle_states (hb : s.buffers b = some x) (hy : y.handleState = x.handleState)
    (he : y.writeEvent = x.writeEvent) {hs' : ℕ} (hf : (s.states hs').state = .finalized) :
    ((s.finalizeWriteHandle y).states hs').state = .finalized := by
  rcases finalizeWriteHandle_closes hb hy he with ⟨heq, _⟩ | ⟨_, _, hc⟩
  · rwa [heq]
  · exact hc.states hf

lemma releaseWrite_states (hw : Writers s) {w : ℕ} {wh : WriteHandle}
    (hk : s.writeHandles w = some wh) (hf : (s.states hs).state = .finalized) :
    ((s.releaseWrite wh).states hs).state = .finalized := by
  rcases releaseWrite_closes hw hk with heq | ⟨_, hc⟩
  · rwa [heq]
  · exact hc.states hf

lemma releaseRead_states (s : Process) (rh : ReadHandle) :
    (s.releaseRead rh).states = s.states := by
  rcases releaseRead_cases s rh with ⟨he, _⟩ | ⟨_, _, _, _, he⟩
  · rw [he]
  · rw [he]

lemma act_finalized (hw : Writers s) (hlt : hs < s.nextState)
    (hf : (s.states hs).state = .finalized) (ha : s.act o = some (out, s')) :
    (s'.states hs).state = .finalized := by
  cases act_cases ha with
  | @destroy b x _ _ =>
    obtain ⟨queue, deleted, he⟩ := destroy_frame s b x
    rwa [he]
  | @getReadHandle b x st hb =>
    rw [getReadHandle_eq]
    obtain ⟨gpu, he, _⟩ := waitForWrite_frame (readyToRead s b x) x st
    rw [he]
    exact finalizeWriteHandle_states (reaped_buffer s b x) rfl rfl hf
  | @granted b hs' x st _ _ _ hunset =>
    have hne : hs ≠ hs' := by
      rintro rfl
      exact nomatch hunset.symm.trans hf
    exact (congrArg HandleState.state (Function.update_of_ne hne _ s.states)).trans hf
  | grantedFirst _ _ _ =>
    exact (congrArg HandleState.state (Function.update_of_ne hlt.ne _ s.states)).trans hf
  | finalizeWriteHandle hb => exact finalizeWriteHandle_states hb rfl rfl hf
  | @assignRead _ _ rh _ _ _ _ => exact (releaseRead_states s rh) ▸ hf
  | @closeRead _ rh _ => exact (releaseRead_states s rh) ▸ hf
  | assignWrite hk _ _ => exact releaseWrite_states hw hk hf
  | closeWrite hk => exact releaseWrite_states hw hk hf
  | recycle _ _ => rwa [delete_frame]
  | _ => exact hf

end States

section Events

lemma Closes.recorded (h : Closed s ev) (hc : Closes s hs s') : s'.recorded ev = s.recorded ev := by
  obtain ⟨b, x, hb, hx, hu, rfl⟩ := hc
  have hne : x.writeEvent ≠ some ev := by
    intro he
    exact nomatch (inUse_iff.mp hu).symm.trans (h b x hs hb he hx)
  rw [recordWrite_eq]
  exact if_neg fun he => hne he.1

lemma finalizeWriteHandle_recorded (h : Closed s ev) (hb : s.buffers b = some x)
    (hy : y.handleState = x.handleState) (he : y.writeEvent = x.writeEvent) :
    (s.finalizeWriteHandle y).recorded ev = s.recorded ev := by
  rcases finalizeWriteHandle_closes hb hy he with ⟨heq, _⟩ | ⟨_, _, hc⟩
  · rw [heq]
  · exact hc.recorded h

lemma releaseWrite_recorded (h : Closed s ev) (hw : Writers s) {w : ℕ} {wh : WriteHandle}
    (hk : s.writeHandles w = some wh) : (s.releaseWrite wh).recorded ev = s.recorded ev := by
  rcases releaseWrite_closes hw hk with heq | ⟨_, hc⟩
  · rw [heq]
  · exact hc.recorded h

lemma releaseRead_recorded (rh : ReadHandle)
    (hev : ev < s.nextEvent ∨ (s.releaseRead rh).nextEvent ≤ ev) :
    (s.releaseRead rh).recorded ev = s.recorded ev := by
  rcases releaseRead_cases s rh with ⟨he, _⟩ | ⟨_, _, _, _, he⟩
  · rw [he]
  · rw [he] at hev ⊢
    have hne : ev ≠ s.nextEvent := by
      have hev : ev < s.nextEvent ∨ s.nextEvent + 1 ≤ ev := hev
      omega
    exact Function.update_of_ne hne _ _

lemma Closed.reap (h : Closed s ev) (hb : s.buffers b = some x) :
    Closed (s.reapCompletedReadEvents b x) ev := by
  intro b' y hs hy hev hhs
  rcases update_some hy with ⟨_, he⟩ | ⟨_, hy⟩
  · obtain rfl := Option.some.inj he
    exact h b x hs hb hev hhs
  · exact h b' y hs hy hev hhs

/-- Of the events that no handle has still to record, only a new one is recorded. -/
lemma act_still (h : Closed s ev) (hw : Writers s) (hev : ev < s.nextEvent ∨ s'.nextEvent ≤ ev)
    (ha : s.act o = some (out, s')) : s'.recorded ev = s.recorded ev := by
  cases act_cases ha with
  | @destroy b x _ _ =>
    obtain ⟨queue, deleted, he⟩ := destroy_frame s b x
    rw [he]
  | @getReadHandle b x st hb =>
    rw [getReadHandle_eq]
    obtain ⟨gpu, he, _⟩ := waitForWrite_frame (readyToRead s b x) x st
    rw [he]
    exact finalizeWriteHandle_recorded (h.reap hb) (reaped_buffer s b x) rfl rfl
  | finalizeWriteHandle hb => exact finalizeWriteHandle_recorded h hb rfl rfl
  | assignRead _ _ _ => exact releaseRead_recorded _ hev
  | closeRead _ => exact releaseRead_recorded _ hev
  | assignWrite hk _ _ => exact releaseWrite_recorded h hw hk
  | closeWrite hk => exact releaseWrite_recorded h hw hk
  | recycle _ _ => rw [delete_frame]
  | _ => rfl

lemma releaseRead_counters (s : Process) (rh : ReadHandle) :
    s.nextEvent ≤ (s.releaseRead rh).nextEvent ∧
      s.nextAllocation ≤ (s.releaseRead rh).nextAllocation := by
  rcases releaseRead_cases s rh with ⟨he, _⟩ | ⟨_, _, _, _, he⟩
  · rw [he]
    exact ⟨le_rfl, le_rfl⟩
  · rw [he]
    exact ⟨Nat.le_succ _, le_rfl⟩

lemma act_counters (ha : s.act o = some (out, s')) :
    s.nextEvent ≤ s'.nextEvent ∧ s.nextAllocation ≤ s'.nextAllocation := by
  cases act_cases ha with
  | construct size => exact ⟨le_rfl, Nat.le_succ _⟩
  | setWriteEvent _ => exact ⟨Nat.le_succ _, le_rfl⟩
  | @destroy b x _ _ =>
    obtain ⟨queue, deleted, he⟩ := destroy_frame s b x
    rw [he]
    exact ⟨le_rfl, le_rfl⟩
  | @getReadHandle b x st _ =>
    obtain ⟨gpu, recorded, states, he, _⟩ := getReadHandle_frame s b x st
    rw [he]
    exact ⟨le_rfl, le_rfl⟩
  | @finalizeWriteHandle b x _ =>
    obtain ⟨recorded, states, he, _⟩ := finalizeWriteHandle_frame s x
    rw [he]
    exact ⟨le_rfl, le_rfl⟩
  | assignRead _ _ _ => exact releaseRead_counters s _
  | closeRead _ => exact releaseRead_counters s _
  | @assignWrite _ _ wh _ _ _ _ =>
    obtain ⟨recorded, states, he, _⟩ := releaseWrite_frame s wh
    rw [he]
    exact ⟨le_rfl, le_rfl⟩
  | @closeWrite _ wh _ =>
    obtain ⟨recorded, states, he, _⟩ := releaseWrite_frame s wh
    rw [he]
    exact ⟨le_rfl, le_rfl⟩
  | recycle _ _ =>
    rw [delete_frame]
    exact ⟨le_rfl, le_rfl⟩
  | _ => exact ⟨le_rfl, le_rfl⟩

/-- A resting event rests on, when no first writer of a buffer with it is granted. -/
lemma act_resting (hst : Stocked s) (hw : Writers s) (h : Resting s ev)
    (hg : ∀ b x, s.buffers b = some x → x.writeEvent = some ev → x.handleState = none →
      ∀ st, o ≠ .getWriteHandle b st) (ha : s.act o = some (out, s')) : Resting s' ev := by
  refine ⟨h.lt.trans_le (act_counters ha).1, ?_⟩
  intro b x hs hb hev hhs
  rcases act_stems ha hb with hc | ⟨b', y, hd⟩ | ⟨b', y, he⟩
  · exact nomatch hc.writeEvent.symm.trans hev
  · have hy := hd.writeEvent.symm.trans hev
    rcases hd.handleState with heq | ⟨hnone, _, st, ho⟩
    · have hyhs := heq.symm.trans hhs
      exact act_finalized hw (hst.state_lt hd.held hyhs) (h.closed b' y hs hd.held hy hyhs) ha
    · exact absurd ho (hg b' y hd.held hy hnone st)
  · obtain rfl := Option.some.inj (he.writeEvent.symm.trans hev)
    exact absurd h.lt (lt_irrefl _)

lemma act_written (hlt : ev < s.nextEvent) (h : Written s ev) (ha : s.act o = some (out, s')) :
    Written s' ev := by
  intro b x hb hev
  rcases act_stems ha hb with hc | ⟨b', y, hd⟩ | ⟨b', y, he⟩
  · exact nomatch hc.writeEvent.symm.trans hev
  · rcases hd.handleState with heq | ⟨_, hne, _⟩
    · rw [heq]
      exact h b' y hd.held (hd.writeEvent.symm.trans hev)
    · exact hne
  · obtain rfl := Option.some.inj (he.writeEvent.symm.trans hev)
    exact absurd hlt (lt_irrefl _)

lemma act_carries (h : Carries s a ev) (hg : Reads s ev o) (ha : s.act o = some (out, s')) :
    Carries s' a ev := by
  refine ⟨h.lt.trans_le (act_counters ha).2, ?_⟩
  intro b x hb hptr
  rcases act_stems ha hb with hc | ⟨b', y, hd⟩ | ⟨b', y, he⟩
  · exact absurd h.lt (hc.devicePtr a hptr ▸ lt_irrefl _)
  · rw [hd.writeEvent]
    exact h.event b' y hd.held (hd.devicePtr.symm.trans hptr)
  · obtain ⟨owns, ho⟩ := he.called
    have hy := h.event b' y he.held (he.devicePtr.symm.trans hptr)
    exact absurd ho ((hg b' y he.held hy).2 owns)

end Events

/-- What holds of a process between any two operations. -/
structure Healthy (s : Process) : Prop where
  stocked : Stocked s
  writers : Writers s
  orderly : s.gpu.Orderly
  unrecorded : ∀ ev, s.nextEvent ≤ ev → s.recorded ev = none

lemma healthy_initial : Healthy {} := by
  refine ⟨stocked_initial, ⟨nofun, nofun⟩, ⟨fun _ => le_rfl, nofun⟩, fun _ _ => rfl⟩

lemma Stocked.closed_fresh (h : Stocked s) (hev : s.nextEvent ≤ ev) : Closed s ev := by
  intro b x hs hb he _
  exact absurd (h.event_lt hb he) (not_lt.mpr hev)

lemma act_healthy (h : Healthy s) (hg : WriterSettled s o out) (ha : s.act o = some (out, s')) :
    Healthy s' := by
  refine ⟨act_stocked h.stocked ha, act_writers h.stocked h.writers hg ha, act_orderly h.orderly ha,
    ?_⟩
  intro ev hev
  have hle := (act_counters ha).1.trans hev
  rw [act_still (h.stocked.closed_fresh hle) h.writers (.inr hev) ha]
  exact h.unrecorded ev hle

lemma act_rests (h : Healthy s) (hr : Resting s ev) (hw : Written s ev)
    (ha : s.act o = some (out, s')) :
    Resting s' ev ∧ Written s' ev ∧ s'.recorded ev = s.recorded ev := by
  refine ⟨?_, act_written hr.lt hw ha, act_still hr.closed h.writers (.inl hr.lt) ha⟩
  exact act_resting h.stocked h.writers hr (fun b x hb he hnone _ _ => hw b x hb he hnone) ha

lemma act_reads (h : Healthy s) (hr : Resting s ev) (hg : Reads s ev o)
    (ha : s.act o = some (out, s')) : Resting s' ev ∧ s'.recorded ev = s.recorded ev := by
  refine ⟨?_, act_still hr.closed h.writers (.inl hr.lt) ha⟩
  exact act_resting h.stocked h.writers hr (fun b x hb he _ => (hg b x hb he).1) ha

section Runs

variable {tr : List (Operation × Output)} {u : Process} {p : Point Stream} {imported : ℕ → Prop}

/-- The operation settles its writers, and only reads the buffers with an event of
another process. -/
def Careful (imported : ℕ → Prop) (s : Process) (o : Operation) (out : Output) : Prop :=
  WriterSettled s o out ∧ ∀ ev, imported ev → Reads s ev o

lemma run_healthy (h : Healthy s) (hr : Run act s tr u) (hg : Every act (Careful imported) s tr) :
    Healthy u := by
  refine hr.induction_every (P := fun _ t => Healthy t) hg h ?_
  intro _ t o out t' _ ht hgood ha
  exact act_healthy ht hgood.1 ha

lemma run_keeps {P : Process → Prop} (hP : ∀ t o out t', Healthy t → Careful imported t o out →
      t.act o = some (out, t') → P t → P t') (h : Healthy s) (hs : P s) (hr : Run act s tr u)
    (hg : Every act (Careful imported) s tr) : P u := by
  refine (hr.induction_every (P := fun _ t => Healthy t ∧ P t) hg ⟨h, hs⟩ ?_).2
  rintro _ t o out t' _ ⟨hh, ht⟩ hgood ha
  exact ⟨act_healthy hh hgood.1 ha, hP t o out t' hh hgood ha ht⟩

lemma run_awaiting (h : Healthy s) (hr : Run act s tr u) (hg : Every act (Careful imported) s tr)
    (ha : Awaits s hs p) : Awaits u hs p :=
  run_keeps (P := fun t => Awaits t hs p)
    (fun _ _ _ _ hh hgood hact ht => act_awaits hh.stocked hh.writers hgood.1 hact ht) h ha hr hg

lemma run_finalized (h : Healthy s) (hr : Run act s tr u) (hg : Every act (Careful imported) s tr)
    (hlt : hs < s.nextState) (hf : (s.states hs).state = .finalized) :
    hs < u.nextState ∧ (u.states hs).state = .finalized := by
  refine run_keeps (P := fun t => hs < t.nextState ∧ (t.states hs).state = .finalized) ?_ h
    ⟨hlt, hf⟩ hr hg
  rintro t o out t' hh _ ha ⟨hlt, hf⟩
  exact ⟨hlt.trans_le (act_nextState ha), act_finalized hh.writers hlt hf ha⟩

lemma run_rests (h : Healthy s) (hr : Run act s tr u) (hg : Every act (Careful imported) s tr)
    (hrest : Resting s ev) (hw : Written s ev) :
    Resting u ev ∧ Written u ev ∧ u.recorded ev = s.recorded ev := by
  refine run_keeps (P := fun t => Resting t ev ∧ Written t ev ∧ t.recorded ev = s.recorded ev)
    ?_ h ⟨hrest, hw, rfl⟩ hr hg
  rintro t o out t' hh _ ha ⟨hrest, hw, hrec⟩
  obtain ⟨hrest', hw', hrec'⟩ := act_rests hh hrest hw ha
  exact ⟨hrest', hw', hrec'.trans hrec⟩

lemma run_reads (h : Healthy s) (hr : Run act s tr u) (hg : Every act (Careful imported) s tr)
    (hi : imported ev) (hrest : Resting s ev) : Resting u ev ∧ u.recorded ev = s.recorded ev := by
  refine run_keeps (P := fun t => Resting t ev ∧ t.recorded ev = s.recorded ev) ?_ h ⟨hrest, rfl⟩
    hr hg
  rintro t o out t' hh hgood ha ⟨hrest, hrec⟩
  obtain ⟨hrest', hrec'⟩ := act_reads hh hrest (hgood.2 ev hi) ha
  exact ⟨hrest', hrec'.trans hrec⟩

lemma run_carries (h : Healthy s) (hr : Run act s tr u) (hg : Every act (Careful imported) s tr)
    (hi : imported ev) (hc : Carries s a ev) : Carries u a ev :=
  run_keeps (P := fun t => Carries t a ev)
    (fun _ _ _ _ _ hgood hact ht => act_carries ht (hgood.2 ev hi) hact) h hc hr hg

end Runs

end RosidlBufferBackends.Buffers
