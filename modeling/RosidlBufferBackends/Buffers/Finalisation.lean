import RosidlBufferBackends.Buffers.Effects

/-! The write event of a producer, from the grant of its write handle on. -/

namespace RosidlBufferBackends.Buffers.Finalisation

open Streams Runs Process Inventory

variable {s s' : Process} {o : Operation} {out : Output} {b b' ev w : ℕ} {x y : CudaBuffer}
  {hs : Option ℕ} {z : HandleState}

/-- The handle state of a buffer that has none yet is unset. -/
def stateOf (s : Process) (b : ℕ) : HandleState.State :=
  ((s.buffers b).bind CudaBuffer.handleState).elim .unset (fun hs => (s.states hs).state)

/-- The handle owns the write of the buffer. -/
def owning (s : Process) (b w : ℕ) : Bool :=
  (s.writeHandles w).any (fun wh => wh.state.isSome &&
    decide (wh.state = (s.buffers b).bind CudaBuffer.handleState))

/-- The operation ends an open write of the buffer. -/
def finalises (s : Process) (b : ℕ) : Operation → Bool
  | .getReadHandle b' _ | .finalizeWriteHandle b' => b' = b
  | .assignWrite w other => owning s b w && decide (w ≠ other)
  | .closeWrite w => owning s b w
  | _ => false

/-- The buffer stays with its write event, and is written on usable streams. -/
def Keeps (b : ℕ) : Operation → Prop
  | .setWriteEvent b' _ | .destroy b' => b' ≠ b
  | .getWriteHandle b' st => b' = b → cudaIsStreamUsable st = true
  | o => Unmoved b o

section States

/-- The handle state of a write that is finalized. -/
def closed : HandleState := { state := .finalized, writeStream := none }

/-- A write handle is granted for a buffer that has not been written. -/
structure Granted (s : Process) (b k : ℕ) (st : Stream) (o : Operation) (out : Output)
    (s' : Process) : Prop where
  operation : o = .getWriteHandle b st
  output : out = .writing k
  state : s'.states k = { state := .inUse, writeStream := st }
  fresh : ∃ x, s.buffers b = some x ∧ (x.handleState = some k ∧ (s.states k).state = .unset ∨
    x.handleState = none ∧ k = s.nextState)

/-- An operation that finalizes no write changes the state that it uses for a new one. -/
lemma act_state (hq : touches o = false) (ha : s.act o = some (out, s')) (k : ℕ) :
    s'.states k = s.states k ∨ ∃ b st, Granted s b k st o out s' := by
  cases act_cases ha with
  | @destroy b buf _ _ =>
    obtain ⟨queue, deleted, he⟩ := destroy_frame s b buf
    rw [he]
    exact .inl rfl
  | @granted b hs buf st hb _ hhs hunset =>
    by_cases hk : k = hs
    · subst hk
      exact .inr ⟨b, st, rfl, rfl, Function.update_self .., buf, hb, .inl ⟨hhs, hunset⟩⟩
    · exact .inl (Function.update_of_ne hk _ _)
  | @grantedFirst b buf st hb _ hhs =>
    by_cases hk : k = s.nextState
    · subst hk
      exact .inr ⟨b, st, rfl, rfl, Function.update_self .., buf, hb, .inr ⟨hhs, rfl⟩⟩
    · exact .inl (Function.update_of_ne hk _ _)
  | recycle _ _ =>
    rw [delete_frame]
    exact .inl rfl
  | getReadHandle _ | finalizeWriteHandle _ | assignRead _ _ _ | closeRead _
  | assignWrite _ _ _ | closeWrite _ => exact nomatch hq
  | _ => exact .inl rfl

/-- The buffer has a write event, its handle state `hs` is `z`, and the handles that point to
its event are those that share its state. -/
structure Producer (s : Process) (b ev : ℕ) (hs : Option ℕ) (z : HandleState) : Prop where
  buffer : ∃ x, s.buffers b = some x ∧ x.writeEvent = some ev ∧ x.handleState = hs
  unset : hs = none → z = {}
  state : ∀ k, hs = some k → s.states k = z ∧ z.state ≠ .unset
  usable : z.state = .inUse → cudaIsStreamUsable z.writeStream = true
  pointing : ∀ w wh, s.writeHandles w = some wh → wh.writeEventPtr = some b →
    wh.state = hs ∧ hs ≠ none
  sharing : ∀ w wh k, s.writeHandles w = some wh → hs = some k → wh.state = some k →
    wh.writeEventPtr = some b

lemma Producer.stateOf (h : Producer s b ev hs z) : stateOf s b = z.state := by
  obtain ⟨x, hx, -, hhs⟩ := h.buffer
  unfold Finalisation.stateOf
  rw [hx, Option.bind_some, hhs]
  cases hs with
  | none => rw [h.unset rfl]; rfl
  | some k => rw [Option.elim_some, (h.state k rfl).1]

/-- The recordings of the event of the producer. -/
def ofEvent (ev : ℕ) (l : List Recording) : List Recording := l.filter (fun r => r.1 = ev)

/-- An operation that ends the open write of the producer records its event; any other one
leaves it alone. -/
structure Settles (ev : ℕ) (hs : Option ℕ) (z : HandleState) (states : ℕ → HandleState)
    (l : List Recording) (ending : Bool) : Prop where
  records : ofEvent ev l = if z.state = .inUse ∧ ending = true then [(ev, z.writeStream)] else []
  state : ∀ k, hs = some k → states k = if z.state = .inUse ∧ ending = true then closed else z

variable {states : ℕ → HandleState} {l : List Recording} {ending : Bool}

lemma settles_kept (hn : z.state = .inUse → ending = false) (hl : ∀ r ∈ l, r.1 ≠ ev)
    (hs' : ∀ k, hs = some k → states k = z) : Settles ev hs z states l ending := by
  have hcond : ¬ (z.state = .inUse ∧ ending = true) := by
    rintro ⟨hu, he⟩
    exact Bool.false_ne_true ((hn hu).symm.trans he)
  constructor
  · rw [if_neg hcond]
    apply List.filter_eq_nil_iff.mpr
    intro r hr
    simpa using hl r hr
  · intro k hk
    rw [if_neg hcond]
    exact hs' k hk

lemma settles_closed (hu : z.state = .inUse) (he : ending = true) (hl : l = [(ev, z.writeStream)])
    (hs' : ∀ k, hs = some k → states k = closed) : Settles ev hs z states l ending := by
  constructor
  · rw [if_pos ⟨hu, he⟩, hl]
    simp [ofEvent]
  · intro k hk
    rw [if_pos ⟨hu, he⟩]
    exact hs' k hk

lemma recordWrite_states (s : Process) (event : Option ℕ) (st : Stream) :
    (s.recordWrite event st).states = s.states := by
  obtain ⟨recorded, he, -⟩ := recordWrite_frame s event st
  rw [he]

lemma mem_recordedWrite {event : Option ℕ} {st : Stream} {r : Recording}
    (h : r ∈ recordedWrite event st) : event = some r.1 := by
  unfold recordedWrite at h
  cases event with
  | none => exact absurd h List.not_mem_nil
  | some ev =>
    dsimp only at h
    split_ifs at h
    · rw [List.mem_singleton.mp h]
    · exact absurd h List.not_mem_nil

lemma recordedWrite_usable {st : Stream} (h : cudaIsStreamUsable st = true) :
    recordedWrite (some ev) st = [(ev, st)] := by
  unfold recordedWrite
  dsimp only
  rw [if_pos h]

lemma mem_finalizeRecords {r : Recording} (h : r ∈ finalizeRecords s y) :
    y.writeEvent = some r.1 := by
  unfold finalizeRecords at h
  cases hy : y.handleState with
  | none =>
    rw [hy] at h
    exact absurd h List.not_mem_nil
  | some k =>
    simp only [hy] at h
    split_ifs at h
    · exact mem_recordedWrite h
    · exact absurd h List.not_mem_nil

lemma finalizeWriteHandle_state {k : ℕ} (hy : y.handleState ≠ some k) :
    (s.finalizeWriteHandle y).states k = s.states k := by
  unfold finalizeWriteHandle
  cases hk : y.handleState with
  | none => rfl
  | some k' =>
    dsimp only
    unfold finalizeWriteHandleLocked
    split_ifs
    · have hne : k ≠ k' := by
        rintro rfl
        exact hy hk
      refine (Function.update_of_ne hne _ _).trans ?_
      rw [recordWrite_states]
    · rfl

lemma finalize_settles (hst : Stocked s) (h : Producer s b ev hs z) (hb' : s.buffers b' = some x)
    (he : y.writeEvent = x.writeEvent) (hh : y.handleState = x.handleState) :
    Settles ev hs z (s.finalizeWriteHandle y).states (finalizeRecords s y) (decide (b' = b)) := by
  obtain ⟨xb, hb, hev, hhs⟩ := h.buffer
  by_cases hx : b' = b
  · subst hx
    obtain rfl := Option.some.inj (hb'.symm.trans hb)
    unfold finalizeWriteHandle finalizeRecords
    rw [hh, hhs, he, hev]
    cases hs with
    | none =>
      refine settles_kept ?_ (fun _ hr => absurd hr List.not_mem_nil) nofun
      rw [h.unset rfl]
      exact nofun
    | some k =>
      obtain ⟨hz, -⟩ := h.state k rfl
      dsimp only
      unfold finalizeWriteHandleLocked
      rw [hz]
      split_ifs with hu
      · refine settles_closed hu (decide_eq_true rfl) (recordedWrite_usable (h.usable hu)) ?_
        rintro _ ⟨⟩
        exact Function.update_self ..
      · refine settles_kept (fun hu' => absurd hu' hu) (fun _ hr => absurd hr List.not_mem_nil) ?_
        rintro _ ⟨⟩
        exact hz
  · refine settles_kept (fun _ => decide_eq_false hx) ?_ ?_
    · rintro r hr rfl
      have hy := mem_finalizeRecords hr
      exact hx (hst.event_unique hb' hb (he.symm.trans hy) hev)
    · rintro k rfl
      rw [← (h.state k rfl).1]
      apply finalizeWriteHandle_state
      intro hy
      exact hx (hst.state_unique hb' hb (hh.symm.trans hy) hhs)

lemma mem_releaseWriteRecords {wh : WriteHandle} {r : Recording}
    (h : r ∈ releaseWriteRecords s wh) : s.writeEventAt wh = some r.1 := by
  unfold releaseWriteRecords at h
  cases hy : wh.state with
  | none =>
    rw [hy] at h
    exact absurd h List.not_mem_nil
  | some k =>
    simp only [hy] at h
    split_ifs at h
    · exact absurd h List.not_mem_nil
    · exact mem_recordedWrite h

lemma releaseWrite_state {wh : WriteHandle} {k : ℕ} (hw : wh.state ≠ some k) :
    (s.releaseWrite wh).states k = s.states k := by
  unfold releaseWrite
  cases hk : wh.state with
  | none => rfl
  | some k' =>
    dsimp only
    split_ifs
    · rfl
    · have hne : k ≠ k' := by
        rintro rfl
        exact hw hk
      refine (Function.update_of_ne hne _ _).trans ?_
      rw [recordWrite_states]

lemma owning_iff (h : Producer s b ev hs z) {wh : WriteHandle} (hw : s.writeHandles w = some wh) :
    owning s b w = true ↔ ∃ k, hs = some k ∧ wh.state = some k := by
  obtain ⟨x, hb, -, hhs⟩ := h.buffer
  simp only [owning, hw, hb, hhs, Option.any_some, Option.bind_some, Bool.and_eq_true,
    decide_eq_true_eq]
  constructor
  · rintro ⟨hsome, he⟩
    obtain ⟨k, hk⟩ := Option.isSome_iff_exists.mp hsome
    exact ⟨k, he.symm.trans hk, hk⟩
  · rintro ⟨k, rfl, hk⟩
    exact ⟨by rw [hk]; rfl, hk⟩

lemma release_settles (hst : Stocked s) (h : Producer s b ev hs z) {wh : WriteHandle}
    (hw : s.writeHandles w = some wh) :
    Settles ev hs z (s.releaseWrite wh).states (releaseWriteRecords s wh) (owning s b w) := by
  obtain ⟨x, hb, hev, hhs⟩ := h.buffer
  by_cases howns : owning s b w = true
  · obtain ⟨k, rfl, hk⟩ := (owning_iff h hw).mp howns
    obtain ⟨hz, hunset⟩ := h.state k rfl
    have hat : s.writeEventAt wh = some ev := by
      rw [writeEventAt, h.sharing w wh k hw rfl hk, Option.bind_some, hb, Option.bind_some, hev]
    unfold releaseWrite releaseWriteRecords
    rw [hk]
    dsimp only
    rw [hz, hat]
    split_ifs with hfin
    · refine settles_kept ?_ (fun _ hr => absurd hr List.not_mem_nil) ?_
      · rw [hfin]
        intro h
        cases h
      · rintro _ ⟨⟩
        exact hz
    · have hu : z.state = .inUse := by
        cases hstate : z.state with
        | unset => exact absurd hstate hunset
        | inUse => rfl
        | finalized => exact absurd hstate hfin
      have hstream : s.writeStreamOf wh k = z.writeStream := by
        rw [writeStreamOf, hz]
        exact if_pos (h.usable hu)
      rw [hstream]
      refine settles_closed hu howns (recordedWrite_usable (h.usable hu)) ?_
      rintro _ ⟨⟩
      exact Function.update_self ..
  · have hnot : ∀ k, hs = some k → wh.state ≠ some k := fun k hk hwk =>
      howns ((owning_iff h hw).mpr ⟨k, hk, hwk⟩)
    refine settles_kept (fun _ => Bool.not_eq_true _ ▸ howns) ?_ ?_
    · rintro r hr rfl
      obtain ⟨b', hptr, hx⟩ := Option.bind_eq_some_iff.mp (mem_releaseWriteRecords hr)
      obtain ⟨b'', hptr, hb''⟩ := Option.bind_eq_some_iff.mp hptr
      obtain rfl := hst.event_unique hb'' hb hx hev
      obtain ⟨hstate, hne⟩ := h.pointing w wh hw hptr
      obtain ⟨k, rfl⟩ := Option.ne_none_iff_exists'.mp hne
      exact hnot k rfl hstate
    · rintro k rfl
      rw [releaseWrite_state (hnot k rfl)]
      exact (h.state k rfl).1

lemma releaseRead_settles (hst : Stocked s) (h : Producer s b ev hs z) (rh : ReadHandle) :
    Settles ev hs z (s.releaseRead rh).states (releaseReadRecords s rh) false := by
  obtain ⟨x, hb, hev, -⟩ := h.buffer
  refine settles_kept (fun _ => rfl) ?_ ?_
  · have hlt := hst.event_lt hb hev
    intro r hr
    unfold releaseReadRecords at hr
    split at hr
    · exact absurd hr List.not_mem_nil
    · split_ifs at hr
      · split at hr
        · exact absurd hr List.not_mem_nil
        · rw [List.mem_singleton.mp hr]
          exact hlt.ne'
      · exact absurd hr List.not_mem_nil
  · intro k hk
    rcases releaseRead_cases s rh with ⟨he, -⟩ | ⟨b', y, -, -, he⟩
    · rw [he]
      exact (h.state k hk).1
    · rw [he]
      exact (h.state k hk).1

lemma getReadHandle_states (s : Process) (b : ℕ) (x : CudaBuffer) (st : Stream) :
    (s.getReadHandle b x st).states = (s.finalizeWriteHandle x).states := by
  obtain ⟨gpu, he, -⟩ := waitForWrite_frame (readyToRead s b x) x st
  rw [getReadHandle_eq, he]
  change ((s.reapCompletedReadEvents b x).finalizeWriteHandle x).states = _
  unfold finalizeWriteHandle
  cases x.handleState with
  | none => rfl
  | some k =>
    dsimp only
    unfold finalizeWriteHandleLocked
    have hreaped : (s.reapCompletedReadEvents b x).states k = s.states k := rfl
    by_cases hu : (s.states k).state = .inUse
    · rw [if_pos hu, if_pos (hreaped ▸ hu)]
      change Function.update (recordWrite _ _ _).states k _ =
        Function.update (recordWrite _ _ _).states k _
      rw [recordWrite_states, recordWrite_states]
      rfl
    · rw [if_neg hu, if_neg (hreaped ▸ hu)]
      rfl

lemma untouched_settles (hst : Stocked s) (h : Producer s b ev hs z) (hq : touches o = false)
    (hf : finalises s b o = false) (ha : s.act o = some (out, s')) :
    Settles ev hs z s'.states (records s o) (finalises s b o) := by
  obtain ⟨x, hb, -, hhs⟩ := h.buffer
  refine settles_kept (fun _ => hf) ?_ ?_
  · rw [(act_untouched hq ha).2]
    exact fun _ hr => absurd hr List.not_mem_nil
  · rintro k rfl
    obtain ⟨hz, hunset⟩ := h.state k rfl
    rw [← hz]
    rcases act_state hq ha k with hk | ⟨b', st, hgranted⟩
    · exact hk
    · obtain ⟨y, hb', ⟨hy, hfresh⟩ | ⟨-, rfl⟩⟩ := hgranted.fresh
      · exact absurd (hz ▸ hfresh) hunset
      · exact absurd (hst.state_lt hb hhs) (lt_irrefl _)

/-- What an operation does to the write of the buffer, once it is granted. -/
lemma act_settles (hst : Stocked s) (h : Producer s b ev hs z)
    (ha : s.act o = some (out, s')) :
    Settles ev hs z s'.states (records s o) (finalises s b o) := by
  cases o with
  | getReadHandle b' st =>
    obtain ⟨buf, hb', ha⟩ := withBuffer_some ha
    obtain ⟨-, rfl⟩ := Prod.mk.inj (Option.some.inj ha)
    simp only [records, hb', Option.elim_some, finalises, getReadHandle_states]
    exact finalize_settles hst h hb' rfl rfl
  | finalizeWriteHandle b' =>
    obtain ⟨buf, hb', ha⟩ := withBuffer_some ha
    obtain ⟨-, rfl⟩ := quietly_some ha
    simp only [records, hb', Option.elim_some, finalises]
    exact finalize_settles hst h hb' rfl rfl
  | assignRead k other =>
    simp only [act] at ha
    split at ha
    · rename_i hk hother
      simp only [records, hk, hother, finalises]
      split_ifs at ha ⊢
      · obtain ⟨-, rfl⟩ := quietly_some ha
        exact settles_kept (fun _ => rfl) (fun _ hr => absurd hr List.not_mem_nil)
          fun k hk => (h.state k hk).1
      · obtain ⟨-, rfl⟩ := quietly_some ha
        exact releaseRead_settles hst h _
    · cases ha
  | closeRead k =>
    simp only [act] at ha
    split at ha
    · cases ha
    · rename_i hk
      simp only [records, hk, Option.elim_some, finalises]
      obtain ⟨-, rfl⟩ := quietly_some ha
      exact releaseRead_settles hst h _
  | assignWrite k other =>
    simp only [act] at ha
    split at ha
    · rename_i hk hother
      simp only [records, hk, hother, finalises]
      split_ifs at ha ⊢ with hne
      · obtain ⟨-, rfl⟩ := quietly_some ha
        refine settles_kept (fun _ => ?_) (fun _ hr => absurd hr List.not_mem_nil)
          fun k hk => (h.state k hk).1
        rw [decide_eq_false (not_not.mpr hne), Bool.and_false]
      · obtain ⟨-, rfl⟩ := quietly_some ha
        rw [decide_eq_true hne, Bool.and_true]
        exact release_settles hst h hk
    · cases ha
  | closeWrite k =>
    simp only [act] at ha
    split at ha
    · cases ha
    · rename_i hk
      simp only [records, hk, Option.elim_some, finalises]
      obtain ⟨-, rfl⟩ := quietly_some ha
      exact release_settles hst h hk
  | _ => exact untouched_settles hst h rfl rfl ha

/-- The handle state of the producer after an operation that does not grant its write. -/
def after (s : Process) (b : ℕ) (z : HandleState) (o : Operation) : HandleState :=
  if z.state = .inUse ∧ finalises s b o = true then closed else z

lemma closed_or_kept (s : Process) (b : ℕ) (z : HandleState) (o : Operation) :
    after s b z o = closed ∧ z.state = .inUse ∨ after s b z o = z := by
  unfold after
  split_ifs with h
  · exact .inl ⟨rfl, h.1⟩
  · exact .inr rfl

lemma persists_kept (hk : Keeps b o) (hg : ∀ k, ¬ Grants b k o out)
    (h : Persists b x o out s y) : y.writeEvent = x.writeEvent ∧ y.handleState = x.handleState := by
  obtain ⟨hev, hhs⟩ := h
  constructor
  · rcases hev with hev | ⟨owns, rfl⟩
    · exact hev
    · exact absurd rfl hk
  · rcases hhs with hhs | ⟨-, -, hgrant⟩
    · exact hhs
    · exact absurd hgrant (hg _)

lemma Keeps.unmoved (h : Keeps b o) : Unmoved b o := by
  cases o <;> first | exact h | trivial

lemma act_producer (hst : Stocked s) (hp : Placed s) (h : Producer s b ev hs z) (hk : Keeps b o)
    (hg : ∀ k, ¬ Grants b k o out) (ha : s.act o = some (out, s')) :
    Producer s' b ev hs (after s b z o) := by
  obtain ⟨x, hb, hev, hhs⟩ := h.buffer
  have hsettles := act_settles hst h ha
  have hst' := act_stocked hst ha
  obtain ⟨y, hb', hy⟩ : ∃ y, s'.buffers b = some y ∧ Persists b x o out s y := by
    rcases act_buffer hst hk.unmoved hb ha with ⟨rfl, -⟩ | hy
    · exact absurd rfl hk
    · exact hy
  obtain ⟨hyev, hyhs⟩ := persists_kept hk hg hy
  have hknown : ∀ w wh, s'.writeHandles w = some wh → wh = {} ∨
      (∃ w', s.writeHandles w' = some wh) ∨
      wh.writeEventPtr ≠ some b ∧ ∀ k, hs = some k → wh.state ≠ some k := by
    intro w wh hw
    obtain ⟨-, hnil | hold | ⟨b', k, y', hgrant, hptr, hstate, hbuf, hy'⟩⟩ :=
      act_handles hp ha w wh hw
    · exact .inl hnil
    · exact .inr (.inl hold)
    · have hne : b' ≠ b := by
        rintro rfl
        exact hg k hgrant
      refine .inr (.inr ⟨?_, ?_⟩)
      · rw [hptr]
        exact fun he => hne (Option.some.inj he)
      · rintro k' rfl hk'
        obtain rfl := Option.some.inj (hstate.symm.trans hk')
        exact hne (hst'.state_unique hbuf hb' hy' (hyhs.trans hhs))
  refine ⟨⟨y, hb', hyev.trans hev, hyhs.trans hhs⟩, ?_, ?_, ?_, ?_, ?_⟩
  · intro hnone
    rcases closed_or_kept s b z o with ⟨-, hu⟩ | he
    · rw [h.unset hnone] at hu
      exact nomatch hu
    · rw [he]
      exact h.unset hnone
  · intro k hk
    refine ⟨hsettles.state k hk, ?_⟩
    rcases closed_or_kept s b z o with ⟨he, -⟩ | he
    · rw [he]
      exact nofun
    · rw [he]
      exact (h.state k hk).2
  · rcases closed_or_kept s b z o with ⟨he, -⟩ | he
    · rw [he]
      exact nofun
    · rw [he]
      exact h.usable
  · intro w wh hw hptr
    rcases hknown w wh hw with rfl | ⟨w', hw'⟩ | ⟨hne, -⟩
    · exact nomatch hptr
    · exact h.pointing w' wh hw' hptr
    · exact absurd hptr hne
  · intro w wh k hw hk hstate
    rcases hknown w wh hw with rfl | ⟨w', hw'⟩ | ⟨-, hne⟩
    · exact nomatch hstate
    · exact h.sharing w' wh k hw' hk hstate
    · exact absurd hstate (hne k hk)

lemma grant_producer (hp : Placed s) (hmade : Made s)
    (h : Producer s b ev hs z) {st : Stream} {k : ℕ} (hst' : cudaIsStreamUsable st = true)
    (ha : s.act (.getWriteHandle b st) = some (.writing k, s')) :
    hs = none ∧ Producer s' b ev (some k) { state := .inUse, writeStream := st } := by
  obtain ⟨x, hb, hev, hhs⟩ := h.buffer
  have hhandles := act_handles hp ha
  generalize ho : Operation.getWriteHandle b st = o at ha hhandles
  generalize hout : Output.writing k = out at ha hhandles
  cases act_cases ha with
  | @granted b' k' buf st' hb' _ hk' hunset =>
    obtain ⟨rfl, rfl⟩ := Operation.getWriteHandle.inj ho
    obtain rfl := Option.some.inj (hb.symm.trans hb')
    obtain ⟨hz, hne⟩ := h.state k' (hhs.symm.trans hk')
    exact absurd (hz ▸ hunset) hne
  | @grantedFirst b' buf st' hb' _ hnone =>
    obtain ⟨rfl, rfl⟩ := Operation.getWriteHandle.inj ho
    obtain rfl := Output.writing.inj hout
    obtain rfl := Option.some.inj (hb.symm.trans hb')
    obtain rfl : none = hs := hnone.symm.trans hhs
    refine ⟨rfl, ⟨_, Function.update_self .., hev, rfl⟩, nofun, ?_, fun _ => hst', ?_, ?_⟩
    · rintro _ ⟨⟩
      exact ⟨Function.update_self .., nofun⟩
    · intro w wh hw hptr
      obtain ⟨-, rfl | ⟨w', hw'⟩ | ⟨_, k', _, ⟨_, -, hk'⟩, -, hstate, -⟩⟩ := hhandles w wh hw
      · exact nomatch hptr
      · exact absurd rfl (h.pointing w' wh hw' hptr).2
      · rw [hstate, Output.writing.inj hk']
        exact ⟨rfl, nofun⟩
    · rintro w wh _ hw ⟨⟩ hstate
      obtain ⟨-, rfl | ⟨w', hw'⟩ | ⟨_, _, _, ⟨_, hb₀, -⟩, hptr, -⟩⟩ := hhandles w wh hw
      · exact nomatch hstate
      · exact absurd (hmade w' wh _ hw' hstate) (lt_irrefl _)
      · rw [hptr, (Operation.getWriteHandle.inj hb₀).1]
  | _ => exact nomatch hout

end States

section Start

lemma act_made (hst' : Stocked s') (hp : Placed s) (hm : Made s)
    (ha : s.act o = some (out, s')) : Placed s' ∧ Made s' := by
  refine ⟨fun w wh hw => (act_handles hp ha w wh hw).1, ?_⟩
  intro w wh k hw hk
  obtain ⟨-, rfl | ⟨w', hw'⟩ | ⟨_, k', y, -, -, hstate, hb, hy⟩⟩ := act_handles hp ha w wh hw
  · exact nomatch hk
  · exact (hm w' wh k hw' hk).trans_le (act_nextState ha)
  · obtain rfl := Option.some.inj (hstate.symm.trans hk)
    exact hst'.state_lt hb hy

/-- A handle that points to the event of the buffer was granted for it. -/
def Written (s : Process) (b : ℕ) : Prop := ∀ w wh, s.writeHandles w = some wh →
  wh.writeEventPtr = some b → ∃ x, s.buffers b = some x ∧ x.handleState ≠ none

lemma act_written (hst : Stocked s) (hp : Placed s) (h : Written s b) (hm : Unmoved b o)
    (ha : s.act o = some (out, s')) : Written s' b := by
  intro w wh hw hptr
  obtain ⟨-, rfl | ⟨w', hw'⟩ | ⟨b', k, y, -, hptr', -, hb, hy⟩⟩ := act_handles hp ha w wh hw
  · exact nomatch hptr
  · obtain ⟨x, hb, hx⟩ := h w' wh hw' hptr
    rcases act_buffer hst hm hb ha with ⟨-, hf⟩ | ⟨y, hy, -, hhs | ⟨hnone, -⟩⟩
    · have hany : s.writeReferenced b = true :=
        List.any_eq_true.mpr ⟨w', List.mem_range.mpr (hp w' wh hw'), by simp [hw', hptr]⟩
      exact absurd (hf.symm.trans hany) nofun
    · exact ⟨y, hy, hhs ▸ hx⟩
    · exact absurd hnone hx
  · obtain rfl := Option.some.inj (hptr'.symm.trans hptr)
    exact ⟨y, hb, hy ▸ nofun⟩

variable {pre : List (Operation × Output)}

lemma run_made (hr : Run act {} pre s) : Placed s ∧ Made s := by
  induction hr with
  | nil => exact ⟨nofun, nofun⟩
  | snoc hr ha ih => exact act_made (act_stocked (run_stocked hr) ha) ih.1 ih.2 ha

lemma run_written (hr : Run act {} pre s) (hm : ∀ x ∈ pre, Unmoved b x.1) : Written s b := by
  induction hr with
  | nil => exact nofun
  | snoc hr ha ih =>
    have hpre := ih fun x hx => hm x (List.mem_append_left _ hx)
    have hlast := hm _ (List.mem_append_right _ (List.mem_singleton_self _))
    exact act_written (run_stocked hr) (run_made hr).1 hpre hlast ha

lemma producer_start (hr : Run act {} pre s) (hm : ∀ x ∈ pre, Unmoved b x.1)
    (hb : s.buffers b = some x) (hev : x.writeEvent = some ev) (hnew : x.handleState = none) :
    Producer s b ev none {} := by
  refine ⟨⟨x, hb, hev, hnew⟩, fun _ => rfl, nofun, nofun, ?_, nofun⟩
  intro w wh hw hptr
  obtain ⟨y, hb', hne⟩ := run_written hr hm w wh hw hptr
  obtain rfl := Option.some.inj (hb.symm.trans hb')
  exact absurd hnew hne

end Start

/-- The streams of the write handles that a run grants for the buffer. -/
def grants (b : ℕ) (tr : List (Operation × Output × List Recording)) : List Stream :=
  tr.filterMap (fun x =>
    match x with
    | (.getWriteHandle b' st, .writing _, _) => if b' = b then some st else none
    | _ => none)

/-- The streams on which a run records the event. -/
def recordings (ev : ℕ) (tr : List (Operation × Output × List Recording)) : List Stream :=
  tr.flatMap (fun x => (ofEvent ev x.2.2).map Prod.snd)

/-- The write event is recorded once for the one write handle, when it is finalized. -/
structure Recorded (b ev : ℕ) (tr : List (Operation × Output × List Recording)) (s : Process) :
    Prop where
  unset : stateOf s b = .unset → grants b tr = [] ∧ recordings ev tr = []
  inUse : stateOf s b = .inUse → ∃ st, grants b tr = [st] ∧ recordings ev tr = []
  finalized : stateOf s b = .finalized → ∃ st, grants b tr = [st] ∧ recordings ev tr = [st]

/-- What one operation does to the write of the buffer. -/
structure Advances (b ev : ℕ) (s : Process) (o : Operation) (out : Output) (l : List Recording)
    (s' : Process) : Prop where
  effect : s'.recorded = recordAll s l
  order : stateOf s' b = stateOf s b ∨ (stateOf s b = .unset ∧ stateOf s' b = .inUse) ∨
    (stateOf s b = .inUse ∧ stateOf s' b = .finalized)
  granted : ∀ k, Grants b k o out → stateOf s b = .unset ∧ stateOf s' b = .inUse
  finalising : stateOf s b = .inUse → finalises s b o = true →
    stateOf s' b = .finalized ∧ ∃ st, ofEvent ev l = [(ev, st)]
  silent : ¬ (stateOf s b = .inUse ∧ finalises s b o = true) → ofEvent ev l = [] ∧
    ((∀ k, ¬ Grants b k o out) → stateOf s' b = stateOf s b)
  refused : ∀ st e, o = .getWriteHandle b st → out = .threw e →
    s'.states = s.states ∧ l = []

section Runs

variable {tr : List (Operation × Output × List Recording)} {l : List Recording} {t : Process}

lemma tell_some (h : tell s o = some ((out, l), s')) :
    s.act o = some (out, s') ∧ l = records s o := by
  obtain ⟨⟨out', s''⟩, ha, he⟩ := Option.map_eq_some_iff.mp h
  obtain ⟨hout, rfl⟩ := Prod.mk.inj he
  obtain ⟨rfl, rfl⟩ := Prod.mk.inj hout
  exact ⟨ha, rfl⟩

/-- What has been granted and recorded, when the write of the buffer is at `z`. -/
structure Accounts (z : HandleState) (granted recorded : List Stream) : Prop where
  unset : z.state = .unset → granted = [] ∧ recorded = []
  inUse : z.state = .inUse → granted = [z.writeStream] ∧ recorded = []
  finalized : z.state = .finalized → ∃ st, granted = [st] ∧ recorded = [st]

/-- The producer of a run, with what the run has granted and recorded. -/
structure Ledger (b ev : ℕ) (tr : List (Operation × Output × List Recording)) (s : Process)
    (hs : Option ℕ) (z : HandleState) : Prop where
  stocked : Stocked s
  placed : Placed s
  made : Made s
  producer : Producer s b ev hs z
  accounts : Accounts z (grants b tr) (recordings ev tr)

lemma recordings_snoc (tr : List (Operation × Output × List Recording)) (o : Operation)
    (out : Output) (l : List Recording) :
    recordings ev (tr ++ [(o, out, l)]) = recordings ev tr ++ (ofEvent ev l).map Prod.snd := by
  simp [recordings, List.flatMap_append]

lemma grants_snoc_grant (tr : List (Operation × Output × List Recording)) (st : Stream) (k : ℕ)
    (l : List Recording) :
    grants b (tr ++ [(.getWriteHandle b st, .writing k, l)]) = grants b tr ++ [st] := by
  simp [grants, List.filterMap_append]

lemma grants_snoc_other (tr : List (Operation × Output × List Recording))
    (h : ∀ k, ¬ Grants b k o out) : grants b (tr ++ [(o, out, l)]) = grants b tr := by
  have hnone : grants b [(o, out, l)] = [] := by
    unfold grants
    rw [List.filterMap_cons, List.filterMap_nil]
    split
    · rfl
    · rename_i he
      split at he
      · rename_i heq
        obtain ⟨rfl, hrest⟩ := Prod.mk.inj heq
        obtain ⟨rfl, rfl⟩ := Prod.mk.inj hrest
        split_ifs at he with hb
        subst hb
        exact absurd ⟨_, rfl, rfl⟩ (h _)
      · exact nomatch he
  have happend : grants b (tr ++ [(o, out, l)]) = grants b tr ++ grants b [(o, out, l)] :=
    List.filterMap_append
  rw [happend, hnone, List.append_nil]

lemma refused_states {st : Stream} {e : WriteError}
    (ha : s.act (.getWriteHandle b st) = some (.threw e, s')) : s'.states = s.states := by
  generalize ho : Operation.getWriteHandle b st = o at ha
  generalize hout : Output.threw e = out at ha
  cases act_cases ha with
  | refused _ => rfl
  | unchanged _ => exact nomatch hout
  | _ => exact nomatch hout

lemma ledger_step (h : Ledger b ev tr s hs z) (hk : Keeps b o)
    (ht : tell s o = some ((out, l), s')) :
    (∃ hs z, Ledger b ev (tr ++ [(o, out, l)]) s' hs z) ∧ Advances b ev s o out l s' := by
  obtain ⟨ha, rfl⟩ := tell_some ht
  have hst' := act_stocked h.stocked ha
  obtain ⟨hp', hm'⟩ := act_made hst' h.placed h.made ha
  have hsettles := act_settles h.stocked h.producer ha
  have hrefused : ∀ st e, o = .getWriteHandle b st → out = .threw e →
      s'.states = s.states ∧ records s o = [] := by
    rintro st e rfl rfl
    exact ⟨refused_states ha, rfl⟩
  by_cases hgrant : ∃ k, Grants b k o out
  · obtain ⟨k, st, rfl, rfl⟩ := hgrant
    obtain ⟨rfl, hproducer⟩ := grant_producer h.placed h.made h.producer (hk rfl) ha
    have hunset : stateOf s b = .unset := by
      rw [h.producer.stateOf, h.producer.unset rfl]
    obtain ⟨hgranted, hrecorded⟩ := h.accounts.unset (by rw [h.producer.unset rfl])
    constructor
    · refine ⟨_, _, hst', hp', hm', hproducer, nofun, fun _ => ?_, nofun⟩
      rw [grants_snoc_grant, hgranted, recordings_snoc, hrecorded]
      exact ⟨rfl, rfl⟩
    · refine ⟨act_records ha, .inr (.inl ⟨hunset, hproducer.stateOf⟩),
        fun _ _ => ⟨hunset, hproducer.stateOf⟩, ?_, ?_, hrefused⟩
      · intro hu
        exact nomatch hunset.symm.trans hu
      · intro _
        exact ⟨rfl, fun hno => absurd ⟨st, rfl, rfl⟩ (hno k)⟩
  · have hno : ∀ k, ¬ Grants b k o out := fun k hk => hgrant ⟨k, hk⟩
    have hproducer := act_producer h.stocked h.placed h.producer hk hno ha
    have hstate := h.producer.stateOf
    have hstate' := hproducer.stateOf
    by_cases hends : z.state = .inUse ∧ finalises s b o = true
    · obtain ⟨hgranted, hrecorded⟩ := h.accounts.inUse hends.1
      have hrecords := hsettles.records
      rw [if_pos hends] at hrecords
      have hafter : after s b z o = closed := if_pos hends
      rw [hafter] at hproducer hstate'
      constructor
      · refine ⟨_, _, hst', hp', hm', hproducer, nofun, nofun, fun _ => ⟨z.writeStream, ?_⟩⟩
        rw [grants_snoc_other tr hno, hgranted, recordings_snoc, hrecorded, hrecords]
        exact ⟨rfl, rfl⟩
      · refine ⟨act_records ha, .inr (.inr ⟨hstate.trans hends.1, hstate'⟩),
          fun k hk => absurd hk (hno k), fun _ _ => ⟨hstate', _, hrecords⟩, ?_, hrefused⟩
        intro hnot
        exact absurd ⟨hstate.trans hends.1, hends.2⟩ hnot
    · have hrecords := hsettles.records
      rw [if_neg hends] at hrecords
      have hafter : after s b z o = z := if_neg hends
      rw [hafter] at hproducer hstate'
      constructor
      · refine ⟨_, _, hst', hp', hm', hproducer, ?_⟩
        rw [grants_snoc_other tr hno, recordings_snoc, hrecords, List.map_nil, List.append_nil]
        exact h.accounts
      · refine ⟨act_records ha, .inl (hstate'.trans hstate.symm), fun k hk => absurd hk (hno k),
          fun hu hf => absurd ⟨hstate.symm.trans hu, hf⟩ hends, ?_, hrefused⟩
        intro _
        exact ⟨hrecords, fun _ => hstate'.trans hstate.symm⟩

lemma ledger_run (h : Ledger b ev [] s hs z) (hr : Run tell s tr t)
    (hk : ∀ e ∈ tr, Keeps b e.1) : ∃ hs z, Ledger b ev tr t hs z := by
  induction hr with
  | nil => exact ⟨hs, z, h⟩
  | @snoc u v tr o out hr ht ih =>
    obtain ⟨hs', z', hledger⟩ := ih fun e he => hk e (List.mem_append_left _ he)
    have hlast := hk _ (List.mem_append_right _ (List.mem_singleton_self _))
    exact (ledger_step hledger hlast ht).1

lemma Ledger.recorded (h : Ledger b ev tr s hs z) : Recorded b ev tr s := by
  have hstate := h.producer.stateOf
  constructor
  · intro hu
    exact h.accounts.unset (hstate.symm.trans hu)
  · intro hu
    exact ⟨_, h.accounts.inUse (hstate.symm.trans hu)⟩
  · intro hf
    exact h.accounts.finalized (hstate.symm.trans hf)

end Runs

/-- The write of a buffer that is not moved goes from unset to in use to finalized, and its
event is recorded once, on the stream of the one granted handle, by the first operation that
finalizes it. -/
theorem single_finalisation {pre : List (Operation × Output)}
    {tr : List (Operation × Output × List Recording)} {t : Process}
    (hpre : Run act {} pre s) (hm : ∀ x ∈ pre, Unmoved b x.1) (hb : s.buffers b = some x)
    (hev : x.writeEvent = some ev) (hnew : x.handleState = none) (hr : Run tell s tr t)
    (hk : ∀ e ∈ tr, Keeps b e.1) :
    Recorded b ev tr t ∧ Every tell (fun u o e =>
      ∀ u', tell u o = some (e, u') → Advances b ev u o e.1 e.2 u') s tr := by
  obtain ⟨hplaced, hmade⟩ := run_made hpre
  have hstart : Ledger b ev [] s none {} :=
    ⟨run_stocked hpre, hplaced, hmade, producer_start hpre hm hb hev hnew,
      fun _ => ⟨rfl, rfl⟩, nofun, nofun⟩
  constructor
  · obtain ⟨hs, z, hledger⟩ := ledger_run hstart hr hk
    exact hledger.recorded
  · rintro mid o ⟨out, l⟩ post u rfl hmid u' hu
    have hprefix : ∀ e ∈ mid, Keeps b e.1 := fun e he => hk e (List.mem_append_left _ he)
    obtain ⟨hs, z, hledger⟩ := ledger_run hstart hmid hprefix
    exact (ledger_step hledger (hk _ (List.mem_append_right _ List.mem_cons_self)) hu).2

/-- The handle is moved before it is overwritten, a second request is refused, and the later
finalizing operations record nothing. -/
theorem single_finalisation_once : ∃ tr s t, Run tell s tr t ∧ grants 0 tr = [some 1] ∧
    recordings 0 tr = [some 1] ∧ Recorded 0 0 tr t := by
  let ops : List Operation := [.getWriteHandle 0 (some 1), .moveWrite 0,
    .getWriteHandle 0 (some 2), .closeWrite 0, .construct 8, .getWriteHandle 1 (some 3),
    .assignWrite 1 2, .getReadHandle 0 (some 2), .finalizeWriteHandle 0, .closeWrite 1]
  have hlast : (exec act {} [.construct 16, .setWriteEvent 0 true]).any (fun x =>
      decide (x.1.map Prod.fst = [.construct 16, .setWriteEvent 0 true] ∧
        (x.2.buffers 0).any (fun buf => buf.writeEvent = some 0 ∧ buf.handleState = none)) &&
      (exec tell x.2 ops).any (fun y => decide (y.1.map Prod.fst = ops ∧ grants 0 y.1 = [some 1] ∧
        recordings 0 y.1 = [some 1]))) = true := by decide +kernel
  obtain ⟨⟨pre, s⟩, hpre, hlast⟩ := Option.any_eq_true _ _ |>.mp hlast
  obtain ⟨hfresh, hlast⟩ := (Bool.and_eq_true _ _).mp hlast
  obtain ⟨⟨tr, t⟩, hx, hlast⟩ := Option.any_eq_true _ _ |>.mp hlast
  obtain ⟨hops, hgrants, hrecordings⟩ := of_decide_eq_true hlast
  obtain ⟨hfirst, hbuffer⟩ := of_decide_eq_true hfresh
  obtain ⟨x, hb, hbuffer⟩ := Option.any_eq_true _ _ |>.mp hbuffer
  obtain ⟨hev, hnew⟩ := of_decide_eq_true hbuffer
  refine ⟨tr, s, t, exec_run hx, hgrants, hrecordings,
    (single_finalisation (exec_run hpre) ?_ hb hev hnew (exec_run hx) ?_).1⟩
  · intro e he
    have hmem : e.1 ∈ pre.map Prod.fst := List.mem_map_of_mem he
    rw [hfirst] at hmem
    obtain ⟨o, out⟩ := e
    simp only [List.mem_cons, List.not_mem_nil, or_false] at hmem
    rcases hmem with rfl | rfl <;> trivial
  · intro e he
    have hmem : e.1 ∈ tr.map Prod.fst := List.mem_map_of_mem he
    rw [hops] at hmem
    have hall : ∀ o ∈ ops, Keeps 0 o := by simp [ops, Keeps, Unmoved, cudaIsStreamUsable]
    exact hall e.1 hmem

end RosidlBufferBackends.Buffers.Finalisation
