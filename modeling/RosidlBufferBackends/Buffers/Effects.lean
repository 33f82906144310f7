import RosidlBufferBackends.Buffers.WriteOrder

/-! What an operation does to the recorded events, the write handles and one buffer. -/

namespace RosidlBufferBackends.Buffers.Finalisation

open Streams Runs Process Inventory

variable {s s' : Process} {o : Operation} {out : Output} {b b' : ℕ} {x y : CudaBuffer}

/-- A call of `cudaEventRecord`. -/
abbrev Recording := ℕ × Stream

def recordedWrite (event : Option ℕ) (st : Stream) : List Recording :=
  match event with
  | none => []
  | some ev => if cudaIsStreamUsable st then [(ev, st)] else []

def finalizeRecords (s : Process) (buf : CudaBuffer) : List Recording :=
  match buf.handleState with
  | none => []
  | some hs =>
    if (s.states hs).state = .inUse then recordedWrite buf.writeEvent (s.states hs).writeStream
    else []

def releaseReadRecords (s : Process) (rh : ReadHandle) : List Recording :=
  match rh.readEvents with
  | none => []
  | some b =>
    if cudaIsStreamUsable rh.stream then
      match s.buffers b with
      | none => []
      | some _ => [(s.nextEvent, rh.stream)]
    else []

def releaseWriteRecords (s : Process) (wh : WriteHandle) : List Recording :=
  match wh.state with
  | none => []
  | some hs =>
    if (s.states hs).state = .finalized then []
    else recordedWrite (s.writeEventAt wh) (s.writeStreamOf wh hs)

/-- The events that an operation records. -/
def records (s : Process) : Operation → List Recording
  | .getReadHandle b _ | .finalizeWriteHandle b => (s.buffers b).elim [] (finalizeRecords s)
  | .assignRead h other =>
    match s.readHandles h, s.readHandles other with
    | some rh, some _ => if h = other then [] else releaseReadRecords s rh
    | _, _ => []
  | .closeRead h => (s.readHandles h).elim [] (releaseReadRecords s)
  | .assignWrite w other =>
    match s.writeHandles w, s.writeHandles other with
    | some wh, some _ => if w = other then [] else releaseWriteRecords s wh
    | _, _ => []
  | .closeWrite w => (s.writeHandles w).elim [] (releaseWriteRecords s)
  | _ => []

/-- An operation, with what it records. -/
def tell (s : Process) (o : Operation) : Option ((Output × List Recording) × Process) :=
  (s.act o).map (fun x => ((x.1, records s o), x.2))

/-- The operation does not move the buffer. -/
def Unmoved (b : ℕ) : Operation → Prop
  | .moveConstruct b' => b' ≠ b
  | .moveAssign b' other => b' ≠ b ∧ other ≠ b
  | _ => True

section Records

/-- The record of events after some calls of `cudaEventRecord`. -/
def recordAll (s : Process) (l : List Recording) : ℕ → Option (Point Stream) :=
  l.foldl (fun recorded r => Function.update recorded r.1 (some (s.gpu.here r.2))) s.recorded

lemma recordWrite_records (s : Process) (event : Option ℕ) (st : Stream) :
    (s.recordWrite event st).recorded = recordAll s (recordedWrite event st) := by
  unfold recordWrite recordedWrite
  cases event with
  | none => rfl
  | some ev =>
    dsimp only
    split_ifs <;> rfl

lemma finalizeWriteHandle_records (s : Process) (buf : CudaBuffer) :
    (s.finalizeWriteHandle buf).recorded = recordAll s (finalizeRecords s buf) := by
  unfold finalizeWriteHandle finalizeRecords
  cases buf.handleState with
  | none => rfl
  | some hs =>
    dsimp only
    unfold finalizeWriteHandleLocked
    split_ifs
    · exact recordWrite_records s _ _
    · rfl

lemma releaseWrite_records (s : Process) (wh : WriteHandle) :
    (s.releaseWrite wh).recorded = recordAll s (releaseWriteRecords s wh) := by
  unfold releaseWrite releaseWriteRecords
  cases wh.state with
  | none => rfl
  | some hs =>
    dsimp only
    split_ifs
    · rfl
    · exact recordWrite_records s _ _

lemma releaseRead_records (s : Process) (rh : ReadHandle) :
    (s.releaseRead rh).recorded = recordAll s (releaseReadRecords s rh) := by
  unfold releaseRead releaseReadRecords
  cases rh.readEvents with
  | none => rfl
  | some b =>
    dsimp only
    split_ifs
    · cases s.buffers b <;> rfl
    · rfl

lemma getReadHandle_records (s : Process) (b : ℕ) (buf : CudaBuffer) (st : Stream) :
    (s.getReadHandle b buf st).recorded = recordAll s (finalizeRecords s buf) := by
  obtain ⟨gpu, he, -⟩ :=
    waitForWrite_frame ((s.reapCompletedReadEvents b buf).finalizeOpenWrite buf) buf st
  unfold getReadHandle
  rw [he, finalizeOpenWrite_eq]
  exact finalizeWriteHandle_records (s.reapCompletedReadEvents b buf) buf

/-- The operation finalizes a write, or releases a handle. -/
def touches : Operation → Bool
  | .getReadHandle _ _ | .finalizeWriteHandle _ | .assignRead _ _ | .closeRead _ | .assignWrite _ _
  | .closeWrite _ => true
  | _ => false

lemma act_untouched (hq : touches o = false) (ha : s.act o = some (out, s')) :
    s'.recorded = s.recorded ∧ records s o = [] := by
  constructor
  · cases act_cases ha with
    | @destroy b buf _ _ =>
      obtain ⟨queue, deleted, he⟩ := destroy_frame s b buf
      rw [he]
    | recycle _ _ => rw [delete_frame]
    | getReadHandle _ | finalizeWriteHandle _ | assignRead _ _ _ | closeRead _
    | assignWrite _ _ _ | closeWrite _ => exact nomatch hq
    | _ => rfl
  · cases o <;> first | rfl | exact nomatch hq

/-- What an operation records is what changes in the record of events. -/
lemma act_records (ha : s.act o = some (out, s')) : s'.recorded = recordAll s (records s o) := by
  cases o with
  | getReadHandle b st =>
    obtain ⟨buf, hb, ha⟩ := withBuffer_some ha
    obtain ⟨-, rfl⟩ := Prod.mk.inj (Option.some.inj ha)
    simp only [records, hb, Option.elim_some]
    exact getReadHandle_records s b buf st
  | finalizeWriteHandle b =>
    obtain ⟨buf, hb, ha⟩ := withBuffer_some ha
    obtain ⟨-, rfl⟩ := quietly_some ha
    simp only [records, hb, Option.elim_some]
    exact finalizeWriteHandle_records s buf
  | assignRead k other =>
    simp only [act] at ha
    split at ha
    · rename_i hk hother
      simp only [records, hk, hother]
      split_ifs at ha ⊢
      · obtain ⟨-, rfl⟩ := quietly_some ha
        rfl
      · obtain ⟨-, rfl⟩ := quietly_some ha
        exact releaseRead_records s _
    · cases ha
  | closeRead k =>
    simp only [act] at ha
    split at ha
    · cases ha
    · rename_i hk
      simp only [records, hk, Option.elim_some]
      obtain ⟨-, rfl⟩ := quietly_some ha
      exact releaseRead_records s _
  | assignWrite k other =>
    simp only [act] at ha
    split at ha
    · rename_i hk hother
      simp only [records, hk, hother]
      split_ifs at ha ⊢
      · obtain ⟨-, rfl⟩ := quietly_some ha
        rfl
      · obtain ⟨-, rfl⟩ := quietly_some ha
        exact releaseWrite_records s _
    · cases ha
  | closeWrite k =>
    simp only [act] at ha
    split at ha
    · cases ha
    · rename_i hk
      simp only [records, hk, Option.elim_some]
      obtain ⟨-, rfl⟩ := quietly_some ha
      exact releaseWrite_records s _
  | _ =>
    obtain ⟨hrecorded, hnone⟩ := act_untouched rfl ha
    rw [hrecorded, hnone]
    rfl

end Records

section Handles

/-- A write handle was granted for the buffer, under the handle state `k`. -/
def Grants (b k : ℕ) (o : Operation) (out : Output) : Prop :=
  ∃ st, o = .getWriteHandle b st ∧ out = .writing k

/-- A handle of the state after the operation was there before, or has been granted. -/
def Known (s : Process) (o : Operation) (out : Output) (s' : Process) (wh : WriteHandle) : Prop :=
  wh = {} ∨ (∃ w, s.writeHandles w = some wh) ∨
    ∃ b k y, Grants b k o out ∧ wh.writeEventPtr = some b ∧ wh.state = some k ∧
      s'.buffers b = some y ∧ y.handleState = some k

def Placed (s : Process) : Prop := ∀ w wh, s.writeHandles w = some wh → w < s.nextWrite

/-- The handle states of the handles have been made. -/
def Made (s : Process) : Prop := ∀ w wh k, s.writeHandles w = some wh → wh.state = some k →
  k < s.nextState

lemma releaseWrite_handles (s : Process) (wh : WriteHandle) :
    (s.releaseWrite wh).writeHandles = s.writeHandles ∧
      (s.releaseWrite wh).nextWrite = s.nextWrite := by
  obtain ⟨recorded, states, he, -⟩ := releaseWrite_frame s wh
  rw [he]
  exact ⟨rfl, rfl⟩

lemma releaseRead_writeHandles (s : Process) (rh : ReadHandle) :
    (s.releaseRead rh).writeHandles = s.writeHandles ∧
      (s.releaseRead rh).nextWrite = s.nextWrite := by
  rcases releaseRead_cases s rh with ⟨he, -⟩ | ⟨b, x, -, -, he⟩
  · rw [he]
    exact ⟨rfl, rfl⟩
  · rw [he]
    exact ⟨rfl, rfl⟩

lemma known_same (hp : Placed s) (hw : s'.writeHandles = s.writeHandles)
    (hn : s'.nextWrite = s.nextWrite) :
    ∀ w wh, s'.writeHandles w = some wh → w < s'.nextWrite ∧ Known s o out s' wh := by
  intro w wh h
  rw [hw] at h
  rw [hn]
  exact ⟨hp w wh h, .inr (.inl ⟨w, h⟩)⟩

lemma known_granted (hp : Placed s) {st : Stream} {ptr : Option ℕ} {k : ℕ}
    (hw : s'.writeHandles = Function.update s.writeHandles s.nextWrite
      (some { dataPtr := ptr, writeEventPtr := some b, stream := st, state := some k }))
    (hn : s'.nextWrite = s.nextWrite + 1) (hb : s'.buffers b = some y)
    (hy : y.handleState = some k) (ho : o = .getWriteHandle b st) (hout : out = .writing k) :
    ∀ w wh, s'.writeHandles w = some wh → w < s'.nextWrite ∧ Known s o out s' wh := by
  intro w wh h
  rw [hw] at h
  rw [hn]
  rcases update_some h with ⟨rfl, he⟩ | ⟨-, h⟩
  · obtain rfl := Option.some.inj he
    exact ⟨Nat.lt_succ_self _, .inr (.inr ⟨b, k, y, ⟨st, ho, hout⟩, rfl, rfl, hb, hy⟩)⟩
  · exact ⟨Nat.lt_succ_of_lt (hp w wh h), .inr (.inl ⟨w, h⟩)⟩

lemma act_handles (hp : Placed s) (ha : s.act o = some (out, s')) :
    ∀ w wh, s'.writeHandles w = some wh → w < s'.nextWrite ∧ Known s o out s' wh := by
  cases act_cases ha with
  | @destroy b buf _ _ =>
    obtain ⟨queue, deleted, he⟩ := destroy_frame s b buf
    rw [he]
    exact known_same hp rfl rfl
  | @getReadHandle b buf st _ =>
    obtain ⟨gpu, recorded, states, he, -⟩ := getReadHandle_frame s b buf st
    rw [he]
    exact known_same hp rfl rfl
  | @granted b k buf st hb _ hhs _ =>
    exact known_granted hp rfl rfl (reaped_buffer s b buf) hhs rfl rfl
  | @grantedFirst b buf st hb _ _ =>
    exact known_granted hp rfl rfl (Function.update_self ..) rfl rfl rfl
  | @finalizeWriteHandle b buf _ =>
    obtain ⟨recorded, states, he, -⟩ := finalizeWriteHandle_frame s buf
    rw [he]
    exact known_same hp rfl rfl
  | @assignRead _ _ rh _ _ _ _ =>
    obtain ⟨hw, hn⟩ := releaseRead_writeHandles s rh
    exact known_same hp hw hn
  | @closeRead _ rh _ =>
    obtain ⟨hw, hn⟩ := releaseRead_writeHandles s rh
    exact known_same hp hw hn
  | @moveWrite k wh hk =>
    intro w wh' hw
    rcases update_some hw with ⟨rfl, he⟩ | ⟨-, hw⟩
    · obtain rfl := Option.some.inj he
      exact ⟨Nat.lt_succ_self _, .inr (.inl ⟨k, hk⟩)⟩
    · rcases update_some hw with ⟨rfl, he⟩ | ⟨-, hw⟩
      · exact ⟨Nat.lt_succ_of_lt (hp w wh hk), .inl (Option.some.inj he).symm⟩
      · exact ⟨Nat.lt_succ_of_lt (hp w wh' hw), .inr (.inl ⟨w, hw⟩)⟩
  | @assignWrite k k' wh wh' hk hk' _ =>
    obtain ⟨hwh, hn⟩ := releaseWrite_handles s wh
    intro w wh₀ hw
    rcases update_some hw with ⟨rfl, he⟩ | ⟨-, hw⟩
    · refine ⟨?_, .inl (Option.some.inj he).symm⟩
      exact hn ▸ hp w wh' hk'
    · rcases update_some hw with ⟨rfl, he⟩ | ⟨-, hw⟩
      · obtain rfl := Option.some.inj he
        exact ⟨hn ▸ hp w wh hk, .inr (.inl ⟨k', hk'⟩)⟩
      · rw [hwh] at hw
        exact ⟨hn ▸ hp w wh₀ hw, .inr (.inl ⟨w, hw⟩)⟩
  | @closeWrite k wh hk =>
    obtain ⟨hwh, hn⟩ := releaseWrite_handles s wh
    intro w wh₀ hw
    rcases update_some hw with ⟨-, he⟩ | ⟨-, hw⟩
    · exact nomatch he
    · rw [hwh] at hw
      exact ⟨hn ▸ hp w wh₀ hw, .inr (.inl ⟨w, hw⟩)⟩
  | recycle _ _ =>
    rw [delete_frame]
    exact known_same hp rfl rfl
  | _ => exact known_same hp rfl rfl

end Handles

section Buffers

/-- The buffer keeps its write event and its handle state, unless it is given one. -/
def Persists (b : ℕ) (x : CudaBuffer) (o : Operation) (out : Output) (s : Process)
    (y : CudaBuffer) : Prop :=
  (y.writeEvent = x.writeEvent ∨ ∃ owns, o = .setWriteEvent b owns) ∧
    (y.handleState = x.handleState ∨
      x.handleState = none ∧ y.handleState = some s.nextState ∧ Grants b s.nextState o out)

lemma persists_same (hb : s.buffers b = some x) (hs : s'.buffers = s.buffers) :
    ∃ y, s'.buffers b = some y ∧ Persists b x o out s y :=
  ⟨x, hs ▸ hb, .inl rfl, .inl rfl⟩

lemma persists_update (hb : s.buffers b = some x) (hb' : s.buffers b' = some y) {z : CudaBuffer}
    (hu : s'.buffers = Function.update s.buffers b' (some z))
    (he : z.writeEvent = y.writeEvent) (hh : z.handleState = y.handleState) :
    ∃ y, s'.buffers b = some y ∧ Persists b x o out s y := by
  by_cases hx : b = b'
  · subst hx
    obtain rfl := Option.some.inj (hb.symm.trans hb')
    exact ⟨z, by rw [hu, Function.update_self], .inl he, .inl hh⟩
  · exact ⟨x, by rw [hu, Function.update_of_ne hx, hb], .inl rfl, .inl rfl⟩

lemma persists_released (hb : s.buffers b = some x) (rh : ReadHandle) :
    ∃ y, (s.releaseRead rh).buffers b = some y ∧ Persists b x o out s y := by
  rcases releaseRead_cases s rh with ⟨he, -⟩ | ⟨b', y, -, hb', he⟩
  · rw [he]
    exact persists_same hb rfl
  · rw [he]
    exact persists_update hb hb' rfl rfl rfl

/-- A buffer that is not moved is destroyed, or stays. -/
lemma act_buffer (hst : Stocked s) (hm : Unmoved b o) (hb : s.buffers b = some x)
    (ha : s.act o = some (out, s')) : (o = .destroy b ∧ s.writeReferenced b = false) ∨
      ∃ y, s'.buffers b = some y ∧ Persists b x o out s y := by
  have hne : b ≠ s.nextBuffer := (hst.placed b x hb).ne
  have hother : ∀ {b' : ℕ} {z : Option CudaBuffer}, b ≠ b' →
      s'.buffers = Function.update s.buffers b' z →
      ∃ y, s'.buffers b = some y ∧ Persists b x o out s y := by
    intro b' z hx hu
    exact ⟨x, by rw [hu, Function.update_of_ne hx, hb], .inl rfl, .inl rfl⟩
  cases act_cases ha with
  | constructDefault => exact .inr (hother hne rfl)
  | construct size => exact .inr (hother hne rfl)
  | @setWriteEvent b' owns buf hb' =>
    by_cases hx : b = b'
    · subst hx
      obtain rfl := Option.some.inj (hb.symm.trans hb')
      exact .inr ⟨_, Function.update_self .., .inr ⟨owns, rfl⟩, .inl rfl⟩
    · exact .inr (hother hx rfl)
  | @moveConstruct b' buf _ =>
    right
    refine ⟨x, ?_, .inl rfl, .inl rfl⟩
    have hkeep : (s.moveConstruct b' buf).buffers b =
        Function.update (Function.update s.buffers b' (some {})) s.nextBuffer (some buf) b := rfl
    rw [hkeep, Function.update_of_ne hne, Function.update_of_ne (Ne.symm hm), hb]
  | @moveAssign b₁ b₂ buf buf' _ _ _ =>
    right
    refine ⟨x, ?_, .inl rfl, .inl rfl⟩
    have hkeep : (s.swap b₁ b₂ buf buf').buffers b =
        Function.update (Function.update s.buffers b₁ (some buf')) b₂ (some buf) b := rfl
    rw [hkeep, Function.update_of_ne hm.2.symm, Function.update_of_ne hm.1.symm, hb]
  | @destroy b' buf _ href =>
    by_cases hx : b = b'
    · subst hx
      exact .inl ⟨rfl, (Bool.or_eq_false_iff.mp href).2⟩
    · obtain ⟨queue, deleted, he⟩ := destroy_frame s b' buf
      rw [he] at hother ⊢
      exact .inr (hother hx rfl)
  | @getReadHandle b' buf st hb' =>
    obtain ⟨gpu, recorded, states, he, -⟩ := getReadHandle_frame s b' buf st
    rw [he]
    exact .inr (persists_update hb hb' rfl rfl rfl)
  | refused hb' => exact .inr (persists_update hb hb' rfl rfl rfl)
  | granted hb' _ _ _ => exact .inr (persists_update hb hb' rfl rfl rfl)
  | @grantedFirst b' buf st hb' _ hhs =>
    right
    by_cases hx : b = b'
    · subst hx
      obtain rfl := Option.some.inj (hb.symm.trans hb')
      exact ⟨_, Function.update_self .., .inl rfl, .inr ⟨hhs, rfl, st, rfl, rfl⟩⟩
    · refine ⟨x, ?_, .inl rfl, .inl rfl⟩
      have hkeep : (Function.update (Function.update s.buffers b' (some (s.pending buf))) b'
          (some { s.pending buf with handleState := some s.nextState })) b = s.buffers b := by
        rw [Function.update_of_ne hx, Function.update_of_ne hx]
      exact hkeep.trans hb
  | @finalizeWriteHandle b' buf _ =>
    obtain ⟨recorded, states, he, -⟩ := finalizeWriteHandle_frame s buf
    rw [he]
    exact .inr (persists_same hb rfl)
  | assignRead _ _ _ => exact .inr (persists_released hb _)
  | closeRead _ => exact .inr (persists_released hb _)
  | @assignWrite _ _ wh _ _ _ _ =>
    obtain ⟨recorded, states, he, -⟩ := releaseWrite_frame s wh
    rw [he]
    exact .inr (persists_same hb rfl)
  | @closeWrite _ wh _ =>
    obtain ⟨recorded, states, he, -⟩ := releaseWrite_frame s wh
    rw [he]
    exact .inr (persists_same hb rfl)
  | recycle _ _ =>
    rw [delete_frame]
    exact .inr (persists_same hb rfl)
  | _ => exact .inr (persists_same hb rfl)

end Buffers

end RosidlBufferBackends.Buffers.Finalisation
