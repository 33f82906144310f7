import RosidlBufferBackends.Cuda.ResizeCopies

/-! The ends of `resize` and `clear`: of two buffers the impl keeps one, and the other one is
left to the recycler. -/

namespace RosidlBufferBackends.Cuda.Resizing

open Streams Device PoolPartition

variable {width : ℕ} {others : List ℕ} {L L' : ℕ → Option Bytes} {s s' : State} {n m : ℕ}
  {newBuffer kept left : CudaBuffer} {pool : PoolPartition.State}

section Destruction

/-- What is destroyed goes to the queue of the recycler with its events. -/
lemma destroy_eq (s : State) (h : Fits width L pool n left) : s.destroy left =
    { s with queue := s.queue ++ left.devicePtr.toList.map fun _ => left.work } := by
  cases hptr : left.devicePtr with
  | none =>
    rw [State.destroy, (h.empty hptr).2, Bool.and_false, if_neg Bool.false_ne_true, hptr,
      Option.toList_none, List.map_nil, List.append_nil]
    rfl
  | some r =>
    obtain ⟨hevent, hrecycler⟩ := h.event r hptr
    obtain ⟨event, hevent⟩ := Option.isSome_iff_exists.mp hevent
    have hevents : left.eventsToSync.isEmpty = false := by
      rw [CudaBuffer.eventsToSync, hevent]
      rfl
    rw [State.destroy, hevents, hrecycler, Bool.not_false, Bool.and_self, if_pos rfl]
    rfl

/-- The queue has all of the buffer's block. -/
lemma countP_left (left : CudaBuffer) (r : ℕ) :
    (left.devicePtr.toList.map fun _ => left.work).countP (PendingWork.holds r) =
      if left.devicePtr = some r then 1 else 0 := by
  cases hptr : left.devicePtr with
  | none => rfl
  | some r' =>
    simp only [Option.toList_some, List.map_cons, List.map_nil, List.countP_singleton,
      PendingWork.holds, CudaBuffer.work, hptr, decide_eq_true_eq]

lemma destroy_tended (h : Tended width others L s) (hscope : ∀ r k, ¬ s.Scoped r k)
    (hcount : ∀ r, s.tenants.countP (PendingWork.holds r) =
      (if kept.devicePtr = some r then 1 else 0) + (if left.devicePtr = some r then 1 else 0) +
        s.queue.countP (PendingWork.holds r))
    (htenants : ∀ t ∈ s.tenants, t = kept.work ∨ t = left.work ∨ t ∈ s.queue)
    (hkept : kept.work ∈ s.tenants ∨ kept.work.events = []) (hleft : left.work ∈ s.tenants)
    (hfits : Fits width L s.pool m kept) (hwrites : WritesRecorded s.device kept)
    (hclosed : Closed kept) (hother : Fits width L s.pool n left) :
    Tended width others L
      (State.destroy
        { s with
          cudaBuffer := kept
          size := m
          call := .none } left) := by
  rw [destroy_eq _ hother]
  constructor
  · exact h.orderly
  · exact h.partition
  · intro r
    have ht := h.tenancy r
    rw [hcount] at ht
    rw [tenants_count, List.countP_append, countP_left]
    simp only [Call.newBuffer, Option.elim_none]
    omega
  · intro t ht q hq
    obtain rfl | ⟨new, hn, -⟩ | ht := mem_tenants.mp ht
    · obtain hmem | hnil := hkept
      · exact h.placed _ hmem q hq
      · rw [hnil] at hq
        cases hq
    · cases hn
    · obtain ht | ht := List.mem_append.mp ht
      · exact h.placed _ (mem_tenants.mpr (.inr (.inr ht))) q hq
      · obtain ⟨-, -, rfl⟩ := List.mem_map.mp ht
        exact h.placed _ hleft q hq
  · intro p w r hp hw hr
    refine covered_mono (h.guarded p w r hp hw hr) (fun hs => absurd hs (hscope r _)) ?_
    intro t ht htr
    refine ⟨t, mem_tenants.mpr ?_, htr, fun q => id⟩
    obtain rfl | rfl | ht := htenants t ht
    · exact .inl rfl
    · refine .inr (.inr (List.mem_append.mpr (.inr (List.mem_map.mpr ⟨r, ?_, rfl⟩))))
      exact Option.mem_toList.mpr htr
    · exact .inr (.inr (List.mem_append.mpr (.inl ht)))
  · exact h.determined
  · exact hfits
  · exact hwrites
  · exact hclosed
  · trivial

end Destruction

section Ends

lemma fits_empty (width : ℕ) (L : ℕ → Option Bytes) (pool : PoolPartition.State) :
    Fits width L pool 0 {} where
  elements := (Nat.zero_mul width).le
  block := nofun
  tracked := nofun
  event := nofun
  unwritten _ := nofun
  empty _ := ⟨rfl, rfl⟩

lemma not_scoped (hcall : s.call = .none) (r k : ℕ) : ¬ s.Scoped r k := by
  rw [State.Scoped, hcall]
  exact id

lemma not_scoped_closed {thrown : Option ResizeError}
    (hcall : s.call = .resizing n newBuffer (.closed thrown)) (r k : ℕ) : ¬ s.Scoped r k := by
  rw [State.Scoped, hcall]
  exact id

lemma tenants_idle (hcall : s.call = .none) : s.tenants = s.cudaBuffer.work :: s.queue := by
  rw [State.tenants, hcall]
  rfl

lemma tenants_resizing {stage : Stage} (hcall : s.call = .resizing n newBuffer stage) :
    s.tenants = s.cudaBuffer.work :: newBuffer.work :: s.queue := by
  rw [State.tenants, hcall]
  rfl

lemma clear_tended (h : Tended width others L s) (hcall : s.call = .none) :
    Tended width others L s.clear := by
  have hstate : s.clear = State.destroy
      { s with
        cudaBuffer := {}
        size := 0
        call := .none } s.cudaBuffer := by
    rw [State.clear, ← hcall]
  rw [hstate]
  refine destroy_tended h (not_scoped hcall) (fun r => ?_) ?_ (.inr rfl) ?_
    (fits_empty width L s.pool) (fun p w r hp => nofun) nofun h.fits
  · rw [tenants_count, hcall]
    simp only [Call.newBuffer, Option.elim_none, reduceCtorEq, if_false]
    omega
  · rw [tenants_idle hcall]
    intro t ht
    exact .inr (List.mem_cons.mp ht)
  · rw [tenants_idle hcall]
    exact List.mem_cons_self

lemma assign_tended (h : Tended width others L s)
    (hcall : s.call = .resizing n newBuffer (.closed none)) :
    Tended width others L (s.leave n newBuffer none).2 := by
  obtain ⟨hfits, -, hended⟩ := h.stage hcall
  refine destroy_tended h (not_scoped_closed hcall) (fun r => ?_) ?_ ?_ ?_ hfits hended.writes
    hended.closed h.fits
  · rw [tenants_count, hcall]
    simp only [Call.newBuffer, Option.elim_some]
    omega
  · rw [tenants_resizing hcall]
    intro t ht
    simp only [List.mem_cons] at ht
    tauto
  · rw [tenants_resizing hcall]
    exact .inl (List.mem_cons_of_mem _ List.mem_cons_self)
  · rw [tenants_resizing hcall]
    exact List.mem_cons_self

lemma unwind_tended {e : ResizeError} (h : Tended width others L s)
    (hcall : s.call = .resizing n newBuffer (.closed (some e))) :
    Tended width others L (s.leave n newBuffer (some e)).2 := by
  obtain ⟨hfits, -, -⟩ := h.stage hcall
  refine destroy_tended h (not_scoped_closed hcall) (fun r => ?_) ?_ ?_ ?_ h.fits h.writes
    h.closed hfits
  · rw [tenants_count, hcall]
    rfl
  · rw [tenants_resizing hcall]
    intro t ht
    simpa only [List.mem_cons] using ht
  · rw [tenants_resizing hcall]
    exact .inl List.mem_cons_self
  · rw [tenants_resizing hcall]
    exact List.mem_cons_of_mem _ List.mem_cons_self

end Ends

end RosidlBufferBackends.Cuda.Resizing
