import RosidlBufferBackends.Cuda.ResizeAccess

/-! What each step does to the impl, to the bytes that it will hold and to the queue of the
recycler. -/

namespace RosidlBufferBackends.Cuda.Resizing

open Streams Device PoolPartition

def Event.writes : Event → Bool
  | .write .. => true
  | _ => false

namespace Output

def ends : Output → Bool
  | .returned _ | .threw .. => true
  | .quiet | .recycled _ => false

/-- The block that the call left to the recycler. -/
def abandoned : Output → Option ℕ
  | .returned ptr | .threw _ ptr => ptr
  | .quiet | .recycled _ => none

/-- The block that the recycler gave back to the pool. -/
def freed : Output → Option ℕ
  | .recycled ptr => ptr
  | .quiet | .returned _ | .threw .. => none

end Output

/-- The size that the call asks for. -/
def Call.target : Call → Option ℕ
  | .none => Option.none
  | .allocating n | .resizing n _ _ => some n

def State.asked (s : State) : Event → Option ℕ
  | .resize n => some n
  | .clear => some 0
  | .write .. | .read _ => none
  | .proceed _ | .finish _ | .recycle | .perturb _ => s.call.target

/-- The first bytes of the storage will be those of the storage before. -/
def Retained (count : ℕ) (L L' : ℕ → Option Bytes) (s s' : State) : Prop :=
  ∀ v v', s.cudaBuffer.devicePtr.bind L = some v → s'.cudaBuffer.devicePtr.bind L' = some v' →
    ∀ j < count, v' j = v j

def Outcome (width : ℕ) (L L' : ℕ → Option Bytes) (s s' : State) (e : Event) : Output → Prop
  | .returned _ => ∃ n, s.asked e = some n ∧ s'.call = .none ∧ s'.size = n ∧
      Retained (min n s.size * width) L L' s s'
  | .threw _ _ => s'.call = .none ∧ Carried L L' s s'
  | .quiet | .recycled _ => s'.call.target = s.asked e ∧ s'.size = s.size ∧
      (e.writes = false → Carried L L' s s')

/-- No block goes back to the pool. -/
structure KeepsHanded (pool pool' : PoolPartition.State) : Prop where
  granularity : pool'.pool.granularity = pool.pool.granularity
  handed : ∀ r, pool.handedOut.count r ≤ pool'.handedOut.count r

/-- The invariant after a step, and what the step did. -/
structure Stepped (width : ℕ) (others : List ℕ) (L L' : ℕ → Option Bytes) (s : State) (e : Event)
    (o : Output) (s' : State) : Prop where
  tended : Tended width others L' s'
  granularity : s'.pool.pool.granularity = s.pool.pool.granularity
  handed : ∀ r, s.pool.handedOut.count r ≤
    s'.pool.handedOut.count r + if o.freed = some r then 1 else 0
  queue : ∀ r, s'.queue.countP (PendingWork.holds r) + (if o.freed = some r then 1 else 0) =
    s.queue.countP (PendingWork.holds r) + if o.abandoned = some r then 1 else 0
  outcome : Outcome width L L' s s' e o

variable {width : ℕ} {others : List ℕ} {L L' L₁ : ℕ → Option Bytes} {s s₁ s' : State} {pid : ℤ}
  {n count : ℕ} {e : Event} {o : Output} {env : Env} {newBuffer : CudaBuffer}

section Retention

lemma Carried.held (h : Carried L L' s s') :
    s'.cudaBuffer.devicePtr.bind L' = s.cudaBuffer.devicePtr.bind L := by
  rw [h.devicePtr]
  cases hr : s.cudaBuffer.devicePtr with
  | none => rfl
  | some r => exact h.ledger r hr

lemma Carried.trans (h : Carried L L₁ s s₁) (h' : Carried L₁ L' s₁ s') : Carried L L' s s' where
  size := h'.size.trans h.size
  devicePtr := h'.devicePtr.trans h.devicePtr
  bytes := h'.bytes.trans h.bytes
  ledger r hr := (h'.ledger r (h.devicePtr.trans hr)).trans (h.ledger r hr)

lemma Carried.retained (h : Carried L L' s s') (count : ℕ) : Retained count L L' s s' := by
  intro v v' hv hv' j _
  rw [h.held, hv] at hv'
  rw [Option.some.inj hv']

lemma Retained.after (h : Retained count L₁ L' s₁ s') (hc : Carried L L₁ s s₁) :
    Retained count L L' s s' := by
  intro v v' hv
  exact h v v' (hc.held.trans hv)

lemma retained_zero : Retained 0 L L' s s' :=
  fun _ _ _ _ j hj => absurd hj (Nat.not_lt_zero j)

end Retention

section Steps

lemma KeepsHanded.refl (pool : PoolPartition.State) : KeepsHanded pool pool :=
  ⟨rfl, fun _ => le_rfl⟩

/-- A step within a call, or of the streams, that leaves the queue alone. -/
lemma quiet_stepped (ht : Tended width others L' s') (hpool : KeepsHanded s.pool s'.pool)
    (hqueue : s'.queue = s.queue) (htarget : s'.call.target = s.asked e)
    (hc : Carried L L' s s') : Stepped width others L L' s e .quiet s' where
  tended := ht
  granularity := hpool.granularity
  handed := hpool.handed
  queue _ := by rw [hqueue]; rfl
  outcome := ⟨htarget, hc.size, fun _ => hc⟩

lemma clear_eq (h : Tended width others L s) : s.clear =
    { s with
      cudaBuffer := {}
      size := 0
      queue := s.queue ++ s.cudaBuffer.devicePtr.toList.map fun _ => s.cudaBuffer.work } := by
  rw [State.clear, destroy_eq _ h.fits]

lemma clear_stepped (h : Tended width others L s) (hcall : s.call = .none)
    (hasked : s.asked e = some 0) :
    Stepped width others L L s e (.returned s.cudaBuffer.devicePtr) s.clear := by
  refine ⟨clear_tended h hcall, ?_, fun r => ?_, fun r => ?_, 0, hasked, ?_, ?_, ?_⟩
  · rw [clear_eq h]
  · rw [clear_eq h]
    exact Nat.le_add_right _ _
  · rw [clear_eq h, List.countP_append, countP_left]
    rfl
  · rw [clear_eq h]
    exact hcall
  · rw [clear_eq h]
  · rw [Nat.zero_min, Nat.zero_mul]
    exact retained_zero

lemma resize_stepped (h : Tended width others L s) (hn : Requestable width s.pool n)
    (hs : step pid width s (.resize n) = some (o, s')) :
    ∃ L', Stepped width others L L' s (.resize n) o s' := by
  rw [step] at hs
  cases hcall : s.call with
  | none =>
    simp only [hcall] at hs
    split_ifs at hs with hsize hzero
    · obtain ⟨rfl, rfl⟩ := Prod.mk.inj (Option.some.inj hs)
      exact ⟨L, h, rfl, fun _ => Nat.le_add_right _ _, fun _ => rfl, n, rfl, hcall, hsize.symm,
        (Carried.refl L s).retained _⟩
    · obtain ⟨rfl, rfl⟩ := Prod.mk.inj (Option.some.inj hs)
      exact ⟨L, clear_stepped h hcall (congrArg some hzero)⟩
    · obtain ⟨rfl, rfl⟩ := Prod.mk.inj (Option.some.inj hs)
      exact ⟨L, quiet_stepped (start_tended h hcall hn) (.refl _) rfl rfl
        ⟨rfl, rfl, rfl, fun _ _ => rfl⟩⟩
  | allocating m =>
    simp only [hcall] at hs
    exact nomatch hs
  | resizing m newBuffer stage =>
    simp only [hcall] at hs
    exact nomatch hs

/-- The calls of the user and the accesses are for an impl without a call under way. -/
lemma idle_of_step (he : e = .clear ∨ (∃ k launches, e = .write k launches) ∨ ∃ k, e = .read k)
    (hs : step pid width s e = some (o, s')) : s.call = .none := by
  cases hcall : s.call with
  | none => rfl
  | allocating m =>
    obtain rfl | ⟨k, launches, rfl⟩ | ⟨k, rfl⟩ := he <;>
    · simp only [step, hcall] at hs
      exact nomatch hs
  | resizing m newBuffer stage =>
    obtain rfl | ⟨k, launches, rfl⟩ | ⟨k, rfl⟩ := he <;>
    · simp only [step, hcall] at hs
      exact nomatch hs

lemma write_frame (s : State) (k : ℕ) (launches : List (Bytes → Bytes)) :
    (s.write k launches).pool = s.pool ∧ (s.write k launches).queue = s.queue ∧
      (s.write k launches).size = s.size ∧ (s.write k launches).call = s.call := by
  rw [State.write]
  dsimp only
  split_ifs <;> exact ⟨rfl, rfl, rfl, rfl⟩

lemma write_stepped {k : ℕ} {launches : List (Bytes → Bytes)} (h : Tended width others L s)
    (hs : step pid width s (.write k launches) = some (o, s')) :
    ∃ L', Stepped width others L L' s (.write k launches) o s' := by
  have hcall := idle_of_step (.inr (.inl ⟨k, launches, rfl⟩)) hs
  simp only [step, hcall] at hs
  obtain ⟨rfl, rfl⟩ := Prod.mk.inj (Option.some.inj hs)
  obtain ⟨L', ht⟩ := write_tended h hcall k launches
  obtain ⟨hpool, hqueue, hsize, hkept⟩ := write_frame s k launches
  refine ⟨L', ht, by rw [hpool], fun r => ?_, fun _ => by rw [hqueue]; rfl, ?_, hsize, nofun⟩
  · rw [hpool]
    exact Nat.le_add_right _ _
  · rw [hkept, hcall]
    rfl

lemma read_frame (h : Closed s.cudaBuffer) (k : ℕ) :
    (s.read k).pool = s.pool ∧ (s.read k).queue = s.queue ∧ (s.read k).call = s.call ∧
      Carried L L s (s.read k) := by
  have hclosed : (s.cudaBuffer.reap s.device.gpu).finalizeWrite s.device.gpu =
      s.cudaBuffer.reap s.device.gpu := finalizeWrite_closed h
  rw [State.read, hclosed]
  exact ⟨rfl, rfl, rfl, rfl, rfl, rfl, fun _ _ => rfl⟩

lemma read_stepped {k : ℕ} (h : Tended width others L s)
    (hs : step pid width s (.read k) = some (o, s')) :
    ∃ L', Stepped width others L L' s (.read k) o s' := by
  have hcall := idle_of_step (.inr (.inr ⟨k, rfl⟩)) hs
  simp only [step, hcall] at hs
  obtain ⟨rfl, rfl⟩ := Prod.mk.inj (Option.some.inj hs)
  obtain ⟨hpool, hqueue, hkept, hc⟩ := read_frame (L := L) h.closed k
  refine ⟨L, quiet_stepped (read_tended h hcall) (hpool ▸ .refl _) hqueue ?_ hc⟩
  rw [hkept, hcall]
  rfl

lemma count_handOut (handedOut : List ℕ) (result : Except CudaError ℕ) (r : ℕ) :
    handedOut.count r ≤ (handOut handedOut result).count r := by
  cases result with
  | error e => exact le_rfl
  | ok r' => exact List.count_le_count_cons

lemma allocate_frame (hs : s.allocateBufferInternal pid width n env = (o, s')) :
    KeepsHanded s.pool s'.pool ∧ s'.queue = s.queue ∧
      ((∃ e, o = .threw (.allocation e) none ∧ s'.call = .none) ∨
        (o = .quiet ∧ s'.call.target = some n)) := by
  have hpool : KeepsHanded s.pool
      (State.allocate pid s.pool (n * width % 2 ^ 64) env.now env.createBlock).2 :=
    ⟨allocate_granularity _ _ _ _ _, fun r => count_handOut _ _ r⟩
  rw [State.allocateBufferInternal] at hs
  rcases ha : State.allocate pid s.pool (n * width % 2 ^ 64) env.now env.createBlock with
    ⟨e | r, pool⟩
  · rw [ha] at hs hpool
    obtain ⟨rfl, rfl⟩ := Prod.mk.inj hs
    exact ⟨hpool, rfl, .inl ⟨e, rfl, rfl⟩⟩
  · rw [ha] at hs hpool
    obtain ⟨rfl, rfl⟩ := Prod.mk.inj hs
    exact ⟨hpool, rfl, .inr ⟨rfl, rfl⟩⟩

lemma allocate_stepped (hw : 0 < width) (h : Tended width others L s)
    (hcall : s.call = .allocating n) (hs : s.allocateBufferInternal pid width n env = (o, s')) :
    ∃ L', Stepped width others L L' s (.proceed env) o s' := by
  obtain ⟨L', ht, hc⟩ := allocate_tended hw h hcall hs
  obtain ⟨hpool, hqueue, ⟨e, rfl, hnone⟩ | ⟨rfl, htarget⟩⟩ := allocate_frame hs
  · exact ⟨L', ht, hpool.granularity, hpool.handed, fun _ => by rw [hqueue]; rfl, hnone, hc⟩
  · refine ⟨L', quiet_stepped ht hpool hqueue (htarget.trans ?_) hc⟩
    rw [State.asked, hcall]
    rfl

lemma getHandles_frame (s : State) (n : ℕ) (newBuffer : CudaBuffer) (env : Env) :
    (s.getHandles n newBuffer env).pool = s.pool ∧
      (s.getHandles n newBuffer env).queue = s.queue ∧
      (s.getHandles n newBuffer env).call.target = some n := by
  rw [State.getHandles]
  split
  · exact ⟨rfl, rfl, rfl⟩
  · split_ifs <;> exact ⟨rfl, rfl, rfl⟩

lemma copy_frame (s : State) (width n : ℕ) (newBuffer : CudaBuffer) (env : Env) :
    (s.copy width n newBuffer env).pool = s.pool ∧
      (s.copy width n newBuffer env).queue = s.queue ∧
      (s.copy width n newBuffer env).call.target = some n := by
  rw [State.copy]
  split_ifs <;> exact ⟨rfl, rfl, rfl⟩

lemma leave_stepped {thrown : Option ResizeError} (env : Env) (h : Tended width others L s)
    (hcall : s.call = .resizing n newBuffer (.closed thrown)) :
    Stepped width others L L s (.proceed env) (s.leave n newBuffer thrown).1
      (s.leave n newBuffer thrown).2 := by
  have hasked : s.asked (.proceed env) = some n := by
    rw [State.asked, hcall]
    rfl
  obtain ⟨hfits, -, hended⟩ := h.stage hcall
  cases thrown with
  | none =>
    have ht := assign_tended h hcall
    have hleave : (s.leave n newBuffer none).2 =
        { s with
          cudaBuffer := newBuffer
          size := n
          call := .none
          queue := s.queue ++ s.cudaBuffer.devicePtr.toList.map fun _ => s.cudaBuffer.work } :=
      destroy_eq _ h.fits
    rw [hleave] at ht ⊢
    refine ⟨ht, rfl, fun _ => Nat.le_add_right _ _, fun r => ?_, n, hasked, rfl, rfl, ?_⟩
    · rw [List.countP_append, countP_left]
      rfl
    · exact fun v v' hv hv' => hended.copied rfl v v' hv hv'
  | some e =>
    have ht := unwind_tended h hcall
    have hleave : (s.leave n newBuffer (some e)).2 =
        { s with
          call := .none
          queue := s.queue ++ newBuffer.devicePtr.toList.map fun _ => newBuffer.work } :=
      destroy_eq _ hfits
    rw [hleave] at ht ⊢
    refine ⟨ht, rfl, fun _ => Nat.le_add_right _ _, fun r => ?_, rfl, rfl, rfl, rfl,
      fun _ _ => rfl⟩
    rw [List.countP_append, countP_left]
    rfl

lemma proceed_stepped (hw : 0 < width) (h : Tended width others L s)
    (hs : s.proceed pid width env = some (o, s')) :
    ∃ L', Stepped width others L L' s (.proceed env) o s' := by
  have hasked : s.asked (.proceed env) = s.call.target := rfl
  rw [State.proceed] at hs
  cases hcall : s.call with
  | none =>
    simp only [hcall] at hs
    exact nomatch hs
  | allocating n =>
    simp only [hcall] at hs
    exact allocate_stepped hw h hcall (Option.some.inj hs)
  | resizing n newBuffer stage =>
    rw [hcall] at hasked
    cases stage with
    | allocated =>
      simp only [hcall] at hs
      obtain ⟨rfl, rfl⟩ := Prod.mk.inj (Option.some.inj hs)
      exact ⟨L, quiet_stepped (reap_tended h hcall) (.refl _) rfl hasked.symm
        ⟨rfl, rfl, rfl, fun _ _ => rfl⟩⟩
    | reaped =>
      simp only [hcall] at hs
      obtain ⟨rfl, rfl⟩ := Prod.mk.inj (Option.some.inj hs)
      obtain ⟨ht, hc⟩ := getHandles_tended env h hcall
      obtain ⟨hpool, hqueue, htarget⟩ := getHandles_frame s n newBuffer env
      exact ⟨L, quiet_stepped ht (hpool ▸ .refl _) hqueue (htarget.trans hasked.symm) hc⟩
    | reading =>
      simp only [hcall] at hs
      obtain ⟨rfl, rfl⟩ := Prod.mk.inj (Option.some.inj hs)
      obtain ⟨L', ht, hc⟩ := copy_tended env h hcall
      obtain ⟨hpool, hqueue, htarget⟩ := copy_frame s width n newBuffer env
      exact ⟨L', quiet_stepped ht (hpool ▸ .refl _) hqueue (htarget.trans hasked.symm) hc⟩
    | copied thrown =>
      simp only [hcall] at hs
      obtain ⟨rfl, rfl⟩ := Prod.mk.inj (Option.some.inj hs)
      exact ⟨L, quiet_stepped (finalize_tended h hcall) (.refl _) rfl hasked.symm
        ⟨rfl, rfl, rfl, fun _ _ => rfl⟩⟩
    | writeClosed thrown =>
      simp only [hcall] at hs
      obtain ⟨rfl, rfl⟩ := Prod.mk.inj (Option.some.inj hs)
      exact ⟨L, quiet_stepped (release_tended h hcall) (.refl _) rfl hasked.symm
        ⟨rfl, rfl, rfl, fun _ _ => rfl⟩⟩
    | closed thrown =>
      simp only [hcall] at hs
      have hout := Option.some.inj hs
      have hstepped := leave_stepped env h hcall
      rw [hout] at hstepped
      exact ⟨L, hstepped⟩

end Steps

section Progress

/-- The streams and the recycler go on, and other processes write to the segments. -/
def Event.progress : Event → Bool
  | .finish _ | .recycle | .perturb _ => true
  | .resize _ | .clear | .write .. | .read _ | .proceed _ => false

lemma recycle_stepped (h : Tended width others L s) (hs : s.recycle = some (o, s')) :
    Stepped width others L L s .recycle o s' ∧ s'.call = s.call ∧ s'.device = s.device ∧
      Carried L L s s' := by
  have ht := recycle_tended h hs
  obtain ⟨item, rest, hq, -, rfl, rfl⟩ := recycle_cases hs
  have hhanded : ∀ r, s.pool.handedOut.count r ≤
      (State.free { s with queue := rest } item.devicePtr).pool.handedOut.count r +
        if item.devicePtr = some r then 1 else 0 := by
    intro r
    cases hptr : item.devicePtr with
    | none => exact Nat.le_add_right _ _
    | some r' =>
      change _ ≤ (s.pool.handedOut.erase r').count r + _
      rw [List.count_erase]
      simp only [beq_iff_eq, Option.some.injEq]
      omega
  obtain ⟨pool, he, -, hg⟩ := free_frame { s with queue := rest } item.devicePtr
  rw [he] at ht hhanded ⊢
  have hc : Carried L L s { s with pool := pool, queue := rest } := ⟨rfl, rfl, rfl, fun _ _ => rfl⟩
  refine ⟨⟨ht, hg, hhanded, fun r => ?_, rfl, rfl, fun _ => hc⟩, rfl, rfl, hc⟩
  rw [hq, List.countP_cons]
  simp only [PendingWork.holds, decide_eq_true_eq, Output.freed, Output.abandoned, reduceCtorEq,
    if_false, Nat.add_zero]
  rfl

lemma progress_stepped (h : Tended width others L s) (he : e.progress = true)
    (hs : step pid width s e = some (o, s')) :
    Stepped width others L L s e o s' ∧ s'.call = s.call ∧ Carried L L s s' := by
  cases e with
  | finish k =>
    simp only [step] at hs
    split at hs
    · exact nomatch hs
    · rename_i device hf
      obtain ⟨rfl, rfl⟩ := Prod.mk.inj (Option.some.inj hs)
      have hc : Carried L L s { s with device := device } := ⟨rfl, rfl, rfl, fun _ _ => rfl⟩
      exact ⟨quiet_stepped (finish_tended h hf) (.refl _) rfl rfl hc, rfl, hc⟩
  | recycle =>
    obtain ⟨hstepped, hcall, -, hc⟩ := recycle_stepped h hs
    exact ⟨hstepped, hcall, hc⟩
  | perturb segments =>
    obtain ⟨rfl, rfl⟩ := Prod.mk.inj (Option.some.inj hs)
    have hc : Carried L L s
        { s with pool := { s.pool with os := { s.pool.os with segments := segments } } } :=
      ⟨rfl, rfl, rfl, fun _ _ => rfl⟩
    exact ⟨quiet_stepped (perturb_tended h segments) ⟨rfl, fun _ => le_rfl⟩ rfl rfl hc, rfl, hc⟩
  | resize n => exact nomatch he
  | clear => exact nomatch he
  | write k launches => exact nomatch he
  | read k => exact nomatch he
  | proceed env => exact nomatch he

/-- Every step keeps the invariant. -/
theorem step_stepped (hw : 0 < width) (h : Tended width others L s)
    (hn : ∀ n, e = .resize n → Requestable width s.pool n)
    (hs : step pid width s e = some (o, s')) : ∃ L', Stepped width others L L' s e o s' := by
  cases e with
  | resize n => exact resize_stepped h (hn n rfl) hs
  | clear =>
    have hcall := idle_of_step (.inl rfl) hs
    simp only [step, hcall] at hs
    obtain ⟨rfl, rfl⟩ := Prod.mk.inj (Option.some.inj hs)
    exact ⟨L, clear_stepped h hcall rfl⟩
  | write k launches => exact write_stepped h hs
  | read k => exact read_stepped h hs
  | proceed env => exact proceed_stepped hw h hs
  | finish k => exact ⟨L, (progress_stepped h rfl hs).1⟩
  | recycle => exact ⟨L, (progress_stepped h rfl hs).1⟩
  | perturb segments => exact ⟨L, (progress_stepped h rfl hs).1⟩

end Progress

end RosidlBufferBackends.Cuda.Resizing
