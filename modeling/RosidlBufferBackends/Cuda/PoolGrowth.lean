import RosidlBufferBackends.Cuda.PoolPartition

/-! How many blocks a pool creates: no more of a size than its callers needed at one time. -/

namespace RosidlBufferBackends.Cuda.PoolPartition

open CudaMemoryPool Runs

variable {s s' : State} {pid : ℤ} {e : Event} {o : Output} {tr : List (Event × Output)}

/-- The blocks of one size. -/
def State.made (s : State) (size : ℕ) : ℕ :=
  (List.range s.pool.allBlocks.length).countP fun r => decide ((s.pool.block r).size = size)

/-- The blocks of one size that `allocate` cannot return at the time. -/
def State.busy (s : State) (size now : ℕ) : ℕ :=
  (List.range s.pool.allBlocks.length).countP fun r => decide ((s.pool.block r).size = size) &&
    (decide (r ∈ s.handedOut) || !isBlockReady s.os now (s.pool.block r))

/-- A request for blocks of the size finds less than `n` of them in use. -/
def DemandBelow (size n : ℕ) (s : State) : Event → Prop
  | .allocate byteSize now _ =>
      s.pool.roundToGranularity byteSize = size → s.busy size now < n
  | _ => True

instance (size n : ℕ) (s : State) : (e : Event) → Decidable (DemandBelow size n s e)
  | .allocate byteSize now _ => inferInstanceAs
      (Decidable (s.pool.roundToGranularity byteSize = size → s.busy size now < n))
  | .free _ | .perturb _ => .isTrue trivial

lemma unready_of_findReady {os : Os} {pool : CudaMemoryPool} {now r : ℕ} {vec : List ℕ}
    (h : findReady os pool now vec = none) (hr : r ∈ vec) :
    isBlockReady os now (pool.block r) = false := by
  have hall := List.findIdx?_eq_none_iff.mp h r hr
  simpa using hall

lemma Partition.bucket_of_stored (h : Partition s) {r : ℕ} (hr : r < s.pool.allBlocks.length)
    (hh : r ∉ s.handedOut) :
    ∃ vec, ((s.pool.block r).size, vec) ∈ s.pool.freeBlocks.entries ∧ r ∈ vec := by
  have ho := h.once r
  rw [if_pos hr, List.count_eq_zero.mpr hh, Nat.zero_add] at ho
  by_contra hno
  have hzero : s.pool.stored r = 0 := by
    apply List.sum_eq_zero
    intro x hx
    obtain ⟨e, he, rfl⟩ := List.mem_map.mp hx
    refine List.count_eq_zero.mpr fun hmem => hno ⟨e.2, ?_, hmem⟩
    exact h.bucket e he r hmem ▸ he
  exact absurd (hzero.symm.trans ho) zero_ne_one

/-- A block is created only while all blocks of its size are in use. -/
lemma Partition.all_busy (h : Partition s) {aligned now : ℕ}
    (hc : findCandidate s.os s.pool now aligned = none) : s.busy aligned now = s.made aligned := by
  apply List.countP_congr
  intro r hr
  have hr := List.mem_range.mp hr
  simp only [Bool.and_eq_true, decide_eq_true_eq, Bool.or_eq_true, Bool.not_eq_true']
  refine ⟨fun hb => hb.1, fun hsize => ⟨hsize, ?_⟩⟩
  by_cases hh : r ∈ s.handedOut
  · exact .inl hh
  obtain ⟨vec, hvec, hmem⟩ := h.bucket_of_stored hr hh
  rw [hsize] at hvec
  unfold findCandidate at hc
  cases hl : s.pool.freeBlocks.lowerBound aligned with
  | none => exact absurd (OrderedMap.lowerBound_eq_none_iff.mp hl _ hvec) (lt_irrefl _)
  | some x =>
    obtain ⟨key, vec'⟩ := x
    -- the bucket that is searched is the one of the size
    have hkey : key = aligned :=
      le_antisymm (OrderedMap.lowerBound_least hl hvec le_rfl) (OrderedMap.lowerBound_le hl)
    have hsame : vec' = vec := by
      have hvec' := OrderedMap.get?_eq_some_iff.mpr (hkey ▸ OrderedMap.lowerBound_mem hl)
      exact Option.some.inj (hvec'.symm.trans (OrderedMap.get?_eq_some_iff.mpr hvec))
    subst hsame
    simp only [hl] at hc
    cases hf : findReady s.os s.pool now vec' with
    | none => exact .inr (unready_of_findReady hf hmem)
    | some i =>
      simp only [hf, Option.map_eq_none_iff] at hc
      obtain ⟨hi, -⟩ := List.findIdx?_eq_some_iff_getElem.mp hf
      rw [List.getElem?_eq_getElem hi] at hc
      exact nomatch hc

lemma made_congr (hl : s'.pool.allBlocks.length = s.pool.allBlocks.length)
    (hb : ∀ r, (s'.pool.block r).size = (s.pool.block r).size) (size : ℕ) :
    s'.made size = s.made size := by
  simp only [State.made, hl, hb]

lemma made_append (b : VmmBlock) (hb : s'.pool.allBlocks = s.pool.allBlocks ++ [b]) (size : ℕ) :
    s'.made size = s.made size + if b.size = size then 1 else 0 := by
  have hold : ∀ r ∈ List.range s.pool.allBlocks.length,
      decide ((s'.pool.block r).size = size) = true ↔
        decide ((s.pool.block r).size = size) = true := by
    intro r hr
    have hr := List.mem_range.mp hr
    simp [block, hb, List.getD_eq_getElem?_getD, List.getElem?_append_left hr]
  have hnew : s'.pool.block s.pool.allBlocks.length = b := by
    simp [block, hb, List.getD_eq_getElem?_getD]
  rw [State.made, hb, List.length_append, List.length_singleton, List.range_succ,
    List.countP_append, List.countP_congr hold, List.countP_singleton, hnew]
  simp [State.made]

lemma takeBlock_size (s : State) (key i r r' : ℕ) (vec : List ℕ) :
    ((takeBlock s.os s.pool key vec i r).2.block r').size = (s.pool.block r').size := by
  have hb : (takeBlock s.os s.pool key vec i r).2.block r' =
      (s.pool.modifyBlock r (fun b => { b with currentUid := 0 })).block r' :=
    block_eq (by rw [takeBlock_pool]; rfl) r'
  rw [hb]
  by_cases hr : r < s.pool.allBlocks.length
  · rw [block_modifyBlock _ hr]
    split <;> rfl
  · exact congrArg _ (block_eq (List.modify_eq_self (not_lt.mp hr)) r')

/-- The number of blocks of a size grows by one, when all of them are in use, or stays. -/
lemma step_made (h : Partition s) (hs : step pid s e = some (o, s')) (size : ℕ) :
    s'.made size = s.made size ∨ s'.made size = s.made size + 1 ∧
      ∃ byteSize now env, e = .allocate byteSize now env ∧
        s.pool.roundToGranularity byteSize = size ∧ s.busy size now = s.made size := by
  cases e with
  | allocate byteSize now env =>
    obtain ⟨key, vec, i, r, -, -, rfl⟩ | ⟨_, _, -, -, -, rfl⟩ | ⟨b, os', _, hb, hc, -, he⟩ :=
      step_allocate hs
    · refine .inl (made_congr ?_ (fun r' => takeBlock_size s key i r r' vec) size)
      simp [takeBlock_pool]
    · exact .inl (made_congr rfl (fun _ => rfl) size)
    · have hmade := made_append b (congrArg (fun x => x.pool.allBlocks) he) size
      by_cases hsize : b.size = size
      · rw [if_pos hsize] at hmade
        obtain rfl := hb.size.symm.trans hsize
        exact .inr ⟨hmade, byteSize, now, env, rfl, rfl, h.all_busy hc⟩
      · rw [if_neg hsize] at hmade
        exact .inl hmade
  | free r =>
    simp only [step] at hs
    split_ifs at hs
    obtain ⟨-, rfl⟩ := Prod.mk.inj (Option.some.inj hs)
    exact .inl (made_congr rfl (fun _ => rfl) size)
  | perturb segments =>
    obtain ⟨-, rfl⟩ := Prod.mk.inj (Option.some.inj hs)
    exact .inl (made_congr rfl (fun _ => rfl) size)

theorem pool_bounded_by_demand {granularity : ℕ} {hg : 0 < granularity} {deviceId : ℤ}
    {ipcCapable : Bool} {size n : ℕ}
    (hr : Run (step pid) (initial granularity hg deviceId ipcCapable) tr s)
    (hdemand : Every (step pid) (fun s e _ => DemandBelow size n s e)
      (initial granularity hg deviceId ipcCapable) tr) : s.made size ≤ n := by
  have h : Partition s ∧ s.made size ≤ n := by
    refine hr.induction_every (P := fun _ s => Partition s ∧ s.made size ≤ n) hdemand
      ⟨partition_initial _ _ _ _, Nat.zero_le n⟩ ?_
    rintro _ t e _ u - ⟨hp, hle⟩ hbelow hs
    refine ⟨step_partition hp hs, ?_⟩
    obtain hmade | ⟨hmade, byteSize, now, env, rfl, hsize, hbusy⟩ := step_made hp hs size
    · exact hmade.trans_le hle
    · have hlt := hbelow hsize
      omega
  exact h.2

/-- Two blocks are in use at one time, and two are enough for five requests. -/
theorem pool_bounded_by_demand_once : ∃ tr s,
    Run (step 7) (initial 4096 (by decide) 0 true) tr s ∧ tr.length = 8 ∧ s.made 4096 ≤ 2 := by
  let evs : List Event := [.allocate 100 5 (workingEnv 3 8192 1),
    .allocate 200 6 (workingEnv 5 16384 2), .free 0, .allocate 300 7 (workingEnv 7 32768 3),
    .free 1, .allocate 400 8 (workingEnv 9 65536 4), .free 0,
    .allocate 500 9 (workingEnv 11 131072 5)]
  have hsome : (exec (step 7) (initial 4096 (by decide) 0 true) evs).any
      (fun x => decide (x.1.length = 8)) = true := by decide +kernel
  have hdemand : EveryExec (step 7) (fun s e _ => DemandBelow 4096 2 s e)
      (initial 4096 (by decide) 0 true) evs := by decide +kernel
  obtain ⟨⟨tr, s⟩, hx, hlen⟩ := Option.any_eq_true _ _ |>.mp hsome
  exact ⟨tr, s, exec_run hx, of_decide_eq_true hlen,
    pool_bounded_by_demand (exec_run hx) (every_of_exec hx hdemand)⟩

end RosidlBufferBackends.Cuda.PoolPartition
