import RosidlBufferBackends.Cuda.Descriptor
import RosidlBufferBackends.Cuda.PoolPartition

/-! The block that a new buffer is given, against the bytes that its elements take. Sizes are
`size_t`, so that a product or a round-up may wrap around. -/

namespace RosidlBufferBackends.Cuda.Capacity

open CudaMemoryPool PoolPartition Runs

/-- The results of the calls that `allocateBufferInternal` makes; no event is made if both of
its attempts fail. -/
structure AllocationEnv where
  createBlock : CreateBlockEnv
  interprocessEvent : Bool
  minimumEvent : Bool
  deriving DecidableEq, Repr

/-- The elements have `elementSize` bytes each. The block of the buffer is returned with it. -/
def allocateBufferInternal (os : Os) (pid : ℤ) (pool : CudaMemoryPool) (now : ℕ)
    (env : AllocationEnv) (elementSize n : ℕ) : PoolCall (ℕ × CudaBufferImpl) :=
  let byteSize := n * elementSize % 2 ^ 64
  let c := allocate os pid pool now env.createBlock byteSize
  match c.result with
  | .error e => ⟨c.os, c.pool, c.log, .error e⟩
  | .ok r =>
    ⟨c.os, c.pool, c.log, .ok (r,
      { size := n, devicePtr := (c.pool.block r).va, byteSize := byteSize,
        deviceId := c.pool.deviceId,
        writeEvent := env.interprocessEvent || env.minimumEvent })⟩

/-- `CudaBufferImpl(size_t)` -/
def construct (os : Os) (pid : ℤ) (pool : CudaMemoryPool) (now : ℕ) (env : AllocationEnv)
    (elementSize n : ℕ) : PoolCall (Option ℕ × CudaBufferImpl) :=
  if 0 < n then
    let c := allocateBufferInternal os pid pool now env elementSize n
    ⟨c.os, c.pool, c.log, c.result.map (fun x => (some x.1, x.2))⟩
  else ⟨os, pool, [], .ok (none, {})⟩

/-- A buffer that is returned lies in a block with room for its elements. -/
def Spans (elementSize n : ℕ) (c : PoolCall (Option ℕ × CudaBufferImpl)) : Prop :=
  ∀ block impl, c.result = .ok (block, impl) → impl.size = n ∧
    match block with
    | none => n = 0
    | some r => impl.devicePtr = (c.pool.block r).va ∧ n * elementSize ≤ (c.pool.block r).size

/-- The product, or the round-up of the byte size, does not fit `size_t`. -/
def Wraps (pool : CudaMemoryPool) (elementSize n : ℕ) : Prop :=
  2 ^ 64 ≤ n * elementSize + (pool.granularity - 1)

instance (pool : CudaMemoryPool) (elementSize n : ℕ) : Decidable (Wraps pool elementSize n) :=
  inferInstanceAs (Decidable (_ ≤ _))

def Refuses (env : CreateBlockEnv) : Prop :=
  env.cuMemCreate = none ∨ env.cuMemAddressReserve = none ∨ env.cuMemMap = false ∨
    env.cuMemSetAccess = false

/-- A wrapped request that is refused, or that a bucket of large blocks answers. -/
def Spared (os : Os) (pool : CudaMemoryPool) (now : ℕ) (env : CreateBlockEnv)
    (elementSize n : ℕ) : Prop :=
  match findCandidate os pool now (pool.roundToGranularity (n * elementSize % 2 ^ 64)) with
  | some (key, _, _, _) => n * elementSize ≤ key
  | none => Refuses env

variable {s : State} {pid : ℤ} {elementSize n : ℕ}

lemma le_roundToGranularity {pool : CudaMemoryPool} {size : ℕ}
    (h : size + (pool.granularity - 1) < 2 ^ 64) : size ≤ pool.roundToGranularity size := by
  have hg := pool.granularity_pos
  have hx : size + pool.granularity - 1 < 2 ^ 64 := by omega
  rw [roundToGranularity, Nat.mod_eq_of_lt hx]
  have hdiv := Nat.div_add_mod (size + pool.granularity - 1) pool.granularity
  have hmod := Nat.mod_lt (size + pool.granularity - 1) hg
  rw [Nat.mul_comm] at hdiv
  omega

lemma roundToGranularity_of_wraps {pool : CudaMemoryPool} {size : ℕ} (hsize : size < 2 ^ 64)
    (h : 2 ^ 64 ≤ size + (pool.granularity - 1)) : pool.roundToGranularity size = 0 := by
  have hg := pool.granularity_pos
  have hlt : (size + pool.granularity - 1) % 2 ^ 64 < pool.granularity := by
    rcases Nat.lt_or_ge pool.granularity (2 ^ 64) with hsmall | hlarge
    · rw [Nat.mod_eq_sub_mod (by omega), Nat.mod_eq_of_lt (by omega)]
      omega
    · exact (Nat.mod_lt _ (Nat.two_pow_pos 64)).trans_le hlarge
  rw [roundToGranularity, Nat.div_eq_of_lt hlt, Nat.zero_mul]

lemma roundToGranularity_lt (pool : CudaMemoryPool) (size : ℕ) :
    pool.roundToGranularity size < 2 ^ 64 :=
  (Nat.div_mul_le_self _ _).trans_lt (Nat.mod_lt _ (Nat.two_pow_pos 64))

/-- A wrapped request is rounded to less than the bytes that are needed. -/
lemma aligned_lt (pool : CudaMemoryPool) (hpos : 0 < n * elementSize)
    (h : Wraps pool elementSize n) :
    pool.roundToGranularity (n * elementSize % 2 ^ 64) < n * elementSize := by
  rcases Nat.lt_or_ge (n * elementSize) (2 ^ 64) with hlt | hge
  · rw [Nat.mod_eq_of_lt hlt, roundToGranularity_of_wraps hlt h]
    exact hpos
  · exact (roundToGranularity_lt pool _).trans_le hge

/-- Blocks are created when every call of the driver succeeds. -/
lemma createBlock_refused (os : Os) (pid : ℤ) (pool : CudaMemoryPool) {env : CreateBlockEnv}
    (size : ℕ) (h : Refuses env) : ∃ e, (createBlock os pid pool env size).result = .error e := by
  unfold createBlock
  cases hc : env.cuMemCreate with
  | none => exact ⟨_, rfl⟩
  | some a =>
    cases hr : env.cuMemAddressReserve with
    | none => exact ⟨_, rfl⟩
    | some va =>
      cases hm : env.cuMemMap with
      | false => exact ⟨_, rfl⟩
      | true =>
        cases ha : env.cuMemSetAccess with
        | false => exact ⟨_, rfl⟩
        | true => simp [Refuses, hc, hr, hm, ha] at h

lemma takeBlock_size (os : Os) {pool : CudaMemoryPool} (key : ℕ) (vec : List ℕ) (i : ℕ) {r : ℕ}
    (hr : r < pool.allBlocks.length) :
    ((takeBlock os pool key vec i r).2.block r).size = (pool.block r).size := by
  have hb : (takeBlock os pool key vec i r).2.block r =
      (pool.modifyBlock r (fun b => { b with currentUid := 0 })).block r :=
    block_eq (by rw [takeBlock_pool]; rfl) r
  rw [hb, block_modifyBlock _ hr, if_pos rfl]

lemma allocated_size (pid : ℤ) (h : Partition s) (now : ℕ) (env : CreateBlockEnv) (byteSize : ℕ) :
    match findCandidate s.os s.pool now (s.pool.roundToGranularity byteSize) with
    | some (key, _, _, _) => s.pool.roundToGranularity byteSize ≤ key ∧
        ∃ r, (allocate s.os pid s.pool now env byteSize).result = .ok r ∧
          ((allocate s.os pid s.pool now env byteSize).pool.block r).size = key
    | none => Refuses env ∧
          (∃ e, (allocate s.os pid s.pool now env byteSize).result = .error e) ∨
        ¬ Refuses env ∧ ∃ r, (allocate s.os pid s.pool now env byteSize).result = .ok r ∧
          ((allocate s.os pid s.pool now env byteSize).pool.block r).size =
            s.pool.roundToGranularity byteSize := by
  rcases allocate_cases s.os pid s.pool now env byteSize with ⟨key, vec, i, r, hc, ha⟩ | ⟨hc, ha⟩
  · rw [hc, ha]
    obtain ⟨hm, hr⟩ := candidate_mem hc
    refine ⟨OrderedMap.lowerBound_le (findCandidate_some hc).1, r, rfl, ?_⟩
    rw [takeBlock_size s.os key vec i (h.stored_lt hm hr)]
    exact h.bucket _ hm r hr
  · rw [hc, ha]
    rcases createBlock_cases s.os pid s.pool env (s.pool.roundToGranularity byteSize) with
      ⟨log, expr, he, -, hrefuses⟩ | ⟨b, os', log, he, hb⟩
    · exact .inl ⟨hrefuses, _, by rw [he]⟩
    · refine .inr ⟨?_, _, by rw [he], ?_⟩
      · intro hrefuses
        obtain ⟨e, herror⟩ := createBlock_refused s.os pid s.pool
          (s.pool.roundToGranularity byteSize) hrefuses
        rw [he] at herror
        exact nomatch herror
      · rw [he, ← hb.size]
        simp [block, List.getD_eq_getElem?_getD]

/-- A buffer is made of the block that the pool gives for the product of its sizes. -/
lemma spans_iff (os : Os) (pid : ℤ) (pool : CudaMemoryPool) (now : ℕ) (env : AllocationEnv)
    (elementSize : ℕ) (hn : 0 < n) :
    Spans elementSize n (construct os pid pool now env elementSize n) ↔
      ∀ r, (allocate os pid pool now env.createBlock (n * elementSize % 2 ^ 64)).result = .ok r →
        n * elementSize ≤
          ((allocate os pid pool now env.createBlock
            (n * elementSize % 2 ^ 64)).pool.block r).size := by
  rw [construct, if_pos hn, allocateBufferInternal]
  dsimp only
  cases (allocate os pid pool now env.createBlock (n * elementSize % 2 ^ 64)).result with
  | error e => exact iff_of_true nofun nofun
  | ok r =>
    constructor
    · intro h r' hr'
      obtain rfl := Except.ok.inj hr'
      exact (h _ _ rfl).2.2
    · intro h block impl he
      obtain ⟨rfl, rfl⟩ := Prod.mk.inj (Except.ok.inj he)
      exact ⟨rfl, rfl, h r rfl⟩

theorem allocation_capacity_iff {granularity : ℕ} {hg : 0 < granularity} {deviceId : ℤ}
    {ipcCapable : Bool} {tr : List (Event × Output)}
    (hr : Run (step pid) (initial granularity hg deviceId ipcCapable) tr s) (now : ℕ)
    (env : AllocationEnv) (helement : 0 < elementSize) :
    Spans elementSize n (construct s.os pid s.pool now env elementSize n) ↔
      (0 < n → Wraps s.pool elementSize n →
        Spared s.os s.pool now env.createBlock elementSize n) := by
  have hp : Partition s := hr.invariant (partition_initial _ _ _ _) fun _ _ _ _ h hs =>
    step_partition h hs
  rcases Nat.eq_zero_or_pos n with rfl | hn
  · refine iff_of_true ?_ fun h => absurd h (lt_irrefl 0)
    intro block impl he
    obtain ⟨rfl, rfl⟩ := Prod.mk.inj (Except.ok.inj he)
    exact ⟨rfl, rfl⟩
  rw [spans_iff _ _ _ _ _ _ hn, forall_prop_of_true hn]
  have hpos : 0 < n * elementSize := Nat.mul_pos hn helement
  have hsize := allocated_size pid hp now env.createBlock (n * elementSize % 2 ^ 64)
  have hround : ¬ Wraps s.pool elementSize n →
      n * elementSize ≤ s.pool.roundToGranularity (n * elementSize % 2 ^ 64) := by
    intro hfits
    have hfits : n * elementSize + (s.pool.granularity - 1) < 2 ^ 64 := Nat.not_le.mp hfits
    rw [Nat.mod_eq_of_lt (by omega)]
    exact le_roundToGranularity hfits
  rw [Spared]
  cases hc : findCandidate s.os s.pool now
      (s.pool.roundToGranularity (n * elementSize % 2 ^ 64)) with
  | some candidate =>
    obtain ⟨key, vec, i, r⟩ := candidate
    rw [hc] at hsize
    obtain ⟨hle, r', hr', hkey⟩ := hsize
    constructor
    · intro h _
      exact hkey ▸ h r' hr'
    · intro h r'' hr''
      obtain rfl := Except.ok.inj (hr'.symm.trans hr'')
      rw [hkey]
      by_cases hw : Wraps s.pool elementSize n
      · exact h hw
      · exact (hround hw).trans hle
  | none =>
    rw [hc] at hsize
    rcases hsize with ⟨hrefuses, e, he⟩ | ⟨hgrants, r, hr, hlen⟩
    · refine iff_of_true ?_ fun _ => hrefuses
      intro r hr
      exact nomatch he.symm.trans hr
    · constructor
      · intro h hw
        exact absurd (h r hr) (hlen ▸ (aligned_lt s.pool hpos hw).not_ge)
      · intro h r' hr'
        obtain rfl := Except.ok.inj (hr.symm.trans hr')
        rw [hlen]
        exact hround fun hw => hgrants (h hw)

/-- Every call of the driver, and the first attempt at an event, succeed. -/
def allocating : AllocationEnv := ⟨workingEnv 5 16384 2, true, true⟩

theorem allocation_capacity_once : ∃ tr s,
    Run (step 7) (initial 4096 (by decide) 0 true) tr s ∧ tr.length = 2 ∧
      Spans 8 100 (construct s.os 7 s.pool 9 allocating 8 100) := by
  obtain ⟨x, hx⟩ : ∃ x, exec (step 7) (initial 4096 (by decide) 0 true)
      [.allocate 100 5 (workingEnv 3 8192 1), .free 0] = some x := ⟨_, rfl⟩
  refine ⟨x.1, x.2, exec_run hx, ?_, (allocation_capacity_iff (exec_run hx) 9 allocating
    (by decide)).mpr ?_⟩
  · rw [← Option.some.inj hx]
    rfl
  · intro _ hw
    rw [← Option.some.inj hx] at hw
    exact absurd hw (by decide)

/-- A free block of 4096 bytes is returned for 2^61 elements of 8 bytes, and for the last
bytes that `size_t` counts. -/
theorem wrapped_request_underallocated : ∃ tr s,
    Run (step 7) (initial 4096 (by decide) 0 true) tr s ∧
      ¬ Spans 8 (2 ^ 61) (construct s.os 7 s.pool 9 allocating 8 (2 ^ 61)) ∧
      ¬ Spans 1 (2 ^ 64 - 1) (construct s.os 7 s.pool 9 allocating 1 (2 ^ 64 - 1)) := by
  obtain ⟨x, hx⟩ : ∃ x, exec (step 7) (initial 4096 (by decide) 0 true)
      [.allocate 100 5 (workingEnv 3 8192 1), .free 0] = some x := ⟨_, rfl⟩
  refine ⟨x.1, x.2, exec_run hx, ?_, ?_⟩
  · rw [← Option.some.inj hx]
    intro h
    obtain ⟨-, -, hle⟩ := h (some 0) _ rfl
    exact absurd hle (by decide)
  · rw [← Option.some.inj hx]
    intro h
    obtain ⟨-, -, hle⟩ := h (some 0) _ rfl
    exact absurd hle (by decide)

end RosidlBufferBackends.Cuda.Capacity
