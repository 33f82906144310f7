import RosidlBufferBackends.Cuda.MemoryPool
import RosidlBufferBackends.Lib.Runs

/-! Runs of `allocate` and `free` on one pool: every block is either handed out
or stored once in the bucket of its size. -/

namespace RosidlBufferBackends.Cuda.PoolPartition

open CudaMemoryPool Runs

/-- The pool with the blocks that its callers hold; `creations` counts the
calls of `createBlock`. -/
structure State where
  os : Os := {}
  pool : CudaMemoryPool
  handedOut : List ℕ := []
  creations : ℕ := 0

inductive Event
  | allocate (byteSize now : ℕ) (env : CreateBlockEnv)
  | free (r : ℕ)
  | perturb (segments : ℕ → IPCMetadata)

inductive Output
  | allocated (log : List (Action Resource)) (result : Except CudaError ℕ)
  | done

def handOut (handedOut : List ℕ) : Except CudaError ℕ → List ℕ
  | .ok r => r :: handedOut
  | .error _ => handedOut

def step (pid : ℤ) (s : State) : Event → Option (Output × State)
  | .allocate byteSize now env =>
      let c := allocate s.os pid s.pool now env byteSize
      let created := (findCandidate s.os s.pool now (s.pool.roundToGranularity byteSize)).isNone
      some (.allocated c.log c.result,
        { os := c.os, pool := c.pool, handedOut := handOut s.handedOut c.result,
          creations := s.creations + created.toNat })
  | .free r =>
      if r ∈ s.handedOut then
        some (.done, { s with pool := s.pool.free r, handedOut := s.handedOut.erase r })
      else none
  | .perturb segments => some (.done, { s with os := { s.os with segments := segments } })

/-- The state after `CudaMemoryPool::create`. -/
def initial (granularity : ℕ) (hg : 0 < granularity) (deviceId : ℤ) (ipcCapable : Bool) : State :=
  { pool := { granularity := granularity, granularity_pos := hg, deviceId := deviceId,
              ipcCapable := ipcCapable } }

structure Partition (s : State) : Prop where
  once : ∀ r, s.handedOut.count r + s.pool.stored r =
    if r < s.pool.allBlocks.length then 1 else 0
  bucket : ∀ e ∈ s.pool.freeBlocks.entries, ∀ r ∈ e.2, (s.pool.block r).size = e.1
  nonempty : ∀ e ∈ s.pool.freeBlocks.entries, e.2 ≠ []

structure Numbered (s : State) : Prop where
  next : s.pool.nextBlockId = s.creations % 2 ^ 32
  below : s.creations ≤ 2 ^ 32 → ∀ b ∈ s.pool.allBlocks, b.blockId < s.creations
  distinct : s.creations ≤ 2 ^ 32 → (s.pool.allBlocks.map VmmBlock.blockId).Nodup

variable {s : State}

lemma Partition.stored_lt (h : Partition s) {e : ℕ × List ℕ}
    (he : e ∈ s.pool.freeBlocks.entries) {r : ℕ} (hr : r ∈ e.2) :
    r < s.pool.allBlocks.length := by
  have ho := h.once r
  have hs : 0 < s.pool.stored r :=
    (List.count_pos_iff.mpr hr).trans_le
      (OrderedMap.le_total he : List.count r e.2 ≤ s.pool.stored r)
  by_contra hlt
  rw [if_neg hlt] at ho
  omega

lemma Partition.handed_lt (h : Partition s) {r : ℕ} (hr : r ∈ s.handedOut) :
    r < s.pool.allBlocks.length := by
  have ho := h.once r
  have hp := List.count_pos_iff.mpr hr
  by_contra hlt
  rw [if_neg hlt] at ho
  omega

lemma Partition.not_handed (h : Partition s) {e : ℕ × List ℕ}
    (he : e ∈ s.pool.freeBlocks.entries) {r : ℕ} (hr : r ∈ e.2) : r ∉ s.handedOut := by
  intro hh
  have ho := h.once r
  have hs : 0 < s.pool.stored r :=
    (List.count_pos_iff.mpr hr).trans_le
      (OrderedMap.le_total he : List.count r e.2 ≤ s.pool.stored r)
  have hp := List.count_pos_iff.mpr hh
  rw [if_pos (h.handed_lt hh)] at ho
  omega

lemma candidate_mem {os : Os} {pool : CudaMemoryPool} {now aligned key i : ℕ}
    {vec : List ℕ} {r : ℕ}
    (hc : findCandidate os pool now aligned = some (key, vec, i, r)) :
    (key, vec) ∈ pool.freeBlocks.entries ∧ r ∈ vec := by
  obtain ⟨hl, hr, _⟩ := findCandidate_some hc
  exact ⟨OrderedMap.lowerBound_mem hl, List.mem_of_getElem? hr⟩

lemma Partition.take (h : Partition s) {now aligned key i : ℕ} {vec : List ℕ} {r : ℕ}
    (hc : findCandidate s.os s.pool now aligned = some (key, vec, i, r)) (os : Os) (n : ℕ) :
    Partition { os := os, pool := (takeBlock s.os s.pool key vec i r).2,
                handedOut := r :: s.handedOut, creations := n } := by
  obtain ⟨hl, hr, _⟩ := findCandidate_some hc
  have hm := OrderedMap.lowerBound_mem hl
  have hlt := h.stored_lt hm (List.mem_of_getElem? hr)
  have hsize : ∀ r', ((takeBlock s.os s.pool key vec i r).2.block r').size =
      (s.pool.block r').size := by
    intro r'
    have hb : (takeBlock s.os s.pool key vec i r).2.block r' =
        (s.pool.modifyBlock r (fun b => { b with currentUid := 0 })).block r' :=
      block_eq (by rw [takeBlock_pool]; rfl) r'
    rw [hb, block_modifyBlock _ hlt]
    split <;> rfl
  have hentry : ∀ e ∈ (takeBlock s.os s.pool key vec i r).2.freeBlocks.entries,
      (e.1 = key ∧ e.2 = swapPop vec i ∧ e.2 ≠ []) ∨ e ∈ s.pool.freeBlocks.entries := by
    intro e he
    rw [takeBlock_pool] at he
    rcases OrderedMap.mem_alter.mp he with ⟨hk, hv⟩ | ⟨_, he⟩
    · refine .inl ⟨hk, ?_⟩
      cases hx : swapPop vec i with
      | nil => simp [hx] at hv
      | cons a l =>
        have he2 : e.2 = a :: l := by simpa [hx, eq_comm] using hv
        exact ⟨he2, by simp [he2]⟩
    · exact .inr he
  constructor
  · intro r'
    have ht := takeBlock_stored s.os (OrderedMap.get?_eq_some_iff.mpr hm) hr r'
    have ho := h.once r'
    have hlen : (takeBlock s.os s.pool key vec i r).2.allBlocks.length =
        s.pool.allBlocks.length := by simp [takeBlock_pool]
    simp only [List.count_cons, beq_iff_eq, hlen]
    omega
  · intro e he r' hr'
    rw [hsize]
    rcases hentry e he with ⟨hk, hv, _⟩ | he
    · rw [hv, (swapPop_perm (List.getElem?_eq_some_iff.mp hr).1).mem_iff] at hr'
      exact hk ▸ h.bucket _ hm r' (List.mem_of_mem_eraseIdx hr')
    · exact h.bucket e he r' hr'
  · intro e he
    rcases hentry e he with ⟨_, _, hne⟩ | he
    · exact hne
    · exact h.nonempty e he

lemma Partition.create (h : Partition s) (os : Os) (next n : ℕ) (b : VmmBlock) :
    Partition
      { os := os, creations := n, handedOut := s.pool.allBlocks.length :: s.handedOut,
        pool := { s.pool with nextBlockId := next, allBlocks := s.pool.allBlocks ++ [b] } } := by
  constructor
  · intro r
    have ho := h.once r
    simp only [stored, List.count_cons, beq_iff_eq, List.length_append,
      List.length_singleton] at ho ⊢
    split_ifs at ho ⊢ <;> omega
  · intro e he r hr
    have hlt := h.stored_lt he hr
    simpa [block, List.getD_eq_getElem?_getD, List.getElem?_append_left hlt] using
      h.bucket e he r hr
  · exact h.nonempty

lemma Partition.free (h : Partition s) {r : ℕ} (hr : r ∈ s.handedOut) :
    Partition { s with pool := s.pool.free r, handedOut := s.handedOut.erase r } := by
  have hpos := List.count_pos_iff.mpr hr
  constructor
  · intro r'
    have ho := h.once r'
    have hf := free_stored s.pool r r'
    have he := List.count_erase (a := r') (b := r) (l := s.handedOut)
    simp only [beq_iff_eq] at he
    change (s.handedOut.erase r).count r' + (s.pool.free r).stored r' =
      if r' < s.pool.allBlocks.length then 1 else 0
    by_cases hx : r = r'
    · subst hx
      simp only [if_true] at he hf
      omega
    · simp only [hx, if_false] at he hf
      omega
  · intro e he r' hr'
    change (s.pool.block r').size = e.1
    rcases OrderedMap.mem_alter.mp he with ⟨hk, hv⟩ | ⟨_, he⟩
    · rw [← Option.some.inj hv] at hr'
      rcases List.mem_append.mp hr' with hr' | hr'
      · cases hg : s.pool.freeBlocks.get? (s.pool.block r).size with
        | none => simp [hg] at hr'
        | some vec =>
          rw [hg] at hr'
          exact hk ▸ h.bucket _ (OrderedMap.get?_eq_some_iff.mp hg) r' hr'
      · obtain rfl := List.mem_singleton.mp hr'
        exact hk.symm
    · exact h.bucket e he r' hr'
  · intro e he
    rcases OrderedMap.mem_alter.mp he with ⟨_, hv⟩ | ⟨_, he⟩
    · rw [← Option.some.inj hv]
      simp
    · exact h.nonempty e he

lemma partition_initial (granularity : ℕ) (hg : 0 < granularity) (deviceId : ℤ)
    (ipcCapable : Bool) : Partition (initial granularity hg deviceId ipcCapable) := by
  constructor <;> simp [initial, stored]

lemma numbered_initial (granularity : ℕ) (hg : 0 < granularity) (deviceId : ℤ)
    (ipcCapable : Bool) : Numbered (initial granularity hg deviceId ipcCapable) := by
  constructor <;> simp [initial]

lemma modify_blockIds (blocks : List VmmBlock) (r : ℕ) (f : VmmBlock → VmmBlock)
    (hf : ∀ b, (f b).blockId = b.blockId) :
    (blocks.modify r f).map VmmBlock.blockId = blocks.map VmmBlock.blockId := by
  apply List.ext_getElem?
  intro i
  rw [List.getElem?_map, List.getElem?_map, List.getElem?_modify]
  cases blocks[i]? with
  | none => rfl
  | some b => by_cases h : r = i <;> simp [h, hf]

lemma Numbered.congr {s' : State} (h : Numbered s) (hn : s'.pool.nextBlockId = s.pool.nextBlockId)
    (hc : s'.creations = s.creations)
    (hb : s'.pool.allBlocks.map VmmBlock.blockId = s.pool.allBlocks.map VmmBlock.blockId) :
    Numbered s' := by
  have hmem : ∀ b ∈ s'.pool.allBlocks, ∃ b' ∈ s.pool.allBlocks, b'.blockId = b.blockId := by
    intro b hb'
    simpa [hb] using List.mem_map.mp (hb ▸ List.mem_map_of_mem (f := VmmBlock.blockId) hb')
  constructor
  · rw [hn, hc, h.next]
  · intro hle b hb'
    obtain ⟨b', hb'', he⟩ := hmem b hb'
    rw [hc] at hle ⊢
    exact he ▸ h.below hle b' hb''
  · intro hle
    rw [hb]
    exact h.distinct (hc ▸ hle)

lemma Numbered.fail (h : Numbered s) (os : Os) (handedOut : List ℕ) :
    Numbered { os := os, handedOut := handedOut, creations := s.creations + 1,
               pool := { s.pool with nextBlockId := (s.pool.nextBlockId + 1) % 2 ^ 32 } } := by
  have hnext := h.next
  constructor
  · simp only
    omega
  · intro hle b hb
    exact (h.below (by simp only at hle; omega) b hb).trans (Nat.lt_succ_self _)
  · intro hle
    exact h.distinct (by simp only at hle; omega)

lemma Numbered.create (h : Numbered s) (os : Os) (handedOut : List ℕ) {b : VmmBlock}
    (hb : b.blockId = s.pool.nextBlockId) :
    Numbered { os := os, handedOut := handedOut, creations := s.creations + 1,
               pool := { s.pool with
                 nextBlockId := (s.pool.nextBlockId + 1) % 2 ^ 32
                 allBlocks := s.pool.allBlocks ++ [b] } } := by
  have hf := h.fail os handedOut
  have hid : s.creations + 1 ≤ 2 ^ 32 → b.blockId = s.creations := by
    intro hle
    rw [hb, h.next, Nat.mod_eq_of_lt (by omega)]
  constructor
  · exact hf.next
  · intro hle b' hb'
    rcases List.mem_append.mp hb' with hb' | hb'
    · exact hf.below hle b' hb'
    · obtain rfl := List.mem_singleton.mp hb'
      rw [hid hle]
      exact Nat.lt_succ_self _
  · intro hle
    simp only at hle
    rw [List.map_append, List.map_singleton, List.nodup_append]
    refine ⟨hf.distinct hle, List.nodup_singleton _, ?_⟩
    intro x hx y hy
    obtain ⟨b', hb', rfl⟩ := List.mem_map.mp hx
    obtain rfl := List.mem_singleton.mp hy
    have hlt := h.below (by omega) b' hb'
    rw [hid hle]
    exact hlt.ne

lemma step_allocate {pid : ℤ} {byteSize now : ℕ} {env : CreateBlockEnv} {o : Output} {s' : State}
    (hs : step pid s (.allocate byteSize now env) = some (o, s')) :
    (∃ key vec i r, findCandidate s.os s.pool now (s.pool.roundToGranularity byteSize) =
        some (key, vec, i, r) ∧ o = .allocated [] (.ok r) ∧
      s' = { os := (takeBlock s.os s.pool key vec i r).1,
             pool := (takeBlock s.os s.pool key vec i r).2,
             handedOut := r :: s.handedOut, creations := s.creations }) ∨
    (∃ log e, o = .allocated log (.error e) ∧
      findCandidate s.os s.pool now (s.pool.roundToGranularity byteSize) = none ∧
      (env.cuMemCreate = none ∨ env.cuMemAddressReserve = none ∨ env.cuMemMap = false ∨
        env.cuMemSetAccess = false) ∧
      s' = { s with creations := s.creations + 1,
                    pool := { s.pool with nextBlockId := (s.pool.nextBlockId + 1) % 2 ^ 32 } }) ∨
    (∃ b os' log,
      BlockCreated s.os pid s.pool env (s.pool.roundToGranularity byteSize) b os' ∧
      findCandidate s.os s.pool now (s.pool.roundToGranularity byteSize) = none ∧
      o = .allocated log (.ok s.pool.allBlocks.length) ∧
      s' = { os := os', creations := s.creations + 1,
             handedOut := s.pool.allBlocks.length :: s.handedOut,
             pool := { s.pool with
               nextBlockId := (s.pool.nextBlockId + 1) % 2 ^ 32
               allBlocks := s.pool.allBlocks ++ [b] } }) := by
  obtain ⟨rfl, rfl⟩ := Prod.mk.inj (Option.some.inj hs)
  rcases allocate_cases s.os pid s.pool now env byteSize with ⟨key, vec, i, r, hc, ha⟩ | ⟨hc, ha⟩
  · exact .inl ⟨key, vec, i, r, hc, by simp [ha], by simp [ha, hc, handOut]⟩
  · rcases createBlock_cases s.os pid s.pool env (s.pool.roundToGranularity byteSize) with
      ⟨log, expr, he, _, hfail⟩ | ⟨b, os', log, he, hb⟩
    · exact .inr (.inl ⟨log, .driver expr, by simp [ha, he], hc, hfail,
        by simp [ha, he, hc, handOut]⟩)
    · exact .inr (.inr ⟨b, os', log, hb, hc, by simp [ha, he], by simp [ha, he, hc, handOut]⟩)

lemma Partition.congr {s' : State} (h : Partition s) (hh : s'.handedOut = s.handedOut)
    (hf : s'.pool.freeBlocks = s.pool.freeBlocks)
    (hl : s'.pool.allBlocks.length = s.pool.allBlocks.length)
    (hb : ∀ r, (s'.pool.block r).size = (s.pool.block r).size) : Partition s' := by
  constructor
  · intro r
    simpa [stored, hh, hf, hl] using h.once r
  · intro e he r hr
    rw [hb]
    exact h.bucket e (hf ▸ he) r hr
  · intro e he
    exact h.nonempty e (hf ▸ he)

lemma step_partition {pid : ℤ} {e : Event} {o : Output} {s' : State} (h : Partition s)
    (hs : step pid s e = some (o, s')) : Partition s' := by
  cases e with
  | allocate byteSize now env =>
    rcases step_allocate hs with ⟨key, vec, i, r, hc, _, rfl⟩ | ⟨_, _, _, _, _, rfl⟩ |
      ⟨b, os', _, _, _, _, rfl⟩
    · exact h.take hc _ _
    · exact h.congr rfl rfl rfl (fun _ => rfl)
    · exact h.create _ _ _ b
  | free r =>
    simp only [step] at hs
    split_ifs at hs with hr
    obtain ⟨-, rfl⟩ := Prod.mk.inj (Option.some.inj hs)
    exact h.free hr
  | perturb segments =>
    obtain ⟨-, rfl⟩ := Prod.mk.inj (Option.some.inj hs)
    exact h.congr rfl rfl rfl (fun _ => rfl)

lemma step_numbered {pid : ℤ} {e : Event} {o : Output} {s' : State} (h : Numbered s)
    (hs : step pid s e = some (o, s')) : Numbered s' := by
  cases e with
  | allocate byteSize now env =>
    rcases step_allocate hs with ⟨key, vec, i, r, hc, _, rfl⟩ | ⟨_, _, _, _, _, rfl⟩ |
      ⟨b, os', _, hb, _, _, rfl⟩
    · refine h.congr ?_ rfl ?_
      · simp [takeBlock_pool]
      · rw [takeBlock_pool]
        exact modify_blockIds _ _ _ (fun _ => rfl)
    · exact h.fail _ _
    · exact h.create _ _ hb.blockId
  | free r =>
    simp only [step] at hs
    split_ifs at hs with hr
    obtain ⟨-, rfl⟩ := Prod.mk.inj (Option.some.inj hs)
    exact h.congr rfl rfl rfl
  | perturb segments =>
    obtain ⟨-, rfl⟩ := Prod.mk.inj (Option.some.inj hs)
    exact h.congr rfl rfl rfl

/-- What holds of the pool at any time, and of the next call of `allocate`. -/
structure Safe (pid : ℤ) (s : State) : Prop where
  held_or_stored : ∀ r < s.pool.allBlocks.length,
    (s.handedOut.count r = 1 ∧ s.pool.stored r = 0) ∨
      (s.handedOut.count r = 0 ∧ s.pool.stored r = 1)
  only_blocks : ∀ r, r ∈ s.handedOut ∨ s.pool.stored r ≠ 0 → r < s.pool.allBlocks.length
  own_bucket : ∀ e ∈ s.pool.freeBlocks.entries, ∀ r ∈ e.2, (s.pool.block r).size = e.1
  no_empty_bucket : ∀ e ∈ s.pool.freeBlocks.entries, e.2 ≠ []
  distinct_ids : s.creations ≤ 2 ^ 32 → (s.pool.allBlocks.map VmmBlock.blockId).Nodup
  not_handed_out : ∀ now env n r,
    (allocate s.os pid s.pool now env n).result = .ok r → r ∉ s.handedOut
  reused : ∀ now env n r, (allocate s.os pid s.pool now env n).result = .ok r →
    r < s.pool.allBlocks.length → isBlockReady s.os now (s.pool.block r) = true ∧
      ∃ e ∈ s.pool.freeBlocks.entries, r ∈ e.2 ∧ s.pool.roundToGranularity n ≤ e.1 ∧
        ∀ e' ∈ s.pool.freeBlocks.entries, s.pool.roundToGranularity n ≤ e'.1 → e.1 ≤ e'.1
  failed : ∀ now env n log err s',
    step pid s (.allocate n now env) = some (.allocated log (.error err), s') →
    s'.pool.allBlocks = s.pool.allBlocks ∧ s'.pool.freeBlocks = s.pool.freeBlocks ∧
      s'.handedOut = s.handedOut ∧ Ledger.Settled log

lemma allocate_ok {pid : ℤ} {now n r : ℕ} {env : CreateBlockEnv}
    (h : (allocate s.os pid s.pool now env n).result = .ok r) :
    (∃ key vec i, findCandidate s.os s.pool now (s.pool.roundToGranularity n) =
      some (key, vec, i, r)) ∨ r = s.pool.allBlocks.length := by
  rcases allocate_cases s.os pid s.pool now env n with ⟨key, vec, i, r', hc, ha⟩ | ⟨_, ha⟩
  · obtain rfl : r' = r := by simpa [ha] using h
    exact .inl ⟨key, vec, i, hc⟩
  · rcases createBlock_cases s.os pid s.pool env (s.pool.roundToGranularity n) with
      ⟨log, expr, he, _⟩ | ⟨b, os', log, he, _⟩
    · simp [ha, he] at h
    · exact .inr (by simpa [ha, he, eq_comm] using h)

lemma step_error {pid : ℤ} {now n : ℕ} {env : CreateBlockEnv} {log : List (Action Resource)}
    {err : CudaError} {s' : State}
    (hs : step pid s (.allocate n now env) = some (.allocated log (.error err), s')) :
    s'.pool.allBlocks = s.pool.allBlocks ∧ s'.pool.freeBlocks = s.pool.freeBlocks ∧
      s'.handedOut = s.handedOut ∧ Ledger.Settled log := by
  obtain ⟨ho, rfl⟩ := Prod.mk.inj (Option.some.inj hs)
  obtain ⟨rfl, he⟩ := Output.allocated.inj ho
  rcases allocate_cases s.os pid s.pool now env n with ⟨key, vec, i, r', hc, ha⟩ | ⟨_, ha⟩
  · simp [ha] at he
  · rcases createBlock_cases s.os pid s.pool env (s.pool.roundToGranularity n) with
      ⟨log, expr, hb, hl, _⟩ | ⟨b, os', log, hb, _⟩
    · rw [ha, hb]
      exact ⟨rfl, rfl, rfl, hl⟩
    · simp [ha, hb] at he

lemma safe_of_invariants (pid : ℤ) (hp : Partition s) (hn : Numbered s) : Safe pid s := by
  refine ⟨?_, ?_, hp.bucket, hp.nonempty, hn.distinct, ?_, ?_, fun _ _ _ _ _ _ => step_error⟩
  · intro r hr
    have ho := hp.once r
    rw [if_pos hr] at ho
    omega
  · intro r hr
    have ho := hp.once r
    by_contra hlt
    rw [if_neg hlt] at ho
    rcases hr with hr | hr
    · exact hlt (hp.handed_lt hr)
    · omega
  · intro now env n r h
    rcases allocate_ok h with ⟨key, vec, i, hc⟩ | rfl
    · obtain ⟨hm, hr⟩ := candidate_mem hc
      exact hp.not_handed hm hr
    · intro hr
      exact (hp.handed_lt hr).ne rfl
  · intro now env n r h hlt
    rcases allocate_ok h with ⟨key, vec, i, hc⟩ | rfl
    · obtain ⟨hl, _, hready⟩ := findCandidate_some hc
      obtain ⟨hm, hr⟩ := candidate_mem hc
      exact ⟨hready, (key, vec), hm, hr, OrderedMap.lowerBound_le hl,
        fun e' he' hle => OrderedMap.lowerBound_least hl he' hle⟩
    · exact absurd hlt (lt_irrefl _)

theorem pool_partition (pid : ℤ) (granularity : ℕ) (hg : 0 < granularity) (deviceId : ℤ)
    (ipcCapable : Bool) {tr : List (Event × Output)}
    (hr : Run (step pid) (initial granularity hg deviceId ipcCapable) tr s) : Safe pid s := by
  have h : Partition s ∧ Numbered s := by
    apply hr.invariant ⟨partition_initial _ _ _ _, numbered_initial _ _ _ _⟩
    rintro t e o u ⟨hp, hn⟩ hs
    exact ⟨step_partition hp hs, step_numbered hn hs⟩
  exact safe_of_invariants pid h.1 h.2

def workingEnv (fd va a : ℕ) : CreateBlockEnv :=
  { cuMemCreate := some a, cuMemAddressReserve := some va, cuMemMap := true,
    cuMemSetAccess := true, cuMemExportToShareableHandle := some fd, shmOpen := some (fd + 1),
    ftruncate := true, mmap := true }

theorem pool_partition_reuse :
    ∃ tr s, Run (step 7) (initial 4096 (by decide) 0 true) tr s ∧ tr.length = 3 ∧ Safe 7 s := by
  obtain ⟨x, hx⟩ : ∃ x, exec (step 7) (initial 4096 (by decide) 0 true)
      [.allocate 100 5 (workingEnv 3 8192 1), .free 0, .allocate 200 9 (workingEnv 5 16384 2)] =
      some x := ⟨_, rfl⟩
  refine ⟨x.1, x.2, exec_run hx, ?_, pool_partition 7 4096 (by decide) 0 true (exec_run hx)⟩
  rw [← Option.some.inj hx]
  rfl

def failingEnv : CreateBlockEnv :=
  { cuMemCreate := none, cuMemAddressReserve := none, cuMemMap := false, cuMemSetAccess := false,
    cuMemExportToShareableHandle := none, shmOpen := none, ftruncate := false, mmap := false }

lemma run_failing (pid : ℤ) (hf : s.pool.freeBlocks = .empty)
    (hlt : s.pool.nextBlockId < 2 ^ 32) (n : ℕ) :
    Run (step pid) s (List.replicate n (.allocate 1 0 failingEnv,
        .allocated [] (.error (.driver "cuMemCreate"))))
      { s with creations := s.creations + n,
               pool := { s.pool with nextBlockId := (s.pool.nextBlockId + n) % 2 ^ 32 } } := by
  induction n with
  | zero =>
    simp only [List.replicate_zero, Nat.add_zero, Nat.mod_eq_of_lt hlt]
    exact .nil
  | succ n ih =>
    rw [List.replicate_succ']
    apply ih.snoc
    simp [step, allocate, findCandidate, hf, OrderedMap.empty, OrderedMap.lowerBound, createBlock,
      failingEnv, handOut, Nat.add_assoc]

theorem failed_creations_consume_ids : ¬ ∀ (tr : List (Event × Output)) (s : State),
    Run (step 7) (initial 4096 (by decide) 0 false) tr s → s.pool.allBlocks.length < 2 ^ 32 →
      (s.pool.allBlocks.map VmmBlock.blockId).Nodup := by
  intro h
  obtain ⟨⟨o, t⟩, ht⟩ : ∃ x, step 7 (initial 4096 (by decide) 0 false)
      (.allocate 100 5 (workingEnv 3 8192 1)) = some x := ⟨_, rfl⟩
  have he := (Prod.mk.inj (Option.some.inj ht)).2
  have hrun := (Run.single ht).append
    (run_failing 7 (by rw [← he]; rfl) (by rw [← he]; decide) (2 ^ 32 - 1))
  subst he
  have hu := h _ _ (hrun.snoc (e := .allocate 100 5 (workingEnv 3 16384 1)) rfl) (by decide)
  exact absurd hu (by decide)

end RosidlBufferBackends.Cuda.PoolPartition
