import RosidlBufferBackends.Cuda.ResizeGuards

/-! The steps of `resize` and `clear`, each with the ledger of what the blocks will hold. -/

namespace RosidlBufferBackends.Cuda.Resizing

open Streams Device PoolPartition

variable {width : ℕ} {others : List ℕ} {L L' : ℕ → Option Bytes} {s s' : State} {pid : ℤ}
  {n r byteSize now : ℕ} {env : Env} {newBuffer : CudaBuffer} {pool : PoolPartition.State}
  {created : CreateBlockEnv} {o : Output}

section Allocation

lemma allocate_step (pid : ℤ) (pool : PoolPartition.State) (byteSize now : ℕ)
    (created : CreateBlockEnv) : ∃ log, PoolPartition.step pid pool
      (.allocate byteSize now created) =
        some (.allocated log (State.allocate pid pool byteSize now created).1,
          (State.allocate pid pool byteSize now created).2) :=
  ⟨_, rfl⟩

lemma allocate_partition (h : Partition pool) (pid : ℤ) (byteSize now : ℕ)
    (created : CreateBlockEnv) : Partition (State.allocate pid pool byteSize now created).2 := by
  obtain ⟨log, hs⟩ := allocate_step pid pool byteSize now created
  exact step_partition h hs

lemma allocate_blocks (pid : ℤ) (pool : PoolPartition.State) (byteSize now : ℕ)
    (created : CreateBlockEnv) (hr : r < pool.pool.allBlocks.length) :
    ((State.allocate pid pool byteSize now created).2.pool.block r).size =
      (pool.pool.block r).size := by
  obtain ⟨log, hs⟩ := allocate_step pid pool byteSize now created
  obtain ⟨key, vec, i, r', hc, -, he⟩ | ⟨_, _, _, _, _, he⟩ | ⟨b, os', _, _, _, _, he⟩ :=
    step_allocate hs
  · rw [he]
    have hb : (CudaMemoryPool.takeBlock pool.os pool.pool key vec i r').2.block r =
        (pool.pool.modifyBlock r' fun b => { b with currentUid := 0 }).block r :=
      CudaMemoryPool.block_eq (by rw [CudaMemoryPool.takeBlock_pool]; rfl) r
    rw [hb]
    by_cases hlt : r' < pool.pool.allBlocks.length
    · rw [CudaMemoryPool.block_modifyBlock _ hlt]
      split <;> rfl
    · have hsame : (pool.pool.modifyBlock r' fun b => { b with currentUid := 0 }).allBlocks =
          pool.pool.allBlocks := List.modify_eq_self (Nat.not_lt.mp hlt)
      rw [CudaMemoryPool.block_eq hsame]
  · rw [he]
    rfl
  · rw [he]
    simp [CudaMemoryPool.block, List.getD_eq_getElem?_getD, List.getElem?_append_left hr]

lemma allocate_granularity (pid : ℤ) (pool : PoolPartition.State) (byteSize now : ℕ)
    (created : CreateBlockEnv) :
    (State.allocate pid pool byteSize now created).2.pool.granularity =
      pool.pool.granularity := by
  obtain ⟨log, hs⟩ := allocate_step pid pool byteSize now created
  obtain ⟨key, vec, i, r', hc, -, he⟩ | ⟨_, _, _, _, _, he⟩ | ⟨b, os', _, _, _, _, he⟩ :=
    step_allocate hs
  · rw [he, CudaMemoryPool.takeBlock_pool]
  · rw [he]
  · rw [he]

/-- The block that is handed out is large enough, and no one had it. -/
lemma allocate_ok (h : Partition pool) (hn : Requestable width pool n)
    (hr : (State.allocate pid pool (n * width % 2 ^ 64) now created).1 = .ok r) :
    n * width ≤
        ((State.allocate pid pool (n * width % 2 ^ 64) now created).2.pool.block r).size ∧
      (State.allocate pid pool (n * width % 2 ^ 64) now created).2.handedOut =
        r :: pool.handedOut ∧ r ∉ pool.handedOut := by
  have hfits : n * width + (pool.pool.granularity - 1) < 2 ^ 64 :=
    (Nat.add_le_add_left (Nat.sub_le _ _) _).trans_lt hn
  have hhanded : (State.allocate pid pool (n * width % 2 ^ 64) now created).2.handedOut =
      r :: pool.handedOut := by
    change handOut pool.handedOut (State.allocate pid pool _ now created).1 = _
    rw [hr]
    rfl
  have hmod : n * width % 2 ^ 64 = n * width :=
    Nat.mod_eq_of_lt ((Nat.le_add_right _ _).trans_lt hfits)
  refine ⟨?_, hhanded, ?_⟩
  · have hround := Capacity.le_roundToGranularity hfits
    have hsize := Capacity.allocated_size pid h now created (n * width % 2 ^ 64)
    rw [hmod] at hsize hr ⊢
    change (pool.pool.allocate pool.os pid now created (n * width)).result = _ at hr
    change n * width ≤
      ((pool.pool.allocate pool.os pid now created (n * width)).pool.block r).size
    cases hc : CudaMemoryPool.findCandidate pool.os pool.pool now
        (pool.pool.roundToGranularity (n * width)) with
    | none =>
      rw [hc] at hsize
      obtain ⟨-, e, he⟩ | ⟨-, r', hr', hlen⟩ := hsize
      · exact nomatch he.symm.trans hr
      · obtain rfl := Except.ok.inj (hr'.symm.trans hr)
        exact hround.trans_eq hlen.symm
    | some candidate =>
      obtain ⟨key, vec, i, r₀⟩ := candidate
      rw [hc] at hsize
      obtain ⟨hle, r', hr', hkey⟩ := hsize
      obtain rfl := Except.ok.inj (hr'.symm.trans hr)
      exact (hround.trans hle).trans_eq hkey.symm
  · have hp := (allocate_partition h pid (n * width % 2 ^ 64) now created).once r
    rw [hhanded, List.count_cons_self] at hp
    intro hmem
    have hpos := List.count_pos_iff.mpr hmem
    split_ifs at hp <;> omega

end Allocation

/-- The impl keeps its storage, and the ledger what it tells of it. -/
structure Carried (L L' : ℕ → Option Bytes) (s s' : State) : Prop where
  size : s'.size = s.size
  devicePtr : s'.cudaBuffer.devicePtr = s.cudaBuffer.devicePtr
  bytes : s'.cudaBuffer.size = s.cudaBuffer.size
  ledger : ∀ r, s.cudaBuffer.devicePtr = some r → L' r = L r

section Calls

lemma Carried.refl (L : ℕ → Option Bytes) (s : State) : Carried L L s s :=
  ⟨rfl, rfl, rfl, fun _ _ => rfl⟩

/-- Only the place in the call changes, and no handle is opened or closed. -/
lemma Tended.recall {call : Call} (h : Tended width others L s)
    (hnew : call.newBuffer.map CudaBuffer.work = s.call.newBuffer.map CudaBuffer.work)
    (hscope : ∀ r k, s.Scoped r k → State.Scoped { s with call := call } r k)
    (hcall : CallOk width L { s with call := call }) :
    Tended width others L { s with call := call } := by
  have htenants : State.tenants { s with call := call } = s.tenants := by
    rw [State.tenants, State.tenants, hnew]
  refine ⟨h.orderly, h.partition, ?_, ?_, ?_, h.determined, h.fits, h.writes, h.closed, hcall⟩
  · rw [htenants]
    exact h.tenancy
  · rw [htenants]
    exact h.placed
  · intro p w r hp hw hr
    rw [State.Covered, htenants]
    exact (h.guarded p w r hp hw hr).imp_left (hscope r p.stream)

lemma start_tended (h : Tended width others L s) (hcall : s.call = .none)
    (hn : Requestable width s.pool n) :
    Tended width others L { s with call := .allocating n } := by
  refine h.recall (by rw [hcall]; rfl) ?_ hn
  intro r k hk
  rw [State.Scoped, hcall] at hk
  exact hk

/-- The block is in no one's hands, so that nothing under way touches it. -/
lemma Tended.untouched (h : Tended width others L s) (hr : r ∉ s.pool.handedOut) :
    ∀ p w, s.device.Unfinished p w → ¬ w.Touches r := by
  have hcount := h.tenancy r
  rw [List.count_eq_zero_of_not_mem hr] at hcount
  have hnone : ∀ t ∈ s.tenants, t.devicePtr ≠ some r := by
    intro t ht he
    have hpos : 0 < s.tenants.countP (PendingWork.holds r) :=
      List.countP_pos_iff.mpr ⟨t, ht, holds_iff.mpr he⟩
    omega
  intro p w hp hw
  have hothers : r ∉ others := List.count_eq_zero.mp (by omega)
  obtain hscope | ⟨t, ht, htr, -⟩ := h.guarded p w r hp hw hothers
  · obtain ⟨buf, howner, hbuf⟩ := scoped_holder hscope
    refine hnone buf.work (mem_tenants.mpr ?_) hbuf
    obtain rfl | hnew := howner
    · exact .inl rfl
    · exact .inr (.inl ⟨buf, hnew, rfl⟩)
  · exact hnone t ht htr

lemma Tended.held_lt (h : Tended width others L s) (hr : s.cudaBuffer.devicePtr = some r) :
    r < s.pool.pool.allBlocks.length :=
  h.partition.handed_lt (h.handed (t := s.cudaBuffer.work) (mem_tenants.mpr (.inl rfl)) hr)

lemma allocate_failed (h : Tended width others L s) (hcall : s.call = .allocating n)
    {e : CudaError} (ha : State.allocate pid s.pool byteSize now created = (.error e, pool)) :
    Tended width others L { s with pool := pool, call := .none } := by
  have hpartition := allocate_partition h.partition pid byteSize now created
  have hblocks := fun r hr => allocate_blocks (r := r) pid s.pool byteSize now created hr
  rw [ha] at hpartition hblocks
  have hhanded : pool.handedOut = s.pool.handedOut := by
    have he : (State.allocate pid s.pool byteSize now created).2.handedOut =
        handOut s.pool.handedOut (State.allocate pid s.pool byteSize now created).1 := rfl
    rw [ha] at he
    exact he
  have htenants : State.tenants { s with pool := pool, call := .none } = s.tenants := by
    rw [State.tenants, State.tenants, hcall]
    rfl
  refine ⟨h.orderly, hpartition, ?_, ?_, ?_, h.determined, ?_, h.writes, h.closed, trivial⟩
  · rw [htenants]
    change ∀ r, _ = pool.handedOut.count r
    rw [hhanded]
    exact h.tenancy
  · rw [htenants]
    exact h.placed
  · intro p w r hp hw hr
    rw [State.Covered, htenants]
    refine (h.guarded p w r hp hw hr).imp_left fun hscope => ?_
    rw [State.Scoped, hcall] at hscope
    exact hscope
  · exact h.fits.congr (fun r hr => hblocks r (h.held_lt hr)) fun _ => id

/-- The buffer over the block that `allocate` gave. -/
def freshBuffer (width n r : ℕ) : CudaBuffer where
  devicePtr := some r
  size := n * width % 2 ^ 64
  writeEvent := some none
  recycler := true

/-- The ledger with a block as it is now. -/
def entered (L : ℕ → Option Bytes) (d : Device ℕ ℕ Bytes) (r : ℕ) : ℕ → Option Bytes :=
  Function.update L r (some (d.memory r))

lemma entered_isSome {d : Device ℕ ℕ Bytes} {r₀ : ℕ} (h : (L r₀).isSome) :
    (entered L d r r₀).isSome := by
  by_cases hr : r₀ = r
  · subst hr
    rw [entered, Function.update_self]
    rfl
  · rwa [entered, Function.update_of_ne hr]

lemma fresh_buffer (hfree : ∀ p w, s.device.Unfinished p w → ¬ w.Touches r) :
    Fresh s.device (freshBuffer width n r) := by
  refine ⟨fun p w r' hp hr' => ?_, rfl⟩
  obtain rfl := Option.some.inj hr'
  exact hfree p w hp

lemma Fresh.writes {d : Device ℕ ℕ Bytes} (h : Fresh d newBuffer) :
    WritesRecorded d newBuffer :=
  fun p w r hp hr ht => absurd (.inr ht) (h.untouched p w r hp hr)

lemma copied_zero (hw : 0 < width) (h : Tended width others L s)
    (hc : ¬ (0 < s.size ∧ 0 < s.cudaBuffer.size)) :
    Copied (min n s.size * width) L' s.cudaBuffer newBuffer := by
  have hsize : s.size = 0 := by
    by_contra hne
    have hpos := Nat.pos_of_ne_zero hne
    have hle := h.fits.elements
    have hbytes : 0 < s.size * width := Nat.mul_pos hpos hw
    exact hc ⟨hpos, hbytes.trans_le hle⟩
  intro x y _ _ j hj
  rw [hsize, Nat.min_zero, Nat.zero_mul] at hj
  exact absurd hj (Nat.not_lt_zero j)

lemma allocate_succeeded (hw : 0 < width) (h : Tended width others L s)
    (hcall : s.call = .allocating n) (hn : Requestable width s.pool n)
    (ha : State.allocate pid s.pool (n * width % 2 ^ 64) now created = (.ok r, pool)) :
    Tended width others (entered L s.device r)
      { s with
        pool := pool
        call := .resizing n (freshBuffer width n r)
          (if 0 < s.size ∧ 0 < s.cudaBuffer.size then .allocated else .closed none) } := by
  have hpartition := allocate_partition h.partition pid (n * width % 2 ^ 64) now created
  have hblocks := fun r hr =>
    allocate_blocks (r := r) pid s.pool (n * width % 2 ^ 64) now created hr
  have hok : (State.allocate pid s.pool (n * width % 2 ^ 64) now created).1 = .ok r := by rw [ha]
  obtain ⟨hsize, hhanded, hnot⟩ := allocate_ok h.partition hn hok
  rw [ha] at hpartition hblocks hsize hhanded
  have hfree := h.untouched hnot
  have hmod : n * width % 2 ^ 64 = n * width :=
    Nat.mod_eq_of_lt ((Nat.le_add_right _ _).trans_lt hn)
  have htenants : s.tenants = s.cudaBuffer.work :: s.queue := by
    rw [State.tenants, hcall]
    rfl
  constructor
  · exact h.orderly
  · exact hpartition
  · intro r'
    have ht := h.tenancy r'
    rw [htenants] at ht
    change _ = pool.handedOut.count r'
    rw [hhanded]
    simp only [State.tenants, Call.newBuffer, Option.map_some, Option.toList_some,
      List.countP_cons, List.singleton_append, List.count_cons, PendingWork.holds,
      CudaBuffer.work, freshBuffer, beq_iff_eq, decide_eq_true_eq, Option.some.injEq] at ht ⊢
    omega
  · intro t ht q hq
    obtain rfl | ⟨new, hnew, rfl⟩ | ht := mem_tenants.mp ht
    · exact h.placed _ (mem_tenants.mpr (.inl rfl)) q hq
    · obtain rfl := Option.some.inj hnew
      simp [CudaBuffer.work, CudaBuffer.eventsToSync, freshBuffer] at hq
    · exact h.placed _ (mem_tenants.mpr (.inr (.inr ht))) q hq
  · intro p w r' hp hw hr
    refine covered_mono (h.guarded p w r' hp hw hr) (fun hscope => ?_) fun t ht htr => ?_
    · rw [State.Scoped, hcall] at hscope
      exact hscope.elim
    · refine ⟨t, mem_tenants.mpr ?_, htr, fun q => id⟩
      rw [htenants] at ht
      exact (List.mem_cons.mp ht).imp_right .inr
  · exact track_determined h.determined 0 hfree
  · exact h.fits.congr (fun r hr => hblocks r (h.held_lt hr)) fun _ => entered_isSome
  · exact h.writes
  · exact h.closed
  · refine ⟨⟨hmod.ge, ?_, ?_, ?_, (fun _ _ h => by cases h), (fun h => by cases h)⟩, rfl, ?_⟩
    · intro r' hr'
      obtain rfl := Option.some.inj hr'
      exact hmod.le.trans hsize
    · intro r' hr'
      obtain rfl := Option.some.inj hr'
      rw [entered, Function.update_self]
      rfl
    · exact fun r' _ => ⟨rfl, rfl⟩
    · split_ifs with hc
      · refine ⟨?_, fresh_buffer hfree, (fun h => by cases h)⟩
        by_contra hnone
        have hempty := (h.fits.empty (Option.not_isSome_iff_eq_none.mp hnone)).1
        omega
      · have hcopied : Copied (min n s.size * width) (entered L s.device r) s.cudaBuffer
            (freshBuffer width n r) := copied_zero hw h hc
        exact ⟨(fun h => by cases h), (fresh_buffer hfree).writes, fun _ => hcopied⟩

lemma allocate_tended (hw : 0 < width) (h : Tended width others L s)
    (hcall : s.call = .allocating n) (hs : s.allocateBufferInternal pid width n env = (o, s')) :
    ∃ L', Tended width others L' s' ∧ Carried L L' s s' := by
  have hn : Requestable width s.pool n := by
    have hc := h.call
    rw [CallOk, hcall] at hc
    exact hc
  rw [State.allocateBufferInternal] at hs
  rcases ha : State.allocate pid s.pool (n * width % 2 ^ 64) env.now env.createBlock with
    ⟨e | r, pool⟩
  · rw [ha] at hs
    obtain ⟨-, rfl⟩ := Prod.mk.inj hs
    exact ⟨L, allocate_failed h hcall ha, rfl, rfl, rfl, fun _ _ => rfl⟩
  · rw [ha] at hs
    obtain ⟨-, rfl⟩ := Prod.mk.inj hs
    refine ⟨_, allocate_succeeded hw h hcall hn ha, rfl, rfl, rfl, fun r₀ hr₀ => ?_⟩
    have hok : (State.allocate pid s.pool (n * width % 2 ^ 64) env.now env.createBlock).1 =
        .ok r := by rw [ha]
    have hnot := (allocate_ok h.partition hn hok).2.2
    have hheld := h.handed (mem_tenants.mpr (.inl rfl)) hr₀
    have hne : r₀ ≠ r := by
      rintro rfl
      exact hnot hheld
    exact Function.update_of_ne hne _ _

end Calls

section Handles

lemma tenants_count (s : State) (r : ℕ) : s.tenants.countP (PendingWork.holds r) =
    (if s.cudaBuffer.devicePtr = some r then 1 else 0) +
      (s.call.newBuffer.elim 0 fun buf => if buf.devicePtr = some r then 1 else 0) +
      s.queue.countP (PendingWork.holds r) := by
  cases hc : s.call.newBuffer with
  | none =>
    simp only [State.tenants, hc, Option.map_none, Option.toList_none, List.nil_append,
      List.countP_cons, PendingWork.holds, CudaBuffer.work, decide_eq_true_eq, Option.elim_none]
    omega
  | some buf =>
    simp only [State.tenants, hc, Option.map_some, Option.toList_some, List.singleton_append,
      List.countP_cons, PendingWork.holds, CudaBuffer.work, decide_eq_true_eq, Option.elim_some]
    omega

lemma mem_events {buf : CudaBuffer} {q : Point ℕ} :
    some q ∈ buf.work.events ↔ buf.writeEvent = some (some q) ∨ q ∈ buf.readEvents := by
  simp [CudaBuffer.work, CudaBuffer.eventsToSync, Option.mem_toList]

lemma finalizeWrite_closed {gpu : Gpu ℕ (Transfer ℕ Bytes)} {buf : CudaBuffer}
    (h : Closed buf) : buf.finalizeWrite gpu = buf := if_neg h

lemma Tended.stage {stage : Stage} (h : Tended width others L s)
    (hcall : s.call = .resizing n newBuffer stage) :
    Fits width L s.pool n newBuffer ∧ newBuffer.devicePtr.isSome ∧
      StageOk width L s n newBuffer stage := by
  have hc := h.call
  rw [CallOk, hcall] at hc
  exact hc

/-- Only events of reads that are done are dropped, and no handle is open. -/
lemma reaped_tended {call : Call} (h : Tended width others L s) (hscope : ∀ r k, ¬ s.Scoped r k)
    (hnew : call.newBuffer = s.call.newBuffer)
    (hcall : CallOk width L
      { s with
        cudaBuffer := s.cudaBuffer.reap s.device.gpu
        call := call }) :
    Tended width others L
      { s with
        cudaBuffer := s.cudaBuffer.reap s.device.gpu
        call := call } := by
  have hkept : ∀ q, some q ∈ (s.cudaBuffer.reap s.device.gpu).work.events ↔
      some q ∈ s.cudaBuffer.work.events ∧
        (s.cudaBuffer.writeEvent = some (some q) ∨ s.device.gpu.passed q = false) := by
    intro q
    rw [mem_events, mem_events, CudaBuffer.reap]
    simp only [List.mem_filter, Bool.not_eq_true']
    tauto
  have htenants : ∀ t ∈ State.tenants
      { s with
        cudaBuffer := s.cudaBuffer.reap s.device.gpu
        call := call }, t = (s.cudaBuffer.reap s.device.gpu).work ∨ t ∈ s.tenants := by
    intro t ht
    obtain rfl | ⟨new, hn, rfl⟩ | ht := mem_tenants.mp ht
    · exact .inl rfl
    · exact .inr (mem_tenants.mpr (.inr (.inl ⟨new, hnew ▸ hn, rfl⟩)))
    · exact .inr (mem_tenants.mpr (.inr (.inr ht)))
  constructor
  · exact h.orderly
  · exact h.partition
  · intro r
    have ht := h.tenancy r
    rw [tenants_count, ← hnew] at ht
    rw [tenants_count]
    exact ht
  · intro t ht q hq
    obtain rfl | ht := htenants t ht
    · exact h.placed _ (mem_tenants.mpr (.inl rfl)) q ((hkept q).mp hq).1
    · exact h.placed t ht q hq
  · intro p w r hp hw hr
    obtain hs | ⟨t, ht, htr, q, hq, hstream, hlt⟩ := h.guarded p w r hp hw hr
    · exact absurd hs (hscope r _)
    · obtain rfl | ⟨new, hn, rfl⟩ | ht := mem_tenants.mp ht
      · refine .inr ⟨_, mem_tenants.mpr (.inl rfl), htr, q, (hkept q).mpr ⟨hq, .inr ?_⟩, hstream,
          hlt⟩
        by_contra hpassed
        exact not_ahead_of_passed hp (Bool.not_eq_false _ ▸ hpassed) hstream hlt
      · exact .inr ⟨_, mem_tenants.mpr (.inr (.inl ⟨new, hnew ▸ hn, rfl⟩)), htr, q, hq, hstream,
          hlt⟩
      · exact .inr ⟨t, mem_tenants.mpr (.inr (.inr ht)), htr, q, hq, hstream, hlt⟩
  · exact h.determined
  · exact ⟨h.fits.elements, h.fits.block, h.fits.tracked, h.fits.event, h.fits.unwritten,
      h.fits.empty⟩
  · exact h.writes
  · exact h.closed
  · exact hcall

lemma reap_tended (h : Tended width others L s)
    (hcall : s.call = .resizing n newBuffer .allocated) :
    Tended width others L
      { s with
        cudaBuffer := s.cudaBuffer.reap s.device.gpu
        call := .resizing n newBuffer .reaped } := by
  refine reaped_tended h (fun r k hs => ?_) (by rw [hcall]; rfl) (h.stage hcall)
  rw [State.Scoped, hcall] at hs
  exact hs

end Handles

end RosidlBufferBackends.Cuda.Resizing
