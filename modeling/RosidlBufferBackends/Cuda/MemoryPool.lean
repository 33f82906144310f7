import RosidlBufferBackends.Cuda.SharedState
import RosidlBufferBackends.Lib.OrderedMap

/-! The publisher-side pool of VMM blocks. A pointer to a block is its index in
`allBlocks`, where blocks stay until the pool is destroyed. -/

namespace RosidlBufferBackends.Cuda

structure VmmBlock where
  handle : ℕ := 0
  va : ℕ := 0
  size : ℕ := 0
  exportedFd : ℤ := -1
  blockId : ℕ := 0
  ipcMeta : Option ℕ := none
  shmFd : ℤ := -1
  shmName : String := ""
  currentUid : ℕ := 0
  deriving DecidableEq, Repr

structure CudaMemoryPool where
  granularity : ℕ
  granularity_pos : 0 < granularity
  deviceId : ℤ
  ipcCapable : Bool
  nextBlockId : ℕ := 0
  freeBlocks : OrderedMap ℕ (List ℕ) := .empty
  allBlocks : List VmmBlock := []
  registeredBlocks : ℕ → Option String := fun _ => none

def gracePeriodUs : ℕ := 100000

/-- The results of the calls that `createBlock` makes. -/
structure CreateBlockEnv where
  cuMemCreate : Option ℕ
  cuMemAddressReserve : Option ℕ
  cuMemMap : Bool
  cuMemSetAccess : Bool
  cuMemExportToShareableHandle : Option ℕ
  shmOpen : Option ℕ
  ftruncate : Bool
  mmap : Bool
  deriving DecidableEq, Repr

structure PoolCall (α : Type) where
  os : Os
  pool : CudaMemoryPool
  log : List (Action Resource)
  result : Except CudaError α

def shmName (pid : ℤ) (blockId : ℕ) : String :=
  "/cuda_vmm_" ++ pid.repr ++ "_" ++ blockId.repr

namespace CudaMemoryPool

def block (pool : CudaMemoryPool) (r : ℕ) : VmmBlock := pool.allBlocks.getD r {}

def modifyBlock (pool : CudaMemoryPool) (r : ℕ) (f : VmmBlock → VmmBlock) :
    CudaMemoryPool :=
  { pool with allBlocks := pool.allBlocks.modify r f }

def roundToGranularity (pool : CudaMemoryPool) (size : ℕ) : ℕ :=
  (size + pool.granularity - 1) % 2 ^ 64 / pool.granularity * pool.granularity

def isBlockReady (os : Os) (now : ℕ) (b : VmmBlock) : Bool :=
  match b.ipcMeta with
  | none => true
  | some seg =>
      let m := os.segments seg
      if m.refcount > 0 then false
      else if m.publishTimestampUs = 0 then true
      else if now < m.publishTimestampUs then false
      else decide (gracePeriodUs ≤ now - m.publishTimestampUs)

/-- The metadata segment of a new block; without one the block keeps none. -/
def createMetadata (os : Os) (pid : ℤ) (env : CreateBlockEnv) (b : VmmBlock) :
    Os × VmmBlock × List (Action Resource) :=
  let name := shmName pid b.blockId
  let os := os.shmUnlink name
  match env.shmOpen with
  | none => (os, b, [])
  | some fd =>
      let (os, seg) := os.shmCreate name
      if env.ftruncate = false then
        (os.shmUnlink name, b, [.acquire (.shmFd fd), .release (.shmFd fd)])
      else if env.mmap = false then
        (os.shmUnlink name, b, [.acquire (.shmFd fd), .release (.shmFd fd)])
      else
        (os.modifySegment seg (fun _ => {}),
          { b with ipcMeta := some seg, shmFd := fd, shmName := name },
          [.acquire (.shmFd fd), .acquire (.metadataMapping seg)])

def exportBlock (os : Os) (env : CreateBlockEnv) (b : VmmBlock) :
    Os × VmmBlock × List (Action Resource) :=
  match env.cuMemExportToShareableHandle with
  | none => (os, b, [])
  | some fd =>
      ({ os with files := Function.update os.files fd (some b.handle) },
        { b with exportedFd := fd }, [.acquire (.exportedFd fd)])

def exportIpc (os : Os) (pid : ℤ) (env : CreateBlockEnv) (b : VmmBlock) :
    Os × VmmBlock × List (Action Resource) :=
  let (os, b, exportLog) := exportBlock os env b
  let (os, b, metaLog) := createMetadata os pid env b
  (os, b, exportLog ++ metaLog)

def createBlock (os : Os) (pid : ℤ) (pool : CudaMemoryPool) (env : CreateBlockEnv)
    (alignedSize : ℕ) : PoolCall ℕ :=
  let b : VmmBlock := { size := alignedSize, blockId := pool.nextBlockId }
  let pool := { pool with nextBlockId := (pool.nextBlockId + 1) % 2 ^ 32 }
  match env.cuMemCreate with
  | none => ⟨os, pool, [], .error (.driver "cuMemCreate")⟩
  | some a =>
      let b := { b with handle := a }
      match env.cuMemAddressReserve with
      | none =>
          ⟨os, pool, [.acquire (.allocationHandle a), .release (.allocationHandle a)],
            .error (.driver "cuMemAddressReserve")⟩
      | some va =>
          let b := { b with va := va }
          let log : List (Action Resource) :=
            [.acquire (.allocationHandle a), .acquire (.addressRange va alignedSize)]
          if env.cuMemMap = false then
            ⟨os, pool, log ++ [.release (.addressRange va alignedSize),
              .release (.allocationHandle a)], .error (.driver "cuMemMap")⟩
          else if env.cuMemSetAccess = false then
            ⟨os, pool, log ++ [.acquire (.mapping va alignedSize),
              .release (.mapping va alignedSize), .release (.addressRange va alignedSize),
              .release (.allocationHandle a)], .error (.driver "cuMemSetAccess")⟩
          else
            let log := log ++ [.acquire (.mapping va alignedSize)]
            let (os, b, ipcLog) :=
              if pool.ipcCapable then exportIpc os pid env b else (os, b, [])
            ⟨os, { pool with allBlocks := pool.allBlocks ++ [b] }, log ++ ipcLog,
              .ok pool.allBlocks.length⟩

/-- The first ready block of a bucket. -/
def findReady (os : Os) (pool : CudaMemoryPool) (now : ℕ) (vec : List ℕ) : Option ℕ :=
  vec.findIdx? (fun r => isBlockReady os now (pool.block r))

def takeBlock (os : Os) (pool : CudaMemoryPool) (key : ℕ) (vec : List ℕ) (i : ℕ)
    (r : ℕ) : Os × CudaMemoryPool :=
  let vec := swapPop vec i
  let pool := { pool with
    freeBlocks := pool.freeBlocks.alter key (fun _ => if vec.isEmpty then none else some vec) }
  let pool := pool.modifyBlock r (fun b => { b with currentUid := 0 })
  match (pool.block r).ipcMeta with
  | none => (os, pool)
  | some seg => (os.modifySegment seg (fun m => { m with publishTimestampUs := 0 }), pool)

/-- The block that `allocate` takes for reuse, with its bucket and its place there. -/
def findCandidate (os : Os) (pool : CudaMemoryPool) (now aligned : ℕ) :
    Option (ℕ × List ℕ × ℕ × ℕ) :=
  match pool.freeBlocks.lowerBound aligned with
  | none => none
  | some (key, vec) =>
      match findReady os pool now vec with
      | none => none
      | some i => vec[i]?.map (fun r => (key, vec, i, r))

def allocate (os : Os) (pid : ℤ) (pool : CudaMemoryPool) (now : ℕ) (env : CreateBlockEnv)
    (byteSize : ℕ) : PoolCall ℕ :=
  let aligned := pool.roundToGranularity byteSize
  match findCandidate os pool now aligned with
  | none => createBlock os pid pool env aligned
  | some (key, vec, i, r) =>
      let (os, pool) := takeBlock os pool key vec i r
      ⟨os, pool, [], .ok r⟩

def free (pool : CudaMemoryPool) (r : ℕ) : CudaMemoryPool :=
  { pool with
    freeBlocks := pool.freeBlocks.alter (pool.block r).size
      (fun vec => some (vec.getD [] ++ [r])) }

/-- `drawn` is the value of the uid generator, used if the block has no uid. -/
def assignUid (os : Os) (pool : CudaMemoryPool) (now drawn : ℕ) (r : ℕ) :
    Os × CudaMemoryPool × ℕ :=
  if (pool.block r).currentUid ≠ 0 then (os, pool, (pool.block r).currentUid)
  else
    let pool := pool.modifyBlock r (fun b => { b with currentUid := drawn })
    match (pool.block r).ipcMeta with
    | none => (os, pool, drawn)
    | some seg =>
        (os.modifySegment seg (fun m => { m with uid := drawn, publishTimestampUs := now }),
          pool, drawn)

def findBlockForVa (pool : CudaMemoryPool) (va : ℕ) : Option ℕ :=
  pool.allBlocks.findIdx? (fun b => decide (b.va ≤ va ∧ va < b.va + b.size))

@[simp] lemma modifyBlock_length (pool : CudaMemoryPool) (r : ℕ) (f : VmmBlock → VmmBlock) :
    (pool.modifyBlock r f).allBlocks.length = pool.allBlocks.length := by
  simp [modifyBlock]

lemma block_modifyBlock (pool : CudaMemoryPool) {r : ℕ} (hr : r < pool.allBlocks.length)
    (f : VmmBlock → VmmBlock) (r' : ℕ) :
    (pool.modifyBlock r f).block r' = if r' = r then f (pool.block r') else pool.block r' := by
  by_cases h : r' = r
  · subst h
    simp [block, modifyBlock, List.getD_eq_getElem?_getD, hr]
  · simp [block, modifyBlock, List.getD_eq_getElem?_getD, h, Ne.symm h]

lemma block_mem {pool : CudaMemoryPool} {r : ℕ} (hr : r < pool.allBlocks.length) :
    pool.block r ∈ pool.allBlocks := by
  simp [block, List.getD_eq_getElem?_getD, hr]

lemma block_eq {pool pool' : CudaMemoryPool} (h : pool.allBlocks = pool'.allBlocks)
    (r : ℕ) : pool.block r = pool'.block r := by
  simp [block, h]

lemma findBlockForVa_some {pool : CudaMemoryPool} {va r : ℕ}
    (hf : findBlockForVa pool va = some r) : r < pool.allBlocks.length ∧
      (pool.block r).va ≤ va ∧ va < (pool.block r).va + (pool.block r).size := by
  obtain ⟨hr, hb, _⟩ := List.findIdx?_eq_some_iff_getElem.mp hf
  have he : pool.block r = pool.allBlocks[r] := by simp [block, List.getD_eq_getElem?_getD, hr]
  rw [he]
  exact ⟨hr, of_decide_eq_true hb⟩

lemma findBlockForVa_none {pool : CudaMemoryPool} {va : ℕ}
    (h : ∀ r < pool.allBlocks.length,
      ¬ ((pool.block r).va ≤ va ∧ va < (pool.block r).va + (pool.block r).size)) :
    findBlockForVa pool va = none := by
  cases hf : findBlockForVa pool va with
  | none => rfl
  | some r =>
    obtain ⟨hr, hva⟩ := findBlockForVa_some hf
    exact absurd hva (h r hr)

/-- How often a block is stored in the free buckets. -/
def stored (pool : CudaMemoryPool) (r : ℕ) : ℕ :=
  pool.freeBlocks.total (fun vec => vec.count r)

lemma takeBlock_pool (os : Os) (pool : CudaMemoryPool) (key : ℕ) (vec : List ℕ) (i : ℕ)
    (r : ℕ) :
    (takeBlock os pool key vec i r).2 = { pool with
      freeBlocks := pool.freeBlocks.alter key
        (fun _ => if (swapPop vec i).isEmpty then none else some (swapPop vec i))
      allBlocks := pool.allBlocks.modify r (fun b => { b with currentUid := 0 }) } := by
  simp only [takeBlock, modifyBlock]
  split <;> rfl

lemma modifyBlock_ipcMeta (pool : CudaMemoryPool) (r : ℕ) {f : VmmBlock → VmmBlock}
    (hf : ∀ b, (f b).ipcMeta = b.ipcMeta) (r' : ℕ) :
    ((pool.modifyBlock r f).block r').ipcMeta = (pool.block r').ipcMeta := by
  by_cases hr : r < pool.allBlocks.length
  · rw [block_modifyBlock pool hr]
    split <;> simp [hf]
  · have hb : (pool.modifyBlock r f).allBlocks = pool.allBlocks :=
      List.modify_eq_self (not_lt.mp hr)
    rw [block_eq hb]

lemma takeBlock_os (os : Os) (pool : CudaMemoryPool) (key : ℕ) (vec : List ℕ) (i r : ℕ) :
    (takeBlock os pool key vec i r).1 =
      os.onMeta (pool.block r).ipcMeta (fun m => { m with publishTimestampUs := 0 }) := by
  have hm := modifyBlock_ipcMeta { pool with
    freeBlocks := pool.freeBlocks.alter key
      (fun _ => if (swapPop vec i).isEmpty then none else some (swapPop vec i)) } r
    (f := fun b => { b with currentUid := 0 }) (fun b => rfl) r
  simp only [takeBlock, hm, Os.onMeta]
  split <;> simp_all [block]

lemma assignUid_drawn (os : Os) {pool : CudaMemoryPool} (now drawn : ℕ) {r : ℕ}
    (h : (pool.block r).currentUid = 0) :
    assignUid os pool now drawn r =
      (os.onMeta (pool.block r).ipcMeta
        (fun m => { m with uid := drawn, publishTimestampUs := now }),
        pool.modifyBlock r (fun b => { b with currentUid := drawn }), drawn) := by
  have hm := modifyBlock_ipcMeta pool r (f := fun b => { b with currentUid := drawn })
    (fun b => rfl) r
  simp only [assignUid, h, ne_eq, not_true_eq_false, if_false, hm]
  cases (pool.block r).ipcMeta <;> rfl

lemma assignUid_kept (os : Os) {pool : CudaMemoryPool} (now drawn : ℕ) {r : ℕ}
    (h : (pool.block r).currentUid ≠ 0) :
    assignUid os pool now drawn r = (os, pool, (pool.block r).currentUid) := by
  simp only [assignUid, h, ne_eq, not_false_eq_true, if_true]

lemma takeBlock_stored (os : Os) {pool : CudaMemoryPool} {key i : ℕ} {vec : List ℕ}
    {r : ℕ} (hk : pool.freeBlocks.get? key = some vec) (hr : vec[i]? = some r)
    (r' : ℕ) :
    (takeBlock os pool key vec i r).2.stored r' + (if r = r' then 1 else 0) = pool.stored r' := by
  obtain ⟨hi, rfl⟩ := List.getElem?_eq_some_iff.mp hr
  have hp := (cons_swapPop_perm hi).count_eq r'
  have ht := pool.freeBlocks.alter_total (fun vec => vec.count r') key
    (fun _ => if (swapPop vec i).isEmpty then none else some (swapPop vec i))
  have he : (if (swapPop vec i).isEmpty then none else some (swapPop vec i)).elim 0
      (fun vec => vec.count r') = (swapPop vec i).count r' := by
    cases swapPop vec i <;> simp
  rw [hk] at ht
  simp only [Option.elim_some, he] at ht
  rw [List.count_cons] at hp
  simp only [takeBlock_pool, stored, beq_iff_eq] at hp ⊢
  omega

lemma free_stored (pool : CudaMemoryPool) (r r' : ℕ) :
    (pool.free r).stored r' = pool.stored r' + (if r = r' then 1 else 0) := by
  have ht := pool.freeBlocks.alter_total (fun vec => vec.count r') (pool.block r).size
    (fun vec => some (vec.getD [] ++ [r]))
  simp only [Option.elim_some, List.count_append, List.count_singleton, beq_iff_eq] at ht
  have he : ((pool.freeBlocks.get? (pool.block r).size).getD []).count r' =
      (pool.freeBlocks.get? (pool.block r).size).elim 0 (fun vec => vec.count r') := by
    cases pool.freeBlocks.get? (pool.block r).size <;> simp
  simp only [free, stored]
  omega

lemma findCandidate_some {os : Os} {pool : CudaMemoryPool} {now aligned key i : ℕ}
    {vec : List ℕ} {r : ℕ}
    (h : findCandidate os pool now aligned = some (key, vec, i, r)) :
    pool.freeBlocks.lowerBound aligned = some (key, vec) ∧ vec[i]? = some r ∧
      isBlockReady os now (pool.block r) = true := by
  unfold findCandidate at h
  cases hl : pool.freeBlocks.lowerBound aligned with
  | none => simp [hl] at h
  | some e =>
    obtain ⟨key', vec'⟩ := e
    simp only [hl] at h
    cases hf : findReady os pool now vec' with
    | none => simp [hf] at h
    | some j =>
      simp only [hf, Option.map_eq_some_iff, Prod.mk.injEq] at h
      obtain ⟨r', hr', rfl, rfl, rfl, rfl⟩ := h
      obtain ⟨hj, hready, _⟩ := List.findIdx?_eq_some_iff_getElem.mp hf
      have he := List.getElem?_eq_getElem hj
      rw [hr'] at he
      obtain rfl := Option.some.inj he
      exact ⟨rfl, hr', hready⟩

lemma allocate_cases (os : Os) (pid : ℤ) (pool : CudaMemoryPool) (now : ℕ) (env : CreateBlockEnv)
    (byteSize : ℕ) :
    (∃ key vec i r,
      findCandidate os pool now (pool.roundToGranularity byteSize) = some (key, vec, i, r) ∧
      allocate os pid pool now env byteSize =
        ⟨(takeBlock os pool key vec i r).1, (takeBlock os pool key vec i r).2, [], .ok r⟩) ∨
    (findCandidate os pool now (pool.roundToGranularity byteSize) = none ∧
      allocate os pid pool now env byteSize =
        createBlock os pid pool env (pool.roundToGranularity byteSize)) := by
  cases hc : findCandidate os pool now (pool.roundToGranularity byteSize) with
  | none => exact .inr ⟨rfl, by simp [allocate, hc]⟩
  | some x =>
    obtain ⟨key, vec, i, r⟩ := x
    exact .inl ⟨key, vec, i, r, rfl, by simp [allocate, hc]⟩

/-- What the creation of a block's metadata segment does to the shared state. -/
structure MetadataCreated (os : Os) (name : String) (ipcMeta : Option ℕ) (os' : Os) :
    Prop where
  sockets : os'.sockets = os.sockets
  files : os'.files = os.files
  shmNames : os'.shmNames = Function.update os.shmNames name ipcMeta
  old : ∀ seg < os.nextSegment, os'.segments seg = os.segments seg
  next_le : os.nextSegment ≤ os'.nextSegment
  new : ∀ seg, ipcMeta = some seg →
    seg = os.nextSegment ∧ seg < os'.nextSegment ∧ os'.segments seg = {}

lemma createMetadata_created (os : Os) (pid : ℤ) (env : CreateBlockEnv) {b : VmmBlock}
    (hb : b.ipcMeta = none) :
    MetadataCreated os (Cuda.shmName pid b.blockId) (createMetadata os pid env b).2.1.ipcMeta
      (createMetadata os pid env b).1 := by
  have hold : ∀ seg < os.nextSegment, seg ≠ os.nextSegment := fun seg h => h.ne
  unfold createMetadata
  cases hs : env.shmOpen with
  | none => constructor <;> simp [Os.shmUnlink, hb]
  | some fd =>
    cases hf : env.ftruncate with
    | false =>
      constructor <;> simp +contextual [Os.shmUnlink, Os.shmCreate, hb, hold]
    | true =>
      cases hm : env.mmap with
      | false =>
        constructor <;> simp +contextual [Os.shmUnlink, Os.shmCreate, hb, hold]
      | true =>
        constructor <;>
          simp +contextual [Os.shmUnlink, Os.shmCreate, Os.modifySegment, hold]

lemma createMetadata_mapped (os : Os) (pid : ℤ) (env : CreateBlockEnv) (b : VmmBlock)
    (ho : env.shmOpen.isSome) (hf : env.ftruncate = true) (hm : env.mmap = true) :
    (createMetadata os pid env b).2.1.ipcMeta.isSome := by
  obtain ⟨fd, hfd⟩ := Option.isSome_iff_exists.mp ho
  simp [createMetadata, hfd, hf, hm]

lemma createMetadata_block (os : Os) (pid : ℤ) (env : CreateBlockEnv) (b : VmmBlock) :
    ∃ m fd name, (createMetadata os pid env b).2.1 =
      { b with ipcMeta := m, shmFd := fd, shmName := name } := by
  unfold createMetadata
  cases env.shmOpen with
  | none => exact ⟨b.ipcMeta, b.shmFd, b.shmName, rfl⟩
  | some fd =>
    cases env.ftruncate with
    | false => exact ⟨b.ipcMeta, b.shmFd, b.shmName, rfl⟩
    | true =>
      cases env.mmap with
      | false => exact ⟨b.ipcMeta, b.shmFd, b.shmName, rfl⟩
      | true => exact ⟨_, _, _, rfl⟩

/-- The block that a successful `createBlock` appends, and its effect on the
shared state. -/
structure BlockCreated (os : Os) (pid : ℤ) (pool : CudaMemoryPool) (env : CreateBlockEnv)
    (alignedSize : ℕ) (b : VmmBlock) (os' : Os) : Prop where
  handle : env.cuMemCreate = some b.handle
  va : env.cuMemAddressReserve = some b.va
  size : b.size = alignedSize
  blockId : b.blockId = pool.nextBlockId
  currentUid : b.currentUid = 0
  exported : b.exportedFd =
    if pool.ipcCapable then env.cuMemExportToShareableHandle.elim (-1) (fun fd => (fd : ℤ)) else -1
  files : os'.files =
    if 0 ≤ b.exportedFd then Function.update os.files b.exportedFd (some b.handle) else os.files
  sockets : os'.sockets = os.sockets
  mapped : pool.ipcCapable = true → env.shmOpen.isSome → env.ftruncate = true → env.mmap = true →
    b.ipcMeta.isSome
  ipcMeta : if pool.ipcCapable then
      MetadataCreated { os with files := os'.files } (Cuda.shmName pid b.blockId) b.ipcMeta os'
    else os' = os ∧ b.ipcMeta = none

lemma exportBlock_spec (os : Os) (env : CreateBlockEnv) {b : VmmBlock} (hb : b.exportedFd = -1) :
    ∃ fd files log, exportBlock os env b =
        ({ os with files := files }, { b with exportedFd := fd }, log) ∧
      fd = env.cuMemExportToShareableHandle.elim (-1) (fun fd => (fd : ℤ)) ∧
      files = if 0 ≤ fd then Function.update os.files fd (some b.handle) else os.files := by
  unfold exportBlock
  cases env.cuMemExportToShareableHandle with
  | none => exact ⟨b.exportedFd, os.files, [], rfl, hb, by simp [hb]⟩
  | some fd => exact ⟨fd, _, _, rfl, rfl, by simp⟩

lemma exportIpc_created {os : Os} {pid : ℤ} {pool : CudaMemoryPool} {env : CreateBlockEnv}
    {b : VmmBlock} (hi : pool.ipcCapable = true) (hc : env.cuMemCreate = some b.handle)
    (hr : env.cuMemAddressReserve = some b.va) (hid : b.blockId = pool.nextBlockId)
    (hu : b.currentUid = 0) (hfd : b.exportedFd = -1) (hm : b.ipcMeta = none) :
    BlockCreated os pid pool env b.size (exportIpc os pid env b).2.1
      (exportIpc os pid env b).1 := by
  obtain ⟨fd, files, log, he, hfd', hfiles⟩ := exportBlock_spec os env hfd
  have hb : { b with exportedFd := fd }.ipcMeta = none := hm
  have hcm := createMetadata_created { os with files := files } pid env hb
  obtain ⟨m, shmFd, name, hy⟩ := createMetadata_block { os with files := files } pid env
    { b with exportedFd := fd }
  have hx : exportIpc os pid env b =
      ((createMetadata { os with files := files } pid env { b with exportedFd := fd }).1,
        (createMetadata { os with files := files } pid env { b with exportedFd := fd }).2.1,
        log ++ (createMetadata { os with files := files } pid env
          { b with exportedFd := fd }).2.2) := by
    simp only [exportIpc, he]
  have hf := hcm.files
  have hmapped := fun ho ht hp => createMetadata_mapped { os with files := files } pid
    env { b with exportedFd := fd } ho ht hp
  rw [hy] at hcm hmapped
  rw [hx, hy]
  refine ⟨hc, hr, rfl, hid, hu, by simp [hi, hfd'], hf.trans hfiles, hcm.sockets,
    fun _ => hmapped, ?_⟩
  rw [if_pos hi, hf]
  exact hcm

lemma createBlock_cases (os : Os) (pid : ℤ) (pool : CudaMemoryPool) (env : CreateBlockEnv)
    (alignedSize : ℕ) :
    (∃ log expr, createBlock os pid pool env alignedSize =
        ⟨os, { pool with nextBlockId := (pool.nextBlockId + 1) % 2 ^ 32 }, log,
          .error (.driver expr)⟩ ∧ Ledger.Settled log ∧
      (env.cuMemCreate = none ∨ env.cuMemAddressReserve = none ∨ env.cuMemMap = false ∨
        env.cuMemSetAccess = false)) ∨
    (∃ b os' log, createBlock os pid pool env alignedSize =
        ⟨os', { pool with
          nextBlockId := (pool.nextBlockId + 1) % 2 ^ 32
          allBlocks := pool.allBlocks ++ [b] }, log, .ok pool.allBlocks.length⟩ ∧
      BlockCreated os pid pool env alignedSize b os') := by
  unfold createBlock
  cases hc : env.cuMemCreate with
  | none => exact .inl ⟨_, _, rfl, rfl, by simp⟩
  | some a =>
    cases hr : env.cuMemAddressReserve with
    | none => exact .inl ⟨_, _, rfl, by simp [Ledger.Settled, Ledger.holds], by simp⟩
    | some va =>
      cases hm : env.cuMemMap with
      | false => exact .inl ⟨_, _, rfl, by simp [Ledger.Settled, Ledger.holds], by simp⟩
      | true =>
        cases ha : env.cuMemSetAccess with
        | false => exact .inl ⟨_, _, rfl, by simp [Ledger.Settled, Ledger.holds], by simp⟩
        | true =>
          let b : VmmBlock :=
            { handle := a, va := va, size := alignedSize, blockId := pool.nextBlockId }
          cases hi : pool.ipcCapable with
          | false => exact .inr ⟨b, os, _, rfl, by constructor <;> simp [hc, hr, hi, b]⟩
          | true =>
            exact .inr ⟨(exportIpc os pid env b).2.1, (exportIpc os pid env b).1, _, rfl,
              exportIpc_created (b := b) hi hc hr rfl rfl rfl rfl⟩

end CudaMemoryPool

end RosidlBufferBackends.Cuda
