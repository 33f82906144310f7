import RosidlBufferBackends.Cuda.ImportOutcome

/-! Publication of a buffer as a descriptor, and the buffer that a subscriber
makes of a descriptor. -/

namespace RosidlBufferBackends.Cuda

structure CudaBufferDescriptor where
  size : ℕ
  elementTypeName : String
  deviceId : ℤ
  useIpc : Bool
  vmmPid : ℤ
  vmmBlockId : ℕ
  vmmBlockSize : ℕ
  vmmSocketPath : String
  ipcUid : ℕ
  ipcEventHandle : List UInt8
  deriving DecidableEq, Repr

/-- The null device pointer is 0; `releases` is the segment of the deleter that
`fromDescriptorWithEndpoint` installs. -/
structure CudaBufferImpl where
  size : ℕ := 0
  devicePtr : ℕ := 0
  byteSize : ℕ := 0
  deviceId : ℤ := 0
  writeEvent : Bool := false
  releases : Option ℕ := none
  deriving DecidableEq, Repr

/-- `elapsed` is the time from the reading of the clock in `assignUid` to the return; the
call waits for the registry and, for a peer of its own process, for the write event. -/
structure DescriptorEnv where
  -- the decision on the endpoint, from the cache or from the registry
  canImport : Bool
  register : RegisterEnv
  cudaIpcGetEventHandle : Option (List UInt8)
  elapsed : ℕ := 0
  deriving DecidableEq, Repr

/-- A value that `assignUid` returned for a block; `drawn` if it is a new one. -/
structure Assignment where
  block : ℕ
  uid : ℕ
  drawn : Bool
  deriving DecidableEq, Repr

structure DescriptorCall where
  os : Os
  pool : CudaMemoryPool
  assigned : Option Assignment
  result : Except CudaError (Option CudaBufferDescriptor)

structure ReceiveEnv where
  cudaGetDevice : Option ℤ
  importEnv : ImportEnv
  cudaIpcOpenEventHandle : Bool
  deriving DecidableEq, Repr

structure ReceiveCall where
  os : Os
  cache : ImportCache
  log : List (Action Resource)
  result : Ending CudaBufferImpl

-- the mangled name of `uint8_t`
def typeName : String := "h"

def zeroEventHandle : List UInt8 := List.replicate 64 0

namespace CudaBufferDescriptor

def importArgs (d : CudaBufferDescriptor) : ImportArgs :=
  { socketPath := d.vmmSocketPath, pid := d.vmmPid, blockId := d.vmmBlockId,
    size := d.vmmBlockSize, expectedUid := d.ipcUid }

def hasEvent (d : CudaBufferDescriptor) : Bool := d.ipcEventHandle.any (fun b => b ≠ 0)

end CudaBufferDescriptor

namespace CudaMemoryPool

def registerBlockForIpc (os : Os) (pid : ℤ) (pool : CudaMemoryPool) (env : RegisterEnv)
    (r : ℕ) : Os × CudaMemoryPool × Except CudaError String :=
  if pool.ipcCapable = false ∨ (pool.block r).exportedFd < 0 then (os, pool, .ok "")
  else CudaVmmIPCManager.registerBlock os pid pool env r

end CudaMemoryPool

namespace CudaBufferBackend

open CudaMemoryPool CudaVmmIPCManager

def describe (pid : ℤ) (impl : CudaBufferImpl) (b : VmmBlock) (socketPath : String) (uid : ℕ)
    (eventHandle : List UInt8) : CudaBufferDescriptor :=
  { size := impl.size, elementTypeName := typeName, deviceId := impl.deviceId, useIpc := true,
    vmmPid := pid, vmmBlockId := b.blockId, vmmBlockSize := b.size,
    vmmSocketPath := socketPath, ipcUid := uid, ipcEventHandle := eventHandle }

def writeEventHandle (impl : CudaBufferImpl) (env : DescriptorEnv) :
    Except CudaError (List UInt8) :=
  if impl.writeEvent then
    match env.cudaIpcGetEventHandle with
    | none => .error (.runtime "cudaIpcGetEventHandle(&event_handle, write_event)")
    | some handle => .ok handle
  else .ok zeroEventHandle

def createDescriptorWithEndpoint (os : Os) (pid : ℤ) (pool : CudaMemoryPool) (now drawn : ℕ)
    (env : DescriptorEnv) (impl : CudaBufferImpl) : DescriptorCall :=
  if env.canImport = false then ⟨os, pool, none, .ok none⟩
  else if pool.ipcCapable = false then ⟨os, pool, none, .ok none⟩
  else
    match findBlockForVa pool impl.devicePtr with
    | none => ⟨os, pool, none, .ok none⟩
    | some r =>
        let b := pool.block r
        if b.exportedFd < 0 then ⟨os, pool, none, .ok none⟩
        else
          match registerBlockForIpc os pid pool env.register r with
          | (os, pool, .error e) => ⟨os, pool, none, .error e⟩
          | (os, pool, .ok socketPath) =>
              if socketPath.isEmpty then ⟨os, pool, none, .ok none⟩
              else
                let (os, pool, uid) := assignUid os pool now drawn r
                ⟨os, pool, some ⟨r, uid, decide (b.currentUid = 0)⟩,
                  match writeEventHandle impl env with
                  | .error e => .error e
                  | .ok handle => .ok (some (describe pid impl b socketPath uid handle))⟩

/-- The buffer of a stale descriptor. -/
def emptyImpl : CudaBufferImpl := {}

def fromDescriptorWithEndpoint (os : Os) (cache : ImportCache) (env : ReceiveEnv)
    (d : CudaBufferDescriptor) : ReceiveCall :=
  match env.cudaGetDevice with
  | none => ⟨os, cache, [], .error (.runtime "cudaGetDevice(&local_device_id)")⟩
  | some localDevice =>
      if d.elementTypeName ≠ typeName then
        ⟨os, cache, [], .error (.message ("CudaBufferDescriptor element type mismatch: expected " ++
          typeName ++ ", got " ++ d.elementTypeName))⟩
      else if d.useIpc = false ∨ d.vmmSocketPath.isEmpty then ⟨os, cache, [], .ok emptyImpl⟩
      -- the exceptions of the import, and the one for another device, are caught
      else if d.deviceId ≠ localDevice then ⟨os, cache, [], .ok emptyImpl⟩
      else
        let c := importBlock os cache env.importEnv d.importArgs
        match c.result with
        | .error _ => ⟨c.os, c.cache, c.log, .ok emptyImpl⟩
        | .waits ipcMeta => ⟨c.os, c.cache, c.log, .waits ipcMeta⟩
        | .ok imported =>
            ⟨c.os, c.cache, c.log, .ok
              { size := d.size, devicePtr := imported.va, byteSize := d.size,
                deviceId := d.deviceId, writeEvent := d.hasEvent && env.cudaIpcOpenEventHandle,
                releases := imported.ipcMeta }⟩

lemma registerBlock_cases (os : Os) (pid : ℤ) (pool : CudaMemoryPool) (env : RegisterEnv) (r : ℕ) :
    (∃ socketPath, pool.registeredBlocks (pool.block r).blockId = some socketPath ∧
      registerBlock os pid pool env r = (os, pool, .ok socketPath)) ∨
    (pool.registeredBlocks (pool.block r).blockId = none ∧
      ValidSocketName (socketName pid (pool.block r).blockId) ∧
      registerBlock os pid pool env r =
        (addSocket os env (socketName pid (pool.block r).blockId) (pool.block r).exportedFd,
          { pool with
            registeredBlocks := Function.update pool.registeredBlocks (pool.block r).blockId
              (some (socketName pid (pool.block r).blockId)) },
          .ok (socketName pid (pool.block r).blockId))) ∨
    (∃ e, registerBlock os pid pool env r = (os, pool, .error e)) := by
  simp only [registerBlock]
  cases hb : pool.registeredBlocks (pool.block r).blockId with
  | some socketPath => exact .inl ⟨socketPath, rfl, rfl⟩
  | none =>
    cases hc : createFdServerSocket env (socketName pid (pool.block r).blockId) with
    | error e => exact .inr (.inr ⟨e, rfl⟩)
    | ok opened =>
      cases opened with
      | false => exact .inr (.inr ⟨_, rfl⟩)
      | true =>
        refine .inr (.inl ⟨rfl, ?_, rfl⟩)
        by_contra hn
        simp only [createFdServerSocket, makeAbstractUnixAddr_error hn] at hc
        split_ifs at hc
        simp at hc

lemma registerBlock_frame {os os' : Os} {pid : ℤ} {pool pool' : CudaMemoryPool} {env : RegisterEnv}
    {r : ℕ} {result : Except CudaError String}
    (h : registerBlock os pid pool env r = (os', pool', result)) :
    os' = { os with sockets := os'.sockets } ∧
      pool' = { pool with registeredBlocks := pool'.registeredBlocks } := by
  rcases registerBlock_cases os pid pool env r with ⟨_, _, hr⟩ | ⟨_, _, hr⟩ | ⟨_, hr⟩
  · obtain ⟨rfl, rfl, -⟩ : os = os' ∧ pool = pool' ∧ _ := by simpa using hr.symm.trans h
    exact ⟨rfl, rfl⟩
  · obtain ⟨rfl, rfl, -⟩ : _ = os' ∧ _ = pool' ∧ _ := by simpa using hr.symm.trans h
    exact ⟨rfl, rfl⟩
  · obtain ⟨rfl, rfl, -⟩ : os = os' ∧ pool = pool' ∧ _ := by simpa using hr.symm.trans h
    exact ⟨rfl, rfl⟩

/-- A call of `createDescriptorWithEndpoint` changes nothing, or registers the
block and reaches `assignUid`. -/
lemma createDescriptor_cases (os : Os) (pid : ℤ) (pool : CudaMemoryPool) (now drawn : ℕ)
    (env : DescriptorEnv) (impl : CudaBufferImpl) :
    (∃ result, createDescriptorWithEndpoint os pid pool now drawn env impl =
      ⟨os, pool, none, result⟩ ∧ ∀ d, result ≠ .ok (some d)) ∨
    (∃ r os₁ pool₁ socketPath os' pool' uid,
      env.canImport = true ∧ pool.ipcCapable = true ∧
      findBlockForVa pool impl.devicePtr = some r ∧ 0 ≤ (pool.block r).exportedFd ∧
      registerBlock os pid pool env.register r = (os₁, pool₁, .ok socketPath) ∧
      assignUid os₁ pool₁ now drawn r = (os', pool', uid) ∧
      createDescriptorWithEndpoint os pid pool now drawn env impl =
        ⟨os', pool', some ⟨r, uid, decide ((pool.block r).currentUid = 0)⟩,
          match writeEventHandle impl env with
          | .error e => .error e
          | .ok handle =>
            .ok (some (describe pid impl (pool.block r) socketPath uid handle))⟩) := by
  have hnone : ∀ d, (.ok none : Except CudaError (Option CudaBufferDescriptor)) ≠ .ok (some d) := by
    simp
  simp only [createDescriptorWithEndpoint]
  by_cases hc : env.canImport = false
  · exact .inl ⟨.ok none, by rw [if_pos hc], hnone⟩
  by_cases hi : pool.ipcCapable = false
  · exact .inl ⟨.ok none, by rw [if_neg hc, if_pos hi], hnone⟩
  rw [if_neg hc, if_neg hi]
  rw [Bool.not_eq_false] at hc hi
  cases hf : findBlockForVa pool impl.devicePtr with
  | none => exact .inl ⟨.ok none, rfl, hnone⟩
  | some r =>
    by_cases hfd : (pool.block r).exportedFd < 0
    · exact .inl ⟨.ok none, by simp only [if_pos hfd], hnone⟩
    have hreg : registerBlockForIpc os pid pool env.register r =
        registerBlock os pid pool env.register r :=
      if_neg (not_or.mpr ⟨by simp [hi], hfd⟩)
    simp only [if_neg hfd, hreg]
    rcases registerBlock_cases os pid pool env.register r with
      ⟨socketPath, _, hr⟩ | ⟨_, hv, hr⟩ | ⟨e, hr⟩
    · rw [hr]
      by_cases he : socketPath.isEmpty = true
      · exact .inl ⟨.ok none, by simp only [if_pos he], hnone⟩
      · refine .inr ⟨r, os, pool, socketPath, _, _, _, hc, hi, rfl, not_lt.mp hfd, hr, rfl, ?_⟩
        simp only [if_neg he]
        rfl
    · rw [hr]
      refine .inr ⟨r, _, _, _, _, _, _, hc, hi, rfl, not_lt.mp hfd, hr, rfl, ?_⟩
      simp only [if_neg hv.1]
      rfl
    · rw [hr]
      exact .inl ⟨.error e, rfl, by simp⟩

end CudaBufferBackend

end RosidlBufferBackends.Cuda
