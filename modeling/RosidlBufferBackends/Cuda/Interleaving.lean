import RosidlBufferBackends.Cuda.IpcManager
import RosidlBufferBackends.Cuda.PoolPartition

/-! The publisher's pool and its subscribers with every atomic access to shared
metadata a step of its own. The pool's mutex is free in `Pc.idle` only; the
subscribers take no lock that the publisher takes. -/

namespace RosidlBufferBackends.Cuda

open CudaMemoryPool CudaVmmIPCManager

/-- Where an import with mapped metadata stands; in every phase it holds one reference. -/
inductive Phase
  | added
  | accepted
  | rejected
  -- left through the exception that no clean-up catches
  | escaped
  | live
  deriving DecidableEq, Repr

structure Import where
  sub : ℕ
  seg : ℕ
  expectedUid : ℕ
  phase : Phase
  deriving DecidableEq, Repr

/-- The loop of `allocate` over the bucket `vec`. -/
structure Scan where
  aligned : ℕ
  key : ℕ
  vec : List ℕ
  i : ℕ
  deriving DecidableEq, Repr

/-- The next access of the call of `allocate` that holds the mutex. -/
inductive Pc
  | idle
  | loadRefcount (scan : Scan)
  | loadTimestamp (scan : Scan)
  | storeTimestamp (r : ℕ)
  | returning (r : ℕ)
  | creating (aligned : ℕ)
  deriving DecidableEq, Repr

/-- A call of `assign_uid` that has drawn a uid, before or after it stores it. -/
structure Assigning where
  block : ℕ
  uid : ℕ
  stored : Bool
  deriving DecidableEq, Repr

structure Interleaving extends PoolPartition.State where
  pc : Pc := .idle
  assigning : List Assigning := []
  imports : List Import := []

def Scan.next (scan : Scan) : Pc :=
  if scan.i + 1 < scan.vec.length then .loadRefcount { scan with i := scan.i + 1 }
  else .creating scan.aligned

/-- The block that the call goes on to return. -/
def Pc.candidate : Pc → Option ℕ
  | .loadTimestamp scan => scan.vec[scan.i]?
  | .storeTimestamp r => some r
  | .returning r => some r
  | _ => none

namespace Interleaving

inductive Event
  | allocate (byteSize : ℕ)
  | loadRefcount
  | loadTimestamp (now : ℕ)
  | storeTimestamp
  | returnBlock
  | createBlock (env : CreateBlockEnv)
  | free (r : ℕ)
  | assignUid (r drawn : ℕ)
  | storeUid (a : Assigning)
  | storePublishTimestamp (a : Assigning) (now : ℕ)
  | fetchAdd (sub seg expectedUid : ℕ)
  | checkUid (i : Import)
  -- the rest of `import_block`, which accesses no metadata unless it fails
  | importReturns (i : Import)
  | importFails (i : Import)
  | importEscapes (i : Import)
  | fetchSub (i : Import)

inductive Output
  | quiet
  | returned (r : ℕ)
  | threw (e : CudaError)
  deriving DecidableEq, Repr

def enter (pool : CudaMemoryPool) (aligned : ℕ) : Pc :=
  match pool.freeBlocks.lowerBound aligned with
  | none => .creating aligned
  | some (key, vec) =>
      if vec.isEmpty then .creating aligned else .loadRefcount ⟨aligned, key, vec, 0⟩

def taken (s : Interleaving) (scan : Scan) (r : ℕ) : Interleaving :=
  { s with
    pool := (takeBlock s.os s.pool scan.key scan.vec scan.i r).2
    pc := if (s.pool.block r).ipcMeta.isSome then .storeTimestamp r else .returning r }

def elapsed (publish now : ℕ) : Bool :=
  publish = 0 ∨ publish ≤ now ∧ gracePeriodUs ≤ now - publish

def move (s : Interleaving) (i : Import) (phase : Phase) : Interleaving :=
  { s with imports := { i with phase := phase } :: s.imports.erase i }

def dropped (s : Interleaving) (i : Import) : Interleaving :=
  { s with
    os := s.os.modifySegment i.seg IPCMetadata.fetchSub
    imports := s.imports.erase i }

def step (pid : ℤ) (s : Interleaving) : Event → Option (Output × Interleaving)
  | .allocate byteSize =>
      if s.pc = .idle then
        some (.quiet, { s with pc := enter s.pool (s.pool.roundToGranularity byteSize) })
      else none
  | .loadRefcount =>
      match s.pc with
      | .loadRefcount scan =>
          match scan.vec[scan.i]? with
          | none => none
          | some r =>
              match (s.pool.block r).ipcMeta with
              | none => some (.quiet, s.taken scan r)
              | some seg =>
                  if (s.os.segments seg).refcount > 0 then
                    some (.quiet, { s with pc := scan.next })
                  else some (.quiet, { s with pc := .loadTimestamp scan })
      | _ => none
  | .loadTimestamp now =>
      match s.pc with
      | .loadTimestamp scan =>
          match scan.vec[scan.i]? with
          | none => none
          | some r =>
              match (s.pool.block r).ipcMeta with
              | none => none
              | some seg =>
                  if elapsed (s.os.segments seg).publishTimestampUs now then
                    some (.quiet, s.taken scan r)
                  else some (.quiet, { s with pc := scan.next })
      | _ => none
  | .storeTimestamp =>
      match s.pc with
      | .storeTimestamp r =>
          some (.quiet, { s with
            os := s.os.onMeta (s.pool.block r).ipcMeta
              (fun m => { m with publishTimestampUs := 0 })
            pc := .returning r })
      | _ => none
  | .returnBlock =>
      match s.pc with
      | .returning r =>
          some (.returned r, { s with handedOut := r :: s.handedOut, pc := .idle })
      | _ => none
  | .createBlock env =>
      match s.pc with
      | .creating aligned =>
          let c := CudaMemoryPool.createBlock s.os pid s.pool env aligned
          let t := { s with
            os := c.os
            pool := c.pool
            handedOut := PoolPartition.handOut s.handedOut c.result
            creations := s.creations + 1
            pc := .idle }
          match c.result with
          | .ok r => some (.returned r, t)
          | .error e => some (.threw e, t)
      | _ => none
  | .free r =>
      if s.pc = .idle ∧ r ∈ s.handedOut then
        some (.quiet, { s with pool := s.pool.free r, handedOut := s.handedOut.erase r })
      else none
  | .assignUid r drawn =>
      if drawn = 0 ∨ r ∉ s.handedOut then none
      else if (s.pool.block r).currentUid ≠ 0 then some (.quiet, s)
      else
        some (.quiet, { s with
          pool := s.pool.modifyBlock r (fun b => { b with currentUid := drawn })
          assigning := ⟨r, drawn, false⟩ :: s.assigning })
  | .storeUid a =>
      if a ∈ s.assigning ∧ a.stored = false then
        some (.quiet, { s with
          os := s.os.onMeta (s.pool.block a.block).ipcMeta (fun m => { m with uid := a.uid })
          assigning := { a with stored := true } :: s.assigning.erase a })
      else none
  | .storePublishTimestamp a now =>
      if a ∈ s.assigning ∧ a.stored = true then
        some (.quiet, { s with
          os := s.os.onMeta (s.pool.block a.block).ipcMeta
            (fun m => { m with publishTimestampUs := now })
          assigning := s.assigning.erase a })
      else none
  | .fetchAdd sub seg expectedUid =>
      if s.pool.allBlocks.any (fun b => b.ipcMeta = some seg) then
        some (.quiet, { s with
          os := s.os.modifySegment seg IPCMetadata.fetchAdd
          imports := ⟨sub, seg, expectedUid, .added⟩ :: s.imports })
      else none
  | .checkUid i =>
      if i ∈ s.imports ∧ i.phase = .added then
        match checkUidStaleness s.os (some i.seg) i.expectedUid with
        | .ok () => some (.quiet, s.move i .accepted)
        | .error _ => some (.quiet, s.move i .rejected)
      else none
  | .importReturns i =>
      if i ∈ s.imports ∧ i.phase = .accepted then some (.quiet, s.move i .live) else none
  | .importFails i =>
      if i ∈ s.imports ∧ i.phase = .accepted then some (.quiet, s.move i .rejected) else none
  | .importEscapes i =>
      if i ∈ s.imports ∧ i.phase = .accepted then some (.quiet, s.move i .escaped) else none
  | .fetchSub i =>
      if i ∈ s.imports ∧ (i.phase = .rejected ∨ i.phase = .live) then some (.quiet, s.dropped i)
      else none

def initial (granularity : ℕ) (hg : 0 < granularity) (deviceId : ℤ) (ipcCapable : Bool) :
    Interleaving :=
  { toState := PoolPartition.initial granularity hg deviceId ipcCapable }

end Interleaving

end RosidlBufferBackends.Cuda
