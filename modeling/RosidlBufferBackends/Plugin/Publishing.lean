import RosidlBufferBackends.Buffers.CudaBuffer
import RosidlBufferBackends.Cuda.PoolLifetime
import RosidlBufferBackends.Plugin.Decisions

/-! `create_descriptor_with_endpoint` for the buffers of the pool, with everything
that it calls and that may throw. -/

namespace RosidlBufferBackends.Plugin.Publishing

open Registry Cuda CudaMemoryPool CudaVmmIPCManager

/-- `handle` is what `cudaIpcGetEventHandle` makes of an interprocess event. -/
structure CudaEvent where
  interprocess : Bool
  handle : List UInt8
  deriving DecidableEq, Repr

structure BufferImpl where
  size : ℕ
  devicePtr : ℕ
  byteSize : ℕ
  deviceId : ℤ
  writeEvent : Option CudaEvent := none
  handleState : Option Buffers.HandleState := none
  deriving DecidableEq, Repr

/-- The manager of the domain: constructed by another user of the process, or held by
the backend. -/
inductive Attachment
  | absent
  | shared (manager : HostEndpointManager)
  | held (manager : HostEndpointManager)

/-- `registry` is what the shared memory holds. `pool` is the global pool once it has been
created: an empty buffer and one that another process has made need none. -/
structure Publisher where
  os : Os
  pid : ℤ
  pool : Option CudaMemoryPool := none
  attachment : Attachment := .absent
  registry : EndpointRegistry := {}
  ipcDecisionCache : ℕ → Option Bool := fun _ => none

/-- The results of the calls of a manager's constructor. -/
structure AttachEnv where
  identity : Identity
  gethostname : Bool
  shmOpen : Option ℕ
  ftruncate : Bool
  mmap : Bool
  semOpen : Option ℕ
  semTimedwait : Bool
  strerror : String
  alive : ℕ → Bool

/-- The results of an attempt to create the pool; `thread` is what the start of the
dispatcher's thread throws, if it does. -/
structure PoolEnv where
  create : PoolLifetime.CreateEnv
  thread : Option String := none

/-- The results of the calls of `create_descriptor_with_endpoint`; `refresh` is the
`sem_timedwait` of `refresh_from_remote`. The pool may be asked for twice, by
`get_endpoint_manager` and for the block of the buffer. -/
structure CallEnv where
  attach : AttachEnv
  capability : PoolEnv
  refresh : Bool
  pool : PoolEnv
  register : RegisterEnv
  now : ℕ
  drawn : ℕ

/-- The creation of a write event; `interprocess` is the handle of the event. -/
structure EventEnv where
  interprocess : Option (List UInt8)
  minimum : Bool

inductive Exception
  | runtimeError (text : String)
  | cudaError (e : CudaError)
  deriving DecidableEq, Repr

structure Call where
  publisher : Publisher
  impl : Option BufferImpl
  result : Except Exception (Option CudaBufferDescriptor)

section Pool

namespace Publisher

/-- A failure is not remembered: the next call tries again. -/
def getOrCreateGlobalPool (s : Publisher) (env : PoolEnv) :
    Except Exception (Publisher × CudaMemoryPool) :=
  match s.pool with
  | some pool => .ok (s, pool)
  | none =>
    match (PoolLifetime.create none env.create).1 with
    | none => .error (.cudaError (.driver "CudaMemoryPool::create"))
    | some pool =>
      match pool.ipcCapable, env.thread with
      | true, some text => .error (.runtimeError text)
      | _, _ => .ok ({ s with pool := some pool }, pool)

/-- No other exception than a CUDA error is caught. -/
def isPoolIpcCapable (s : Publisher) (env : PoolEnv) : Except Exception (Publisher × Bool) :=
  match s.getOrCreateGlobalPool env with
  | .ok (s, pool) => .ok (s, pool.ipcCapable)
  | .error (.cudaError _) => .ok (s, false)
  | .error (.runtimeError text) => .error (.runtimeError text)

end Publisher

end Pool

section Allocator

/-- An interprocess event, else a local one, else none. -/
def createWriteEvent (env : EventEnv) : Option CudaEvent :=
  match env.interprocess with
  | some handle => some ⟨true, handle⟩
  | none => if env.minimum then some ⟨false, []⟩ else none

def allocateBufferInternal (s : Publisher) (pool : PoolEnv) (now : ℕ) (create : CreateBlockEnv)
    (events : EventEnv) (n : ℕ) : Publisher × Except Exception BufferImpl :=
  match s.getOrCreateGlobalPool pool with
  | .error e => (s, .error e)
  | .ok (s, pool) =>
    let c := allocate s.os s.pid pool now create n
    let s := { s with
      os := c.os
      pool := some c.pool }
    match c.result with
    | .error e => (s, .error (.cudaError e))
    | .ok r => (s, .ok {
        size := n
        devicePtr := (c.pool.block r).va
        byteSize := n
        deviceId := c.pool.deviceId
        writeEvent := createWriteEvent events })

/-- The record of the write event may fail, which is ignored. -/
def BufferImpl.finalizeWriteHandle (impl : BufferImpl) : BufferImpl :=
  { impl with handleState := impl.handleState.map fun st =>
      if st.state = .inUse then ⟨.finalized, none⟩ else st }

/-- It fails for an event without the interprocess flag. -/
def cudaIpcGetEventHandle (event : CudaEvent) : Option (List UInt8) :=
  if event.interprocess then some event.handle else none

def writeEventHandle (event : Option CudaEvent) : Except CudaError (List UInt8) :=
  match event with
  | none => .ok zeroEventHandle
  | some event =>
    match cudaIpcGetEventHandle event with
    | none => .error (.runtime "cudaIpcGetEventHandle(&event_handle, write_event)")
    | some handle => .ok handle

end Allocator

namespace Publisher

def constructManager (env : AttachEnv) : Except Exception HostEndpointManager :=
  if env.gethostname = false then .error (.runtimeError "Failed to get hostname")
  else
    match env.shmOpen with
    | none => .error (.runtimeError ("Failed to open shared memory: " ++ env.strerror))
    | some seg =>
      if env.ftruncate = false then
        .error (.runtimeError ("Failed to resize shared memory: " ++ env.strerror))
      else if env.mmap = false then
        .error (.runtimeError ("Failed to map shared memory: " ++ env.strerror))
      else
        match env.semOpen with
        | none => .error (.runtimeError ("Failed to open mutex: " ++ env.strerror))
        | some sem =>
          if env.semTimedwait = false then
            .error (.runtimeError "Failed to acquire shared memory mutex during initialization")
          else .ok { identity := env.identity, seg := seg, sem := sem }

def hold (s : Publisher) (manager : HostEndpointManager) : Publisher :=
  { s with attachment := .held manager }

/-- The manager stays held when `is_pool_ipc_capable` throws. -/
def takeManager (s : Publisher) (env : PoolEnv) (manager : HostEndpointManager) :
    Publisher × Except Exception HostEndpointManager :=
  match s.isPoolIpcCapable env with
  | .error e => (s.hold manager, .error e)
  | .ok (s, capable) =>
    let manager := { manager with ipcCapable := capable }
    (s.hold manager, .ok manager)

def getEndpointManager (s : Publisher) (env : AttachEnv) (capability : PoolEnv) :
    Publisher × Except Exception HostEndpointManager :=
  match s.attachment with
  | .held manager => (s, .ok manager)
  | .shared manager => s.takeManager capability manager
  | .absent =>
    match constructManager env with
    | .error e => (s, .error e)
    | .ok manager =>
      { s with registry := s.registry.attach env.alive }.takeManager capability manager

/-- The endpoint is looked up after a refresh, and the decision is cached if it is found. -/
def classify (s : Publisher) (manager : HostEndpointManager) (refresh : Bool) (gid : ℕ) :
    Bool × Publisher :=
  let cache := Refresh.refreshFromRemote refresh s.registry manager.identity.instanceId
    manager.cache
  let manager := { manager with cache := cache }
  let peer := cache.query gid
  let canImport := canImportDescriptor peer manager
  (canImport,
    if peer.found then
      { s.hold manager with
        ipcDecisionCache := Function.update s.ipcDecisionCache gid (some canImport) }
    else s.hold manager)

def importDecision (s : Publisher) (env : CallEnv) (gid : ℕ) : Publisher × Except Exception Bool :=
  match s.ipcDecisionCache gid with
  | some decision => (s, .ok decision)
  | none =>
    match s.getEndpointManager env.attach env.capability with
    | (s, .error e) => (s, .error e)
    | (s, .ok manager) =>
      let (canImport, s) := s.classify manager env.refresh gid
      (s, .ok canImport)

def describe (s : Publisher) (pool : CudaMemoryPool) (impl : BufferImpl) (r : ℕ)
    (socketPath : String) (uid : ℕ) (eventHandle : List UInt8) : CudaBufferDescriptor :=
  { size := impl.size
    elementTypeName := typeName
    deviceId := impl.deviceId
    useIpc := true
    vmmPid := s.pid
    vmmBlockId := (pool.block r).blockId
    vmmBlockSize := (pool.block r).size
    vmmSocketPath := socketPath
    ipcUid := uid
    ipcEventHandle := eventHandle }

/-- What follows on `assign_uid`. The result of `cudaEventSynchronize` is ignored. -/
def describeEvent (s : Publisher) (pool : CudaMemoryPool) (env : CallEnv) (impl : BufferImpl)
    (r : ℕ) (socketPath : String) (uid : ℕ) : Call :=
  let impl := impl.finalizeWriteHandle
  match s.getEndpointManager env.attach env.capability with
  | (s, .error e) => ⟨s, impl, .error e⟩
  | (s, .ok _) =>
    match writeEventHandle impl.writeEvent with
    | .error e => ⟨s, impl, .error (.cudaError e)⟩
    | .ok handle => ⟨s, impl, .ok (some (s.describe pool impl r socketPath uid handle))⟩

def publishFrom (s : Publisher) (pool : CudaMemoryPool) (env : CallEnv) (impl : BufferImpl) :
    Call :=
  if pool.ipcCapable = false then ⟨s, impl, .ok none⟩
  else
    match findBlockForVa pool impl.devicePtr with
    | none => ⟨s, impl, .ok none⟩
    | some r =>
      if (pool.block r).exportedFd < 0 then ⟨s, impl, .ok none⟩
      else
        match registerBlockForIpc s.os s.pid pool env.register r with
        | (os, pool, .error e) =>
          ⟨{ s with
              os := os
              pool := some pool }, impl, .error (.cudaError e)⟩
        | (os, pool, .ok socketPath) =>
          if socketPath.isEmpty then
            ⟨{ s with
                os := os
                pool := some pool }, impl, .ok none⟩
          else
            let (os, pool, uid) := assignUid os pool env.now env.drawn r
            { s with
              os := os
              pool := some pool }.describeEvent pool env impl r socketPath uid

/-- The pool is asked for outside of any `try`. -/
def publish (s : Publisher) (env : CallEnv) (impl : BufferImpl) : Call :=
  match s.getOrCreateGlobalPool env.pool with
  | .error e => ⟨s, impl, .error e⟩
  | .ok (s, pool) => s.publishFrom pool env impl

/-- The implementation is `none` if it is not that of this backend. -/
def createDescriptorWithEndpoint (s : Publisher) (env : CallEnv) (gid : ℕ)
    (impl : Option BufferImpl) : Call :=
  match s.importDecision env gid with
  | (s, .error e) => ⟨s, impl, .error e⟩
  | (s, .ok false) => ⟨s, impl, .ok none⟩
  | (s, .ok true) =>
    match impl with
    | none => ⟨s, none, .ok none⟩
    | some impl => s.publish env impl

end Publisher

/-- No call of the constructor fails. -/
structure AttachEnv.Completes (env : AttachEnv) : Prop where
  gethostname : env.gethostname = true
  shmOpen : env.shmOpen.isSome
  ftruncate : env.ftruncate = true
  mmap : env.mmap = true
  semOpen : env.semOpen.isSome
  semTimedwait : env.semTimedwait = true

namespace PoolEnv

/-- No call of `create` fails but for those of the IPC. -/
structure Succeeds (env : PoolEnv) : Prop where
  cuInit : env.create.cuInit = true
  cudaGetDevice : env.create.cudaGetDevice.isSome
  cudaFree : env.create.cudaFree = true
  granularity : (PoolLifetime.reported env.create.exportableGranularity).isSome ∨
    (PoolLifetime.reported env.create.plainGranularity).isSome

/-- The driver exports memory, so that the pool has a manager and a dispatcher. -/
structure Exports (env : PoolEnv) : Prop where
  granularity : (PoolLifetime.reported env.create.exportableGranularity).isSome
  probeCreate : env.create.probeCreate.isSome
  probeExport : env.create.probeExport.isSome

/-- The pool is created, and the thread of its dispatcher is started if there is one. -/
structure Completes (env : PoolEnv) : Prop where
  succeeds : env.Succeeds
  starts : env.Exports → env.thread = none

/-- Only the start of the thread fails. -/
structure Escapes (env : PoolEnv) : Prop where
  succeeds : env.Succeeds
  exports : env.Exports
  throws : env.thread.isSome

end PoolEnv

namespace Publisher

/-- The creation of a pool, if one is still needed, throws nothing but a CUDA error. -/
def Answers (s : Publisher) (env : PoolEnv) : Prop := s.pool = none → ¬ env.Escapes

/-- A manager exists already, or can be constructed, and is told whether the pool can be
exported. -/
def Attaches (s : Publisher) (env : AttachEnv) (capability : PoolEnv) : Prop :=
  match s.attachment with
  | .absent => env.Completes ∧ s.Answers capability
  | .shared _ => s.Answers capability
  | .held _ => True

/-- The endpoint is to get a descriptor: by the cached decision, or by what is found out
about it. -/
def Accepts (s : Publisher) (env : CallEnv) (gid : ℕ) : Prop :=
  s.ipcDecisionCache gid = some true ∨ s.ipcDecisionCache gid = none ∧
    ∃ t manager, s.getEndpointManager env.attach env.capability = (t, .ok manager) ∧
      (t.classify manager env.refresh gid).1 = true

/-- A manager is taken to classify the endpoint. -/
def Takes (s : Publisher) (gid : ℕ) : Prop :=
  s.ipcDecisionCache gid = none ∧ ∀ manager, s.attachment ≠ .held manager

/-- The pool exists, or is created by one of the two attempts of the call. -/
def Pools (s : Publisher) (env : CallEnv) (gid : ℕ) : Prop :=
  s.pool.isSome ∨ s.Takes gid ∧ env.capability.Completes ∨ env.pool.Completes

end Publisher

/-- The buffer is in a block that can be exported. -/
structure Exportable (pool : CudaMemoryPool) (impl : BufferImpl) (r : ℕ) : Prop where
  capable : pool.ipcCapable = true
  block : findBlockForVa pool impl.devicePtr = some r
  exported : 0 ≤ (pool.block r).exportedFd

/-- The block is registered already, or its socket can be opened. -/
def Registers (pid : ℤ) (pool : CudaMemoryPool) (env : RegisterEnv) (r : ℕ) : Prop :=
  pool.registeredBlocks (pool.block r).blockId = none →
    env.socket = true ∧ ValidSocketName (socketName pid (pool.block r).blockId) ∧
      env.bind = true ∧ env.listen = true

/-- Every field of the descriptor is that of the buffer, and its block is registered. -/
structure Describes (s t : Publisher) (impl : BufferImpl) (d : CudaBufferDescriptor) : Prop where
  buffer : d.size = impl.size ∧ d.elementTypeName = typeName ∧ d.deviceId = impl.deviceId
  process : d.useIpc = true ∧ d.vmmPid = s.pid
  block : ∃ pool pool' r, s.pool = some pool ∧ t.pool = some pool' ∧
    findBlockForVa pool impl.devicePtr = some r ∧
    d.vmmBlockId = (pool.block r).blockId ∧ d.vmmBlockSize = (pool.block r).size ∧
    pool'.registeredBlocks d.vmmBlockId = some d.vmmSocketPath ∧
    (pool'.block r).currentUid = d.ipcUid
  socket : d.vmmSocketPath ≠ ""
  event : d.ipcEventHandle = (impl.writeEvent.map CudaEvent.handle).getD zeroEventHandle
  interprocess : ∀ event, impl.writeEvent = some event → event.interprocess = true

/-- The call returns a complete descriptor or none, without an exception. -/
def Completes (s : Publisher) (impl : Option BufferImpl) (c : Call) : Prop :=
  ∃ descriptor, c.result = .ok descriptor ∧
    ∀ d, descriptor = some d → ∃ i, impl = some i ∧ Describes s c.publisher i d

variable {s t : Publisher} {env : CallEnv} {gid r : ℕ} {impl : BufferImpl} {pool : CudaMemoryPool}

section Pools

open Publisher

lemma create_cases (env : PoolEnv) :
    (env.Succeeds ∧ ∃ pool, (PoolLifetime.create none env.create).1 = some pool ∧
      pool.allBlocks = [] ∧ (pool.ipcCapable = true ↔ env.Exports)) ∨
    (¬ env.Succeeds ∧ (PoolLifetime.create none env.create).1 = none) := by
  rw [PoolLifetime.create]
  cases hinit : env.create.cuInit with
  | false => exact .inr ⟨fun h => (nomatch hinit.symm.trans h.cuInit), rfl⟩
  | true =>
    cases hdevice : env.create.cudaGetDevice with
    | none =>
      refine .inr ⟨fun h => ?_, rfl⟩
      simpa [hdevice] using h.cudaGetDevice
    | some device =>
      cases hfree : env.create.cudaFree with
      | false => exact .inr ⟨fun h => (nomatch hfree.symm.trans h.cudaFree), rfl⟩
      | true =>
        have hsucceeds : ∀ h, env.Succeeds := fun h => ⟨hinit, by rw [hdevice]; rfl, hfree, h⟩
        cases hexportable : PoolLifetime.reported env.create.exportableGranularity with
        | some g =>
          refine .inl ⟨hsucceeds (.inl (by rw [hexportable]; rfl)), _, rfl, rfl, ?_⟩
          have hcapable : (PoolLifetime.probeVmmIpc env.create).1 = true ↔
              env.create.probeCreate.isSome ∧ env.create.probeExport.isSome := by
            rw [PoolLifetime.probeVmmIpc]
            cases env.create.probeCreate <;> cases env.create.probeExport <;> simp
          refine hcapable.trans ⟨fun h => ⟨by rw [hexportable]; rfl, h.1, h.2⟩, ?_⟩
          exact fun h => ⟨h.probeCreate, h.probeExport⟩
        | none =>
          cases hplain : PoolLifetime.reported env.create.plainGranularity with
          | none =>
            refine .inr ⟨fun h => ?_, rfl⟩
            simpa [hexportable, hplain] using h.granularity
          | some g =>
            refine .inl ⟨hsucceeds (.inr (by rw [hplain]; rfl)), _, rfl, rfl, ?_⟩
            exact iff_of_false nofun fun h => by simpa [hexportable] using h.granularity

/-- The results of `get_or_create_global_pool`. -/
inductive PoolCase (s : Publisher) (env : PoolEnv) :
    Except Exception (Publisher × CudaMemoryPool) → Prop
  | held {pool : CudaMemoryPool} : s.pool = some pool → PoolCase s env (.ok (s, pool))
  | created {pool : CudaMemoryPool} : s.pool = none → env.Completes → pool.allBlocks = [] →
      PoolCase s env (.ok ({ s with pool := some pool }, pool))
  | refused : s.pool = none → ¬ env.Succeeds →
      PoolCase s env (.error (.cudaError (.driver "CudaMemoryPool::create")))
  | escaped {text : String} : s.pool = none → env.Escapes →
      PoolCase s env (.error (.runtimeError text))

lemma getOrCreateGlobalPool_cases (s : Publisher) (env : PoolEnv) :
    PoolCase s env (s.getOrCreateGlobalPool env) := by
  rw [getOrCreateGlobalPool]
  cases hpool : s.pool with
  | some pool => exact .held hpool
  | none =>
    rcases create_cases env with ⟨hsucceeds, pool, hcreate, hblocks, hcapable⟩ | ⟨hno, hcreate⟩
    · rw [hcreate]
      dsimp only
      cases hc : pool.ipcCapable with
      | false =>
        refine .created hpool ⟨hsucceeds, fun h => ?_⟩ hblocks
        exact nomatch hc.symm.trans (hcapable.mpr h)
      | true =>
        cases hthread : env.thread with
        | none => exact .created hpool ⟨hsucceeds, fun _ => hthread⟩ hblocks
        | some text =>
          exact .escaped hpool ⟨hsucceeds, hcapable.mp hc, by rw [hthread]; rfl⟩
    · rw [hcreate]
      exact .refused hpool hno

/-- The pool may have been created, and is empty then. -/
structure Grown (s t : Publisher) : Prop where
  os : t.os = s.os
  pid : t.pid = s.pid
  pool : t.pool = s.pool ∨ s.pool = none ∧ ∃ pool, t.pool = some pool ∧ pool.allBlocks = []

lemma findBlock_empty {pool : CudaMemoryPool} (h : pool.allBlocks = []) (va : ℕ) :
    findBlockForVa pool va = none := by
  rw [findBlockForVa, h]
  rfl

lemma Grown.held (h : Grown s t) {pool : CudaMemoryPool} (hs : s.pool = some pool) :
    t.pool = some pool := by
  rcases h.pool with hsame | ⟨hnone, -⟩
  · exact hsame.trans hs
  · exact nomatch hs.symm.trans hnone

/-- A pool in which a block is found has been there before. -/
lemma Grown.pool_iff (h : Grown s t) {pool : CudaMemoryPool} {va : ℕ}
    (hf : findBlockForVa pool va = some r) : t.pool = some pool ↔ s.pool = some pool := by
  refine ⟨fun ht => ?_, h.held⟩
  rcases h.pool with hsame | ⟨-, pool', hpool', hempty⟩
  · exact hsame.symm.trans ht
  · obtain rfl := Option.some.inj (hpool'.symm.trans ht)
    exact nomatch (findBlock_empty hempty va).symm.trans hf

lemma isPoolIpcCapable_cases (s : Publisher) (env : PoolEnv) :
    (¬ s.Answers env ∧ ∃ e, s.isPoolIpcCapable env = .error e) ∨
    (s.Answers env ∧ ∃ pool capable,
      s.isPoolIpcCapable env = .ok ({ s with pool := pool }, capable) ∧
        Grown s { s with pool := pool } ∧ (pool.isSome ↔ s.pool.isSome ∨ env.Completes)) := by
  have hcase := getOrCreateGlobalPool_cases s env
  rw [isPoolIpcCapable]
  generalize s.getOrCreateGlobalPool env = result at hcase
  cases hcase with
  | held hpool =>
    refine .inr ⟨fun hnone => (nomatch hpool.symm.trans hnone), s.pool, _, rfl, ?_, ?_⟩
    · exact ⟨rfl, rfl, .inl rfl⟩
    · simp [hpool]
  | @created pool hpool hc hempty =>
    refine .inr ⟨fun _ h => ?_, some pool, _, rfl, ?_, ?_⟩
    · exact absurd (hc.starts h.exports) (Option.isSome_iff_ne_none.mp h.throws)
    · exact ⟨rfl, rfl, .inr ⟨hpool, pool, rfl, hempty⟩⟩
    · exact iff_of_true rfl (.inr hc)
  | refused hpool hno =>
    refine .inr ⟨fun _ h => hno h.succeeds, s.pool, _, rfl, ⟨rfl, rfl, .inl rfl⟩, ?_⟩
    simp only [hpool, Option.isSome_none, Bool.false_eq_true, false_or, false_iff]
    exact fun h => hno h.succeeds
  | escaped hpool he => exact .inl ⟨fun h => h hpool he, _, rfl⟩

end Pools

section Managers

open Publisher

lemma of_ite_error {α : Type} {b : Bool} {e : Exception} {x : Except Exception α} {v : α}
    (h : (if b = false then .error e else x) = .ok v) : b = true ∧ x = .ok v := by
  cases b with
  | false => exact nomatch h
  | true => exact ⟨rfl, h⟩

lemma constructManager_ok_iff {env : AttachEnv} :
    (∃ manager, constructManager env = .ok manager) ↔ env.Completes := by
  rw [constructManager]
  constructor
  · rintro ⟨manager, h⟩
    obtain ⟨hhost, h⟩ := of_ite_error h
    cases hshm : env.shmOpen with
    | none => simp [hshm] at h
    | some seg =>
      rw [hshm] at h
      obtain ⟨hsize, h⟩ := of_ite_error h
      obtain ⟨hmap, h⟩ := of_ite_error h
      cases hsem : env.semOpen with
      | none => simp [hsem] at h
      | some sem =>
        rw [hsem] at h
        obtain ⟨hwait, -⟩ := of_ite_error h
        exact ⟨hhost, by rw [hshm]; rfl, hsize, hmap, by rw [hsem]; rfl, hwait⟩
  · intro h
    obtain ⟨seg, hseg⟩ := Option.isSome_iff_exists.mp h.shmOpen
    obtain ⟨sem, hsem⟩ := Option.isSome_iff_exists.mp h.semOpen
    exact ⟨⟨env.identity, seg, sem, false, fun _ => none⟩, by
      simp [h.gethostname, hseg, h.ftruncate, h.mmap, hsem, h.semTimedwait]⟩

lemma takeManager_cases (s : Publisher) (env : PoolEnv) (manager : HostEndpointManager) :
    (¬ s.Answers env ∧ ∃ t e, s.takeManager env manager = (t, .error e)) ∨
    (s.Answers env ∧ ∃ t m, s.takeManager env manager = (t, .ok m) ∧ Grown s t ∧
      t.attachment = .held m ∧ (t.pool.isSome ↔ s.pool.isSome ∨ env.Completes)) := by
  rw [takeManager]
  rcases isPoolIpcCapable_cases s env with ⟨hno, e, h⟩ | ⟨ha, pool, capable, h, hgrown, hsome⟩
  · rw [h]
    exact .inl ⟨hno, _, _, rfl⟩
  · rw [h]
    exact .inr ⟨ha, _, _, rfl, ⟨rfl, rfl, hgrown.pool⟩, rfl, hsome⟩

/-- The decision leaves the process and its blocks as they were. -/
structure Decided (s t : Publisher) (env : CallEnv) : Prop extends Grown s t where
  attaches : t.Attaches env.attach env.capability ↔ s.Attaches env.attach env.capability

lemma getEndpointManager_cases (s : Publisher) (env : CallEnv) :
    (¬ s.Attaches env.attach env.capability ∧
      ∃ t e, s.getEndpointManager env.attach env.capability = (t, .error e)) ∨
    (s.Attaches env.attach env.capability ∧ ∃ t manager,
      s.getEndpointManager env.attach env.capability = (t, .ok manager) ∧ Decided s t env ∧
        t.attachment = .held manager ∧ (t.pool.isSome ↔
          s.pool.isSome ∨ (∀ m, s.attachment ≠ .held m) ∧ env.capability.Completes)) := by
  have htaken : ∀ {t : Publisher} {m : HostEndpointManager}, t.attachment = .held m →
      t.Attaches env.attach env.capability := by
    intro t m ht
    rw [Attaches, ht]
    trivial
  rw [getEndpointManager]
  cases hm : s.attachment with
  | held manager =>
    have ha := htaken hm
    refine .inr ⟨ha, s, manager, rfl, ⟨⟨rfl, rfl, .inl rfl⟩, Iff.rfl⟩, hm, ?_⟩
    exact ⟨.inl, fun h => h.resolve_right fun h => h.1 manager rfl⟩
  | shared manager =>
    have ha : s.Attaches env.attach env.capability ↔ s.Answers env.capability := by
      rw [Attaches, hm]
    dsimp only
    rw [ha]
    rcases takeManager_cases s env.capability manager with
      ⟨hno, t, e, h⟩ | ⟨hanswers, t, m, h, hgrown, ht, hsome⟩
    · exact .inl ⟨hno, t, e, h⟩
    · refine .inr ⟨hanswers, t, m, h, ⟨hgrown, iff_of_true (htaken ht) (ha.mpr hanswers)⟩, ht, ?_⟩
      rw [hsome]
      simp
  | absent =>
    have ha : s.Attaches env.attach env.capability ↔
        env.attach.Completes ∧ s.Answers env.capability := by
      rw [Attaches, hm]
    rw [ha, ← constructManager_ok_iff]
    dsimp only
    cases hconstruct : constructManager env.attach with
    | error e => exact .inl ⟨nofun, s, e, rfl⟩
    | ok manager =>
      dsimp only
      rcases takeManager_cases { s with registry := s.registry.attach env.attach.alive }
          env.capability manager with ⟨hno, t, e, h⟩ | ⟨hanswers, t, m, h, hgrown, ht, hsome⟩
      · rw [hm] at h
        exact .inl ⟨fun h => hno h.2, t, e, h⟩
      · have hattaches : s.Attaches env.attach env.capability :=
          ha.mpr ⟨constructManager_ok_iff.mp ⟨manager, hconstruct⟩, hanswers⟩
        rw [hm] at h
        refine .inr ⟨⟨⟨manager, rfl⟩, hanswers⟩, t, m, h, ⟨⟨hgrown.os, hgrown.pid, hgrown.pool⟩,
          iff_of_true (htaken ht) hattaches⟩, ht, ?_⟩
        rw [hsome]
        simp

lemma classify_frame (s : Publisher) (manager : HostEndpointManager) (refresh : Bool) (gid : ℕ) :
    ∃ held cache, (s.classify manager refresh gid).2 = { s with
      attachment := .held held
      ipcDecisionCache := cache } := by
  rw [classify]
  split_ifs
  · exact ⟨_, _, rfl⟩
  · exact ⟨_, _, rfl⟩

lemma importDecision_cases (s : Publisher) (env : CallEnv) (gid : ℕ) :
    (s.ipcDecisionCache gid = none ∧ ¬ s.Attaches env.attach env.capability ∧
      ∃ t e, s.importDecision env gid = (t, .error e)) ∨
    ((s.ipcDecisionCache gid = none → s.Attaches env.attach env.capability) ∧ ∃ decision t,
      s.importDecision env gid = (t, .ok decision) ∧ (s.Accepts env gid ↔ decision = true) ∧
        Decided s t env ∧
        (t.pool.isSome ↔ s.pool.isSome ∨ s.Takes gid ∧ env.capability.Completes)) := by
  rw [importDecision, Accepts, Takes]
  cases hcache : s.ipcDecisionCache gid with
  | some decision =>
    refine .inr ⟨nofun, decision, s, rfl, ?_, ⟨⟨rfl, rfl, .inl rfl⟩, Iff.rfl⟩, ?_⟩ <;> simp
  | none =>
    rcases getEndpointManager_cases s env with
      ⟨hno, t, e, h⟩ | ⟨ha, t, manager, h, hdecided, ht, hsome⟩
    · rw [h]
      exact .inl ⟨rfl, hno, t, e, rfl⟩
    · rw [h]
      obtain ⟨held, cache, hc⟩ := classify_frame t manager env.refresh gid
      have hattaches : (t.classify manager env.refresh gid).2.Attaches env.attach
        env.capability := by
        rw [Attaches, hc]
        trivial
      refine .inr ⟨fun _ => ha, _, (t.classify manager env.refresh gid).2, rfl, ?_,
        ⟨⟨?_, ?_, ?_⟩, iff_of_true hattaches ha⟩, ?_⟩
      · constructor
        · rintro (hnone | ⟨-, t', manager', heq, hclass⟩)
          · exact nomatch hnone
          · obtain ⟨rfl, hmanager⟩ := Prod.mk.inj heq
            obtain rfl := Except.ok.inj hmanager
            exact hclass
        · exact fun h => .inr ⟨rfl, t, manager, rfl, h⟩
      · rw [hc]
        exact hdecided.os
      · rw [hc]
        exact hdecided.pid
      · rw [hc]
        exact hdecided.pool
      · rw [hc]
        exact hsome.trans (by simp)

end Managers

end RosidlBufferBackends.Plugin.Publishing
