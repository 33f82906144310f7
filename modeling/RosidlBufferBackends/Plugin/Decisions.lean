import RosidlBufferBackends.Cuda.Exchange
import RosidlBufferBackends.Registry.Refresh

/-! The backend of one process, which decides for each endpoint whether it can import
descriptors. The registry of the host changes at any point between its calls. In each event
`acquired` is the result of `sem_wait_timed`. -/

namespace RosidlBufferBackends.Plugin

open Registry Runs

/-- The arguments of `create_descriptor_with_endpoint` besides the endpoint, and the
state of the process and its pool at the call. -/
structure Publication where
  -- none if the implementation is not that of this backend
  impl : Option Cuda.CudaBufferImpl
  os : Cuda.Os
  pid : ℤ
  -- what get_or_create_global_pool returns or throws
  pool : Except Cuda.CudaError Cuda.CudaMemoryPool
  now : ℕ
  drawn : ℕ
  register : Cuda.RegisterEnv
  cudaIpcGetEventHandle : Option (List UInt8)

/-- `registry` is the host's. -/
structure CudaBufferBackend where
  endpointManager : HostEndpointManager
  registry : EndpointRegistry
  ipcDecisionCache : ℕ → Option Bool := fun _ => none

inductive Event
  | onDiscoveringEndpoint (gid : ℕ) (supportsCuda poolIpcCapable acquired : Bool)
  | createDescriptorWithEndpoint (gid : ℕ) (acquired : Bool) (args : Publication)
  | registerEndpoint (gid : ℕ) (type : EntityType) (acquired : Bool)
  | refreshFromRemote (acquired : Bool)
  | registryChange (r : EndpointRegistry)

/-- `classified` is the locality information that a call classified the endpoint
by. -/
inductive Output
  | quiet
  | discovered (result : Bool) (classified : Option LocalityInfo)
  | created (result : Except Cuda.CudaError (Option Cuda.CudaBufferDescriptor))
      (classified : Option LocalityInfo)

def canImportDescriptor (peer : LocalityInfo) (manager : HostEndpointManager) : Bool :=
  if !peer.found || !peer.ipcCapable then false
  else
    match peer.locality with
    | .intraProcess => true
    | .interProcessSameHost =>
        decide (peer.deviceId = manager.identity.deviceId ∧ peer.uid = manager.identity.uid)
    | .undefined | .interHost => false

namespace CudaBufferBackend

/-- What the registry says about the endpoint. -/
def entry (s : CudaBufferBackend) (gid : ℕ) : Option CachedEndpointInfo :=
  s.registry.updates s.endpointManager.identity.instanceId gid

def refreshFromRemote (s : CudaBufferBackend) (acquired : Bool) : CudaBufferBackend :=
  { s with endpointManager :=
      { s.endpointManager with
        cache := Refresh.refreshFromRemote acquired s.registry
          s.endpointManager.identity.instanceId s.endpointManager.cache } }

def queryEndpointLocality (s : CudaBufferBackend) (gid : ℕ) : LocalityInfo :=
  s.endpointManager.cache.query gid

/-- What a classification of the endpoint would find. -/
def peer (s : CudaBufferBackend) (acquired : Bool) (gid : ℕ) : LocalityInfo :=
  (s.refreshFromRemote acquired).queryEndpointLocality gid

def canImport (s : CudaBufferBackend) (acquired : Bool) (gid : ℕ) : Bool :=
  canImportDescriptor (s.peer acquired gid) s.endpointManager

def classify (s : CudaBufferBackend) (acquired : Bool) (gid : ℕ) : CudaBufferBackend :=
  if (s.peer acquired gid).found then
    { s.refreshFromRemote acquired with
      ipcDecisionCache :=
        Function.update s.ipcDecisionCache gid (some (s.canImport acquired gid)) }
  else s.refreshFromRemote acquired

def onDiscoveringEndpoint (s : CudaBufferBackend) (gid : ℕ)
    (supportsCuda poolIpcCapable acquired : Bool) : Output × CudaBufferBackend :=
  if !supportsCuda then (.discovered false none, s)
  else if !poolIpcCapable then (.discovered false none, s)
  else (.discovered (s.canImport acquired gid) (some (s.peer acquired gid)),
    s.classify acquired gid)

/-- The rest of the call, once the endpoint can import. -/
def publish (args : Publication) : Except Cuda.CudaError (Option Cuda.CudaBufferDescriptor) :=
  match args.impl with
  | none => .ok none
  | some impl =>
      match args.pool with
      | .error e => .error e
      | .ok pool =>
          (Cuda.CudaBufferBackend.createDescriptorWithEndpoint args.os args.pid pool args.now
            args.drawn
            { canImport := true, register := args.register,
              cudaIpcGetEventHandle := args.cudaIpcGetEventHandle } impl).result

def createDescriptorWithEndpoint (s : CudaBufferBackend) (gid : ℕ) (acquired : Bool)
    (args : Publication) : Output × CudaBufferBackend :=
  match s.ipcDecisionCache gid with
  | some false => (.created (.ok none) none, s)
  | some true => (.created (publish args) none, s)
  | none =>
      (.created (if s.canImport acquired gid then publish args else .ok none)
          (some (s.peer acquired gid)),
        s.classify acquired gid)

def registerEndpoint (s : CudaBufferBackend) (gid : ℕ) (type : EntityType) (acquired : Bool) :
    CudaBufferBackend :=
  if acquired then
    match s.registry.findSlot gid with
    | none => s
    | some slot =>
        { s with
          registry := s.registry.writeSlot slot (Host.entryOf s.endpointManager gid type)
          endpointManager := { s.endpointManager with
            cache := Function.update s.endpointManager.cache gid
              (some (Host.localInfo s.endpointManager type)) } }
  else s

def step (s : CudaBufferBackend) : Event → Option (Output × CudaBufferBackend)
  | .onDiscoveringEndpoint gid supportsCuda poolIpcCapable acquired =>
      some (s.onDiscoveringEndpoint gid supportsCuda poolIpcCapable acquired)
  | .createDescriptorWithEndpoint gid acquired args =>
      some (s.createDescriptorWithEndpoint gid acquired args)
  | .registerEndpoint gid type acquired => some (.quiet, s.registerEndpoint gid type acquired)
  | .refreshFromRemote acquired => some (.quiet, s.refreshFromRemote acquired)
  | .registryChange r => some (.quiet, { s with registry := r })

/-- What the steps do. -/
inductive StepCase (s : CudaBufferBackend) : Event → Output → CudaBufferBackend → Prop
  | dismissed {gid : ℕ} {supportsCuda poolIpcCapable acquired : Bool} :
      supportsCuda = false ∨ poolIpcCapable = false →
      StepCase s (.onDiscoveringEndpoint gid supportsCuda poolIpcCapable acquired)
        (.discovered false none) s
  | discovered {gid : ℕ} {acquired : Bool} :
      StepCase s (.onDiscoveringEndpoint gid true true acquired)
        (.discovered (s.canImport acquired gid) (some (s.peer acquired gid)))
        (s.classify acquired gid)
  | decided {gid : ℕ} {acquired : Bool} {args : Publication} {d : Bool} :
      s.ipcDecisionCache gid = some d →
      StepCase s (.createDescriptorWithEndpoint gid acquired args)
        (.created (if d then publish args else .ok none) none) s
  | undecided {gid : ℕ} {acquired : Bool} {args : Publication} :
      s.ipcDecisionCache gid = none →
      StepCase s (.createDescriptorWithEndpoint gid acquired args)
        (.created (if s.canImport acquired gid then publish args else .ok none)
          (some (s.peer acquired gid)))
        (s.classify acquired gid)
  | registered {gid : ℕ} {type : EntityType} {slot : ℕ × Bool} :
      s.registry.findSlot gid = some slot →
      StepCase s (.registerEndpoint gid type true) .quiet { s with
        registry := s.registry.writeSlot slot (Host.entryOf s.endpointManager gid type)
        endpointManager := { s.endpointManager with
          cache := Function.update s.endpointManager.cache gid
            (some (Host.localInfo s.endpointManager type)) } }
  | unregistered {gid : ℕ} {type : EntityType} {acquired : Bool} :
      StepCase s (.registerEndpoint gid type acquired) .quiet s
  | refreshed {acquired : Bool} :
      StepCase s (.refreshFromRemote acquired) .quiet (s.refreshFromRemote acquired)
  | changed {r : EndpointRegistry} : StepCase s (.registryChange r) .quiet { s with registry := r }

lemma step_cases {s u : CudaBufferBackend} {e : Event} {o : Output} (hs : s.step e = some (o, u)) :
    StepCase s e o u := by
  cases e with
  | onDiscoveringEndpoint gid supportsCuda poolIpcCapable acquired =>
    simp only [step, onDiscoveringEndpoint, Option.some.injEq] at hs
    cases supportsCuda with
    | false =>
      obtain ⟨rfl, rfl⟩ := Prod.mk.inj hs
      exact .dismissed (.inl rfl)
    | true =>
      cases poolIpcCapable with
      | false =>
        obtain ⟨rfl, rfl⟩ := Prod.mk.inj hs
        exact .dismissed (.inr rfl)
      | true =>
        obtain ⟨rfl, rfl⟩ := Prod.mk.inj hs
        exact .discovered
  | createDescriptorWithEndpoint gid acquired args =>
    simp only [step, createDescriptorWithEndpoint, Option.some.injEq] at hs
    split at hs
    · obtain ⟨rfl, rfl⟩ := Prod.mk.inj hs
      exact .decided ‹_›
    · obtain ⟨rfl, rfl⟩ := Prod.mk.inj hs
      exact .decided ‹_›
    · obtain ⟨rfl, rfl⟩ := Prod.mk.inj hs
      exact .undecided ‹_›
  | registerEndpoint gid type acquired =>
    obtain ⟨rfl, rfl⟩ := Prod.mk.inj (Option.some.inj hs)
    cases acquired with
    | false => exact .unregistered
    | true =>
      rw [registerEndpoint, if_pos rfl]
      cases hslot : s.registry.findSlot gid with
      | none => exact .unregistered
      | some slot => exact .registered hslot
  | refreshFromRemote acquired =>
    obtain ⟨rfl, rfl⟩ := Prod.mk.inj (Option.some.inj hs)
    exact .refreshed
  | registryChange r =>
    obtain ⟨rfl, rfl⟩ := Prod.mk.inj (Option.some.inj hs)
    exact .changed

end CudaBufferBackend

end RosidlBufferBackends.Plugin
