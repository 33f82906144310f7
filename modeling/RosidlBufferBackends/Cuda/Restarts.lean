import RosidlBufferBackends.Cuda.Confinement
import RosidlBufferBackends.Cuda.RoundTrip

/-! Publisher processes that exit and are followed by others with their pid, and
subscriber processes that outlive them. -/

namespace RosidlBufferBackends.Cuda.Restarts

open CudaMemoryPool CudaVmmIPCManager CudaBufferBackend Runs

/-- What a publisher process keeps to itself; the handles below `since` were
created before it started. -/
structure Publisher where
  pool : CudaMemoryPool
  handedOut : List ℕ := []
  creations : ℕ := 0
  files : ℤ → Option ℕ := fun _ => none
  published : List Publication := []
  since : ℕ

/-- The caches are those of the subscriber processes; `past` are the descriptors of
processes that have exited, and `allocations` bounds the handles created so far. -/
structure Cluster where
  os : Os := {}
  processes : ℤ → Option Publisher := fun _ => none
  caches : ℕ → ImportCache := fun _ _ => none
  live : List LiveImport := []
  waiting : List Waiting := []
  past : List CudaBufferDescriptor := []
  allocations : ℕ := 0

/-- An exit at which `~CudaMemoryPool` runs has the time of its last scan. -/
inductive Event
  | start (pid : ℤ) (granularity : ℕ) (deviceId : ℤ) (ipcCapable : Bool)
  | exit (pid : ℤ) (destroyed : Option ℕ)
  | act (pid : ℤ) (e : Exchange.Event)
  | importBlock (sub : ℕ) (args : ImportArgs) (env : ImportEnv)
  -- the connection of a waiting import is closed, also by the exit of the publisher
  | interrupt (w : Waiting)
  | release (i : LiveImport)

inductive Output
  | started
  | exited
  | acted (o : Exchange.Output)
  | imported (result : Ending ImportResult)
  | released

/-- A bound on the handle that the operation may create. -/
def handleBound : Exchange.Event → ℕ
  | .allocate _ _ env => env.cuMemCreate.elim 0 (fun a => a + 1)
  | _ => 0

def Publisher.initial (granularity : ℕ) (hg : 0 < granularity) (deviceId : ℤ) (ipcCapable : Bool)
    (since : ℕ) : Publisher :=
  { pool := (PoolPartition.initial granularity hg deviceId ipcCapable).pool, since := since }

/-- The sockets of a process's blocks. -/
def Publisher.serves (P : Publisher) (name : String) : Bool :=
  P.pool.allBlocks.any (fun b => decide (P.pool.registeredBlocks b.blockId = some name))

/-- The names that `~CudaMemoryPool` unlinks. -/
def Publisher.unlinks (P : Publisher) (name : String) : Bool :=
  P.pool.allBlocks.any (fun b => decide (0 ≤ b.shmFd ∧ b.shmName = name))

/-- `~CudaMemoryPool` waits until every block is ready. -/
def Publisher.destructible (os : Os) (P : Publisher) (destroyed : Option ℕ) : Bool :=
  destroyed.all (fun now => P.pool.allBlocks.all (isBlockReady os now))

def Publisher.after (P : Publisher) (x : Exchange) : Publisher :=
  { P with
    pool := x.pool
    handedOut := x.handedOut
    creations := x.creations
    files := x.os.files
    published := x.published }

namespace Cluster

/-- What a publisher process can see and change. -/
def view (s : Cluster) (P : Publisher) : Exchange :=
  { os := { s.os with files := P.files }, pool := P.pool, handedOut := P.handedOut,
    creations := P.creations, published := P.published }

def acted (s : Cluster) (pid : ℤ) (P : Publisher) (e : Exchange.Event) (x : Exchange) : Cluster :=
  { s with
    os := { x.os with files := s.os.files }
    processes := Function.update s.processes pid (some (P.after x))
    allocations := max s.allocations (handleBound e) }

def started (s : Cluster) (pid : ℤ) (P : Publisher) : Cluster :=
  { s with processes := Function.update s.processes pid (some P) }

def exited (s : Cluster) (pid : ℤ) (P : Publisher) (destroyed : Option ℕ) : Cluster :=
  { s with
    os := { s.os with
      sockets := fun name => if P.serves name then none else s.os.sockets name
      shmNames := fun name =>
        if destroyed.isSome && P.unlinks name then none else s.os.shmNames name }
    processes := Function.update s.processes pid none
    past := P.published.map Publication.descriptor ++ s.past }

def withImport (s : Cluster) (sub : ℕ) (args : ImportArgs) (entry : CachedImport) : Cluster :=
  { s with
    os := s.os.onMeta entry.ipcMeta IPCMetadata.fetchAdd
    caches := Function.update s.caches sub
      (Function.update (s.caches sub) (args.pid, args.blockId) (some entry))
    live := ⟨sub, args, entry.va, entry.ipcMeta⟩ :: s.live }

/-- A count of the references to a segment changes. -/
def counted (s : Cluster) (ipcMeta : Option ℕ) (f : IPCMetadata → IPCMetadata)
    (live : List LiveImport) (waiting : List Waiting) : Cluster :=
  { s with os := s.os.onMeta ipcMeta f, live := live, waiting := waiting }

end Cluster

def step (s : Cluster) : Event → Option (Output × Cluster)
  | .start pid granularity deviceId ipcCapable =>
      if hg : 0 < granularity then
        if (s.processes pid).isSome then none
        else some (.started,
          s.started pid (.initial granularity hg deviceId ipcCapable s.allocations))
      else none
  | .exit pid destroyed =>
      match s.processes pid with
      | none => none
      | some P =>
          if P.destructible s.os destroyed then some (.exited, s.exited pid P destroyed) else none
  | .act pid e =>
      match s.processes pid with
      | none => none
      | some P =>
          if Exchange.ofPublisher e then
            (Exchange.step pid (s.view P) e).map (fun x => (.acted x.1, s.acted pid P e x.2))
          else none
  | .importBlock sub args env =>
      if Exchange.cacheFree s.waiting sub = false then none
      else
        let c := CudaVmmIPCManager.importBlock s.os (s.caches sub) env args
        some (.imported c.result,
          { s with os := c.os, caches := Function.update s.caches sub c.cache,
                   live := Exchange.hold s.live sub args c.result,
                   waiting := Exchange.await s.waiting sub args c.result })
  | .interrupt w =>
      if w ∈ s.waiting then
        some (.imported (.error (Exchange.notReceived w.args)),
          { s with os := (cleanupFailedImport s.os w.ipcMeta []).1,
                   waiting := s.waiting.erase w })
      else none
  | .release i =>
      if i ∈ s.live then
        some (.released, { s with os := dropReference s.os i.result.ipcMeta,
                                  live := s.live.erase i })
      else none

/-- What a step can do. -/
inductive StepCase (s : Cluster) : Event → Output → Cluster → Prop
  | started {pid : ℤ} {granularity : ℕ} {deviceId : ℤ} {ipcCapable : Bool} (hg : 0 < granularity) :
      s.processes pid = none →
      StepCase s (.start pid granularity deviceId ipcCapable) .started
        (s.started pid (.initial granularity hg deviceId ipcCapable s.allocations))
  | exited {pid : ℤ} {destroyed : Option ℕ} {P : Publisher} :
      s.processes pid = some P →
      StepCase s (.exit pid destroyed) .exited (s.exited pid P destroyed)
  | acted {pid : ℤ} {e : Exchange.Event} {P : Publisher} {o : Exchange.Output} {x : Exchange} :
      s.processes pid = some P → Exchange.ofPublisher e = true →
      Exchange.step pid (s.view P) e = some (o, x) →
      StepCase s (.act pid e) (.acted o) (s.acted pid P e x)
  | imported {sub : ℕ} {args : ImportArgs} {env : ImportEnv} {entry : CachedImport} :
      Completes s.os (s.caches sub) env args →
      entry.ipcMeta = consulted s.os (s.caches sub) env args →
      (s.caches sub (args.pid, args.blockId) = none ∧
        s.os.sockets args.socketPath = some (.serves entry.handle) ∧
        env.cuMemAddressReserve = some entry.va ∧ entry.size = args.size ∨
        s.caches sub (args.pid, args.blockId) = some entry) →
      StepCase s (.importBlock sub args env) (.imported (.ok ⟨entry.va, entry.ipcMeta⟩))
        (s.withImport sub args entry)
  | leaked {sub : ℕ} {args : ImportArgs} {env : ImportEnv} {e : CudaError} :
      StepCase s (.importBlock sub args env) (.imported (.error e))
        (s.counted (consulted s.os (s.caches sub) env args) IPCMetadata.fetchAdd s.live s.waiting)
  | waiting {sub : ℕ} {args : ImportArgs} {env : ImportEnv} :
      StepCase s (.importBlock sub args env)
        (.imported (.waits (consulted s.os (s.caches sub) env args)))
        (s.counted (consulted s.os (s.caches sub) env args) IPCMetadata.fetchAdd s.live
          (⟨sub, args, consulted s.os (s.caches sub) env args⟩ :: s.waiting))
  | notImported {sub : ℕ} {args : ImportArgs} {env : ImportEnv} {e : CudaError} :
      StepCase s (.importBlock sub args env) (.imported (.error e)) s
  | interrupted {w : Waiting} :
      StepCase s (.interrupt w) (.imported (.error (Exchange.notReceived w.args)))
        (s.counted w.ipcMeta IPCMetadata.fetchSub s.live (s.waiting.erase w))
  | released {i : LiveImport} :
      StepCase s (.release i) .released
        (s.counted i.result.ipcMeta IPCMetadata.fetchSub (s.live.erase i) s.waiting)

variable {s u : Cluster} {e : Event} {o : Output} {tr : List (Event × Output)}

lemma step_cases (hs : step s e = some (o, u)) : StepCase s e o u := by
  cases e with
  | start pid granularity deviceId ipcCapable =>
    simp only [step] at hs
    split_ifs at hs with hg hp
    obtain ⟨rfl, rfl⟩ := Prod.mk.inj (Option.some.inj hs)
    exact .started hg (Option.not_isSome_iff_eq_none.mp hp)
  | exit pid destroyed =>
    simp only [step] at hs
    cases hp : s.processes pid with
    | none => simp [hp] at hs
    | some P =>
      rw [hp] at hs
      simp only at hs
      split_ifs at hs
      obtain ⟨rfl, rfl⟩ := Prod.mk.inj (Option.some.inj hs)
      exact .exited hp
  | act pid e =>
    simp only [step] at hs
    cases hp : s.processes pid with
    | none => simp [hp] at hs
    | some P =>
      rw [hp] at hs
      simp only at hs
      split_ifs at hs with he
      obtain ⟨⟨o', x⟩, hx, ho⟩ := Option.map_eq_some_iff.mp hs
      obtain ⟨rfl, rfl⟩ := Prod.mk.inj ho
      exact .acted hp he hx
  | importBlock sub args env =>
    simp only [step] at hs
    split_ifs at hs
    obtain ⟨rfl, rfl⟩ := Prod.mk.inj (Option.some.inj hs)
    have ho := importBlock_outcome s.os (s.caches sub) env args
    generalize CudaVmmIPCManager.importBlock s.os (s.caches sub) env args = c at ho
    cases ho with
    | completed entry log hcomp hm hentry => exact .imported hcomp hm hentry
    | leaked log e _ =>
      simp only [Exchange.hold, Exchange.await, Function.update_eq_self]
      exact .leaked
    | waiting log _ =>
      simp only [Exchange.hold, Exchange.await, Function.update_eq_self]
      exact .waiting
    | cleaned log e _ _ _ _ =>
      simp only [Exchange.hold, Exchange.await, Function.update_eq_self]
      exact .notImported
  | interrupt w =>
    simp only [step] at hs
    split_ifs at hs
    obtain ⟨rfl, rfl⟩ := Prod.mk.inj (Option.some.inj hs)
    exact .interrupted
  | release i =>
    simp only [step] at hs
    split_ifs at hs
    obtain ⟨rfl, rfl⟩ := Prod.mk.inj (Option.some.inj hs)
    exact .released

/-- The calls of `importBlock` succeed. -/
structure Succeeds (env : ImportEnv) : Prop where
  shmOpen : env.shmOpen.isSome
  mmap : env.mmap = true
  socket : env.socket.isSome
  connect : env.connect = true
  recvmsg : ∃ fd second, env.recvmsg = .rights fd second
  cuMemImportFromShareableHandle : env.cuMemImportFromShareableHandle = true
  cuMemAddressReserve : env.cuMemAddressReserve.isSome
  cuMemMap : env.cuMemMap = true
  cudaGetDevice : env.cudaGetDevice = true
  cuMemSetAccess : env.cuMemSetAccess = true

/-- A descriptor that a process, running or not, has returned. -/
def Known (s : Cluster) (d : CudaBufferDescriptor) : Prop :=
  d ∈ s.past ∨ ∃ pid P, s.processes pid = some P ∧ ∃ p ∈ P.published, p.descriptor = d

/-- `cuMemCreate` returns memory that no process has had before. -/
def NewMemory (s : Cluster) (P : Publisher) : Exchange.Event → Prop
  | .allocate byteSize now env =>
      findCandidate (s.view P).os P.pool now (P.pool.roundToGranularity byteSize) = none →
        ∀ a, env.cuMemCreate = some a → s.allocations ≤ a
  | _ => True

/-- All calls succeed, and only descriptors that were returned are imported. -/
def Working (s : Cluster) : Event → Output → Prop
  | .act pid e, .acted o => ∀ P, s.processes pid = some P →
      NewMemory s P e ∧ (P.pool.ipcCapable = true → RoundTrip.Working (s.view P) e o)
  | .importBlock _ args env, _ => (∃ d, Known s d ∧ args = d.importArgs) ∧ Succeeds env
  | _, _ => True

end RosidlBufferBackends.Cuda.Restarts
