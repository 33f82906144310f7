import RosidlBufferBackends.Cuda.Descriptor
import RosidlBufferBackends.Cuda.Naming
import RosidlBufferBackends.Cuda.PoolPartition

/-! One publisher's pool with its descriptors in flight and any number of
subscriber processes, each operation one step. -/

namespace RosidlBufferBackends.Cuda

open CudaMemoryPool CudaVmmIPCManager CudaBufferBackend

/-- An import that succeeded and whose buffer has not been released. -/
structure LiveImport where
  sub : ℕ
  args : ImportArgs
  result : ImportResult
  deriving DecidableEq, Repr

/-- An import that waits for an answer, with the metadata that it has mapped. -/
structure Waiting where
  sub : ℕ
  args : ImportArgs
  ipcMeta : Option ℕ
  deriving DecidableEq, Repr

/-- A descriptor that was returned, for which buffer and block, when `assignUid` ran for it
and when it was returned. -/
structure Publication where
  descriptor : CudaBufferDescriptor
  buffer : CudaBufferImpl
  block : ℕ
  stamped : ℕ
  time : ℕ
  deriving DecidableEq, Repr

/-- The import cache of process 0 is the publisher's own. -/
structure Exchange extends PoolPartition.State where
  caches : ℕ → ImportCache := fun _ _ => none
  live : List LiveImport := []
  waiting : List Waiting := []
  published : List Publication := []
  clock : ℕ := 0

namespace Exchange

inductive Event
  | allocate (byteSize now : ℕ) (env : CreateBlockEnv)
  | free (r : ℕ)
  | assignUid (r now drawn : ℕ)
  | createDescriptor (impl : CudaBufferImpl) (env : DescriptorEnv) (now drawn : ℕ)
  | importBlock (sub : ℕ) (args : ImportArgs) (env : ImportEnv)
  -- the `recvmsg` of a waiting import is interrupted, or its connection is closed
  | interrupt (w : Waiting)
  | release (i : LiveImport)

inductive Output
  | pool (o : PoolPartition.Output)
  | assigned (a : Assignment)
  | described (a : Option Assignment) (result : Except CudaError (Option CudaBufferDescriptor))
  | imported (result : Ending ImportResult)
  | released

/-- The storage of a live buffer is a block that is handed out, or outside the pool. -/
def storageHeld (s : Exchange) (impl : CudaBufferImpl) : Bool :=
  s.handedOut.any (fun r => decide ((s.pool.block r).va = impl.devicePtr)) ||
    (findBlockForVa s.pool impl.devicePtr).isNone

def record (published : List Publication) (impl : CudaBufferImpl) (now elapsed : ℕ)
    (a : Option Assignment) (result : Except CudaError (Option CudaBufferDescriptor)) :
    List Publication :=
  match a, result with
  | some a, .ok (some d) => ⟨d, impl, a.block, now, now + elapsed⟩ :: published
  | _, _ => published

def hold (live : List LiveImport) (sub : ℕ) (args : ImportArgs) :
    Ending ImportResult → List LiveImport
  | .ok result => ⟨sub, args, result⟩ :: live
  | _ => live

def await (waiting : List Waiting) (sub : ℕ) (args : ImportArgs) :
    Ending ImportResult → List Waiting
  | .waits ipcMeta => ⟨sub, args, ipcMeta⟩ :: waiting
  | _ => waiting

/-- A waiting import holds the mutex of its process's cache. -/
def cacheFree (waiting : List Waiting) (sub : ℕ) : Bool := waiting.all (fun w => w.sub ≠ sub)

/-- The exception of an import whose `recvmsg` fails. -/
def notReceived (args : ImportArgs) : CudaError :=
  .message ("Failed to receive VMM FD from socket: " ++ args.socketPath)

def step (pid : ℤ) (s : Exchange) : Event → Option (Output × Exchange)
  | .allocate byteSize now env =>
      if now < s.clock then none
      else (PoolPartition.step pid s.toState (.allocate byteSize now env)).map
        (fun x => (.pool x.1, { s with toState := x.2, clock := now }))
  | .free r => (PoolPartition.step pid s.toState (.free r)).map
      (fun x => (.pool x.1, { s with toState := x.2 }))
  | .assignUid r now drawn =>
      if now < s.clock ∨ drawn = 0 ∨ r ∉ s.handedOut then none
      else
        let (os, pool, uid) := CudaMemoryPool.assignUid s.os s.pool now drawn r
        some (.assigned ⟨r, uid, decide ((s.pool.block r).currentUid = 0)⟩,
          { s with os := os, pool := pool, clock := now })
  | .createDescriptor impl env now drawn =>
      if now < s.clock ∨ drawn = 0 ∨ s.storageHeld impl = false then none
      else
        let c := createDescriptorWithEndpoint s.os pid s.pool now drawn env impl
        some (.described c.assigned c.result,
          { s with os := c.os, pool := c.pool, clock := now + env.elapsed,
                   published := record s.published impl now env.elapsed c.assigned c.result })
  | .importBlock sub args env =>
      if cacheFree s.waiting sub = false then none
      else
        let c := CudaVmmIPCManager.importBlock s.os (s.caches sub) env args
        some (.imported c.result,
          { s with os := c.os, caches := Function.update s.caches sub c.cache,
                   live := hold s.live sub args c.result,
                   waiting := await s.waiting sub args c.result })
  | .interrupt w =>
      if w ∈ s.waiting then
        some (.imported (.error (notReceived w.args)),
          { s with os := (cleanupFailedImport s.os w.ipcMeta []).1,
                   waiting := s.waiting.erase w })
      else none
  | .release i =>
      if i ∈ s.live then
        some (.released, { s with os := dropReference s.os i.result.ipcMeta,
                                  live := s.live.erase i })
      else none

def initial (granularity : ℕ) (hg : 0 < granularity) (deviceId : ℤ) (ipcCapable : Bool) :
    Exchange :=
  { toState := PoolPartition.initial granularity hg deviceId ipcCapable }

def clearStamp (m : IPCMetadata) : IPCMetadata := { m with publishTimestampUs := 0 }

def stamp (drawn now : ℕ) (m : IPCMetadata) : IPCMetadata :=
  { m with uid := drawn, publishTimestampUs := now }

/-- The registration of a block with the socket dispatcher. -/
def registered (s : Exchange) (sockets : String → Option Listener)
    (blocks : ℕ → Option String) : Exchange :=
  { s with os := { s.os with sockets := sockets },
           pool := { s.pool with registeredBlocks := blocks } }

/-- The publication of a block under a uid that is drawn for it. -/
def drawn (s : Exchange) (r now drawn : ℕ) : Exchange :=
  { s with os := s.os.onMeta (s.pool.block r).ipcMeta (stamp drawn now),
           pool := s.pool.modifyBlock r (fun b => { b with currentUid := drawn }) }

def assigned (s : Exchange) (r now drawn : ℕ) : Exchange :=
  { s with os := (CudaMemoryPool.assignUid s.os s.pool now drawn r).1,
           pool := (CudaMemoryPool.assignUid s.os s.pool now drawn r).2.1 }

def uidOf (s : Exchange) (r drawn : ℕ) : ℕ :=
  if (s.pool.block r).currentUid = 0 then drawn else (s.pool.block r).currentUid

def reused (s : Exchange) (key : ℕ) (vec : List ℕ) (i r : ℕ) : Exchange :=
  { s with os := s.os.onMeta (s.pool.block r).ipcMeta clearStamp,
           pool := (takeBlock s.os s.pool key vec i r).2, handedOut := r :: s.handedOut }

def created (s : Exchange) (b : VmmBlock) (os : Os) : Exchange :=
  { s with os := os, creations := s.creations + 1,
           handedOut := s.pool.allBlocks.length :: s.handedOut,
           pool := { s.pool with
             nextBlockId := (s.pool.nextBlockId + 1) % 2 ^ 32
             allBlocks := s.pool.allBlocks ++ [b] } }

def notCreated (s : Exchange) : Exchange :=
  { s with creations := s.creations + 1,
           pool := { s.pool with nextBlockId := (s.pool.nextBlockId + 1) % 2 ^ 32 } }

def freed (s : Exchange) (r : ℕ) : Exchange :=
  { s with pool := s.pool.free r, handedOut := s.handedOut.erase r }

def withImport (s : Exchange) (sub : ℕ) (args : ImportArgs) (entry : CachedImport) : Exchange :=
  { s with
    os := s.os.onMeta entry.ipcMeta IPCMetadata.fetchAdd
    caches := Function.update s.caches sub
      (Function.update (s.caches sub) (args.pid, args.blockId) (some entry))
    live := ⟨sub, args, entry.va, entry.ipcMeta⟩ :: s.live }

/-- A process waits in an import, and has counted it. -/
def withWaiting (s : Exchange) (w : Waiting) : Exchange :=
  { s with os := s.os.onMeta w.ipcMeta IPCMetadata.fetchAdd, waiting := w :: s.waiting }

def withoutWaiting (s : Exchange) (w : Waiting) : Exchange :=
  { s with os := s.os.onMeta w.ipcMeta IPCMetadata.fetchSub, waiting := s.waiting.erase w }

def withoutImport (s : Exchange) (i : LiveImport) : Exchange :=
  { s with os := s.os.onMeta i.result.ipcMeta IPCMetadata.fetchSub, live := s.live.erase i }

def atTime (s : Exchange) (now : ℕ) : Exchange := { s with clock := now }

/-- What a step can do. -/
inductive StepCase (pid : ℤ) (s : Exchange) : Event → Output → Exchange → Prop
  | reused {byteSize now key i r : ℕ} {vec : List ℕ} {env : CreateBlockEnv} :
      s.clock ≤ now →
      findCandidate s.os s.pool now (s.pool.roundToGranularity byteSize) = some (key, vec, i, r) →
      StepCase pid s (.allocate byteSize now env) (.pool (.allocated [] (.ok r)))
        ((s.reused key vec i r).atTime now)
  | notCreated {byteSize now : ℕ} {env : CreateBlockEnv} {log : List (Action Resource)}
      {e : CudaError} :
      s.clock ≤ now →
      findCandidate s.os s.pool now (s.pool.roundToGranularity byteSize) = none →
      env.cuMemCreate = none ∨ env.cuMemAddressReserve = none ∨ env.cuMemMap = false ∨
        env.cuMemSetAccess = false →
      StepCase pid s (.allocate byteSize now env) (.pool (.allocated log (.error e)))
        (s.notCreated.atTime now)
  | created {byteSize now : ℕ} {env : CreateBlockEnv} {log : List (Action Resource)}
      {b : VmmBlock} {os : Os} :
      s.clock ≤ now →
      findCandidate s.os s.pool now (s.pool.roundToGranularity byteSize) = none →
      BlockCreated s.os pid s.pool env (s.pool.roundToGranularity byteSize) b os →
      StepCase pid s (.allocate byteSize now env)
        (.pool (.allocated log (.ok s.pool.allBlocks.length))) ((s.created b os).atTime now)
  | freed {r : ℕ} : r ∈ s.handedOut → StepCase pid s (.free r) (.pool .done) (s.freed r)
  | assigned {r now drawn uid : ℕ} :
      s.clock ≤ now → drawn ≠ 0 → r ∈ s.handedOut →
      uid = s.uidOf r drawn →
      StepCase pid s (.assignUid r now drawn)
        (.assigned ⟨r, uid, decide ((s.pool.block r).currentUid = 0)⟩)
        ((s.assigned r now drawn).atTime now)
  | notDescribed {impl : CudaBufferImpl} {env : DescriptorEnv} {now drawn : ℕ}
      {result : Except CudaError (Option CudaBufferDescriptor)} :
      s.clock ≤ now → (∀ d, result ≠ .ok (some d)) →
      StepCase pid s (.createDescriptor impl env now drawn) (.described none result)
        (s.atTime (now + env.elapsed))
  | described {impl : CudaBufferImpl} {env : DescriptorEnv} {now drawn r uid : ℕ}
      {sockets : String → Option Listener} {blocks : ℕ → Option String} {socketPath : String}
      {result : Except CudaError (Option CudaBufferDescriptor)} {published : List Publication} :
      s.clock ≤ now → drawn ≠ 0 → (∃ r' ∈ s.handedOut, (s.pool.block r').va = impl.devicePtr) →
      env.canImport = true → s.pool.ipcCapable = true →
      findBlockForVa s.pool impl.devicePtr = some r →
      0 ≤ (s.pool.block r).exportedFd →
      registerBlock s.os pid s.pool env.register r =
        ({ s.os with sockets := sockets }, { s.pool with registeredBlocks := blocks },
          .ok socketPath) →
      uid = s.uidOf r drawn →
      (∃ e, result = .error e) ∧ published = s.published ∨
        (∃ handle, result =
            .ok (some (describe pid impl (s.pool.block r) socketPath uid handle)) ∧
          published =
            ⟨describe pid impl (s.pool.block r) socketPath uid handle, impl, r, now,
              now + env.elapsed⟩ :: s.published) →
      StepCase pid s (.createDescriptor impl env now drawn)
        (.described (some ⟨r, uid, decide ((s.pool.block r).currentUid = 0)⟩) result)
        { ((s.registered sockets blocks).assigned r now drawn).atTime (now + env.elapsed) with
          published := published }
  | imported {sub : ℕ} {args : ImportArgs} {env : ImportEnv} {entry : CachedImport} :
      Completes s.os (s.caches sub) env args →
      entry.ipcMeta = consulted s.os (s.caches sub) env args →
      (s.caches sub (args.pid, args.blockId) = none ∧
        s.os.sockets args.socketPath = some (.serves entry.handle) ∧
        env.cuMemAddressReserve = some entry.va ∧ entry.size = args.size ∨
        s.caches sub (args.pid, args.blockId) = some entry) →
      StepCase pid s (.importBlock sub args env) (.imported (.ok ⟨entry.va, entry.ipcMeta⟩))
        (s.withImport sub args entry)
  | leaked {sub : ℕ} {args : ImportArgs} {env : ImportEnv} {e : CudaError} :
      SkipsCleanup s.os (s.caches sub) env args →
      StepCase pid s (.importBlock sub args env) (.imported (.error e))
        { s with os := s.os.onMeta (consulted s.os (s.caches sub) env args) IPCMetadata.fetchAdd }
  | waiting {sub : ℕ} {args : ImportArgs} {env : ImportEnv} :
      Waits s.os (s.caches sub) env args →
      StepCase pid s (.importBlock sub args env)
        (.imported (.waits (consulted s.os (s.caches sub) env args)))
        (s.withWaiting ⟨sub, args, consulted s.os (s.caches sub) env args⟩)
  | notImported {sub : ℕ} {args : ImportArgs} {env : ImportEnv} {e : CudaError} :
      ¬ Completes s.os (s.caches sub) env args → ¬ SkipsCleanup s.os (s.caches sub) env args →
      ¬ Waits s.os (s.caches sub) env args →
      StepCase pid s (.importBlock sub args env) (.imported (.error e)) s
  | interrupted {w : Waiting} :
      w ∈ s.waiting →
      StepCase pid s (.interrupt w) (.imported (.error (notReceived w.args))) (s.withoutWaiting w)
  | released {i : LiveImport} :
      i ∈ s.live → StepCase pid s (.release i) .released (s.withoutImport i)

variable {pid : ℤ} {s u : Exchange} {e : Event} {o : Output}

lemma assignUid_uid (s : Exchange) (r now drawn : ℕ) :
    (CudaMemoryPool.assignUid s.os s.pool now drawn r).2.2 = s.uidOf r drawn := by
  by_cases h : (s.pool.block r).currentUid = 0
  · rw [assignUid_drawn s.os now drawn h, uidOf, if_pos h]
  · rw [assignUid_kept s.os now drawn h, uidOf, if_neg h]

lemma assigned_of_zero {r : ℕ} (now drawn : ℕ) (h : (s.pool.block r).currentUid = 0) :
    s.assigned r now drawn = s.drawn r now drawn := by
  rw [assigned, assignUid_drawn s.os now drawn h]
  rfl

lemma assigned_of_ne_zero {r : ℕ} (now drawn : ℕ) (h : (s.pool.block r).currentUid ≠ 0) :
    s.assigned r now drawn = s := by
  rw [assigned, assignUid_kept s.os now drawn h]

lemma step_allocate {byteSize now : ℕ} {env : CreateBlockEnv}
    (hs : step pid s (.allocate byteSize now env) = some (o, u)) :
    StepCase pid s (.allocate byteSize now env) o u := by
  simp only [step] at hs
  split_ifs at hs with hlt
  obtain ⟨⟨po, t⟩, hp, he⟩ := Option.map_eq_some_iff.mp hs
  obtain ⟨rfl, rfl⟩ := Prod.mk.inj he
  rcases PoolPartition.step_allocate hp with ⟨key, vec, i, r, hc, rfl, rfl⟩ |
    ⟨log, e, rfl, hc, hfail, rfl⟩ | ⟨b, os, log, hb, hc, rfl, rfl⟩
  · rw [takeBlock_os]
    exact .reused (not_lt.mp hlt) hc
  · exact .notCreated (not_lt.mp hlt) hc hfail
  · exact .created (not_lt.mp hlt) hc hb

lemma step_createDescriptor {impl : CudaBufferImpl} {env : DescriptorEnv} {now drawn : ℕ}
    (hs : step pid s (.createDescriptor impl env now drawn) = some (o, u)) :
    StepCase pid s (.createDescriptor impl env now drawn) o u := by
  simp only [step] at hs
  split_ifs at hs with hg
  obtain ⟨rfl, rfl⟩ := Prod.mk.inj (Option.some.inj hs)
  obtain ⟨hnow, hdrawn, hheld⟩ : s.clock ≤ now ∧ drawn ≠ 0 ∧ s.storageHeld impl = true := by
    simpa [not_or] using hg
  rcases createDescriptor_cases s.os pid s.pool now drawn env impl with
    ⟨result, hc, hnone⟩ | ⟨r, os₁, pool₁, socketPath, os, pool, uid, hcan, hcap, hf, hfd,
      hr, ha, hc⟩
  · have hrec : record s.published impl now env.elapsed none result = s.published := by
      cases result <;> rfl
    rw [hc]
    simp only [hrec]
    exact .notDescribed hnow hnone
  · have hr' : ∃ r' ∈ s.handedOut, (s.pool.block r').va = impl.devicePtr := by
      simpa [storageHeld, hf] using hheld
    obtain ⟨hos, hpool⟩ := registerBlock_frame hr
    generalize os₁.sockets = sockets at hos
    generalize pool₁.registeredBlocks = blocks at hpool
    subst hos hpool
    have hu := assignUid_uid (s.registered sockets blocks) r now drawn
    have h := fun result published => @StepCase.described pid s impl env now drawn r _ sockets
      blocks socketPath result published hnow hdrawn hr' hcan hcap hf hfd hr rfl
    simp only [registered] at hu
    rw [ha] at hu
    obtain rfl : uid = s.uidOf r drawn := hu
    rw [hc]
    simp only [assigned, registered, atTime, ha] at h
    cases hw : writeEventHandle impl env with
    | error e => exact h (.error e) s.published (.inl ⟨⟨e, rfl⟩, rfl⟩)
    | ok handle => exact h _ _ (.inr ⟨handle, rfl, rfl⟩)

lemma step_cases (hs : step pid s e = some (o, u)) : StepCase pid s e o u := by
  cases e with
  | allocate byteSize now env => exact step_allocate hs
  | free r =>
    obtain ⟨⟨po, t⟩, hp, he⟩ := Option.map_eq_some_iff.mp hs
    obtain ⟨rfl, rfl⟩ := Prod.mk.inj he
    simp only [PoolPartition.step] at hp
    split_ifs at hp with hr
    obtain ⟨rfl, rfl⟩ := Prod.mk.inj (Option.some.inj hp)
    exact .freed hr
  | assignUid r now drawn =>
    simp only [step] at hs
    split_ifs at hs with hg
    obtain ⟨hnow, hdrawn, hheld⟩ : s.clock ≤ now ∧ drawn ≠ 0 ∧ r ∈ s.handedOut := by
      simpa [not_or] using hg
    obtain ⟨rfl, rfl⟩ := Prod.mk.inj (Option.some.inj hs)
    exact .assigned hnow hdrawn hheld (assignUid_uid s r now drawn)
  | createDescriptor impl env now drawn => exact step_createDescriptor hs
  | importBlock sub args env =>
    simp only [step] at hs
    split_ifs at hs
    obtain ⟨rfl, rfl⟩ := Prod.mk.inj (Option.some.inj hs)
    have ho := importBlock_outcome s.os (s.caches sub) env args
    generalize CudaVmmIPCManager.importBlock s.os (s.caches sub) env args = c at ho
    cases ho with
    | completed entry log hcomp hm hentry => exact .imported hcomp hm hentry
    | leaked log e hskip =>
      simp only [hold, await, Function.update_eq_self]
      exact .leaked hskip
    | waiting log hwaits =>
      simp only [hold, await, Function.update_eq_self]
      exact .waiting hwaits
    | cleaned log e hcomp hskip hwaits _ =>
      simp only [hold, await, Function.update_eq_self]
      exact .notImported hcomp hskip hwaits
  | interrupt w =>
    simp only [step] at hs
    split_ifs at hs with hw
    obtain ⟨rfl, rfl⟩ := Prod.mk.inj (Option.some.inj hs)
    exact .interrupted hw
  | release i =>
    simp only [step] at hs
    split_ifs at hs with hi
    obtain ⟨rfl, rfl⟩ := Prod.mk.inj (Option.some.inj hs)
    exact .released hi

-- inputs of concrete runs in which every call succeeds
def registering : RegisterEnv :=
  { socket := true, bind := true, listen := true, dup := true, epollCtl := true }

def describing : DescriptorEnv :=
  { canImport := true, register := registering, cudaIpcGetEventHandle := none }

def importing (fd : ℤ) (va : ℕ) : ImportEnv :=
  { shmOpen := some fd, mmap := true, socket := some (fd + 1), connect := true,
    recvmsg := .rights (fd + 2), cuMemImportFromShareableHandle := true,
    cuMemAddressReserve := some va, cuMemMap := true, cudaGetDevice := true,
    cuMemSetAccess := true }

def bufferAt (va : ℕ) : CudaBufferImpl := { size := 100, devicePtr := va, byteSize := 100 }

def firstBlock (uid : ℕ) : ImportArgs :=
  { socketPath := "cuda_vmm_7_0", pid := 7, blockId := 0, size := 4096, expectedUid := uid }

end Exchange

end RosidlBufferBackends.Cuda
