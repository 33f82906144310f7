import RosidlBufferBackends.Registry.EndpointRegistry
import RosidlBufferBackends.Lib.Runs

/-! The endpoint managers of one domain on one host. Every system call on the
registry segment and its semaphore is a step, and so is every access to the
registry between `sem_wait` and `sem_post`; all calls succeed, so that `sem_wait`
waits until the semaphore is free. -/

namespace RosidlBufferBackends.Registry

/-- The next step of a constructor, of a call of `register_endpoint` or
`refresh_from_remote`, or of a destructor. -/
inductive Pc
  | shmOpen
  | ftruncate
  | mmap
  | semOpen
  | attachWait
  | attachBody
  | attachPost
  | registerWait (gid : ℕ) (type : EntityType)
  | scan (gid : ℕ) (type : EntityType)
  | write (gid : ℕ) (type : EntityType) (slot : ℕ × Bool)
  | fullPost
  | registerPost (gid : ℕ) (type : EntityType)
  | registerCache (gid : ℕ) (type : EntityType)
  | refreshWait
  | read
  | refreshPost (updates : Cache)
  | refreshCache (updates : Cache)
  | detachWait
  | detachBody
  | detachPost (unlink : Bool)
  | semClose (unlink : Bool)
  | munmap (unlink : Bool)
  | close (unlink : Bool)
  | shmUnlink
  | semUnlink

structure Identity where
  pid : ℕ
  instanceId : ℕ
  deviceId : ℤ
  uid : ℕ
  deriving DecidableEq, Repr

structure HostEndpointManager where
  identity : Identity
  seg : ℕ
  sem : ℕ
  ipcCapable : Bool := false
  cache : Cache := fun _ => none

structure Thread where
  identity : Identity
  seg : ℕ := 0
  sem : ℕ := 0
  pc : Pc

/-- `managers` are those whose constructor has returned and whose destructor has
not been called, by process. -/
structure Host where
  registries : ℕ → EndpointRegistry := fun _ => {}
  nextSegment : ℕ := 0
  shmName : Option ℕ := none
  semValue : ℕ → ℕ := fun _ => 0
  nextSem : ℕ := 0
  semName : Option ℕ := none
  alive : List ℕ := []
  managers : ℕ → Option HostEndpointManager := fun _ => none
  threads : ℕ → Option Thread := fun _ => none
  nextThread : ℕ := 0

namespace Host

inductive Event
  | start (pid : ℕ)
  | exit (pid : ℕ)
  | construct (pid k : ℕ) (deviceId : ℤ) (uid : ℕ)
  | setIpcCapable (pid : ℕ) (capable : Bool)
  | registerEndpoint (pid gid : ℕ) (type : EntityType)
  | refreshFromRemote (pid : ℕ)
  | destroy (pid : ℕ)
  | advance (t : ℕ)
  deriving DecidableEq, Repr

inductive Output
  | quiet
  | registered (pid : ℕ) (e : EndpointEntry)
  | returned (t : ℕ) (result : Bool)
  | acquired (t pid : ℕ)
  | refreshed (t : ℕ)
  deriving DecidableEq, Repr

/-- Whether `kill` finds the process. -/
def isAlive (s : Host) (pid : ℕ) : Bool := decide (pid ∈ s.alive)

def put (s : Host) (t : ℕ) (th : Option Thread) : Host :=
  { s with threads := Function.update s.threads t th }

def goto (s : Host) (t : ℕ) (th : Thread) (pc : Pc) : Host := s.put t (some { th with pc := pc })

def spawn (s : Host) (th : Thread) : Host :=
  { s.put s.nextThread (some th) with nextThread := s.nextThread + 1 }

def modifyRegistry (s : Host) (seg : ℕ) (f : EndpointRegistry → EndpointRegistry) : Host :=
  { s with registries := Function.update s.registries seg (f (s.registries seg)) }

def modifyManager (s : Host) (pid : ℕ) (m : Option HostEndpointManager) : Host :=
  { s with managers := Function.update s.managers pid m }

def wait (s : Host) (sem : ℕ) : Host :=
  { s with semValue := Function.update s.semValue sem (s.semValue sem - 1) }

def post (s : Host) (sem : ℕ) : Host :=
  { s with semValue := Function.update s.semValue sem (s.semValue sem + 1) }

def shmCreate (s : Host) : Host :=
  { s with
    registries := Function.update s.registries s.nextSegment {}
    shmName := some s.nextSegment
    nextSegment := s.nextSegment + 1 }

def semCreate (s : Host) : Host :=
  { s with
    semValue := Function.update s.semValue s.nextSem 1
    semName := some s.nextSem
    nextSem := s.nextSem + 1 }

def entryOf (m : HostEndpointManager) (gid : ℕ) (type : EntityType) : EndpointEntry :=
  { instanceId := m.identity.instanceId, gid := gid, entityType := type,
    deviceId := m.identity.deviceId, uid := m.identity.uid, active := true,
    ipcCapable := m.ipcCapable }

def localInfo (m : HostEndpointManager) (type : EntityType) : CachedEndpointInfo :=
  { locality := .intraProcess, instanceId := m.identity.instanceId, entityType := type,
    deviceId := m.identity.deviceId, uid := m.identity.uid, ipcCapable := m.ipcCapable }

def acquire (s : Host) (t : ℕ) (th : Thread) (pc : Pc) (o : Output) : Option (Output × Host) :=
  if s.semValue th.sem = 0 then none else some (o, (s.wait th.sem).goto t th pc)

def advance (s : Host) (t : ℕ) (th : Thread) : Option (Output × Host) :=
  match th.pc with
  | .shmOpen =>
      match s.shmName with
      | some seg => some (.quiet, s.goto t { th with seg := seg } .ftruncate)
      | none => some (.quiet, s.shmCreate.goto t { th with seg := s.nextSegment } .ftruncate)
  | .ftruncate => some (.quiet, s.goto t th .mmap)
  | .mmap => some (.quiet, s.goto t th .semOpen)
  | .semOpen =>
      match s.semName with
      | some sem => some (.quiet, s.goto t { th with sem := sem } .attachWait)
      | none => some (.quiet, s.semCreate.goto t { th with sem := s.nextSem } .attachWait)
  | .attachWait => s.acquire t th .attachBody .quiet
  | .attachBody =>
      some (.quiet, (s.modifyRegistry th.seg (fun r => r.attach s.isAlive)).goto t th .attachPost)
  | .attachPost =>
      some (.quiet, ((s.post th.sem).put t none).modifyManager th.identity.pid
        (some { identity := th.identity, seg := th.seg, sem := th.sem }))
  | .registerWait gid type => s.acquire t th (.scan gid type) .quiet
  | .scan gid type =>
      match (s.registries th.seg).findSlot gid with
      | none => some (.quiet, s.goto t th .fullPost)
      | some slot => some (.quiet, s.goto t th (.write gid type slot))
  | .write gid type slot =>
      match s.managers th.identity.pid with
      | none => none
      | some m =>
          some (.registered th.identity.pid (entryOf m gid type),
            (s.modifyRegistry th.seg (fun r => r.writeSlot slot (entryOf m gid type))).goto t th
              (.registerPost gid type))
  | .fullPost => some (.returned t false, (s.post th.sem).put t none)
  | .registerPost gid type => some (.quiet, (s.post th.sem).goto t th (.registerCache gid type))
  | .registerCache gid type =>
      match s.managers th.identity.pid with
      | none => none
      | some m =>
          some (.returned t true, (s.put t none).modifyManager th.identity.pid
            (some { m with cache := Function.update m.cache gid (some (localInfo m type)) }))
  | .refreshWait => s.acquire t th .read (.acquired t th.identity.pid)
  | .read =>
      some (.quiet, s.goto t th
        (.refreshPost ((s.registries th.seg).updates th.identity.instanceId)))
  | .refreshPost updates => some (.quiet, (s.post th.sem).goto t th (.refreshCache updates))
  | .refreshCache updates =>
      match s.managers th.identity.pid with
      | none => none
      | some m =>
          some (.refreshed t, (s.put t none).modifyManager th.identity.pid
            (some { m with cache := m.cache.merge updates }))
  | .detachWait => s.acquire t th .detachBody .quiet
  | .detachBody =>
      let r := (s.registries th.seg).detach s.isAlive th.identity.instanceId
      some (.quiet, (s.modifyRegistry th.seg (fun _ => r)).goto t th
        (.detachPost (!r.hasActiveEntries)))
  | .detachPost unlink => some (.quiet, (s.post th.sem).goto t th (.semClose unlink))
  | .semClose unlink => some (.quiet, s.goto t th (.munmap unlink))
  | .munmap unlink => some (.quiet, s.goto t th (.close unlink))
  | .close unlink =>
      if unlink then some (.quiet, s.goto t th .shmUnlink) else some (.quiet, s.put t none)
  | .shmUnlink => some (.quiet, { s with shmName := none }.goto t th .semUnlink)
  | .semUnlink => some (.quiet, { s with semName := none }.put t none)

def anyThread (s : Host) (p : Thread → Bool) : Bool :=
  (List.range s.nextThread).any (fun t => (s.threads t).any p)

/-- A process has no thread in a constructor, a call or a destructor. -/
def idle (s : Host) (pid : ℕ) : Bool := !s.anyThread (fun th => th.identity.pid = pid)

/-- The call of a manager that has been constructed. -/
def call (s : Host) (pid : ℕ) (pc : Pc) : Option (Output × Host) :=
  match s.managers pid with
  | none => none
  | some m =>
      some (.quiet, s.spawn { identity := m.identity, seg := m.seg, sem := m.sem, pc := pc })

def step (s : Host) : Event → Option (Output × Host)
  | .start pid =>
      if 0 < pid ∧ pid < 2 ^ 31 ∧ pid ∉ s.alive then
        some (.quiet, { s with alive := pid :: s.alive })
      else none
  -- with or without the destructor
  | .exit pid =>
      if pid ∈ s.alive then
        some (.quiet, { s with
          alive := s.alive.filter (fun p => p ≠ pid)
          managers := Function.update s.managers pid none
          threads := fun t =>
            (s.threads t).bind (fun th => if th.identity.pid = pid then none else some th) })
      else none
  -- `get_instance` constructs one manager for the domain
  | .construct pid k deviceId uid =>
      if pid ∈ s.alive ∧ (s.managers pid).isNone ∧ s.idle pid then
        some (.quiet, s.spawn
          { identity := ⟨pid, makeInstanceId pid k, deviceId, uid⟩, pc := .shmOpen })
      else none
  | .setIpcCapable pid capable =>
      match s.managers pid with
      | none => none
      | some m => some (.quiet, s.modifyManager pid (some { m with ipcCapable := capable }))
  | .registerEndpoint pid gid type => s.call pid (.registerWait gid type)
  | .refreshFromRemote pid => s.call pid .refreshWait
  | .destroy pid =>
      if s.idle pid then
        (s.call pid .detachWait).map (fun x => (x.1, x.2.modifyManager pid none))
      else none
  | .advance t =>
      match s.threads t with
      | none => none
      | some th => s.advance t th

def queryEndpointLocality (s : Host) (pid gid : ℕ) : Option LocalityInfo :=
  (s.managers pid).map (fun m => m.cache.query gid)

end Host

end RosidlBufferBackends.Registry
