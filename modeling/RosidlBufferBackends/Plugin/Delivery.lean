import RosidlBufferBackends.Buffers.Calls
import RosidlBufferBackends.Plugin.Decisions

/-! The processes of a host, with the steps of the calls of their backends, their
buffers and streams, and the descriptors that one sends to the endpoints of another. -/

namespace RosidlBufferBackends.Plugin.Delivery

open Registry Buffers Streams

/-- What is on a stream from the point on waits for `target`, in the process `pid`. -/
structure RemoteWait where
  point : Point Stream
  pid : ℕ
  target : Point Stream
  deriving DecidableEq, Repr

/-- An event in `imported` was opened from the event of that number of that process. -/
structure Node where
  process : Process := {}
  ipcDecisionCache : ℕ → Option Bool := fun _ => none
  imported : ℕ → Option (ℕ × ℕ) := fun _ => none
  remoteWaits : List RemoteWait := []
  started : Bool := false
  constructed : Bool := false

/-- A descriptor, and the write event and the handle state of the buffer. -/
structure Described where
  descriptor : Cuda.CudaBufferDescriptor
  event : Option ℕ
  state : Option ℕ

structure Message extends Described where
  sender : ℕ
  gid : ℕ

/-- What an endpoint is classified for. -/
inductive Request
  | onDiscoveringEndpoint
  | createDescriptorWithEndpoint (b : ℕ) (args : Publication)

/-- The next step of a call. -/
inductive Pc
  | lookup (b : ℕ) (args : Publication)
  | refresh (r : Request)
  | refreshing (r : Request) (t : ℕ)
  | classified (r : Request) (peer : LocalityInfo)
  | publish (b : ℕ) (args : Publication)
  | finalize (b : ℕ) (args : Publication) (d : Cuda.CudaBufferDescriptor)
  | locality (args : Publication) (d : Described)
  | synchronize (args : Publication) (d : Described) (point : Option (Point Stream))
  | eventHandle (args : Publication) (d : Described)

structure Call where
  pid : ℕ
  gid : ℕ
  pc : Pc

inductive Event
  | host (e : Host.Event)
  | operate (pid : ℕ) (o : Buffers.Operation)
  | onDiscoveringEndpoint (pid gid : ℕ) (supportsCuda poolIpcCapable : Bool)
  | createDescriptorWithEndpoint (pid gid b : ℕ) (args : Publication)
  | proceed (c : ℕ)
  | fromDescriptorWithEndpoint (pid k : ℕ) (os : Cuda.Os) (cache : Cuda.ImportCache)
      (env : Cuda.ReceiveEnv)

/-- `storage` is the allocation that a read handle points to, or that a buffer was
made of. -/
inductive Output
  | quiet
  | host (o : Host.Output)
  | operated (o : Buffers.Output) (storage : Option ℕ)
  | discovered (result : Bool)
  | created (result : Except Cuda.CudaError (Option Cuda.CudaBufferDescriptor))
  | received (m : Message) (storage : Except Cuda.CudaError (Option ℕ))

structure Network where
  host : Host := {}
  nodes : ℕ → Node := fun _ => {}
  calls : ℕ → Option Call := fun _ => none
  nextCall : ℕ := 0
  messages : ℕ → Option Message := fun _ => none
  nextMessage : ℕ := 0

/-- The arguments of a call for a buffer with or without a write event. -/
def withEvent (args : Publication) (e : Bool) : Publication :=
  { args with impl := args.impl.map (fun impl => { impl with writeEvent := e }) }

def eventHandle (args : Publication) (event : Option ℕ) : Except Cuda.CudaError (List UInt8) :=
  Cuda.CudaBufferBackend.writeEventHandle { writeEvent := event.isSome }
    { canImport := true, register := args.register,
      cudaIpcGetEventHandle := args.cudaIpcGetEventHandle }

/-- The allocation that the operation makes a read handle for. -/
def storageOf (process : Process) : Buffers.Operation → Option ℕ
  | .getReadHandle b _ => (process.buffers b).bind (fun buf => buf.devicePtr)
  | _ => none

/-- The buffer for a received descriptor. -/
def receiving (process : Process) (impl : Cuda.CudaBufferImpl) : List Buffers.Operation :=
  if impl = Cuda.CudaBufferBackend.emptyImpl then
    [.constructDefault, .makeImpl process.nextBuffer 0]
  else
    [.construct impl.byteSize] ++
    (if impl.writeEvent then [.setWriteEvent process.nextBuffer true] else []) ++
    [.makeImpl process.nextBuffer impl.size]

namespace Network

def setNode (s : Network) (pid : ℕ) (n : Node) : Network :=
  { s with nodes := Function.update s.nodes pid n }

def setProcess (s : Network) (pid : ℕ) (process : Process) : Network :=
  s.setNode pid { s.nodes pid with process := process }

def setCall (s : Network) (c : ℕ) (x : Option Call) : Network :=
  { s with calls := Function.update s.calls c x }

def goto (s : Network) (c : ℕ) (call : Call) (pc : Pc) : Network :=
  s.setCall c (some { call with pc := pc })

def spawn (s : Network) (call : Call) : Network :=
  { s.setCall s.nextCall (some call) with nextCall := s.nextCall + 1 }

def send (s : Network) (m : Message) : Network :=
  { s with
    messages := Function.update s.messages s.nextMessage (some m)
    nextMessage := s.nextMessage + 1 }

def cacheDecision (s : Network) (pid gid : ℕ) (d : Bool) : Network :=
  s.setNode pid { s.nodes pid with
    ipcDecisionCache := Function.update (s.nodes pid).ipcDecisionCache gid (some d) }

/-- Where the event was recorded last, by this process or by the one that it comes
from. -/
def recordedAt (s : Network) (pid ev : ℕ) : Option (ℕ × Point Stream) :=
  match (s.nodes pid).process.recorded ev with
  | some p => some (pid, p)
  | none =>
      match (s.nodes pid).imported ev with
      | none => none
      | some (sender, ev') => ((s.nodes sender).process.recorded ev').map (fun p => (sender, p))

def passed (s : Network) (pid : ℕ) (p : Point Stream) : Bool := (s.nodes pid).process.gpu.passed p

def complete (s : Network) (pid ev : ℕ) : Bool :=
  (s.recordedAt pid ev).all (fun x => s.passed x.1 x.2)

/-- What the first unfinished operation of the stream waits for is done. -/
def mayFinish (s : Network) (pid : ℕ) (st : Stream) : Bool :=
  (s.nodes pid).remoteWaits.all (fun w =>
    !decide (w.point.stream = st ∧ w.point.position ≤ (s.nodes pid).process.gpu.finished st) ||
      s.passed w.pid w.target)

def mayPerform (s : Network) (pid : ℕ) : Buffers.Operation → Bool
  | .finish st => s.mayFinish pid st
  | .recycle =>
      match (s.nodes pid).process.queue with
      | [] => true
      | item :: _ => item.events.all (s.complete pid)
  | _ => true

/-- The wait of a new read handle for the event of another process. -/
def remoteWait (s : Network) (pid b : ℕ) (st : Stream) : Option RemoteWait :=
  match (s.nodes pid).process.buffers b with
  | none => none
  | some buf =>
      match buf.writeEvent.bind (s.recordedAt pid) with
      | none => none
      | some (sender, p) =>
          if sender ≠ pid ∧ st ≠ none then
            some { point := (s.nodes pid).process.gpu.here st, pid := sender, target := p }
          else none

def addWait (s : Network) (pid : ℕ) (w : RemoteWait) : Network :=
  s.setNode pid { s.nodes pid with remoteWaits := w :: (s.nodes pid).remoteWaits }

def waiting (s : Network) (pid : ℕ) : Buffers.Operation → Network
  | .getReadHandle b st =>
      match s.remoteWait pid b st with
      | none => s
      | some w => s.addWait pid w
  | _ => s

def perform (s : Network) (pid : ℕ) (o : Buffers.Operation) : Option (Output × Network) :=
  if s.mayPerform pid o then
    match (s.nodes pid).process.act o with
    | none => none
    | some (out, process) =>
        some (.operated out (storageOf (s.nodes pid).process o),
          (s.setProcess pid process).waiting pid o)
  else none

def decided (s : Network) (call : Call) (peer : LocalityInfo) (m : HostEndpointManager) : Network :=
  if peer.found then s.cacheDecision call.pid call.gid (canImportDescriptor peer m) else s

def advance (s : Network) (c : ℕ) (call : Call) : Option (Output × Network) :=
  match call.pc with
  | .lookup b args =>
      match (s.nodes call.pid).ipcDecisionCache call.gid with
      | some false => some (.created (.ok none), s.setCall c none)
      | some true => some (.quiet, s.goto c call (.publish b args))
      | none => some (.quiet, s.goto c call (.refresh (.createDescriptorWithEndpoint b args)))
  | .refresh r =>
      match s.host.step (.refreshFromRemote call.pid) with
      | none => none
      | some (_, host) =>
          some (.quiet, { s with host := host }.goto c call (.refreshing r s.host.nextThread))
  | .refreshing r t =>
      if (s.host.threads t).isSome then none
      else
        match s.host.queryEndpointLocality call.pid call.gid with
        | none => none
        | some peer => some (.quiet, s.goto c call (.classified r peer))
  | .classified r peer =>
      match s.host.managers call.pid with
      | none => none
      | some m =>
          match r with
          | .onDiscoveringEndpoint =>
              some (.discovered (canImportDescriptor peer m),
                (s.decided call peer m).setCall c none)
          | .createDescriptorWithEndpoint b args =>
              if canImportDescriptor peer m then
                some (.quiet, (s.decided call peer m).goto c call (.publish b args))
              else some (.created (.ok none), (s.decided call peer m).setCall c none)
  | .publish b args =>
      match CudaBufferBackend.publish (withEvent args false) with
      | .error e => some (.created (.error e), s.setCall c none)
      | .ok none => some (.created (.ok none), s.setCall c none)
      | .ok (some d) => some (.quiet, s.goto c call (.finalize b args d))
  | .finalize b args d =>
      match (s.nodes call.pid).process.buffers b with
      | none => none
      | some buf =>
          some (.quiet,
            (s.setProcess call.pid ((s.nodes call.pid).process.finalizeWriteHandle buf)).goto c call
              (.locality args ⟨d, buf.writeEvent, buf.handleState⟩))
  | .locality args d =>
      match s.host.queryEndpointLocality call.pid call.gid with
      | none => none
      | some peer =>
          if peer.found ∧ peer.locality = .intraProcess ∧ d.event.isSome then
            some (.quiet, s.goto c call (.synchronize args d
              (d.event.bind (s.nodes call.pid).process.recorded)))
          else some (.quiet, s.goto c call (.eventHandle args d))
  | .synchronize args d point =>
      if point.all (s.passed call.pid) then some (.quiet, s.goto c call (.eventHandle args d))
      else none
  | .eventHandle args d =>
      match eventHandle args d.event with
      | .error e => some (.created (.error e), s.setCall c none)
      | .ok handle =>
          let descriptor := { d.descriptor with ipcEventHandle := handle }
          some (.created (.ok (some descriptor)),
            (s.send { d with
              descriptor := descriptor
              sender := call.pid
              gid := call.gid }).setCall c none)

def receive (s : Network) (pid : ℕ) (m : Message) (impl : Cuda.CudaBufferImpl) :
    Option (Output × Network) :=
  let process := (s.nodes pid).process
  match Runs.exec Process.act process (receiving process impl) with
  | none => none
  | some (_, process') =>
      some (.received m (.ok
          (if impl = Cuda.CudaBufferBackend.emptyImpl then none else some process.nextAllocation)),
        s.setNode pid { s.nodes pid with
          process := process'
          imported :=
            if impl.writeEvent then
              Function.update (s.nodes pid).imported process.nextEvent
                (m.event.map (fun ev => (m.sender, ev)))
            else (s.nodes pid).imported })

/-- A process has one manager, and a gid is registered by the manager it belongs to. -/
def admits (home : ℕ → ℕ) (s : Network) : Host.Event → Bool
  | .start pid => !(s.nodes pid).started
  | .construct pid _ _ _ => !(s.nodes pid).constructed
  | .registerEndpoint pid gid _ =>
      (s.host.managers pid).all (fun m => decide (home gid = m.identity.instanceId))
  | _ => true

def noted (s : Network) : Host.Event → Network
  | .start pid => s.setNode pid { s.nodes pid with started := true }
  | .construct pid _ _ _ => s.setNode pid { s.nodes pid with constructed := true }
  | _ => s

def attached (s : Network) (pid : ℕ) : Bool := s.host.isAlive pid && (s.host.managers pid).isSome

/-- A descriptor is received by the process whose manager its gid belongs to, when the call
returns. -/
def step (home : ℕ → ℕ) (s : Network) : Event → Option (Output × Network)
  | .host e =>
      if s.admits home e then
        match s.host.step e with
        | none => none
        | some (o, host) => some (.host o, { s.noted e with host := host })
      else none
  | .operate pid o => if s.host.isAlive pid then s.perform pid o else none
  | .onDiscoveringEndpoint pid gid supportsCuda poolIpcCapable =>
      if s.attached pid then
        if !supportsCuda || !poolIpcCapable then some (.discovered false, s)
        else some (.quiet, s.spawn ⟨pid, gid, .refresh .onDiscoveringEndpoint⟩)
      else none
  | .createDescriptorWithEndpoint pid gid b args =>
      if s.attached pid then some (.quiet, s.spawn ⟨pid, gid, .lookup b args⟩) else none
  | .proceed c =>
      match s.calls c with
      | none => none
      | some call => if s.host.isAlive call.pid then s.advance c call else none
  | .fromDescriptorWithEndpoint pid k os cache env =>
      match s.messages k with
      | none => none
      | some m =>
          if (s.host.managers pid).any (fun x => decide (x.identity.instanceId = home m.gid)) then
            match (Cuda.CudaBufferBackend.fromDescriptorWithEndpoint os cache env
              m.descriptor).result with
            | .error e => some (.received m (.error e), s)
            | .waits _ => none
            | .ok impl => s.receive pid m impl
          else none

end Network

end RosidlBufferBackends.Plugin.Delivery
