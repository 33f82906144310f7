import RosidlBufferBackends.Lib.Holdings
import RosidlBufferBackends.Qc.FdBroker

/-! A process that shares dma-bufs: its buffers, its broker with the handlers of its
connections, and its imports. Whatever a step takes from another process, or from the
operating system, is part of the event. -/

namespace RosidlBufferBackends.Qc.Sharing

open Holdings

/-- What keeps a dma-buf alive. -/
inductive Resource
  | fd (n : ℕ)
  | mapping (ptr : ℕ)
  | allocation (ptr : ℕ)
  deriving DecidableEq, Repr

/-- The next step of `handle_connection`. -/
inductive Handler
  | recv
  | lookup (uid : ℕ)
  | send (tmpFd : ℕ)
  | close (tmpFd : ℕ)
  deriving DecidableEq, Repr

/-- The next step of an import that has connected. -/
inductive Importer
  | send
  | recv
  | map (fd : ℕ)
  deriving DecidableEq, Repr

/-- A dma-buf is a number. `worker` says that the thread of `worker_loop` exists, `rpcmemFd`
is the descriptor that belongs to an allocation, `mappedSize` the size of a mapping, and
`backing` the dma-buf of which the buffer with a uid was made, which no step reads. -/
structure Task where
  process : Process
  constructed : Bool := false
  worker : Bool := false
  table : Table Resource ℕ := {}
  rpcmemFd : ℕ → Option ℕ := fun _ => none
  mappedSize : ℕ → ℕ := fun _ => 0
  backing : ℕ → Option ℕ := fun _ => none
  handlers : ℕ → Option Handler := fun _ => none
  activeConnections : ℕ := 0
  importers : ℕ → Option Importer := fun _ => none

inductive TaskEvent
  | constructBroker (socket listening : Bool)
  | allocate (k byteSize ptr : ℕ) (fd : ℤ) (dmabuf : ℕ)
  | adopt (k ptr size : ℕ) (fd : ℤ) (source : Resource)
  | moveConstruct (k other : ℕ)
  | moveAssign (k other : ℕ)
  | destroy (k : ℕ)
  | createDescriptorWithEndpoint (impl : Option QcBufferImpl) (dup : Option ℕ)
  | accept (c : ℕ)
  | recvRequest (c : ℕ) (uid : Option ℕ)
  | lookup (c : ℕ) (dup : Option ℕ)
  | sendmsg (c : ℕ) (sent : Bool)
  | finish (c : ℕ)
  | stop
  | join
  | teardown
  | importFailed (m : ℕ)
  | connect (i m : ℕ)
  | sendUid (i : ℕ) (sent : Bool)
  | recvReply (i : ℕ) (received : Option (ℕ × ℕ))
  | map (i k ptr size : ℕ)
  | mapFailed (i : ℕ)
  deriving DecidableEq, Repr

def brokerPath (pid : ℕ) : String := "/tmp/qc_broker_" ++ pid.repr ++ ".sock"

namespace Task

/-- The address is that of no allocation or mapping. -/
def unused (t : Task) (ptr : ℕ) : Bool :=
  (t.table.get (.mapping ptr)).isNone && (t.table.get (.allocation ptr)).isNone

def closed (t : Task) (fd : ℕ) : Bool := (t.table.get (.fd fd)).isNone

def setTable (t : Task) (table : Table Resource ℕ) : Task := { t with table := table }

/-- `rpcmem_alloc` -/
def rpcmemAlloc (t : Task) (ptr dmabuf : ℕ) : Task :=
  { t with
    table := t.table.acquire dmabuf (.allocation ptr)
    rpcmemFd := Function.update t.rpcmemFd ptr none }

/-- `rpcmem_to_fd` -/
def rpcmemToFd (t : Task) (ptr fd dmabuf : ℕ) : Task :=
  { t with
    table := t.table.acquire dmabuf (.fd fd)
    rpcmemFd := Function.update t.rpcmemFd ptr (some fd) }

def mmap (t : Task) (ptr size dmabuf : ℕ) : Task :=
  { t with
    table := t.table.acquire dmabuf (.mapping ptr)
    mappedSize := Function.update t.mappedSize ptr size }

/-- A descriptor of the dma-buf, from `dup`, from a peer or from elsewhere. -/
def receive (t : Task) (fd dmabuf : ℕ) : Task := t.setTable (t.table.acquire dmabuf (.fd fd))

def munmap (t : Task) (ptr size : ℕ) : Task :=
  if t.mappedSize ptr = size then t.setTable (t.table.release (.mapping ptr))
  else t.setTable { t.table with faults := t.table.faults + 1 }

def close (t : Task) (fd : ℕ) : Task := t.setTable (t.table.release (.fd fd))

/-- An allocation goes with its own descriptor. -/
def rpcmemFree (t : Task) (ptr : ℕ) : Task :=
  let t := t.setTable (t.table.release (.allocation ptr))
  match t.rpcmemFd ptr with
  | none => t
  | some fd => t.close fd

def reset (t : Task) (qc : QcBuffer) : Task :=
  if qc.ptr = 0 then t
  else
    match qc.origin with
    | .mmap =>
      let t := t.munmap qc.ptr qc.size
      if 0 ≤ qc.fd then t.close qc.fd.toNat else t
    | .rpcmem => t.rpcmemFree qc.ptr

/-- A buffer with the next uid, made of the dma-buf. -/
def putBuffer (t : Task) (k ptr size : ℕ) (fd : ℤ) (origin : Origin) (dmabuf : ℕ) : Task :=
  { t with
    process := t.process.putNamed k ptr size fd origin
    backing := Function.update t.backing t.process.counter (some dmabuf) }

/-- `ptr` and `fd` are what `rpcmem_alloc` and `rpcmem_to_fd` return. -/
def allocate (t : Task) (k byteSize ptr : ℕ) (fd : ℤ) (dmabuf : ℕ) : Option Task :=
  if byteSize = 0 ∨ t.process.available = false ∨ ptr = 0 then
    some { t with process := (t.process.allocate k byteSize ptr fd).2 }
  else if t.unused ptr = false then none
  else if fd < 0 then some ((t.rpcmemAlloc ptr dmabuf).rpcmemFree ptr)
  else if t.closed fd.toNat = false then none
  else
    some (((t.rpcmemAlloc ptr dmabuf).rpcmemToFd ptr fd.toNat dmabuf).putBuffer k ptr byteSize fd
      .rpcmem dmabuf)

/-- The process has mapped a dma-buf that it has access to, with a descriptor or without
one. -/
def adopt (t : Task) (k ptr size : ℕ) (fd : ℤ) (source : Resource) : Option Task :=
  match t.table.get source with
  | none => none
  | some dmabuf =>
    if ptr = 0 ∨ t.unused ptr = false then none
    else if fd < 0 then
      some ((t.mmap ptr size dmabuf).putBuffer k ptr size fd .mmap dmabuf)
    else if t.closed fd.toNat = false then none
    else
      some (((t.mmap ptr size dmabuf).receive fd.toNat dmabuf).putBuffer k ptr size fd .mmap
        dmabuf)

/-- `register_buffer` duplicates the descriptor, and closes those that it evicts. -/
def register (t : Task) (process : Process) (d : QcBufferDescriptor) (dup : Option ℕ) :
    Option Task :=
  let evicted := process.broker.closed.drop t.process.broker.closed.length
  if t.process.broker.Registers d.uid d.dmabufFd dup then
    match t.table.get (.fd d.dmabufFd.toNat), dup with
    | some dmabuf, some dupFd =>
      if t.closed dupFd = false then none
      else
        some { t with
          process := process
          table := (t.receive dupFd dmabuf).table.releaseAll (evicted.map .fd) }
    | _, _ => none
  else some { t with process := process }

def createDescriptorWithEndpoint (t : Task) (impl : Option QcBufferImpl) (dup : Option ℕ) :
    Option Task :=
  if t.constructed = false then none
  else
    match t.process.createDescriptorWithEndpoint impl dup with
    | (none, process) => some { t with process := process }
    | (some d, process) => t.register process d dup

def setHandler (t : Task) (c : ℕ) (h : Option Handler) : Task :=
  { t with handlers := Function.update t.handlers c h }

/-- The handler's thread ends. -/
def endHandler (t : Task) (c : ℕ) : Task :=
  { t.setHandler c none with activeConnections := t.activeConnections - 1 }

def setImporter (t : Task) (i : ℕ) (x : Option Importer) : Task :=
  { t with importers := Function.update t.importers i x }

/-- The handler asks the broker for its entry, and duplicates the descriptor. -/
def lookup (t : Task) (c uid : ℕ) (dup : Option ℕ) : Option Task :=
  match t.process.broker.table uid, t.process.broker.handleConnection uid dup with
  | some entry, .ok tmpFd =>
    match t.table.get (.fd entry.dupFd) with
    | none => none
    | some dmabuf =>
      if t.closed tmpFd = false then none
      else some ((t.receive tmpFd dmabuf).setHandler c (some (.send tmpFd)))
  | _, _ => some (t.endHandler c)

/-- The keys of the table are those in the queue. -/
def teardown (t : Task) : Task :=
  let entries := t.process.broker.order.filterMap t.process.broker.table
  { t with
    table := t.table.releaseAll (entries.map fun entry => .fd entry.dupFd)
    process := { t.process with
      broker := { t.process.broker with
        table := fun _ => none
        order := []
        closed := t.process.broker.closed ++ entries.map Entry.dupFd } } }

/-- The buffer of an import, made of the dma-buf that the received descriptor refers to. -/
def map (t : Task) (i k ptr size fd : ℕ) : Option Task :=
  match t.table.get (.fd fd) with
  | none => none
  | some dmabuf =>
    if size = 0 ∨ ptr = 0 ∨ t.unused ptr = false then none
    else
      some (((t.mmap ptr size dmabuf).putBuffer k ptr size fd .mmap dmabuf).setImporter i none)

def step (t : Task) : TaskEvent → Option Task
  | .constructBroker socket listening =>
    if t.constructed then none
    else if socket = false then some { t with constructed := true }
    else
      some { t with
        constructed := true
        worker := listening
        process := { t.process with
          broker := { t.process.broker with
            running := listening
            socketPath := brokerPath t.process.pid } } }
  | .allocate k byteSize ptr fd dmabuf =>
    if (t.process.buffers k).isSome then none else t.allocate k byteSize ptr fd dmabuf
  | .adopt k ptr size fd source =>
    if (t.process.buffers k).isSome then none else t.adopt k ptr size fd source
  | .moveConstruct k other =>
    (t.process.step (.moveConstruct k other)).map fun x => { t with process := x.2 }
  | .moveAssign k other =>
    match t.process.step (.moveAssign k other), t.process.buffers k with
    | some (_, process), some qc =>
      some { (if k = other then t else t.reset qc) with process := process }
    | _, _ => none
  | .destroy k =>
    match t.process.step (.destroy k), t.process.buffers k with
    | some (_, process), some qc => some { t.reset qc with process := process }
    | _, _ => none
  | .createDescriptorWithEndpoint impl dup => t.createDescriptorWithEndpoint impl dup
  | .accept c =>
    if t.worker = false ∨ (t.handlers c).isSome then none
    else
      some { t.setHandler c (some .recv) with activeConnections := t.activeConnections + 1 }
  | .recvRequest c uid =>
    match t.handlers c, uid with
    | some .recv, some uid => some (t.setHandler c (some (.lookup uid)))
    | some .recv, none => some (t.endHandler c)
    | _, _ => none
  | .lookup c dup =>
    match t.handlers c with
    | some (.lookup uid) => t.lookup c uid dup
    | _ => none
  | .sendmsg c _ =>
    match t.handlers c with
    | some (.send tmpFd) => some (t.setHandler c (some (.close tmpFd)))
    | _ => none
  | .finish c =>
    match t.handlers c with
    | some (.close tmpFd) => some ((t.close tmpFd).endHandler c)
    | _ => none
  | .stop =>
    if t.process.broker.running = false then none
    else
      some { t with
        process := { t.process with broker := { t.process.broker with running := false } } }
  | .join =>
    if t.process.broker.running then none else some { t with worker := false }
  | .teardown =>
    if t.constructed = false ∨ t.process.broker.running ∨ t.worker ∨ t.activeConnections ≠ 0 then
      none
    else some t.teardown
  | .importFailed _ => some t
  | .connect i _ => if (t.importers i).isSome then none else some (t.setImporter i (some .send))
  | .sendUid i sent =>
    match t.importers i with
    | some .send => some (t.setImporter i (if sent then some .recv else none))
    | _ => none
  | .recvReply i received =>
    match t.importers i, received with
    | some .recv, none => some (t.setImporter i none)
    | some .recv, some (fd, dmabuf) =>
      if t.closed fd = false then none
      else
        some ((t.receive fd dmabuf).setImporter i (some (.map fd)))
    | _, _ => none
  | .map i k ptr size =>
    match t.importers i with
    | some (.map fd) =>
      if (t.process.buffers k).isSome then none else t.map i k ptr size fd
    | _ => none
  | .mapFailed i =>
    match t.importers i with
    | some (.map fd) => some ((t.close fd).setImporter i none)
    | _ => none

end Task

end RosidlBufferBackends.Qc.Sharing
