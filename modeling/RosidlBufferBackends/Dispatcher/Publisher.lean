import Mathlib.Data.List.AList
import RosidlBufferBackends.Cuda.IpcManager
import RosidlBufferBackends.Lib.Runs

/-! A publisher process: its file descriptors, the dispatchers with their threads,
the managers that register blocks with them, and the clients of the sockets. Every
system call is a step; what it returns is part of the event. -/

namespace RosidlBufferBackends.Dispatcher

/-- What a number of the table refers to. The allocation of a block is exported once
and duplicated for the dispatcher. -/
inductive File
  | exported (m b : ℕ)
  | duplicate (m b : ℕ)
  | listener (m b : ℕ)
  | connection (c : ℕ)
  | other (x : ℕ)
  deriving DecidableEq, Repr

structure Connection where
  manager : ℕ
  block : ℕ
  closed : Bool := false
  received : Option File := none
  deriving DecidableEq, Repr

abbrev UnorderedMap (α : Type) := AList (fun _ : ℕ => α)

structure RegisteredBlockInfo where
  serverSocket : ℕ
  socketPath : String
  deriving DecidableEq, Repr

/-- What a manager's thread does next in `register_block` or in the destructor; `b`
is the block, `e` its exported descriptor, `s` the server socket, `d` the
duplicate. -/
inductive Call
  | socket (b e : ℕ)
  | bind (b e s : ℕ)
  | listen (b e s : ℕ)
  | abandon (b s : ℕ)
  | dup (b e s : ℕ)
  | insert (b s d : ℕ)
  | epollAdd (b s d : ℕ)
  | erase (b s d : ℕ)
  | closeDup (b s d : ℕ)
  | record (b s : ℕ)
  | removing
  | epollDel (b s : ℕ) (d : Option ℕ)
  | closeServer (b s : ℕ) (d : Option ℕ)
  | closeServed (b d : ℕ)
  | stop
  | join
  | clear
  deriving DecidableEq, Repr

/-- The thread that is in a call of the manager, if any, holds its mutex. -/
structure CudaVmmIPCManager where
  dispatcher : ℕ
  registeredBlocks : UnorderedMap RegisteredBlockInfo := ∅
  call : Option Call := none

inductive Loop
  | wait
  | handle (events : List ℕ)
  | accept (serverSocket fdToServe : ℕ) (events : List ℕ)
  | send (clientSocket fdToServe : ℕ) (events : List ℕ)
  | close (clientSocket : ℕ) (events : List ℕ)
  | exited
  deriving DecidableEq, Repr

/-- `epoll` says whether the constructor got its descriptors; `owners` are the
managers that share it, `watched` the sockets of the epoll set. -/
structure FDDispatcher where
  epoll : Bool
  running : Bool
  owners : List ℕ
  socketToFd : UnorderedMap ℕ := ∅
  watched : ℕ → Bool := fun _ => false
  loop : Loop

/-- `bound` are the listeners by address, `pending` their queues, and `cached` is the
dispatcher of the weak pointer. -/
structure Publisher where
  pid : ℕ
  fds : ℕ → Option File := fun _ => none
  bound : String → Option (ℕ × ℕ) := fun _ => none
  pending : ℕ × ℕ → Option (List ℕ) := fun _ => none
  connections : ℕ → Option Connection := fun _ => none
  nextConnection : ℕ := 0
  managers : ℕ → Option CudaVmmIPCManager := fun _ => none
  nextManager : ℕ := 0
  dispatchers : ℕ → Option FDDispatcher := fun _ => none
  nextDispatcher : ℕ := 0
  cached : Option ℕ := none
  killed : Bool := false

/-- The result of a call is `none` for -1. -/
inductive Event
  | construct (ok : Bool)
  | registerBlock (m b e : ℕ)
  | call (m : ℕ) (result : Option ℕ)
  | destroy (m : ℕ)
  | removeSocket (m b : ℕ)
  | epollWait (k : ℕ) (ready : List ℕ)
  | dispatch (k : ℕ) (result : Option ℕ)
  | connect (path : String)
  | disconnect (c : ℕ)
  | «export» (m b n : ℕ)
  | closeExported (n : ℕ)
  | «open» (n x : ℕ)
  | close (n : ℕ)
  deriving DecidableEq, Repr

inductive Output
  | quiet
  | constructed (m : ℕ)
  | returned (m b : ℕ) (path : String)
  | threw (m b : ℕ) (what : String)
  | sent (c : ℕ) (f : File)
  | killed
  deriving DecidableEq, Repr

def maxEvents : ℕ := 16

namespace Publisher

def openFd (s : Publisher) (n : ℕ) (f : File) : Publisher :=
  { s with fds := Function.update s.fds n (some f) }

/-- A listener gives up its address and its queue. -/
def closeFd (s : Publisher) (n : ℕ) : Publisher :=
  match s.fds n with
  | some (.listener m b) =>
      { s with
        fds := Function.update s.fds n none
        bound := fun path => if s.bound path = some (m, b) then none else s.bound path
        pending := Function.update s.pending (m, b) none }
  | _ => { s with fds := Function.update s.fds n none }

def setManager (s : Publisher) (m : ℕ) (x : Option CudaVmmIPCManager) : Publisher :=
  { s with managers := Function.update s.managers m x }

def goto (s : Publisher) (m : ℕ) (mg : CudaVmmIPCManager) (c : Call) : Publisher :=
  s.setManager m (some { mg with call := some c })

def setDispatcher (s : Publisher) (k : ℕ) (D : FDDispatcher) : Publisher :=
  { s with dispatchers := Function.update s.dispatchers k (some D) }

def setLoop (s : Publisher) (k : ℕ) (D : FDDispatcher) (l : Loop) : Publisher :=
  s.setDispatcher k { D with loop := l }

def socketPath (s : Publisher) (b : ℕ) : String := Cuda.socketName s.pid b

/-- A block of the manager was registered, or could not be. -/
def finish (s : Publisher) (m : ℕ) (mg : CudaVmmIPCManager) : Publisher :=
  s.setManager m (some { mg with call := none })

def construct (s : Publisher) (ok : Bool) : Publisher :=
  match s.cached.bind (fun k => (s.dispatchers k).map (fun D => (k, D))) with
  | some (k, D) =>
      { (s.setDispatcher k { D with owners := s.nextManager :: D.owners }).setManager s.nextManager
          (some { dispatcher := k }) with
        nextManager := s.nextManager + 1 }
  | none =>
      { (s.setDispatcher s.nextDispatcher
          { epoll := ok, running := ok, owners := [s.nextManager],
            loop := if ok then .wait else .exited }).setManager s.nextManager
          (some { dispatcher := s.nextDispatcher }) with
        nextManager := s.nextManager + 1
        nextDispatcher := s.nextDispatcher + 1
        cached := some s.nextDispatcher }

/-- The manager gives up its share of the dispatcher; the last one stops it. -/
def release (s : Publisher) (m : ℕ) (mg : CudaVmmIPCManager) (D : FDDispatcher) : Publisher :=
  let u := s.setDispatcher mg.dispatcher { D with owners := D.owners.erase m }
  if D.owners.erase m = [] then
    { u.goto m mg .stop with
      cached := if s.cached = some mg.dispatcher then none else s.cached }
  else u.setManager m none

def call (s : Publisher) (m : ℕ) (mg : CudaVmmIPCManager) (D : FDDispatcher)
    (result : Option ℕ) : Call → Option (Output × Publisher)
  | .socket b e =>
      match result with
      | none => some (.threw m b "Failed to create FD server socket for block", s.finish m mg)
      | some n =>
          if (s.fds n).isSome then none
          else some (.quiet, (s.openFd n (.listener m b)).goto m mg (.bind b e n))
  | .bind b e n =>
      match result with
      | none => some (.quiet, s.goto m mg (.abandon b n))
      | some _ =>
          if (s.bound (s.socketPath b)).isSome then none
          else
            some (.quiet, { s with
              bound := Function.update s.bound (s.socketPath b) (some (m, b)) }.goto m mg
                (.listen b e n))
  | .listen b e n =>
      match result with
      | none => some (.quiet, s.goto m mg (.abandon b n))
      | some _ =>
          some (.quiet, { s with pending := Function.update s.pending (m, b) (some []) }.goto m mg
            (.dup b e n))
  | .abandon b n =>
      some (.threw m b "Failed to create FD server socket for block",
        (s.closeFd n).finish m mg)
  | .dup b e n =>
      match result with
      | none => some (.quiet, s.goto m mg (.record b n))
      | some d =>
          match s.fds e with
          | some (.exported m' b') =>
              if (s.fds d).isSome then none
              else some (.quiet, (s.openFd d (.duplicate m' b')).goto m mg (.insert b n d))
          | _ => none
  | .insert b n d =>
      some (.quiet, (s.setDispatcher mg.dispatcher
        { D with socketToFd := D.socketToFd.insert n d }).goto m mg (.epollAdd b n d))
  | .epollAdd b n d =>
      match result with
      | none => some (.quiet, s.goto m mg (.erase b n d))
      | some _ =>
          if D.epoll then
            some (.quiet, (s.setDispatcher mg.dispatcher
              { D with watched := Function.update D.watched n true }).goto m mg (.record b n))
          else none
  | .erase b n d =>
      some (.quiet, (s.setDispatcher mg.dispatcher
        { D with socketToFd := D.socketToFd.erase n }).goto m mg (.closeDup b n d))
  | .closeDup b n d => some (.quiet, (s.closeFd d).goto m mg (.record b n))
  | .record b n =>
      some (.returned m b (s.socketPath b), s.setManager m (some { mg with
        registeredBlocks := mg.registeredBlocks.insert b ⟨n, s.socketPath b⟩
        call := none }))
  | .removing =>
      if mg.registeredBlocks.entries.isEmpty then some (.quiet, s.release m mg D) else none
  | .epollDel b n d =>
      some (.quiet, (s.setDispatcher mg.dispatcher
        { D with watched := Function.update D.watched n false }).goto m mg (.closeServer b n d))
  | .closeServer b n d =>
      match d with
      | none => some (.quiet, (s.closeFd n).goto m mg .removing)
      | some d => some (.quiet, (s.closeFd n).goto m mg (.closeServed b d))
  | .closeServed _ d => some (.quiet, (s.closeFd d).goto m mg .removing)
  | .stop =>
      if D.running then
        some (.quiet, (s.setDispatcher mg.dispatcher { D with running := false }).goto m mg .join)
      else some (.quiet, s.setManager m none)
  | .join => if D.loop = .exited then some (.quiet, s.goto m mg .clear) else none
  | .clear =>
      some (.quiet, (D.socketToFd.keys.foldl closeFd
        (s.setDispatcher mg.dispatcher { D with socketToFd := ∅, epoll := false })).setManager m
          none)

/-- Whether a socket of the epoll set can be reported. -/
def readable (s : Publisher) (D : FDDispatcher) (n : ℕ) : Bool :=
  D.watched n &&
    match s.fds n with
    | some (.listener m b) => (s.pending (m, b)).any (fun q => !q.isEmpty)
    | _ => false

def accept (s : Publisher) (k : ℕ) (D : FDDispatcher) (n d : ℕ) (events : List ℕ) (client : ℕ) :
    Option (Output × Publisher) :=
  match s.fds n with
  | some (.listener m b) =>
      match s.pending (m, b) with
      | some (c :: queue) =>
          if (s.fds client).isSome then none
          else
            some (.quiet, ({ s with
              pending := Function.update s.pending (m, b) (some queue) }.openFd client
                (.connection c)).setLoop k D (.send client d events))
      | _ => none
  | _ => none

/-- `sendmsg` looks the number up before it looks at the peer. -/
def sendmsg (s : Publisher) (client d : ℕ) (result : Option ℕ) : Output × Publisher :=
  match s.fds d, s.fds client with
  | some f, some (.connection c) =>
      match s.connections c with
      | none => (.quiet, s)
      | some conn =>
          if conn.closed then (.killed, { s with killed := true })
          else
            match result with
            | none => (.quiet, s)
            | some _ =>
                (.sent c f, { s with
                  connections := Function.update s.connections c
                    (some { conn with received := some f }) })
  | _, _ => (.quiet, s)

def dispatch (s : Publisher) (k : ℕ) (D : FDDispatcher) (result : Option ℕ) :
    Loop → Option (Output × Publisher)
  | .wait => none
  | .handle [] => some (.quiet, s.setLoop k D .wait)
  | .handle (n :: events) =>
      match D.socketToFd.lookup n with
      | none => some (.quiet, s.setLoop k D (.handle events))
      | some d => some (.quiet, s.setLoop k D (.accept n d events))
  | .accept n d events =>
      match result with
      | none => some (.quiet, s.setLoop k D (.handle events))
      | some client => s.accept k D n d events client
  | .send client d events =>
      let (o, u) := s.sendmsg client d result
      some (o, u.setLoop k D (.close client events))
  | .close client events => some (.quiet, (s.closeFd client).setLoop k D (.handle events))
  | .exited => none

def step (s : Publisher) (e : Event) : Option (Output × Publisher) :=
  if s.killed then none
  else
    match e with
    | .construct ok => some (.constructed s.nextManager, s.construct ok)
    | .registerBlock m b e =>
        match s.managers m with
        | none => none
        | some mg =>
            if mg.call.isSome then none
            else
              match mg.registeredBlocks.lookup b with
              | some info => some (.returned m b info.socketPath, s)
              | none =>
                  if s.fds e = some (.exported m b) then some (.quiet, s.goto m mg (.socket b e))
                  else none
    | .call m result =>
        match s.managers m with
        | none => none
        | some mg =>
            match mg.call, s.dispatchers mg.dispatcher with
            | some c, some D => s.call m mg D result c
            | _, _ => none
    | .destroy m =>
        match s.managers m with
        | none => none
        | some mg => if mg.call.isSome then none else some (.quiet, s.goto m mg .removing)
    | .removeSocket m b =>
        match s.managers m with
        | none => none
        | some mg =>
            if mg.call ≠ some .removing then none
            else
              match mg.registeredBlocks.lookup b, s.dispatchers mg.dispatcher with
              | some info, some D =>
                  some (.quiet, (s.setDispatcher mg.dispatcher
                    { D with socketToFd := D.socketToFd.erase info.serverSocket }).setManager m
                      (some { mg with
                        registeredBlocks := mg.registeredBlocks.erase b
                        call := some (.epollDel b info.serverSocket
                          (D.socketToFd.lookup info.serverSocket)) }))
              | _, _ => none
    | .epollWait k ready =>
        match s.dispatchers k with
        | none => none
        | some D =>
            if D.loop ≠ .wait then none
            else if !D.running then some (.quiet, s.setLoop k D .exited)
            else if ready.length ≤ maxEvents ∧ ready.Nodup ∧ ready.all (s.readable D) then
              some (.quiet, s.setLoop k D (.handle ready))
            else none
    | .dispatch k result =>
        match s.dispatchers k with
        | none => none
        | some D => s.dispatch k D result D.loop
    | .connect path =>
        match s.bound path with
        | none => none
        | some (m, b) =>
            match s.pending (m, b) with
            | none => none
            | some queue =>
                some (.quiet, { s with
                  connections := Function.update s.connections s.nextConnection
                    (some { manager := m, block := b })
                  nextConnection := s.nextConnection + 1
                  pending := Function.update s.pending (m, b)
                    (some (queue ++ [s.nextConnection])) })
    | .disconnect c =>
        match s.connections c with
        | none => none
        | some conn =>
            some (.quiet, { s with
              connections := Function.update s.connections c (some { conn with closed := true }) })
    | .export m b n =>
        if (s.managers m).isSome ∧ (s.fds n).isNone then
          some (.quiet, s.openFd n (.exported m b))
        else none
    -- a pool closes the descriptors of its blocks while no block of it is registered
    | .closeExported n =>
        match s.fds n with
        | some (.exported m _) =>
            if (s.managers m).any (fun mg => mg.call.isSome) then none
            else some (.quiet, s.closeFd n)
        | _ => none
    | .open n x => if (s.fds n).isSome then none else some (.quiet, s.openFd n (.other x))
    | .close n =>
        match s.fds n with
        | some (.other _) => some (.quiet, s.closeFd n)
        | _ => none

end Publisher

end RosidlBufferBackends.Dispatcher
