import RosidlBufferBackends.Lib.Inventory
import RosidlBufferBackends.Qc.Retention

/-! The threads of a broker while it is destroyed: the worker that accepts connections,
the detached handlers, and the destructor. -/

namespace RosidlBufferBackends.Qc.Shutdown

open Inventory

/-- The next step of `worker_loop`. -/
inductive Worker
  | check
  | accept
  | recheck
  | count (c : ℕ)
  | spawn (c : ℕ)
  | ended
  deriving DecidableEq, Repr

/-- The next step of `handle_connection`, or what the worker has still to do for it. On a
miss the handler decrements before the lock guard unlocks. -/
inductive Handler
  | accepted
  | counted
  | recv
  | lock (uid : ℕ)
  | find (uid : ℕ)
  | sendMiss
  | closeMissed
  | countMissed
  | unlockMissed
  | unlock
  | refuse
  | sendmsg
  | closeTmp
  | close
  | count
  | ended
  deriving DecidableEq, Repr

/-- The next step of `~FdBroker`. -/
inductive Destructor
  | idle
  | closeServer
  | join
  | wait
  | lock
  | clear
  | unlock
  | destroyed
  deriving DecidableEq, Repr

inductive Owner
  | handler (c : ℕ)
  | destructor
  deriving DecidableEq, Repr

/-- For whom a descriptor was opened. -/
inductive Holder
  | server
  | entry (uid : ℕ)
  | connection (c : ℕ)
  | duplicate (c : ℕ)
  | other
  deriving DecidableEq, Repr

/-- `decrements` counts the calls of `fetch_sub`. -/
structure Connection where
  connFd : ℕ
  tmpFd : Option ℕ := none
  next : Handler := .accepted
  decrements : ℕ := 0
  deriving DecidableEq, Repr

/-- `closes` counts the descriptors of a holder that have been closed, and `faults` the
calls of `close` on a number that is not open. -/
structure State where
  broker : FdBroker := {}
  serverFd : Option ℕ := none
  worker : Worker := .ended
  destructor : Destructor := .idle
  mutex : Option Owner := none
  activeConnections : ℤ := 0
  connections : ℕ → Option Connection := fun _ => none
  nextConnection : ℕ := 0
  files : ℕ → Option Holder := fun _ => none
  closes : Holder → ℕ := fun _ => 0
  faults : ℕ := 0

/-- `accepted` is what `accept` returns, `result` what `recv` or `dup` does. -/
inductive Event
  | worker (accepted : Option ℕ)
  | handler (c : ℕ) (result : Option ℕ)
  | destructor
  | registerBuffer (uid : ℕ) (fd : ℤ) (dmabufSize : ℕ) (dup : Option ℕ)
  | opened (n : ℕ)
  | closed (n : ℕ)
  deriving DecidableEq, Repr

namespace State

def openFor (s : State) (n : ℕ) (h : Holder) : State :=
  { s with files := Function.update s.files n (some h) }

def close (s : State) (n : ℕ) : State :=
  match s.files n with
  | none => { s with faults := s.faults + 1 }
  | some h =>
    { s with
      files := Function.update s.files n none
      closes := Function.update s.closes h (s.closes h + 1) }

def closeAll (s : State) (l : List ℕ) : State := l.foldl close s

def put (s : State) (c : ℕ) (conn : Connection) : State :=
  { s with connections := Function.update s.connections c (some conn) }

def goto (s : State) (c : ℕ) (conn : Connection) (next : Handler) : State :=
  s.put c { conn with next := next }

/-- `active_connections_.fetch_sub(1)` -/
def leave (s : State) (c : ℕ) (conn : Connection) (next : Handler) : State :=
  { s with activeConnections := s.activeConnections - 1 }.put c
    { conn with next := next, decrements := conn.decrements + 1 }

def setMutex (s : State) (owner : Option Owner) : State := { s with mutex := owner }

def workerLoop (s : State) (accepted : Option ℕ) : Option State :=
  match s.worker with
  | .check =>
    if s.broker.running then some { s with worker := .accept } else some { s with worker := .ended }
  | .accept =>
    match accepted with
    | none => some { s with worker := .recheck }
    | some n =>
      if (s.files n).isSome then none
      else
        some { (s.openFor n (.connection s.nextConnection)).put s.nextConnection
            { connFd := n } with
          worker := .count s.nextConnection
          nextConnection := s.nextConnection + 1 }
  | .recheck =>
    if s.broker.running then some { s with worker := .check } else some { s with worker := .ended }
  | .count c =>
    match s.connections c with
    | none => none
    | some conn =>
      some { s.goto c conn .counted with
        worker := .spawn c
        activeConnections := s.activeConnections + 1 }
  | .spawn c =>
    match s.connections c with
    | none => none
    | some conn => some { s.goto c conn .recv with worker := .check }
  | .ended => none

/-- Whether `send` and `sendmsg` succeed makes no difference. -/
def handleConnection (s : State) (c : ℕ) (conn : Connection) (result : Option ℕ) :
    Option State :=
  match conn.next with
  | .accepted | .counted | .ended => none
  | .recv =>
    match result with
    | none => some (s.goto c conn .close)
    | some uid => some (s.goto c conn (.lock uid))
  | .lock uid =>
    if s.mutex = none then some ((s.setMutex (some (.handler c))).goto c conn (.find uid))
    else none
  | .find uid =>
    match s.broker.table uid with
    | none => some (s.goto c conn .sendMiss)
    | some _ =>
      match result with
      | none => some (s.goto c conn .unlock)
      | some n =>
        if (s.files n).isSome then none
        else some ((s.openFor n (.duplicate c)).goto c { conn with tmpFd := some n } .unlock)
  | .sendMiss => some (s.goto c conn .closeMissed)
  | .closeMissed => some ((s.close conn.connFd).goto c conn .countMissed)
  | .countMissed => some (s.leave c conn .unlockMissed)
  | .unlockMissed => some ((s.setMutex none).goto c conn .ended)
  | .unlock =>
    match conn.tmpFd with
    | none => some ((s.setMutex none).goto c conn .refuse)
    | some _ => some ((s.setMutex none).goto c conn .sendmsg)
  | .refuse => some (s.goto c conn .close)
  | .sendmsg => some (s.goto c conn .closeTmp)
  | .closeTmp =>
    match conn.tmpFd with
    | none => none
    | some n => some ((s.close n).goto c conn .close)
  | .close => some ((s.close conn.connFd).goto c conn .count)
  | .count => some (s.leave c conn .ended)

def destroy (s : State) : Option State :=
  match s.destructor with
  | .idle =>
    some { s with broker := { s.broker with running := false }, destructor := .closeServer }
  | .closeServer =>
    match s.serverFd with
    | none => some { s with destructor := .join }
    | some n => some { s.close n with serverFd := none, destructor := .join }
  | .join => if s.worker = .ended then some { s with destructor := .wait } else none
  | .wait => if 0 < s.activeConnections then some s else some { s with destructor := .lock }
  | .lock =>
    if s.mutex = none then some { s.setMutex (some .destructor) with destructor := .clear }
    else none
  | .clear =>
    some { s.closeAll (Retention.dupFds s.broker) with
      broker := { s.broker with
        table := fun _ => none
        closed := s.broker.closed ++ Retention.dupFds s.broker }
      destructor := .unlock }
  | .unlock => some { s.setMutex none with destructor := .destroyed }
  | .destroyed => none

/-- `register_buffer` is not called once the destructor runs. -/
def registerBuffer (s : State) (uid : ℕ) (fd : ℤ) (dmabufSize : ℕ) (dup : Option ℕ) :
    Option State :=
  let b := s.broker.registerBuffer uid fd dmabufSize dup
  if s.destructor = .idle ∧ s.mutex = none then
    if s.broker.Registers uid fd dup then
      match dup with
      | none => none
      | some n =>
        if (s.files n).isSome then none
        else
          some { (s.openFor n (.entry uid)).closeAll (b.closed.drop s.broker.closed.length) with
            broker := b }
    else some { s with broker := b }
  else none

end State

open State

/-- The rest of the process opens and closes descriptors of its own. -/
def step (s : State) (e : Event) : Option (Unit × State) :=
  (match e with
  | .worker accepted => s.workerLoop accepted
  | .handler c result => (s.connections c).bind (fun conn => s.handleConnection c conn result)
  | .destructor => s.destroy
  | .registerBuffer uid fd dmabufSize dup => s.registerBuffer uid fd dmabufSize dup
  | .opened n => if (s.files n).isSome then none else some (s.openFor n .other)
  | .closed n => if s.files n = some Holder.other then some (s.close n) else none).map
    (fun s => ((), s))

/-- The broker after its constructor, in a process that has the descriptors `others` open. -/
def start (socketPath : String) (serverFd : Option ℕ) (others : ℕ → Bool) : State :=
  { broker := { running := serverFd.isSome, socketPath := socketPath }
    serverFd := serverFd
    worker := if serverFd.isSome then .check else .ended
    files := fun n =>
      if serverFd = some n then some .server else if others n then some .other else none }

namespace Handler

def left : Handler → Bool
  | .unlockMissed | .ended => true
  | _ => false

/-- Counted by the worker and not yet by the handler. -/
def outstanding : Handler → ℕ
  | .accepted | .unlockMissed | .ended => 0
  | _ => 1

/-- The connection is closed. -/
def closed : Handler → Bool
  | .countMissed | .unlockMissed | .count | .ended => true
  | _ => false

/-- The duplicate that was sent is closed. -/
def tmpClosed : Handler → Bool
  | .close | .count | .ended => true
  | _ => false

/-- The handler has still to read the table or to use the mutex. -/
def uses : Handler → Bool
  | .refuse | .sendmsg | .closeTmp | .close | .count | .ended => false
  | _ => true

/-- Before a descriptor is duplicated, or where none could be. -/
def undivided : Handler → Bool
  | .unlock | .sendmsg | .closeTmp | .close | .count | .ended => false
  | _ => true

end Handler

/-- The destructor has left its wait loop. -/
def Destructor.passed : Destructor → Bool
  | .lock | .clear | .unlock | .destroyed => true
  | _ => false

def active (s : State) : ℕ :=
  total s.nextConnection s.connections (fun conn => conn.next.outstanding)

structure Safe (s : State) : Prop where
  active : s.activeConnections = active s
  decremented : ∀ c conn, s.connections c = some conn →
    conn.decrements = if conn.next.left then 1 else 0
  connections : ∀ c conn, s.connections c = some conn →
    s.closes (.connection c) = if conn.next.closed then 1 else 0
  duplicates : ∀ c conn, s.connections c = some conn →
    s.closes (.duplicate c) = if conn.tmpFd.isSome ∧ conn.next.tmpClosed then 1 else 0
  faults : s.faults = 0
  waited : s.destructor.passed = true → s.worker = .ended ∧
    ∀ c conn, s.connections c = some conn → conn.next.left = true ∧ conn.next.uses = false

/-- The destructor does not leave its wait loop before a handler that has found no entry
unlocks the mutex. -/
def Released (s : State) (e : Event) (_ : Unit) : Prop :=
  e = .destructor → s.destructor = .wait → s.activeConnections ≤ 0 →
    ∀ c conn, s.connections c = some conn → conn.next ≠ .unlockMissed

end RosidlBufferBackends.Qc.Shutdown
