import RosidlBufferBackends.Lib.Runs
import RosidlBufferBackends.Qc.Sharing.Broker

/-! The processes on a machine, and what goes between them. -/

namespace RosidlBufferBackends.Qc.Sharing

open Holdings Inventory Runs

/-- A descriptor that has been published; `dmabuf` is what its buffer was made of, which no
step reads. -/
structure Message where
  descriptor : QcBufferDescriptor
  creator : ℕ
  dmabuf : Option ℕ
  deriving DecidableEq, Repr

/-- `reply` is the dma-buf whose descriptor the server has sent. -/
structure Connection where
  server : ℕ
  client : ℕ
  message : ℕ
  accepted : Bool := false
  request : Option ℕ := none
  reply : Option ℕ := none
  deriving DecidableEq, Repr

/-- A process keeps its number after it has exited, and another one may get its pid. The
thread of a connection, in the server and in the client, has the number of the connection. -/
structure System where
  tasks : ℕ → Option Task := fun _ => none
  nextTask : ℕ := 0
  nextDmabuf : ℕ := 0
  bound : String → Option ℕ := fun _ => none
  messages : ℕ → Option Message := fun _ => none
  nextMessage : ℕ := 0
  connections : ℕ → Option Connection := fun _ => none

inductive SystemEvent
  | start (pid : ℕ) (available : Bool)
  | exit (p : ℕ)
  | act (p : ℕ) (e : TaskEvent)
  deriving DecidableEq, Repr

/-- An import returns a buffer on a dma-buf, or an empty one. -/
inductive SystemOutput
  | done
  | returned (m : Option ℕ)
  | imported (m : ℕ) (dmabuf : Option ℕ)
  deriving DecidableEq, Repr

namespace System

def messageOf (s : System) (c : ℕ) : Option Message :=
  (s.connections c).bind fun x => s.messages x.message

/-- The process whose broker an import of the message connects to. -/
def serverOf (s : System) (m : ℕ) : Option ℕ :=
  match s.messages m with
  | none => none
  | some msg =>
    if msg.descriptor.elementTypeName ≠ uint8TypeName ∨ msg.descriptor.useIpc = false ∨
        msg.descriptor.ipcSocketPath.isEmpty then none
    else
      match s.bound msg.descriptor.ipcSocketPath with
      | none => none
      | some p => if (s.tasks p).any (·.process.broker.running) then some p else none

/-- What a step of the process `p` needs of the others. -/
def permits (s : System) (p : ℕ) : TaskEvent → Bool
  | .allocate _ _ _ _ dmabuf => dmabuf = s.nextDmabuf
  | .importFailed m => (s.messages m).isSome
  | .connect i m => (s.connections i).isNone && (s.serverOf m).isSome
  | .accept c => (s.connections c).any fun x => x.server = p && !x.accepted
  | .recvRequest c uid =>
    (s.connections c).any fun x => x.server = p && (uid.isNone || uid = x.request)
  | .lookup c _ | .sendmsg c _ | .finish c => (s.connections c).any (·.server = p)
  | .sendUid i _ | .mapFailed i => (s.connections i).any (·.client = p)
  | .recvReply i received =>
    (s.connections i).any fun x =>
      x.client = p && (received.isNone || received.map Prod.snd = x.reply)
  | .map i _ _ size =>
    (s.connections i).any (·.client = p) &&
      (s.messageOf i).any (·.descriptor.dmabufSize = size)
  | _ => true

def setConnection (s : System) (c : ℕ) (x : Connection) : System :=
  { s with connections := Function.update s.connections c (some x) }

def publish (s : System) (p : ℕ) (t : Task) (d : QcBufferDescriptor) : System :=
  { s with
    messages := Function.update s.messages s.nextMessage (some ⟨d, p, t.backing d.uid⟩)
    nextMessage := s.nextMessage + 1 }

/-- What the step of `p` from `t` to `u` does beside. -/
def effect (s : System) (p : ℕ) (t u : Task) : TaskEvent → SystemOutput × System
  | .constructBroker socket listening =>
    if socket then
      (.done, { s with
        bound := Function.update s.bound (brokerPath t.process.pid)
          (if listening then some p else none) })
    else (.done, s)
  | .stop => (.done, { s with bound := Function.update s.bound t.process.broker.socketPath none })
  | .allocate .. => (.done, { s with nextDmabuf := s.nextDmabuf + 1 })
  | .createDescriptorWithEndpoint impl dup =>
    match (t.process.createDescriptorWithEndpoint impl dup).1 with
    | none => (.returned none, s)
    | some d => (.returned (some s.nextMessage), s.publish p t d)
  | .importFailed m => (.imported m none, s)
  | .connect i m =>
    match s.serverOf m with
    | none => (.done, s)
    | some q => (.done, s.setConnection i { server := q, client := p, message := m })
  | .accept c =>
    match s.connections c with
    | none => (.done, s)
    | some x => (.done, s.setConnection c { x with accepted := true })
  | .sendmsg c sent =>
    match s.connections c, t.handlers c with
    | some x, some (.send tmpFd) =>
      if sent then (.done, s.setConnection c { x with reply := t.table.get (.fd tmpFd) })
      else (.done, s)
    | _, _ => (.done, s)
  | .sendUid i sent =>
    match s.connections i, s.messageOf i with
    | some x, some msg =>
      if sent then (.done, s.setConnection i { x with request := some msg.descriptor.uid })
      else (.imported x.message none, s)
    | _, _ => (.done, s)
  | .recvReply i none | .mapFailed i =>
    match s.connections i with
    | none => (.done, s)
    | some x => (.imported x.message none, s)
  | .map i _ ptr _ =>
    match s.connections i with
    | none => (.done, s)
    | some x => (.imported x.message (u.table.get (.mapping ptr)), s)
  | _ => (.done, s)

def step (s : System) : SystemEvent → Option (SystemOutput × System)
  | .start pid available =>
    if (List.range s.nextTask).any fun p => (s.tasks p).any (·.process.pid = pid) then none
    else
      some (.done, { s with
        tasks := Function.update s.tasks s.nextTask
          (some { process :=
            { pid := pid, available := available, broker := {}, positive := Nat.one_ne_zero } })
        nextTask := s.nextTask + 1 })
  | .exit p =>
    match s.tasks p with
    | none => none
    | some _ => some (.done, { s with tasks := Function.update s.tasks p none })
  | .act p e =>
    match s.tasks p with
    | none => none
    | some t =>
      match t.step e with
      | none => none
      | some u =>
        if s.permits p e then
          some ((s.effect p t u e).1, { (s.effect p t u e).2 with
            tasks := Function.update s.tasks p (some u) })
        else none

variable {s u : System} {e : SystemEvent} {o : SystemOutput}

lemma step_cases (hs : s.step e = some (o, u)) :
    (∃ pid available, e = .start pid available ∧ o = .done ∧ u = { s with
      tasks := Function.update s.tasks s.nextTask
        (some { process := { pid := pid, available := available, broker := {} } })
      nextTask := s.nextTask + 1 }) ∨
    (∃ p t, e = .exit p ∧ s.tasks p = some t ∧ o = .done ∧
      u = { s with tasks := Function.update s.tasks p none }) ∨
    ∃ p a t t', e = .act p a ∧ s.tasks p = some t ∧ t.step a = some t' ∧ s.permits p a = true ∧
      o = (s.effect p t t' a).1 ∧
      u = { (s.effect p t t' a).2 with tasks := Function.update s.tasks p (some t') } := by
  cases e with
  | start pid available =>
    simp only [step] at hs
    split at hs
    · cases hs
    · obtain ⟨rfl, rfl⟩ := Prod.mk.inj (Option.some.inj hs)
      exact .inl ⟨pid, available, rfl, rfl, rfl⟩
  | exit p =>
    simp only [step] at hs
    split at hs
    · cases hs
    · rename_i t ht
      obtain ⟨rfl, rfl⟩ := Prod.mk.inj (Option.some.inj hs)
      exact .inr (.inl ⟨p, t, rfl, ht, rfl, rfl⟩)
  | act p a =>
    simp only [step] at hs
    split at hs
    · cases hs
    · rename_i t ht
      split at hs
      · cases hs
      · rename_i t' ht'
        split at hs
        · rename_i hpermits
          obtain ⟨rfl, rfl⟩ := Prod.mk.inj (Option.some.inj hs)
          exact .inr (.inr ⟨p, a, t, t', rfl, ht, ht', hpermits, rfl, rfl⟩)
        · cases hs

end System

/-- The descriptor 0 of a buffer of the process `p` is published. -/
def publishFrom (p pid dmabuf : ℕ) : List SystemEvent :=
  [.start pid true, .act p (.constructBroker true true), .act p (.allocate 0 8 4096 10 dmabuf),
    .act p (.createDescriptorWithEndpoint (some ⟨8, some 0⟩) (some 20))]

/-- The process `q` imports the message 0 from the process `p`. -/
def importFrom (p q dmabuf : ℕ) : List SystemEvent :=
  [.act q (.connect 0 0), .act p (.accept 0), .act q (.sendUid 0 true),
    .act p (.recvRequest 0 (some 1)), .act p (.lookup 0 (some 21)), .act p (.sendmsg 0 true),
    .act p (.finish 0), .act q (.recvReply 0 (some (5, dmabuf))), .act q (.map 0 0 8192 8)]

lemma sound_start (w v : ℕ → Option ℕ) (pid : ℕ) (available : Bool) :
    Sound w v { process := { pid := pid, available := available, broker := {} } } where
  accounts := by
    have hheld : Task.held { process := { pid := pid, available := available, broker := {} } } =
        fun _ => [] := by
      funext o
      cases o <;> rfl
    rw [hheld]
    exact accounts_empty
  labelled _ _ hk := nomatch hk
  windowed := ⟨List.nodup_nil, fun _ => ⟨nofun, nofun⟩, Nat.zero_le _⟩
  bounded _ hu := absurd rfl hu
  counted := counted_empty

end RosidlBufferBackends.Qc.Sharing
