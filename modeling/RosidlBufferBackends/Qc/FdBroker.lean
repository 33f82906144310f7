import Mathlib.Algebra.Order.Group.Int
import Mathlib.Logic.Function.Basic
import RosidlBufferBackends.Lib.Runs
import RosidlBufferBackends.Lib.Window

/-! The broker of a publishing process, and the descriptors that name its entries.
The result of every call outside the process is part of the event. -/

namespace RosidlBufferBackends.Qc

open Window

inductive Origin
  | rpcmem
  | mmap
  deriving DecidableEq, Repr

/-- The null pointer is 0. -/
structure QcBuffer where
  ptr : ℕ := 0
  fd : ℤ := -1
  size : ℕ := 0
  uid : ℕ := 0
  origin : Origin := .rpcmem
  named : 0 ≤ fd → uid ≠ 0 := by decide

/-- `qcBuffer` is the object that the shared pointer owns. -/
structure QcBufferImpl where
  size : ℕ := 0
  qcBuffer : Option ℕ := none
  deriving DecidableEq, Repr

structure Entry where
  dupFd : ℕ
  dmabufSize : ℕ
  deriving DecidableEq, Repr

structure QcBufferDescriptor where
  size : ℕ
  elementTypeName : String
  pid : ℕ
  vaddr : ℕ
  uid : ℕ
  dmabufFd : ℤ
  dmabufSize : ℕ
  useIpc : Bool
  ipcSocketPath : String
  deriving DecidableEq, Repr

def kCapacity : ℕ := 64

/-- `typeid(uint8_t).name()` -/
def uint8TypeName : String := "h"

/-- `closed` are the numbers that the broker has called `close` on. -/
structure FdBroker where
  running : Bool := false
  socketPath : String := ""
  table : ℕ → Option Entry := fun _ => none
  order : List ℕ := []
  closed : List ℕ := []

inductive Reply
  | ok (fd : ℕ)
  | miss
  deriving DecidableEq, Repr

namespace FdBroker

/-- The loop at the end of `register_buffer`, on the queue it is given. -/
def evict (b : FdBroker) : List ℕ → FdBroker
  | [] => { b with order := [] }
  | old :: rest =>
      if kCapacity < (old :: rest).length then
        match b.table old with
        | some entry =>
            evict { b with
              table := Function.update b.table old none
              closed := b.closed ++ [entry.dupFd] } rest
        | none => evict b rest
      else { b with order := old :: rest }

/-- `dup` is what the call of `dup` returns. -/
def registerBuffer (b : FdBroker) (uid : ℕ) (fd : ℤ) (dmabufSize : ℕ) (dup : Option ℕ) :
    FdBroker :=
  if !b.running || uid = 0 || fd < 0 then b
  else if (b.table uid).isSome then b
  else
    match dup with
    | none => b
    | some dupFd =>
        { b with table := Function.update b.table uid (some ⟨dupFd, dmabufSize⟩) }.evict
          (b.order ++ [uid])

/-- The answer to a client that asks for `uid`. -/
def handleConnection (b : FdBroker) (uid : ℕ) (dup : Option ℕ) : Reply :=
  match b.table uid with
  | none => .miss
  | some _ =>
      match dup with
      | none => .miss
      | some tmpFd => .ok tmpFd

end FdBroker

/-- `available` says whether the library was found; `buffers` are the objects that
exist, and the counter of `next_uid` is not taken to wrap around. -/
structure Process where
  pid : ℕ
  available : Bool
  broker : FdBroker
  counter : ℕ := 1
  buffers : ℕ → Option QcBuffer := fun _ => none
  positive : counter ≠ 0 := by decide

inductive Event
  | allocate (k byteSize ptr : ℕ) (fd : ℤ)
  | adopt (k ptr size : ℕ) (fd : ℤ)
  | moveConstruct (k other : ℕ)
  | moveAssign (k other : ℕ)
  | destroy (k : ℕ)
  | createDescriptorWithEndpoint (impl : Option QcBufferImpl) (dup : Option ℕ)
  | request (uid : ℕ) (dup : Option ℕ)
  deriving DecidableEq, Repr

inductive Output
  | done
  | threw (what : String)
  | returned (descriptor : Option QcBufferDescriptor)
  | replied (reply : Reply)
  deriving DecidableEq, Repr

namespace Process

def start (pid : ℕ) (available running : Bool) (socketPath : String) : Process :=
  { pid := pid, available := available,
    broker := { running := running, socketPath := socketPath } }

def put (s : Process) (k : ℕ) (x : Option QcBuffer) : Process :=
  { s with buffers := Function.update s.buffers k x }

/-- Puts a buffer with the next uid. -/
def putNamed (s : Process) (k ptr size : ℕ) (fd : ℤ) (origin : Origin) : Process :=
  { s.put k (some
      { ptr := ptr, fd := fd, size := size, uid := s.counter, origin := origin,
        named := fun _ => s.positive }) with
    counter := s.counter + 1
    positive := s.counter.succ_ne_zero }

def allocate (s : Process) (k byteSize ptr : ℕ) (fd : ℤ) : Output × Process :=
  if byteSize = 0 then (.done, s.put k (some {}))
  else if !s.available then
    (.threw "qc buffer allocation requested but rpcmem (libcdsprpc.so) is unavailable", s)
  else if ptr = 0 then (.threw ("rpcmem_alloc failed for " ++ toString byteSize ++ " bytes"), s)
  else if fd < 0 then (.threw "rpcmem_to_fd failed", s)
  else (.done, s.putNamed k ptr byteSize fd .rpcmem)

def createDescriptorWithEndpoint (s : Process) (impl : Option QcBufferImpl)
    (dup : Option ℕ) : Option QcBufferDescriptor × Process :=
  match impl with
  | none => (none, s)
  | some impl =>
      if !s.available then (none, s)
      else
        match impl.qcBuffer.bind s.buffers with
        | none => (none, s)
        | some qc =>
            if qc.fd < 0 then (none, s)
            else if !s.broker.running then (none, s)
            else
              (some
                { size := impl.size, elementTypeName := uint8TypeName, pid := s.pid,
                  vaddr := qc.ptr, uid := qc.uid, dmabufFd := qc.fd, dmabufSize := qc.size,
                  useIpc := true, ipcSocketPath := s.broker.socketPath },
                { s with broker := s.broker.registerBuffer qc.uid qc.fd qc.size dup })

/-- A moved-from buffer, and one that `reset` has left, is an empty one. -/
def step (s : Process) : Event → Option (Output × Process)
  | .allocate k byteSize ptr fd =>
      if (s.buffers k).isSome then none else some (s.allocate k byteSize ptr fd)
  | .adopt k ptr size fd =>
      if (s.buffers k).isSome then none else some (.done, s.putNamed k ptr size fd .mmap)
  | .moveConstruct k other =>
      match s.buffers k, s.buffers other with
      | none, some qc =>
          some (.done, (s.put k (some qc)).put other (some { origin := qc.origin }))
      | _, _ => none
  | .moveAssign k other =>
      match s.buffers k, s.buffers other with
      | some _, some qc =>
          if k = other then some (.done, s)
          else some (.done, (s.put k (some qc)).put other (some { origin := qc.origin }))
      | _, _ => none
  | .destroy k =>
      match s.buffers k with
      | none => none
      | some _ => some (.done, s.put k none)
  | .createDescriptorWithEndpoint impl dup =>
      let (descriptor, u) := s.createDescriptorWithEndpoint impl dup
      some (.returned descriptor, u)
  | .request uid dup => some (.replied (s.broker.handleConnection uid dup), s)

end Process

section Broker

variable {b : FdBroker} {u uid size : ℕ} {fd : ℤ} {dup : Option ℕ} {l : List ℕ}

namespace FdBroker

lemma evict_eq (b : FdBroker) (l : List ℕ) :
    (b.evict l).order = recent kCapacity l ∧
      (∀ u, (b.evict l).table u = if u ∈ excess kCapacity l then none else b.table u) ∧
      (b.evict l).running = b.running ∧ (b.evict l).socketPath = b.socketPath := by
  induction l generalizing b with
  | nil => simp [evict, recent, excess]
  | cons old rest ih =>
    unfold evict
    split_ifs with hlong
    · have hle : kCapacity ≤ rest.length := Nat.lt_succ_iff.mp hlong
      rw [recent_cons hle, excess_cons hle]
      cases hold : b.table old with
      | none =>
        obtain ⟨horder, htable, hrest⟩ := ih b
        refine ⟨horder, ?_, hrest⟩
        intro u
        rw [htable u]
        by_cases hu : u = old
        · subst hu
          simp [hold]
        · simp [hu]
      | some entry =>
        obtain ⟨horder, htable, hrest⟩ := ih { b with
          table := Function.update b.table old none
          closed := b.closed ++ [entry.dupFd] }
        refine ⟨horder, ?_, hrest⟩
        intro u
        rw [htable u]
        by_cases hu : u = old
        · subst hu
          simp
        · simp [hu]
    · have hle : (old :: rest).length ≤ kCapacity := Nat.not_lt.mp hlong
      simp [recent_of_le hle, excess_of_le hle]

/-- The broker serves the most recent of the uids that it has put in the queue. -/
structure Windowed (b : FdBroker) : Prop where
  nodup : b.order.Nodup
  listed : ∀ u, (b.table u).isSome ↔ u ∈ b.order
  fits : b.order.length ≤ kCapacity

def Registers (b : FdBroker) (uid : ℕ) (fd : ℤ) (dup : Option ℕ) : Prop :=
  b.running = true ∧ uid ≠ 0 ∧ 0 ≤ fd ∧ b.table uid = none ∧ dup.isSome

instance (b : FdBroker) (uid : ℕ) (fd : ℤ) (dup : Option ℕ) :
    Decidable (b.Registers uid fd dup) :=
  inferInstanceAs (Decidable (_ ∧ _ ∧ _ ∧ _ ∧ _))

lemma registerBuffer_of_not (h : ¬ b.Registers uid fd dup) :
    b.registerBuffer uid fd size dup = b := by
  unfold registerBuffer
  split_ifs with hguard hfound
  · rfl
  · rfl
  · cases dup with
    | none => rfl
    | some dupFd =>
      simp only [Bool.or_eq_true, Bool.not_eq_true', decide_eq_true_eq, not_or] at hguard
      refine absurd ⟨by simpa using hguard.1.1, hguard.1.2, not_lt.mp hguard.2, ?_, rfl⟩ h
      simpa using hfound

lemma registerBuffer_eq {dupFd : ℕ} (size : ℕ) (h : b.Registers uid fd (some dupFd)) :
    b.registerBuffer uid fd size (some dupFd) =
      { b with table := Function.update b.table uid (some ⟨dupFd, size⟩) }.evict
        (b.order ++ [uid]) := by
  obtain ⟨hrun, hne, hfd, hnone, -⟩ := h
  simp [registerBuffer, hrun, hne, hfd, hnone]

lemma registerBuffer_of (size : ℕ) (h : b.Registers uid fd dup) : ∃ entry,
    b.registerBuffer uid fd size dup =
      { b with table := Function.update b.table uid (some entry) }.evict (b.order ++ [uid]) := by
  obtain ⟨dupFd, rfl⟩ := Option.isSome_iff_exists.mp h.2.2.2.2
  exact ⟨_, registerBuffer_eq size h⟩

lemma windowed_registerBuffer (h : b.Windowed) :
    (b.registerBuffer uid fd size dup).Windowed := by
  by_cases hr : b.Registers uid fd dup
  · obtain ⟨entry, he⟩ := registerBuffer_of size hr
    obtain ⟨horder, htable, -⟩ := evict_eq
      { b with table := Function.update b.table uid (some entry) } (b.order ++ [uid])
    have hnew : uid ∉ b.order := by
      intro hmem
      have hsome := (h.listed uid).mpr hmem
      rw [hr.2.2.2.1] at hsome
      exact nomatch hsome
    have hnodup : (b.order ++ [uid]).Nodup :=
      List.nodup_append_comm.mp (List.nodup_cons.mpr ⟨hnew, h.nodup⟩)
    rw [he]
    refine ⟨horder ▸ nodup_recent hnodup, ?_, horder ▸ recent_length_le _ _⟩
    intro u
    rw [horder, htable, mem_recent hnodup]
    by_cases hx : u ∈ excess kCapacity (b.order ++ [uid])
    · simp [hx]
    · by_cases hu : u = uid
      · subst hu
        simp [hx]
      · simp [hx, hu, h.listed]
  · rwa [registerBuffer_of_not hr]

/-- The entry is made, as the last of the window. -/
lemma registerBuffer_last (size : ℕ) (h : b.Registers uid fd dup) :
    [uid] <:+ (b.registerBuffer uid fd size dup).order := by
  obtain ⟨entry, he⟩ := registerBuffer_of size h
  rw [he, (evict_eq _ _).1]
  exact suffix_recent (List.suffix_append _ _) (by simp [kCapacity])

lemma registerBuffer_suffix (uid : ℕ) (fd : ℤ) (size : ℕ) (dup : Option ℕ) (hl : l <:+ b.order)
    (hc : l.length < kCapacity) :
    l <:+ (b.registerBuffer uid fd size dup).order ∨
      b.table uid = none ∧ l ++ [uid] <:+ (b.registerBuffer uid fd size dup).order := by
  by_cases hr : b.Registers uid fd dup
  · obtain ⟨entry, he⟩ := registerBuffer_of size hr
    refine .inr ⟨hr.2.2.2.1, ?_⟩
    rw [he, (evict_eq _ _).1]
    exact suffix_recent (suffix_append hl) (by simpa [Nat.succ_le_iff] using hc)
  · rw [registerBuffer_of_not hr]
    exact .inl hl

end FdBroker

end Broker

section Runs

open Runs Process

variable {s u : Process} {e : Event} {o : Output} {tr : List (Event × Output)}
  {d : QcBufferDescriptor} {impl : Option QcBufferImpl} {dup : Option ℕ}

/-- The calls that return a descriptor of another buffer. -/
def othersPublished (uid : ℕ) (tr : List (Event × Output)) : ℕ :=
  tr.countP (fun x => match x.2 with
    | .returned (some d) => decide (d.uid ≠ uid)
    | _ => false)

inductive Publishes (s : Process) : Event → Output → Process → Prop
  | published {impl : Option QcBufferImpl} {dup : Option ℕ} {d : QcBufferDescriptor} :
      s.broker.running = true → d.uid ≠ 0 → 0 ≤ d.dmabufFd →
      Publishes s (.createDescriptorWithEndpoint impl dup) (.returned (some d))
        { s with broker := s.broker.registerBuffer d.uid d.dmabufFd d.dmabufSize dup }
  | other {e : Event} {o : Output} {u : Process} : u.broker = s.broker →
      (∀ d, o ≠ .returned (some d)) → Publishes s e o u

lemma createDescriptor_cases (s : Process) (impl : Option QcBufferImpl) (dup : Option ℕ) :
    s.createDescriptorWithEndpoint impl dup = (none, s) ∨ ∃ n k qc,
      s.buffers k = some qc ∧ 0 ≤ qc.fd ∧ s.broker.running = true ∧
        s.createDescriptorWithEndpoint impl dup =
          (some
            { size := n, elementTypeName := uint8TypeName, pid := s.pid, vaddr := qc.ptr,
              uid := qc.uid, dmabufFd := qc.fd, dmabufSize := qc.size, useIpc := true,
              ipcSocketPath := s.broker.socketPath },
            { s with broker := s.broker.registerBuffer qc.uid qc.fd qc.size dup }) := by
  unfold createDescriptorWithEndpoint
  cases impl with
  | none => exact .inl rfl
  | some impl =>
    cases hav : s.available with
    | false => exact .inl rfl
    | true =>
      cases hk : impl.qcBuffer with
      | none => exact .inl (by simp [hk])
      | some k =>
        cases hqc : s.buffers k with
        | none => exact .inl (by simp [hk, hqc])
        | some qc =>
          by_cases hfd : qc.fd < 0
          · exact .inl (by simp [hk, hqc, hfd])
          · cases hrun : s.broker.running with
            | false => exact .inl (by simp [hk, hqc])
            | true =>
              exact .inr ⟨impl.size, k, qc, hqc, not_lt.mp hfd, rfl, by simp [hk, hqc, hfd]⟩

lemma createDescriptor_publishes {x : Option QcBufferDescriptor × Process}
    (hx : s.createDescriptorWithEndpoint impl dup = x) :
    Publishes s (.createDescriptorWithEndpoint impl dup) (.returned x.1) x.2 := by
  rcases createDescriptor_cases s impl dup with hnone | ⟨n, k, qc, -, hfd, hrun, hsome⟩
  · rw [← hx, hnone]
    exact .other rfl nofun
  · rw [← hx, hsome]
    exact .published hrun (qc.named hfd) hfd

lemma allocate_publishes (s : Process) (k byteSize ptr : ℕ) (fd : ℤ) :
    Publishes s (.allocate k byteSize ptr fd) (s.allocate k byteSize ptr fd).1
      (s.allocate k byteSize ptr fd).2 := by
  unfold allocate
  split_ifs <;> exact .other rfl nofun

lemma step_publishes (hs : step s e = some (o, u)) : Publishes s e o u := by
  cases e with
  | allocate k byteSize ptr fd =>
    simp only [step] at hs
    split_ifs at hs
    have hcase := allocate_publishes s k byteSize ptr fd
    rwa [Option.some.inj hs] at hcase
  | adopt k ptr size fd =>
    simp only [step] at hs
    split_ifs at hs
    obtain ⟨rfl, rfl⟩ := Prod.mk.inj (Option.some.inj hs)
    exact .other rfl nofun
  | moveConstruct k other =>
    simp only [step] at hs
    split at hs
    · obtain ⟨rfl, rfl⟩ := Prod.mk.inj (Option.some.inj hs)
      exact .other rfl nofun
    · exact nomatch hs
  | moveAssign k other =>
    simp only [step] at hs
    split at hs
    · split_ifs at hs <;> obtain ⟨rfl, rfl⟩ := Prod.mk.inj (Option.some.inj hs) <;>
        exact .other rfl nofun
    · exact nomatch hs
  | destroy k =>
    simp only [step] at hs
    split at hs
    · exact nomatch hs
    · obtain ⟨rfl, rfl⟩ := Prod.mk.inj (Option.some.inj hs)
      exact .other rfl nofun
  | createDescriptorWithEndpoint impl dup =>
    have hcase : Publishes s (.createDescriptorWithEndpoint impl dup) _ _ :=
      createDescriptor_publishes rfl
    obtain ⟨rfl, rfl⟩ := Prod.mk.inj (Option.some.inj hs)
    exact hcase
  | request uid dup =>
    obtain ⟨rfl, rfl⟩ := Prod.mk.inj (Option.some.inj hs)
    exact .other rfl nofun

lemma step_windowed (h : s.broker.Windowed) (hs : step s e = some (o, u)) :
    u.broker.Windowed := by
  cases step_publishes hs with
  | published _ _ _ => exact FdBroker.windowed_registerBuffer h
  | other hb _ => rwa [hb]

lemma windowed_start (pid : ℕ) (available running : Bool) (socketPath : String) :
    (start pid available running socketPath).broker.Windowed :=
  ⟨List.nodup_nil, by simp [start], Nat.zero_le _⟩

/-- What the queue has behind a uid are buffers published since. -/
lemma run_retains {uid : ℕ} (hw : s.broker.Windowed) (hl : [uid] <:+ s.broker.order)
    (hr : Run step s tr u) (hcount : othersPublished uid tr < kCapacity) :
    u.broker.Windowed ∧ ∃ later, uid :: later <:+ u.broker.order ∧
      later.length ≤ othersPublished uid tr := by
  induction hr with
  | nil => exact ⟨hw, [], hl, Nat.zero_le _⟩
  | @snoc t v tr e o _ hs ih =>
    have hsum : othersPublished uid (tr ++ [(e, o)]) =
        othersPublished uid tr + othersPublished uid [(e, o)] := List.countP_append ..
    obtain ⟨hwin, later, hsuffix, hlen⟩ := ih (by omega)
    refine ⟨step_windowed hwin hs, ?_⟩
    cases step_publishes hs with
    | other hb _ => exact ⟨later, hb ▸ hsuffix, by omega⟩
    | @published impl dup d _ _ _ =>
      by_cases hd : d.uid = uid
      · -- the uid is in the table, so that nothing is registered
        have hsome : (t.broker.table uid).isSome :=
          (hwin.listed uid).mpr (hsuffix.subset List.mem_cons_self)
        have hnot : ¬ t.broker.Registers d.uid d.dmabufFd dup := by
          intro hreg
          rw [hd] at hreg
          simp [hreg.2.2.2.1] at hsome
        refine ⟨later, ?_, by omega⟩
        rwa [FdBroker.registerBuffer_of_not hnot]
      · have hone : othersPublished uid
            [(.createDescriptorWithEndpoint impl dup, .returned (some d))] = 1 := by
          simp [othersPublished, hd]
        have hroom : (uid :: later).length < kCapacity := by
          rw [List.length_cons]
          omega
        rcases FdBroker.registerBuffer_suffix d.uid d.dmabufFd d.dmabufSize dup hsuffix hroom
          with hsame | ⟨_, hnew⟩
        · exact ⟨later, hsame, by omega⟩
        · refine ⟨later ++ [d.uid], hnew, ?_⟩
          rw [List.length_append, List.length_singleton]
          omega

theorem published_descriptor_resolves {pid : ℕ} {available running : Bool} {socketPath : String}
    {post : List (Event × Output)} {v : Process}
    (hr : Run step (start pid available running socketPath) tr s)
    (hs : step s (.createDescriptorWithEndpoint impl dup) = some (.returned (some d), u))
    (hdup : dup.isSome ∨ (s.broker.table d.uid).isSome) :
    (u.broker.table d.uid).isSome ∧
      (s.broker.table d.uid = none → Run step u post v →
        othersPublished d.uid post < kCapacity → (v.broker.table d.uid).isSome) := by
  have hw : s.broker.Windowed :=
    hr.invariant (windowed_start pid available running socketPath)
      fun _ _ _ _ h hs => step_windowed h hs
  have hw' := step_windowed hw hs
  generalize he : Event.createDescriptorWithEndpoint impl dup = e at hs
  generalize ho : Output.returned (some d) = o at hs
  cases step_publishes hs with
  | other _ hother => exact absurd ho.symm (hother d)
  | @published impl' dup' d' hrun hne hfd =>
    obtain ⟨rfl, rfl⟩ := Event.createDescriptorWithEndpoint.inj he
    obtain rfl := Option.some.inj (Output.returned.inj ho)
    by_cases hnone : s.broker.table d.uid = none
    · have hreg : s.broker.Registers d.uid d.dmabufFd dup :=
        ⟨hrun, hne, hfd, hnone, hdup.resolve_right (by simp [hnone])⟩
      have hlast := FdBroker.registerBuffer_last d.dmabufSize hreg
      refine ⟨(hw'.listed d.uid).mpr (hlast.subset (List.mem_singleton_self _)), ?_⟩
      intro _ hpost hcount
      obtain ⟨hwin, later, hsuffix, -⟩ := run_retains hw' hlast hpost hcount
      exact (hwin.listed d.uid).mpr (hsuffix.subset List.mem_cons_self)
    · have hnot : ¬ s.broker.Registers d.uid d.dmabufFd dup := fun hreg => hnone hreg.2.2.2.1
      rw [FdBroker.registerBuffer_of_not hnot]
      exact ⟨Option.isSome_iff_ne_none.mpr hnone, fun h => absurd h hnone⟩

/-- A buffer of 8 bytes is published to an endpoint. -/
def publishing (k dup : ℕ) : Event := .createDescriptorWithEndpoint (some ⟨8, some k⟩) (some dup)

theorem published_descriptor_resolves_once : ∃ tr s d u post v,
    Run step (start 7 true true "/tmp/qc_broker_7.sock") tr s ∧
      step s (publishing 0 20) = some (.returned (some d), u) ∧ Run step u post v ∧
      othersPublished d.uid post = 1 ∧ (v.broker.table d.uid).isSome := by
  let d : QcBufferDescriptor := ⟨8, "h", 7, 4096, 1, 10, 8, true, "/tmp/qc_broker_7.sock"⟩
  let evs : List Event := [.allocate 0 8 4096 10, .allocate 1 8 8192 11]
  have hlast : (exec step (start 7 true true "/tmp/qc_broker_7.sock") evs).any (fun x =>
      (step x.2 (publishing 0 20)).any (fun y =>
        (exec step y.2 [publishing 1 21, publishing 0 22]).any (fun z =>
          x.2.broker.table 1 = none ∧ y.1 = .returned (some d) ∧ othersPublished 1 z.1 = 1))) =
      true := by decide +kernel
  obtain ⟨⟨tr, s⟩, hx, hlast⟩ := Option.any_eq_true _ _ |>.mp hlast
  obtain ⟨⟨o, u⟩, hs, hlast⟩ := Option.any_eq_true _ _ |>.mp hlast
  obtain ⟨⟨post, v⟩, hz, hlast⟩ := Option.any_eq_true _ _ |>.mp hlast
  obtain ⟨hnone, rfl, hcount⟩ := of_decide_eq_true hlast
  have hcount : othersPublished d.uid post = 1 := hcount
  have hresolve := (published_descriptor_resolves (exec_run hx) hs (.inl rfl)).2 hnone (exec_run hz)
    (by rw [hcount]; decide)
  exact ⟨tr, s, d, u, post, v, exec_run hx, hs, exec_run hz, hcount, hresolve⟩

/-- The first of 64 buffers is published again before the next one. -/
theorem republished_descriptor_evicted : ∃ tr s d u d' v,
    Run step (start 7 true true "/tmp/qc_broker_7.sock") tr s ∧
      step s (publishing 0 100) = some (.returned (some d), u) ∧
      step u (publishing 64 101) = some (.returned (some d'), v) ∧
      v.broker.handleConnection d.uid (some 102) = .miss := by
  let d : QcBufferDescriptor := ⟨8, "h", 7, 4096, 1, 10, 8, true, "/tmp/qc_broker_7.sock"⟩
  let d' : QcBufferDescriptor := ⟨8, "h", 7, 4096, 65, 10, 8, true, "/tmp/qc_broker_7.sock"⟩
  let evs := (List.range 65).map (fun k => Event.allocate k 8 4096 10) ++
    (List.range 64).map (fun k => publishing k k)
  have hlast : (exec step (start 7 true true "/tmp/qc_broker_7.sock") evs).any (fun x =>
      (step x.2 (publishing 0 100)).any (fun y => (step y.2 (publishing 64 101)).any (fun z =>
        y.1 = .returned (some d) ∧ z.1 = .returned (some d') ∧
          z.2.broker.handleConnection 1 (some 102) = .miss))) = true := by decide +kernel
  obtain ⟨⟨tr, s⟩, hx, hlast⟩ := Option.any_eq_true _ _ |>.mp hlast
  obtain ⟨⟨o, u⟩, hs, hlast⟩ := Option.any_eq_true _ _ |>.mp hlast
  obtain ⟨⟨o', v⟩, hs', hlast⟩ := Option.any_eq_true _ _ |>.mp hlast
  obtain ⟨rfl, rfl, hmiss⟩ := of_decide_eq_true hlast
  exact ⟨tr, s, d, u, d', v, exec_run hx, hs, hs', hmiss⟩

end Runs

end RosidlBufferBackends.Qc
