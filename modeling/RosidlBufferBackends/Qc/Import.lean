import RosidlBufferBackends.Lib.Ledger
import RosidlBufferBackends.Qc.FdBroker

/-! The import of a descriptor. Whatever listens on the socket path may do anything, and
every system call may fail. -/

namespace RosidlBufferBackends.Qc.Import

inductive Resource
  | clientSocket (fd : ℕ)
  | receivedFd (fd : ℕ)
  | mapping (ptr : ℕ)
  deriving DecidableEq, Repr

/-- A call stalls until its timeout, if that could be set. -/
inductive Outcome (α : Type)
  | done (x : α)
  | failed
  | stalls
  deriving DecidableEq, Repr

/-- What `recvmsg` reads: the end of the stream, or a status byte with the descriptors
that the peer has attached to it. -/
inductive Reply
  | closed
  | message (status : UInt8) (fds : List ℕ)
  deriving DecidableEq, Repr

/-- `room` is the number of descriptors that `recvmsg` can install. -/
structure ImportEnv where
  socket : Option ℕ
  rcvTimeout : Bool
  sndTimeout : Bool
  connect : Outcome Unit
  closedBeforeSend : Bool
  send : Outcome ℕ
  recvmsg : Outcome Reply
  room : ℕ
  mmap : Option ℕ
  deriving DecidableEq, Repr

inductive Ending
  | returned (impl : QcBufferImpl)
  | killed
  | blocked
  deriving DecidableEq, Repr

structure Call where
  process : Process
  log : List (Action Resource)
  ending : Ending

def kStatusOk : UInt8 := 1

/-- The number of bytes of a uid. -/
def uidSize : ℕ := 8

/-- What the call returns, with `none` inside for -1; it never returns without a timeout. -/
def Outcome.result {α : Type} (timeout : Bool) : Outcome α → Option (Option α)
  | .done x => some (some x)
  | .failed => some none
  | .stalls => if timeout then some none else none

/-- The descriptor that the import goes on with. -/
def receivedFd (status : UInt8) (fds : List ℕ) (truncated : Bool) : Option ℕ :=
  if status ≠ kStatusOk then none
  else if truncated then none
  else fds.head?

/-- The constructor of `QcBufferImpl` for a received descriptor, and the handler of its
exception. -/
def construct (s : Process) (k : ℕ) (mmap : Option ℕ) (d : QcBufferDescriptor) (fd : ℕ) :
    Process × List (Action Resource) × QcBufferImpl :=
  match mmap with
  | none => (s, [.release (.receivedFd fd)], {})
  | some ptr =>
    (s.putNamed k ptr d.dmabufSize fd .mmap, [.acquire (.mapping ptr)],
      { size := d.size
        qcBuffer := some k })

/-- The log of an answered request, with what has been received. -/
def received (sock : ℕ) (fds : List ℕ) : List (Action Resource) :=
  [.acquire (.clientSocket sock)] ++ (fds.map .receivedFd).map .acquire ++
    [.release (.clientSocket sock)]

/-- What follows on `recvmsg`, on an open socket. -/
def receive (s : Process) (k : ℕ) (env : ImportEnv) (d : QcBufferDescriptor) (sock : ℕ) : Call :=
  match env.recvmsg.result env.rcvTimeout with
  | none => ⟨s, [.acquire (.clientSocket sock)], .blocked⟩
  | some none | some (some .closed) =>
    ⟨s, [.acquire (.clientSocket sock), .release (.clientSocket sock)], .returned {}⟩
  | some (some (.message status fds)) =>
    let installed := fds.take env.room
    match receivedFd status installed (env.room < fds.length) with
    | none => ⟨s, received sock installed, .returned {}⟩
    | some fd =>
      let (s, constructed, impl) := construct s k env.mmap d fd
      ⟨s, received sock installed ++ constructed, .returned impl⟩

/-- What follows on `connect`. A peer that has closed its end makes `send` raise SIGPIPE. -/
def transfer (s : Process) (k : ℕ) (env : ImportEnv) (d : QcBufferDescriptor) (sock : ℕ) : Call :=
  if env.closedBeforeSend then ⟨s, [.acquire (.clientSocket sock)], .killed⟩
  else
    match env.send.result env.sndTimeout with
    | none => ⟨s, [.acquire (.clientSocket sock)], .blocked⟩
    | some sent =>
      if sent = some uidSize then receive s k env d sock
      else ⟨s, [.acquire (.clientSocket sock), .release (.clientSocket sock)], .returned {}⟩

def fromDescriptorWithEndpoint (s : Process) (k : ℕ) (env : ImportEnv) (d : QcBufferDescriptor) :
    Call :=
  if d.elementTypeName ≠ uint8TypeName then ⟨s, [], .returned {}⟩
  else if d.useIpc = false ∨ d.ipcSocketPath.isEmpty then ⟨s, [], .returned {}⟩
  else
    match env.socket with
    | none => ⟨s, [], .returned {}⟩
    | some sock =>
      match env.connect.result env.sndTimeout with
      | none => ⟨s, [.acquire (.clientSocket sock)], .blocked⟩
      | some none =>
        ⟨s, [.acquire (.clientSocket sock), .release (.clientSocket sock)], .returned {}⟩
      | some (some ()) => transfer s k env d sock

/-- What the buffer owns. -/
def owned (s : Process) (impl : QcBufferImpl) : List Resource :=
  match impl.qcBuffer.bind s.buffers with
  | none => []
  | some qc => [.mapping qc.ptr, .receivedFd qc.fd.toNat]

/-- The call returns a buffer, empty or imported, that owns all that is still held, and
has closed its socket once. -/
structure Contained (k : ℕ) (d : QcBufferDescriptor) (c : Call) (impl : QcBufferImpl) : Prop where
  returned : c.ending = .returned impl
  buffer : impl = {} ∨ impl = ⟨d.size, some k⟩ ∧ ∃ qc, c.process.buffers k = some qc ∧
    qc.size = d.dmabufSize ∧ qc.origin = .mmap ∧ 0 ≤ qc.fd
  held : Ledger.holds [] c.log = some (owned c.process impl)
  closed : ∀ sock, c.log.count (.release (.clientSocket sock)) =
      c.log.count (.acquire (.clientSocket sock)) ∧
    c.log.count (.release (.clientSocket sock)) ≤ 1

/-- A socket is opened for the descriptor. -/
def Opens (env : ImportEnv) (d : QcBufferDescriptor) : Prop :=
  d.elementTypeName = uint8TypeName ∧ d.useIpc = true ∧ d.ipcSocketPath ≠ "" ∧ env.socket.isSome

/-- No call stalls without a timeout, the peer stays until the uid is sent, and attaches
one descriptor to its consent, and none to anything else. -/
structure Tame (env : ImportEnv) : Prop where
  connect : env.connect = .stalls → env.sndTimeout = true
  stays : env.connect = .done () → env.closedBeforeSend = false
  send : env.connect = .done () → env.send = .stalls → env.sndTimeout = true
  recvmsg : env.connect = .done () → env.send = .done uidSize → env.recvmsg = .stalls →
    env.rcvTimeout = true
  attached : env.connect = .done () → env.send = .done uidSize → ∀ status fds,
    env.recvmsg = .done (.message status fds) →
      fds.take env.room = [] ∨ status = kStatusOk ∧ fds.length = 1

variable {s : Process} {k sock : ℕ} {env : ImportEnv} {d : QcBufferDescriptor}

lemma contained_unopened : Contained k d ⟨s, [], .returned {}⟩ {} :=
  ⟨rfl, .inl rfl, rfl, fun _ => ⟨rfl, Nat.zero_le _⟩⟩

lemma contained_closed : Contained k d
    ⟨s, [.acquire (.clientSocket sock), .release (.clientSocket sock)], .returned {}⟩ {} := by
  refine ⟨rfl, .inl rfl, ?_, ?_⟩
  · simp [Ledger.holds, owned]
  · intro other
    by_cases h : sock = other <;> simp [h]

lemma received_holds (sock : ℕ) (fds : List ℕ) :
    Ledger.holds [] (received sock fds) = some (fds.map .receivedFd).reverse := by
  have hmem : Resource.clientSocket sock ∉ (fds.map Resource.receivedFd).reverse := by simp
  rw [received, Ledger.holds_append, Ledger.holds_append]
  change ((Ledger.holds [Resource.clientSocket sock] _).bind _) = _
  rw [Ledger.holds_acquire_all, Option.bind_some, Ledger.holds, if_pos (by simp),
    List.erase_append_right _ hmem]
  simp [Ledger.holds]

lemma received_closed (sock : ℕ) (fds : List ℕ) (other : ℕ) :
    (received sock fds).count (.release (.clientSocket other)) =
        (received sock fds).count (.acquire (.clientSocket other)) ∧
      (received sock fds).count (.release (.clientSocket other)) ≤ 1 := by
  have hrelease : ∀ a ∈ (fds.map Resource.receivedFd).map Action.acquire,
      a ≠ .release (.clientSocket other) := by simp
  have hacquire : ∀ a ∈ (fds.map Resource.receivedFd).map Action.acquire,
      a ≠ .acquire (.clientSocket other) := by simp
  rw [received, List.count_append, List.count_append, List.count_append, List.count_append,
    List.count_eq_zero.mpr fun hm => hrelease _ hm rfl,
    List.count_eq_zero.mpr fun hm => hacquire _ hm rfl]
  by_cases h : sock = other <;> simp [h]

lemma receivedFd_eq_some {status : UInt8} {fds : List ℕ} {truncated : Bool} {fd : ℕ}
    (h : receivedFd status fds truncated = some fd) :
    status = kStatusOk ∧ truncated = false ∧ fds.head? = some fd := by
  rw [receivedFd] at h
  split_ifs at h with hs ht
  exact ⟨not_not.mp hs, Bool.eq_false_iff.mpr ht, h⟩

variable {status : UInt8} {fds : List ℕ} {fd : ℕ} {impl : QcBufferImpl}

lemma contained_constructed (mmap : Option ℕ) :
    Contained k d ⟨(construct s k mmap d fd).1,
      received sock [fd] ++ (construct s k mmap d fd).2.1,
      .returned (construct s k mmap d fd).2.2⟩ (construct s k mmap d fd).2.2 := by
  obtain ⟨hclosed, honce⟩ : (∀ other, (construct s k mmap d fd).2.1.count
      (.release (.clientSocket other)) = 0) ∧ ∀ other, (construct s k mmap d fd).2.1.count
        (.acquire (.clientSocket other)) = 0 := by
    cases mmap <;> exact ⟨fun _ => rfl, fun _ => rfl⟩
  refine ⟨rfl, ?_, ?_, ?_⟩
  · cases mmap with
    | none => exact .inl rfl
    | some ptr => exact .inr ⟨rfl, _, Function.update_self .., rfl, rfl, Int.natCast_nonneg fd⟩
  · dsimp only
    rw [Ledger.holds_append, received_holds]
    cases mmap with
    | none => simp [construct, Ledger.holds, owned]
    | some ptr => simp [construct, Ledger.holds, owned, Process.putNamed, Process.put]
  · intro other
    obtain ⟨hc, hle⟩ := received_closed sock [fd] other
    dsimp only
    rw [List.count_append, List.count_append, hclosed, honce]
    exact ⟨hc, hle⟩

/-- A reply after which every installed descriptor has an owner or is closed. -/
lemma contained_reply
    (hanswer : env.recvmsg.result env.rcvTimeout = some (some (.message status fds)))
    (h : fds.take env.room = [] ∨ status = kStatusOk ∧ fds.length = 1) :
    ∃ impl, Contained k d (receive s k env d sock) impl := by
  rw [receive, hanswer]
  dsimp only
  cases hfd : receivedFd status (fds.take env.room) (env.room < fds.length) with
  | none =>
    dsimp only
    rcases h with h | ⟨rfl, hone⟩
    · rw [h]
      exact ⟨{}, contained_closed⟩
    · -- the only descriptor has not been installed
      cases hroom : env.room with
      | zero => exact ⟨{}, contained_closed⟩
      | succ n =>
        obtain ⟨fd, rfl⟩ := List.length_eq_one_iff.mp hone
        simp [receivedFd, hroom] at hfd
  | some fd =>
    dsimp only
    obtain ⟨-, -, hhead⟩ := receivedFd_eq_some hfd
    rcases h with h | ⟨-, hone⟩
    · rw [h] at hhead
      exact nomatch hhead
    · obtain ⟨fd', rfl⟩ := List.length_eq_one_iff.mp hone
      cases hroom : env.room with
      | zero =>
        rw [hroom] at hhead
        exact nomatch hhead
      | succ n =>
        rw [hroom] at hhead
        obtain rfl : fd' = fd := Option.some.inj hhead
        rw [List.take_of_length_le (Nat.succ_le_succ n.zero_le)]
        exact ⟨_, contained_constructed env.mmap⟩

/-- Any other reply leaves a descriptor open that nothing refers to. -/
lemma leaked_reply (hanswer : env.recvmsg.result env.rcvTimeout = some (some (.message status fds)))
    (h : ¬ (fds.take env.room = [] ∨ status = kStatusOk ∧ fds.length = 1)) :
    ¬ Contained k d (receive s k env d sock) impl := by
  obtain ⟨hne, hmany⟩ := not_or.mp h
  rintro ⟨hreturned, -, hheld, -⟩
  rw [receive, hanswer] at hreturned hheld
  dsimp only at hreturned hheld
  cases hfd : receivedFd status (fds.take env.room) (env.room < fds.length) with
  | none =>
    rw [hfd] at hreturned hheld
    obtain rfl := Ending.returned.inj hreturned
    rw [received_holds] at hheld
    exact hne (by simpa [owned] using hheld)
  | some fd =>
    rw [hfd] at hreturned hheld
    dsimp only at hreturned hheld
    obtain rfl := Ending.returned.inj hreturned
    obtain ⟨rfl, htrunc, hhead⟩ := receivedFd_eq_some hfd
    have hroom : fds.length ≤ env.room := by simpa using htrunc
    rw [List.take_of_length_le hroom] at hheld hhead hne
    obtain ⟨rest, rfl⟩ : ∃ rest, fds = fd :: rest := by
      cases fds with
      | nil => exact nomatch hhead
      | cons a rest => exact ⟨rest, by rw [Option.some.inj hhead]⟩
    have hrest : rest ≠ [] := by
      rintro rfl
      exact hmany ⟨rfl, rfl⟩
    rw [Ledger.holds_append, received_holds, Option.bind_some] at hheld
    have hlen := congrArg (Option.map List.length) hheld
    cases hmap : env.mmap with
    | none =>
      have hmem : Resource.receivedFd fd ∈ ((fd :: rest).map Resource.receivedFd).reverse := by
        simp
      rw [hmap] at hlen
      simp only [construct, Ledger.holds, if_pos hmem, Option.map_some,
        List.length_erase_of_mem hmem] at hlen
      simp [owned, hrest] at hlen
    | some ptr =>
      rw [hmap] at hlen
      simp [construct, Ledger.holds, owned, Process.putNamed, Process.put, hrest] at hlen

lemma result_eq_none {α : Type} {x : Outcome α} {timeout : Bool} :
    x.result timeout = none ↔ x = .stalls ∧ timeout = false := by
  cases x <;> cases timeout <;> simp [Outcome.result]

lemma result_eq_some {α : Type} {x : Outcome α} {timeout : Bool} {y : α} :
    x.result timeout = some (some y) ↔ x = .done y := by
  cases x <;> cases timeout <;> simp [Outcome.result]

/-- What the peer does once the uid is sent. -/
def Answers (env : ImportEnv) : Prop :=
  (env.recvmsg = .stalls → env.rcvTimeout = true) ∧
    ∀ status fds, env.recvmsg = .done (.message status fds) →
      fds.take env.room = [] ∨ status = kStatusOk ∧ fds.length = 1

lemma receive_contained_iff :
    (∃ impl, Contained k d (receive s k env d sock) impl) ↔ Answers env := by
  cases hr : env.recvmsg.result env.rcvTimeout with
  | none =>
    obtain ⟨hstalls, htimeout⟩ := result_eq_none.mp hr
    refine iff_of_false ?_ fun h => nomatch htimeout.symm.trans (h.1 hstalls)
    rintro ⟨impl, hc⟩
    have hreturned := hc.returned
    rw [receive, hr] at hreturned
    exact nomatch hreturned
  | some answer =>
    have hstalls : env.recvmsg = .stalls → env.rcvTimeout = true := by
      intro he
      by_contra ht
      exact nomatch hr.symm.trans (result_eq_none.mpr ⟨he, Bool.eq_false_iff.mpr ht⟩)
    have hreply : answer ≠ none → env.recvmsg ≠ .failed := by
      rintro hne he
      rw [he] at hr
      exact hne (Option.some.inj hr).symm
    match answer with
    | none | some .closed =>
      refine iff_of_true ⟨{}, ?_⟩ ⟨hstalls, ?_⟩
      · rw [receive, hr]
        exact contained_closed
      · intro status fds he
        rw [he] at hr
        simp [Outcome.result] at hr
    | some (.message status fds) =>
      have hdone := result_eq_some.mp hr
      constructor
      · rintro ⟨impl, hc⟩
        refine ⟨hstalls, ?_⟩
        intro status' fds' he
        obtain ⟨rfl, rfl⟩ := Reply.message.inj (Outcome.done.inj (hdone.symm.trans he))
        by_contra hno
        exact leaked_reply hr hno hc
      · exact fun h => contained_reply hr (h.2 status fds hdone)

/-- What the peer does once it is connected to. -/
def Stays (env : ImportEnv) : Prop :=
  env.closedBeforeSend = false ∧ (env.send = .stalls → env.sndTimeout = true) ∧
    (env.send = .done uidSize → Answers env)

lemma transfer_contained_iff :
    (∃ impl, Contained k d (transfer s k env d sock) impl) ↔ Stays env := by
  cases hclosed : env.closedBeforeSend with
  | true =>
    refine iff_of_false ?_ fun h => nomatch hclosed.symm.trans h.1
    rintro ⟨impl, hc⟩
    have hreturned := hc.returned
    rw [transfer, if_pos hclosed] at hreturned
    exact nomatch hreturned
  | false =>
    rw [transfer, if_neg (by simp [hclosed])]
    cases hs : env.send.result env.sndTimeout with
    | none =>
      obtain ⟨hstalls, htimeout⟩ := result_eq_none.mp hs
      refine iff_of_false ?_ fun h => nomatch htimeout.symm.trans (h.2.1 hstalls)
      rintro ⟨impl, hc⟩
      exact nomatch hc.returned
    | some sent =>
      have hstalls : env.send = .stalls → env.sndTimeout = true := by
        intro he
        by_contra ht
        exact nomatch hs.symm.trans (result_eq_none.mpr ⟨he, Bool.eq_false_iff.mpr ht⟩)
      dsimp only
      by_cases hsent : sent = some uidSize
      · subst hsent
        rw [if_pos rfl, receive_contained_iff]
        have hdone := result_eq_some.mp hs
        exact ⟨fun h => ⟨hclosed, hstalls, fun _ => h⟩, fun h => h.2.2 hdone⟩
      · rw [if_neg hsent]
        refine iff_of_true ⟨{}, contained_closed⟩ ⟨hclosed, hstalls, ?_⟩
        intro hdone
        exact absurd (Option.some.inj (hs.symm.trans (result_eq_some.mpr hdone))) hsent

lemma tame_iff : Tame env ↔ (env.connect = .stalls → env.sndTimeout = true) ∧
    (env.connect = .done () → Stays env) := by
  constructor
  · rintro ⟨hconnect, hstays, hsend, hrecv, hattached⟩
    exact ⟨hconnect, fun hc => ⟨hstays hc, hsend hc, fun hd => ⟨hrecv hc hd, hattached hc hd⟩⟩⟩
  · rintro ⟨hconnect, h⟩
    exact ⟨hconnect, fun hc => (h hc).1, fun hc => (h hc).2.1, fun hc hd => ((h hc).2.2 hd).1,
      fun hc hd => ((h hc).2.2 hd).2⟩

theorem import_contained_iff (s : Process) (k : ℕ) (env : ImportEnv) (d : QcBufferDescriptor) :
    (∃ impl, Contained k d (fromDescriptorWithEndpoint s k env d) impl) ↔
      (Opens env d → Tame env) := by
  rw [fromDescriptorWithEndpoint]
  by_cases htype : d.elementTypeName = uint8TypeName
  · rw [if_neg (not_not.mpr htype)]
    by_cases hipc : d.useIpc = false ∨ d.ipcSocketPath.isEmpty
    · rw [if_pos hipc]
      refine iff_of_true ⟨{}, contained_unopened⟩ ?_
      rintro ⟨-, huse, hpath, -⟩
      rcases hipc with hipc | hipc
      · exact nomatch hipc.symm.trans huse
      · exact absurd (String.isEmpty_iff.mp hipc) hpath
    · rw [if_neg hipc]
      obtain ⟨huse, hpath⟩ := not_or.mp hipc
      cases hsock : env.socket with
      | none =>
        refine iff_of_true ⟨{}, contained_unopened⟩ ?_
        rintro ⟨-, -, -, hsome⟩
        rw [hsock] at hsome
        exact nomatch hsome
      | some sock =>
        have hopens : Opens env d :=
          ⟨htype, by simpa using huse, mt String.isEmpty_iff.mpr hpath, by rw [hsock]; rfl⟩
        dsimp only
        rw [forall_prop_of_true hopens, tame_iff]
        cases hconnect : env.connect.result env.sndTimeout with
        | none =>
          obtain ⟨hstalls, htimeout⟩ := result_eq_none.mp hconnect
          refine iff_of_false ?_ fun h => nomatch htimeout.symm.trans (h.1 hstalls)
          rintro ⟨impl, hc⟩
          exact nomatch hc.returned
        | some connected =>
          have hstalls : env.connect = .stalls → env.sndTimeout = true := by
            intro he
            by_contra ht
            exact nomatch hconnect.symm.trans (result_eq_none.mpr ⟨he, Bool.eq_false_iff.mpr ht⟩)
          cases connected with
          | none =>
            refine iff_of_true ⟨{}, contained_closed⟩ ⟨hstalls, ?_⟩
            intro hdone
            exact nomatch hconnect.symm.trans (result_eq_some.mpr hdone)
          | some connected =>
            have hdone := result_eq_some.mp hconnect
            dsimp only
            rw [transfer_contained_iff]
            exact ⟨fun h => ⟨hstalls, fun _ => h⟩, fun h => h.2 hdone⟩
  · rw [if_pos htype]
    exact iff_of_true ⟨{}, contained_unopened⟩ fun h => absurd h.1 htype

section Cases

/-- The broker of process 7 closes the connection, which the client has opened but not
sent its uid on for 500 ms. -/
def lateEnv : ImportEnv where
  socket := some 3
  rcvTimeout := true
  sndTimeout := true
  connect := .done ()
  closedBeforeSend := true
  send := .done uidSize
  recvmsg := .done .closed
  room := 2
  mmap := some 4096

/-- A peer that attaches a second descriptor. -/
def generousEnv : ImportEnv :=
  { lateEnv with
    closedBeforeSend := false
    recvmsg := .done (.message kStatusOk [4, 5]) }

def described : QcBufferDescriptor where
  size := 8
  elementTypeName := "h"
  pid := 7
  vaddr := 4096
  uid := 1
  dmabufFd := 10
  dmabufSize := 8
  useIpc := true
  ipcSocketPath := "/tmp/qc_broker_7.sock"

def subscriber : Process := .start 8 true true "/tmp/qc_broker_8.sock"

theorem late_request_kills :
    Opens lateEnv described ∧
      (fromDescriptorWithEndpoint subscriber 0 lateEnv described).ending = .killed ∧
      (fromDescriptorWithEndpoint subscriber 0 generousEnv described).ending =
        .returned ⟨8, some 0⟩ ∧
      ¬ (∃ impl, Contained 0 described
        (fromDescriptorWithEndpoint subscriber 0 lateEnv described) impl) ∧
      ¬ ∃ impl, Contained 0 described
        (fromDescriptorWithEndpoint subscriber 0 generousEnv described) impl := by
  refine ⟨⟨rfl, rfl, by decide, rfl⟩, rfl, rfl, ?_, ?_⟩
  · rintro ⟨impl, hc⟩
    exact nomatch hc.returned
  · rintro ⟨impl, hc⟩
    have hreply : generousEnv.recvmsg.result generousEnv.rcvTimeout =
        some (some (.message kStatusOk [4, 5])) := rfl
    have hleaks : ¬ (([4, 5] : List ℕ).take generousEnv.room = [] ∨
        kStatusOk = kStatusOk ∧ ([4, 5] : List ℕ).length = 1) := by decide
    exact leaked_reply hreply hleaks hc

end Cases

end RosidlBufferBackends.Qc.Import
