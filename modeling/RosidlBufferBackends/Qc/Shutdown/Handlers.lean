import RosidlBufferBackends.Qc.Shutdown.Threads

/-! What the threads of the broker keep, and the steps of a handler. -/

namespace RosidlBufferBackends.Qc.Shutdown

open Inventory State

variable {s s' : State} {c c' n : ℕ} {conn conn' : Connection} {h : Holder} {l : List ℕ}

/-- A connection with its descriptors. -/
structure Served (s : State) (c : ℕ) (conn : Connection) : Prop where
  decremented : conn.decrements = if conn.next.left then 1 else 0
  closes : s.closes (.connection c) = if conn.next.closed then 1 else 0
  connOpen : conn.next.closed = false → s.files conn.connFd = some (.connection c)
  duplicates : s.closes (.duplicate c) = if conn.tmpFd.isSome ∧ conn.next.tmpClosed then 1 else 0
  tmpOpen : ∀ n, conn.tmpFd = some n → conn.next.tmpClosed = false → s.files n = some (.duplicate c)
  undivided : conn.next.undivided = true → conn.tmpFd = none

structure Kept (s : State) : Prop where
  served : ∀ c conn, s.connections c = some conn → Served s c conn
  active : s.activeConnections = active s
  fresh : ∀ c, s.nextConnection ≤ c → s.connections c = none ∧ s.closes (.connection c) = 0 ∧
    s.closes (.duplicate c) = 0
  faults : s.faults = 0
  server : ∀ n, s.serverFd = some n → s.files n = some .server
  entries : ∀ u e, s.broker.table u = some e → s.files e.dupFd = some (.entry u)
  windowed : s.destructor ≠ .unlock → s.destructor ≠ .destroyed → s.broker.Windowed

/-- The worker is done when the destructor has joined it. -/
def Destructor.joined : Destructor → Bool
  | .idle | .closeServer | .join => false
  | _ => true

/-- The threads are where the others expect them. -/
structure Staged (s : State) : Prop where
  accepted : ∀ c conn, s.connections c = some conn → conn.next = .accepted → s.worker = .count c
  counted : ∀ c conn, s.connections c = some conn → conn.next = .counted → s.worker = .spawn c
  counting : ∀ c conn, s.worker = .count c → s.connections c = some conn → conn.next = .accepted
  spawning : ∀ c conn, s.worker = .spawn c → s.connections c = some conn → conn.next = .counted
  joined : s.destructor.joined = true → s.worker = .ended
  waited : s.destructor.passed = true → ∀ c conn, s.connections c = some conn →
    conn.next.left = true

section Files

lemma close_some (hn : s.files n = some h) : s.close n = { s with
    files := Function.update s.files n none
    closes := Function.update s.closes h (s.closes h + 1) } := by
  unfold State.close
  rw [hn]

/-- The holders other than `h` keep their descriptors. -/
structure Spares (s s' : State) (p : Holder → Prop) : Prop where
  files : ∀ n h, ¬ p h → s.files n = some h → s'.files n = some h
  closes : ∀ h, ¬ p h → s'.closes h = s.closes h

lemma spares_same {p : Holder → Prop} (hfiles : s'.files = s.files)
    (hcloses : s'.closes = s.closes) : Spares s s' p :=
  ⟨fun _ _ _ h => hfiles ▸ h, fun _ _ => by rw [hcloses]⟩

lemma spares_close {p : Holder → Prop} (hn : s.files n = some h) (hp : p h) :
    Spares s (s.close n) p := by
  rw [close_some hn]
  constructor
  · intro n' h' hnot hn'
    have hne : n' ≠ n := by
      rintro rfl
      obtain rfl := Option.some.inj (hn.symm.trans hn')
      exact hnot hp
    exact (Function.update_of_ne hne _ _).trans hn'
  · intro h' hnot
    apply Function.update_of_ne
    rintro rfl
    exact hnot hp

lemma spares_open {p : Holder → Prop} (hn : s.files n = none) : Spares s (s.openFor n h) p := by
  refine ⟨?_, fun _ _ => rfl⟩
  intro n' h' _ hn'
  have hne : n' ≠ n := by
    rintro rfl
    exact nomatch hn.symm.trans hn'
  exact (Function.update_of_ne hne _ _).trans hn'

lemma Served.spared {p : Holder → Prop} (h : Served s c conn) (hs : Spares s s' p)
    (hc : ¬ p (.connection c)) (hd : ¬ p (.duplicate c)) : Served s' c conn := by
  refine ⟨h.decremented, (hs.closes _ hc).trans h.closes, ?_, (hs.closes _ hd).trans h.duplicates,
    ?_, h.undivided⟩
  · exact fun hopen => hs.files _ _ hc (h.connOpen hopen)
  · exact fun n hn hopen => hs.files _ _ hd (h.tmpOpen n hn hopen)

end Files

section Handlers

/-- The holders of a handler. -/
def Mine (c : ℕ) (h : Holder) : Prop := h = .connection c ∨ h = .duplicate c

lemma not_mine (hne : c' ≠ c) : ¬ Mine c (.connection c') ∧ ¬ Mine c (.duplicate c') := by
  constructor
  · rintro (he | he)
    · exact hne (Holder.connection.inj he)
    · exact nomatch he
  · rintro (he | he)
    · exact nomatch he
    · exact hne (Holder.duplicate.inj he)

lemma Kept.lt (h : Kept s) (hc : s.connections c = some conn) : c < s.nextConnection := by
  by_contra hle
  exact nomatch (h.fresh c (not_lt.mp hle)).1.symm.trans hc

/-- Of the connections one changes, with descriptors of its own. -/
lemma Kept.own (h : Kept s) (hc : s.connections c = some conn)
    (hconn : s'.connections = Function.update s.connections c (some conn'))
    (hspares : Spares s s' (Mine c)) (hserved : Served s' c conn')
    (hactive : s'.activeConnections + conn.next.outstanding =
      s.activeConnections + conn'.next.outstanding)
    (hn : s'.nextConnection = s.nextConnection) (hfaults : s'.faults = 0)
    (hserver : s'.serverFd = s.serverFd) (hbroker : s'.broker = s.broker)
    (hdestructor : s'.destructor = s.destructor) : Kept s' := by
  have hlt := h.lt hc
  refine ⟨?_, ?_, ?_, hfaults, ?_, ?_, ?_⟩
  · intro c' conn₀ hc'
    rw [hconn] at hc'
    rcases update_some hc' with ⟨rfl, he⟩ | ⟨hne, hc'⟩
    · obtain rfl := Option.some.inj he
      exact hserved
    · exact (h.served c' conn₀ hc').spared hspares (not_mine hne).1 (not_mine hne).2
  · have htotal := total_update (f := s.connections) (w := fun conn => conn.next.outstanding) hlt
      (some conn')
    rw [hc] at htotal
    simp only [Option.elim_some] at htotal
    have hold := h.active
    unfold Shutdown.active at hold ⊢
    rw [hn, hconn]
    omega
  · intro c' hle
    rw [hn] at hle
    have hne : c' ≠ c := (hlt.trans_le hle).ne'
    obtain ⟨hnone, hcloses, hdups⟩ := h.fresh c' hle
    refine ⟨?_, ?_, ?_⟩
    · rw [hconn, Function.update_of_ne hne, hnone]
    · rw [hspares.closes _ (not_mine hne).1, hcloses]
    · rw [hspares.closes _ (not_mine hne).2, hdups]
  · intro n hs
    rw [hserver] at hs
    exact hspares.files n _ (by rintro (he | he) <;> exact nomatch he) (h.server n hs)
  · intro u e he
    rw [hbroker] at he
    exact hspares.files _ _ (by rintro (he | he) <;> exact nomatch he) (h.entries u e he)
  · rw [hbroker, hdestructor]
    exact h.windowed

/-- What a step of a handler leaves as it is. -/
structure Handles (s : State) (c : ℕ) (conn : Connection) (s' : State) (conn' : Connection) :
    Prop where
  connections : s'.connections = Function.update s.connections c (some conn')
  spares : Spares s s' (Mine c)
  served : Served s' c conn'
  active : s'.activeConnections + conn.next.outstanding =
    s.activeConnections + conn'.next.outstanding
  nextConnection : s'.nextConnection = s.nextConnection
  faults : s'.faults = 0
  serverFd : s'.serverFd = s.serverFd
  broker : s'.broker = s.broker
  destructor : s'.destructor = s.destructor
  worker : s'.worker = s.worker
  started : conn.next ≠ .accepted ∧ conn.next ≠ .counted
  starts : conn'.next ≠ .accepted ∧ conn'.next ≠ .counted
  left : conn.next.left = true → conn'.next.left = true

lemma Served.goto (h : Served s c conn) {next : Handler} (hfiles : s'.files = s.files)
    (hcloses : s'.closes = s.closes) (hleft : next.left = conn.next.left)
    (hclosed : next.closed = conn.next.closed)
    (htmp : conn.tmpFd.isSome = true → next.tmpClosed = conn.next.tmpClosed)
    (hundivided : next.undivided = true → conn.tmpFd = none) :
    Served s' c { conn with next := next } := by
  have hdups : (conn.tmpFd.isSome = true ∧ next.tmpClosed = true) ↔
      (conn.tmpFd.isSome = true ∧ conn.next.tmpClosed = true) :=
    and_congr_right fun hsome => by rw [htmp hsome]
  constructor
  · exact hleft ▸ h.decremented
  · rw [hcloses, hclosed]
    exact h.closes
  · rw [hfiles, hclosed]
    exact h.connOpen
  · rw [hcloses, h.duplicates]
    simp only [hdups]
  · intro n hn hopen
    rw [hfiles]
    exact h.tmpOpen n hn (htmp (by rw [hn]; rfl) ▸ hopen)
  · exact hundivided

lemma handles_goto (h : Kept s) (hc : s.connections c = some conn) (owner : Option Owner)
    {pc next : Handler} (hpc : conn.next = pc) (hleft : next.left = pc.left)
    (hclosed : next.closed = pc.closed)
    (htmp : conn.tmpFd.isSome = true → next.tmpClosed = pc.tmpClosed)
    (hundivided : next.undivided = true → conn.tmpFd = none)
    (hout : next.outstanding = pc.outstanding) (hstarted : pc ≠ .accepted ∧ pc ≠ .counted)
    (hstarts : next ≠ .accepted ∧ next ≠ .counted) :
    Handles s c conn ((s.setMutex owner).goto c conn next) { conn with next := next } := by
  subst hpc
  refine ⟨rfl, (spares_same rfl rfl), ?_, ?_, rfl, h.faults, rfl, rfl, rfl, rfl,
    hstarted, hstarts, hleft ▸ id⟩
  · exact (h.served c conn hc).goto rfl rfl hleft hclosed htmp hundivided
  · rw [hout]
    rfl

lemma handles_close (h : Kept s) (hc : s.connections c = some conn) {next : Handler}
    {pc : Handler} (hpc : conn.next = pc) (hopen : pc.closed = false) (hleft : next.left = pc.left)
    (hclosed : next.closed = true)
    (htmp : conn.tmpFd.isSome = true → pc.tmpClosed = true ∧ next.tmpClosed = true)
    (hundivided : next.undivided = true → conn.tmpFd = none)
    (hout : next.outstanding = pc.outstanding) (hstarted : pc ≠ .accepted ∧ pc ≠ .counted)
    (hstarts : next ≠ .accepted ∧ next ≠ .counted) :
    Handles s c conn ((s.close conn.connFd).goto c conn next) { conn with next := next } := by
  subst hpc
  have hs := h.served c conn hc
  have hfile := hs.connOpen hopen
  have hne : Holder.duplicate c ≠ .connection c := nofun
  have hspares := spares_close hfile (show Mine c (.connection c) from .inl rfl)
  rw [close_some hfile] at hspares ⊢
  refine ⟨rfl, ⟨hspares.files, hspares.closes⟩, ?_, by rw [hout]; rfl, rfl, h.faults, rfl,
    rfl, rfl, rfl, hstarted, hstarts, hleft ▸ id⟩
  constructor
  · exact hleft ▸ hs.decremented
  · have hzero := hs.closes
    rw [hopen, if_neg Bool.false_ne_true] at hzero
    rw [hclosed, if_pos rfl]
    change Function.update s.closes (.connection c) _ (.connection c) = 1
    rw [Function.update_self, hzero]
  · exact fun hno => absurd (hclosed.symm.trans hno) nofun
  · have hkept : Function.update s.closes (.connection c) (s.closes (.connection c) + 1)
        (.duplicate c) = s.closes (.duplicate c) := Function.update_of_ne hne _ _
    refine hkept.trans (hs.duplicates.trans ?_)
    congr 1
    rw [eq_iff_iff]
    exact and_congr_right fun hsome => by rw [(htmp hsome).1, (htmp hsome).2]
  · intro n hn hno
    rw [(htmp (by rw [hn]; rfl)).2] at hno
    exact nomatch hno
  · exact hundivided

lemma handles_closeTmp (h : Kept s) (hc : s.connections c = some conn)
    (hpc : conn.next = .closeTmp) (hn : conn.tmpFd = some n) :
    Handles s c conn ((s.close n).goto c conn .close) { conn with next := .close } := by
  have hs := h.served c conn hc
  have hfile := hs.tmpOpen n hn (by rw [hpc]; rfl)
  have hne : Holder.connection c ≠ .duplicate c := nofun
  have hspares := spares_close hfile (show Mine c (.duplicate c) from .inr rfl)
  rw [close_some hfile] at hspares ⊢
  refine ⟨rfl, ⟨hspares.files, hspares.closes⟩, ?_, by rw [hpc]; rfl, rfl, h.faults, rfl, rfl, rfl,
    rfl, by rw [hpc]; exact ⟨nofun, nofun⟩, ⟨nofun, nofun⟩, by rw [hpc]; exact nofun⟩
  have hclosed := hs.closes
  have hdups := hs.duplicates
  have hopen := hs.connOpen
  rw [hpc] at hclosed hdups hopen
  constructor
  · exact hs.decremented.trans (by rw [hpc]; rfl)
  · have hkept : Function.update s.closes (.duplicate c) (s.closes (.duplicate c) + 1)
        (.connection c) = s.closes (.connection c) := Function.update_of_ne hne _ _
    exact hkept.trans hclosed
  · intro _
    refine (Function.update_of_ne ?_ _ _).trans (hopen rfl)
    rintro rfl
    exact nomatch hfile.symm.trans (hopen rfl)
  · rw [if_neg (fun hno => nomatch hno.2)] at hdups
    change Function.update s.closes (.duplicate c) _ (.duplicate c) = _
    rw [Function.update_self, hdups, if_pos ⟨by rw [hn]; rfl, rfl⟩]
  · exact fun _ _ hno => nomatch hno
  · exact nofun

lemma handles_dup (h : Kept s) (hc : s.connections c = some conn) {uid : ℕ}
    (hpc : conn.next = .find uid) (hfree : s.files n = none) :
    Handles s c conn ((s.openFor n (.duplicate c)).goto c { conn with tmpFd := some n } .unlock)
      { conn with tmpFd := some n, next := .unlock } := by
  have hs := h.served c conn hc
  have hspares := spares_open (h := .duplicate c) (p := Mine c) hfree
  refine ⟨rfl, ⟨hspares.files, hspares.closes⟩, ?_, by rw [hpc]; rfl, rfl, h.faults, rfl, rfl, rfl,
    rfl, by rw [hpc]; exact ⟨nofun, nofun⟩, ⟨nofun, nofun⟩, by rw [hpc]; exact nofun⟩
  have hclosed := hs.closes
  have hdups := hs.duplicates
  have hopen := hs.connOpen
  rw [hpc] at hclosed hdups hopen
  constructor
  · exact hs.decremented.trans (by rw [hpc]; rfl)
  · exact hclosed
  · intro _
    have hfile := hopen rfl
    refine (Function.update_of_ne ?_ _ _).trans hfile
    intro he
    rw [he, hfree] at hfile
    exact nomatch hfile
  · exact hdups.trans (by rw [if_neg (fun hno => nomatch hno.2), if_neg (fun hno => nomatch hno.2)])
  · rintro _ ⟨⟩ _
    exact Function.update_self ..
  · exact nofun

lemma handles_leave (h : Kept s) (hc : s.connections c = some conn) {next : Handler}
    (hpc : conn.next = .countMissed ∧ next = .unlockMissed ∨ conn.next = .count ∧ next = .ended) :
    Handles s c conn (s.leave c conn next)
      { conn with next := next, decrements := conn.decrements + 1 } := by
  have hs := h.served c conn hc
  have hdec := hs.decremented
  have hclosed := hs.closes
  have hdups := hs.duplicates
  have hund := hs.undivided
  have htmp := hs.tmpOpen
  have hspares : Spares s (s.leave c conn next) (Mine c) :=
    spares_same rfl rfl
  rcases hpc with ⟨hpc, rfl⟩ | ⟨hpc, rfl⟩
  · rw [hpc] at hdec hclosed hdups hund htmp
    refine ⟨rfl, hspares, ?_, ?_, rfl, h.faults, rfl, rfl, rfl, rfl, ?_, ⟨nofun, nofun⟩, ?_⟩
    · exact ⟨congrArg (· + 1) hdec, hclosed, nofun, hdups, htmp, hund⟩
    · rw [hpc]
      change s.activeConnections - 1 + 1 = s.activeConnections + 0
      omega
    · rw [hpc]
      exact ⟨nofun, nofun⟩
    · exact fun _ => rfl
  · rw [hpc] at hdec hclosed hdups hund htmp
    refine ⟨rfl, hspares, ?_, ?_, rfl, h.faults, rfl, rfl, rfl, rfl, ?_, ⟨nofun, nofun⟩, ?_⟩
    · exact ⟨congrArg (· + 1) hdec, hclosed, nofun, hdups, htmp, hund⟩
    · rw [hpc]
      change s.activeConnections - 1 + 1 = s.activeConnections + 0
      omega
    · rw [hpc]
      exact ⟨nofun, nofun⟩
    · exact fun _ => rfl

lemma handleConnection_handles (h : Kept s) (hc : s.connections c = some conn) {result : Option ℕ}
    (ha : s.handleConnection c conn result = some s') : ∃ conn', Handles s c conn s' conn' := by
  have hund := (h.served c conn hc).undivided
  unfold handleConnection at ha
  cases hpc : conn.next with
  | accepted | counted | ended =>
    simp only [hpc] at ha
    exact nomatch ha
  | recv =>
    have hnone : conn.tmpFd = none := hund (by rw [hpc]; rfl)
    simp only [hpc] at ha
    cases result with
    | none =>
      obtain rfl := Option.some.inj ha
      exact ⟨_, handles_goto h hc s.mutex hpc rfl rfl (by rw [hnone]; exact nofun)
        (fun _ => hnone) rfl ⟨nofun, nofun⟩ ⟨nofun, nofun⟩⟩
    | some uid =>
      obtain rfl := Option.some.inj ha
      exact ⟨_, handles_goto h hc s.mutex hpc rfl rfl (fun _ => rfl) (fun _ => hnone) rfl
        ⟨nofun, nofun⟩ ⟨nofun, nofun⟩⟩
  | lock uid =>
    have hnone : conn.tmpFd = none := hund (by rw [hpc]; rfl)
    simp only [hpc] at ha
    split_ifs at ha
    obtain rfl := Option.some.inj ha
    exact ⟨_, handles_goto h hc _ hpc rfl rfl (fun _ => rfl) (fun _ => hnone) rfl
      ⟨nofun, nofun⟩ ⟨nofun, nofun⟩⟩
  | find uid =>
    have hnone : conn.tmpFd = none := hund (by rw [hpc]; rfl)
    simp only [hpc] at ha
    split at ha
    · obtain rfl := Option.some.inj ha
      exact ⟨_, handles_goto h hc s.mutex hpc rfl rfl (fun _ => rfl) (fun _ => hnone) rfl
        ⟨nofun, nofun⟩ ⟨nofun, nofun⟩⟩
    · cases result with
      | none =>
        obtain rfl := Option.some.inj ha
        exact ⟨_, handles_goto h hc s.mutex hpc rfl rfl (fun _ => rfl) nofun rfl
          ⟨nofun, nofun⟩ ⟨nofun, nofun⟩⟩
      | some n =>
        dsimp only at ha
        split_ifs at ha with hfree
        obtain rfl := Option.some.inj ha
        exact ⟨_, handles_dup h hc hpc (by simpa using hfree)⟩
  | sendMiss =>
    have hnone : conn.tmpFd = none := hund (by rw [hpc]; rfl)
    simp only [hpc] at ha
    obtain rfl := Option.some.inj ha
    exact ⟨_, handles_goto h hc s.mutex hpc rfl rfl (fun _ => rfl) (fun _ => hnone) rfl
      ⟨nofun, nofun⟩ ⟨nofun, nofun⟩⟩
  | closeMissed =>
    have hnone : conn.tmpFd = none := hund (by rw [hpc]; rfl)
    simp only [hpc] at ha
    obtain rfl := Option.some.inj ha
    exact ⟨_, handles_close h hc hpc rfl rfl rfl (by rw [hnone]; exact nofun) (fun _ => hnone) rfl
      ⟨nofun, nofun⟩ ⟨nofun, nofun⟩⟩
  | countMissed =>
    simp only [hpc] at ha
    obtain rfl := Option.some.inj ha
    exact ⟨_, handles_leave h hc (.inl ⟨hpc, rfl⟩)⟩
  | unlockMissed =>
    have hnone : conn.tmpFd = none := hund (by rw [hpc]; rfl)
    simp only [hpc] at ha
    obtain rfl := Option.some.inj ha
    exact ⟨_, handles_goto h hc none hpc rfl rfl (by rw [hnone]; exact nofun) nofun rfl
      ⟨nofun, nofun⟩ ⟨nofun, nofun⟩⟩
  | unlock =>
    simp only [hpc] at ha
    split at ha
    · rename_i hnone
      obtain rfl := Option.some.inj ha
      exact ⟨_, handles_goto h hc none hpc rfl rfl (fun _ => rfl) (fun _ => hnone) rfl
        ⟨nofun, nofun⟩ ⟨nofun, nofun⟩⟩
    · obtain rfl := Option.some.inj ha
      exact ⟨_, handles_goto h hc none hpc rfl rfl (fun _ => rfl) nofun rfl
        ⟨nofun, nofun⟩ ⟨nofun, nofun⟩⟩
  | refuse =>
    have hnone : conn.tmpFd = none := hund (by rw [hpc]; rfl)
    simp only [hpc] at ha
    obtain rfl := Option.some.inj ha
    exact ⟨_, handles_goto h hc s.mutex hpc rfl rfl (by rw [hnone]; exact nofun) nofun rfl
      ⟨nofun, nofun⟩ ⟨nofun, nofun⟩⟩
  | sendmsg =>
    simp only [hpc] at ha
    obtain rfl := Option.some.inj ha
    exact ⟨_, handles_goto h hc s.mutex hpc rfl rfl (fun _ => rfl) nofun rfl
      ⟨nofun, nofun⟩ ⟨nofun, nofun⟩⟩
  | closeTmp =>
    simp only [hpc] at ha
    split at ha
    · exact nomatch ha
    · rename_i n hn
      obtain rfl := Option.some.inj ha
      exact ⟨_, handles_closeTmp h hc hpc hn⟩
  | close =>
    simp only [hpc] at ha
    obtain rfl := Option.some.inj ha
    exact ⟨_, handles_close h hc hpc rfl rfl rfl (fun _ => ⟨rfl, rfl⟩) nofun rfl
      ⟨nofun, nofun⟩ ⟨nofun, nofun⟩⟩
  | count =>
    simp only [hpc] at ha
    obtain rfl := Option.some.inj ha
    exact ⟨_, handles_leave h hc (.inr ⟨hpc, rfl⟩)⟩

lemma Handles.kept (ha : Handles s c conn s' conn') (h : Kept s)
    (hc : s.connections c = some conn) : Kept s' :=
  h.own hc ha.connections ha.spares ha.served ha.active ha.nextConnection ha.faults ha.serverFd
    ha.broker ha.destructor

/-- Of the connections one changes, which the worker is done with. -/
lemma Handles.staged (ha : Handles s c conn s' conn') (h : Staged s)
    (hc : s.connections c = some conn) : Staged s' := by
  have hlook : ∀ {c' conn₀}, s'.connections c' = some conn₀ →
      (c' = c ∧ conn₀ = conn') ∨ s.connections c' = some conn₀ := by
    intro c' conn₀ hc'
    rw [ha.connections] at hc'
    rcases update_some hc' with ⟨rfl, he⟩ | ⟨-, hc'⟩
    · exact .inl ⟨rfl, (Option.some.inj he).symm⟩
    · exact .inr hc'
  refine ⟨?_, ?_, ?_, ?_, ?_, ?_⟩
  · intro c' conn₀ hc' hpc
    rw [ha.worker]
    rcases hlook hc' with ⟨-, rfl⟩ | hc'
    · exact absurd hpc ha.starts.1
    · exact h.accepted c' conn₀ hc' hpc
  · intro c' conn₀ hc' hpc
    rw [ha.worker]
    rcases hlook hc' with ⟨-, rfl⟩ | hc'
    · exact absurd hpc ha.starts.2
    · exact h.counted c' conn₀ hc' hpc
  · intro c' conn₀ hw hc'
    rw [ha.worker] at hw
    rcases hlook hc' with ⟨rfl, rfl⟩ | hc'
    · exact absurd (h.counting _ conn hw hc) ha.started.1
    · exact h.counting c' conn₀ hw hc'
  · intro c' conn₀ hw hc'
    rw [ha.worker] at hw
    rcases hlook hc' with ⟨rfl, rfl⟩ | hc'
    · exact absurd (h.spawning _ conn hw hc) ha.started.2
    · exact h.spawning c' conn₀ hw hc'
  · rw [ha.destructor, ha.worker]
    exact h.joined
  · intro hpassed c' conn₀ hc'
    rw [ha.destructor] at hpassed
    rcases hlook hc' with ⟨rfl, rfl⟩ | hc'
    · exact ha.left (h.waited hpassed _ conn hc)
    · exact h.waited hpassed c' conn₀ hc'

end Handlers

end RosidlBufferBackends.Qc.Shutdown
