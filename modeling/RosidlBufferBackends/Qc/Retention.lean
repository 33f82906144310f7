import RosidlBufferBackends.Lib.Ledger
import RosidlBufferBackends.Qc.FdBroker

/-! The registrations of a running broker, with the files that its process has open. -/

namespace RosidlBufferBackends.Qc.Retention

open Window Runs

/-- A call that made an entry, and the file that it was given. -/
structure Registration where
  uid : ℕ
  fd : ℤ
  dmabufSize : ℕ
  dupFd : ℕ
  file : ℕ
  deriving DecidableEq, Repr

/-- `accepted` and `log` are history: the registrations that made an entry, and what the
broker has duplicated and closed. -/
structure State where
  broker : FdBroker
  files : ℕ → Option ℕ
  accepted : List Registration := []
  log : List (Action ℕ) := []

inductive Event
  | registerBuffer (uid : ℕ) (fd : ℤ) (dmabufSize : ℕ) (dup : Option ℕ)
  | opened (n file : ℕ)
  | closed (n : ℕ)
  deriving DecidableEq, Repr

/-- The descriptors of the table. -/
def dupFds (b : FdBroker) : List ℕ := b.order.filterMap (fun u => (b.table u).map Entry.dupFd)

def closeAll (files : ℕ → Option ℕ) (l : List ℕ) : ℕ → Option ℕ :=
  fun n => if n ∈ l then none else files n

def start (socketPath : String) (files : ℕ → Option ℕ) : State :=
  { broker := { running := true, socketPath := socketPath }, files := files }

/-- `dup` returns a descriptor that is not open, and fails on one that is not. The rest of
the process closes none of the broker's descriptors. -/
def step (s : State) : Event → Option (Unit × State)
  | .registerBuffer uid fd dmabufSize dup =>
    let b := s.broker.registerBuffer uid fd dmabufSize dup
    if s.broker.Registers uid fd dup then
      match dup, s.files fd.toNat with
      | some n, some file =>
        if (s.files n).isSome then none
        else
          let evicted := b.closed.drop s.broker.closed.length
          some ((), {
            broker := b
            files := closeAll (Function.update s.files n (some file)) evicted
            accepted := s.accepted ++ [⟨uid, fd, dmabufSize, n, file⟩]
            log := s.log ++ [.acquire n] ++ evicted.map .release })
      | _, _ => none
    else some ((), { s with broker := b })
  | .opened n file =>
    if (s.files n).isSome then none
    else some ((), { s with files := Function.update s.files n (some file) })
  | .closed n =>
    if n ∈ dupFds s.broker then none
    else some ((), { s with files := Function.update s.files n none })

/-- The broker keeps the last registrations. -/
structure Retained (s : State) : Prop where
  nodup : s.broker.order.Nodup
  keys : ∀ u, (s.broker.table u).isSome ↔ u ∈ s.broker.order
  fits : s.broker.order.length ≤ kCapacity
  last : s.broker.order = (recent kCapacity s.accepted).map Registration.uid
  entries : ∀ r ∈ recent kCapacity s.accepted,
    s.broker.table r.uid = some ⟨r.dupFd, r.dmabufSize⟩ ∧ s.files r.dupFd = some r.file
  evicted : s.broker.closed = (excess kCapacity s.accepted).map Registration.dupFd
  held : ∃ held, Ledger.holds [] s.log = some held ∧ held.Perm (dupFds s.broker)
  distinct : (dupFds s.broker).Nodup

lemma evict_closed (b : FdBroker) {l : List ℕ} (hl : l.Nodup) :
    (b.evict l).closed = b.closed ++
      (excess kCapacity l).filterMap (fun u => (b.table u).map Entry.dupFd) := by
  induction l generalizing b with
  | nil => simp [FdBroker.evict, excess]
  | cons old rest ih =>
    obtain ⟨hold, hrest⟩ := List.nodup_cons.mp hl
    unfold FdBroker.evict
    split_ifs with hlong
    · rw [excess_cons (Nat.lt_succ_iff.mp hlong)]
      cases htable : b.table old with
      | none => simp [ih _ hrest, htable]
      | some entry =>
        have hother : ∀ u ∈ excess kCapacity rest,
            Function.update b.table old none u = b.table u := by
          intro u hu
          apply Function.update_of_ne
          rintro rfl
          exact hold (List.mem_of_mem_take hu)
        have hsame : (excess kCapacity rest).filterMap
            (fun u => (Function.update b.table old none u).map Entry.dupFd) =
            (excess kCapacity rest).filterMap (fun u => (b.table u).map Entry.dupFd) :=
          List.filterMap_congr fun u hu => by rw [hother u hu]
        simp [ih _ hrest, htable, hsame]
    · simp [excess_of_le (Nat.not_lt.mp hlong)]

variable {s t : State} {e : Event} {o : Unit}

lemma Retained.dupFds_eq (h : Retained s) :
    dupFds s.broker = (recent kCapacity s.accepted).map Registration.dupFd := by
  rw [dupFds, h.last, List.filterMap_map, ← List.filterMap_eq_map]
  apply List.filterMap_congr
  intro r hr
  simp [(h.entries r hr).1]

lemma retained_start (socketPath : String) (files : ℕ → Option ℕ) :
    Retained (start socketPath files) where
  nodup := List.nodup_nil
  keys := by simp [start]
  fits := Nat.zero_le _
  last := rfl
  entries := nofun
  evicted := rfl
  held := ⟨[], rfl, .nil⟩
  distinct := List.nodup_nil

lemma Retained.files (h : Retained s) {files : ℕ → Option ℕ}
    (hf : ∀ n ∈ dupFds s.broker, files n = s.files n) : Retained { s with files := files } := by
  refine ⟨h.nodup, h.keys, h.fits, h.last, ?_, h.evicted, h.held, h.distinct⟩
  intro r hr
  obtain ⟨hentry, hopen⟩ := h.entries r hr
  have hmem : r.dupFd ∈ dupFds s.broker := by
    rw [h.dupFds_eq]
    exact List.mem_map_of_mem hr
  exact ⟨hentry, (hf _ hmem).trans hopen⟩

lemma Retained.queued (h : Retained s) {r : Registration} (hnew : s.broker.table r.uid = none)
    {r' : Registration} (hr' : r' ∈ recent kCapacity s.accepted ++ [r]) :
    Function.update s.broker.table r.uid (some ⟨r.dupFd, r.dmabufSize⟩) r'.uid =
      some ⟨r'.dupFd, r'.dmabufSize⟩ := by
  rcases List.mem_append.mp hr' with hold | hlast
  · have hentry := (h.entries r' hold).1
    have hne : r'.uid ≠ r.uid := by
      intro he
      rw [he, hnew] at hentry
      exact nomatch hentry
    rw [Function.update_of_ne hne, hentry]
  · obtain rfl := List.mem_singleton.mp hlast
    exact Function.update_self ..

/-- A registration moves the window by one, and closes what leaves it. -/
lemma Retained.moves (h : Retained s) {r : Registration}
    (hr : s.broker.Registers r.uid r.fd (some r.dupFd)) :
    let b := s.broker.registerBuffer r.uid r.fd r.dmabufSize (some r.dupFd)
    let queue := recent kCapacity s.accepted ++ [r]
    b.order = (recent kCapacity queue).map Registration.uid ∧
      (∀ r' ∈ recent kCapacity queue, b.table r'.uid = some ⟨r'.dupFd, r'.dmabufSize⟩) ∧
      b.closed = s.broker.closed ++ (excess kCapacity queue).map Registration.dupFd := by
  intro b queue
  have hnew : s.broker.table r.uid = none := hr.2.2.2.1
  have hqueue : s.broker.order ++ [r.uid] = queue.map Registration.uid := by
    rw [h.last, List.map_append]
    rfl
  have hnodup : (queue.map Registration.uid).Nodup := by
    rw [← hqueue, List.nodup_append_comm]
    refine List.nodup_cons.mpr ⟨?_, h.nodup⟩
    intro hmem
    have hsome := (h.keys r.uid).mpr hmem
    rw [hnew] at hsome
    exact nomatch hsome
  have hb : b = _ := FdBroker.registerBuffer_eq r.dmabufSize hr
  obtain ⟨horder, htable, -⟩ := FdBroker.evict_eq
    { s.broker with
      table := Function.update s.broker.table r.uid (some ⟨r.dupFd, r.dmabufSize⟩) }
    (s.broker.order ++ [r.uid])
  have hclosed := evict_closed
    { s.broker with
      table := Function.update s.broker.table r.uid (some ⟨r.dupFd, r.dmabufSize⟩) }
    (hqueue ▸ hnodup)
  rw [← hb, hqueue] at horder htable hclosed
  have hopened : (excess kCapacity queue).filterMap (fun r' =>
      (Function.update s.broker.table r.uid (some ⟨r.dupFd, r.dmabufSize⟩) r'.uid).map
        Entry.dupFd) =
      (excess kCapacity queue).filterMap (some ∘ Registration.dupFd) :=
    List.filterMap_congr fun r' hr' =>
      congrArg (Option.map Entry.dupFd) (h.queued hnew (List.mem_of_mem_take hr'))
  refine ⟨by rw [horder, recent_map], ?_, ?_⟩
  · intro r' hr'
    have hkept : r'.uid ∉ excess kCapacity (queue.map Registration.uid) := by
      refine ((mem_recent hnodup).mp ?_).2
      rw [recent_map]
      exact List.mem_map_of_mem hr'
    rw [htable, if_neg hkept]
    exact h.queued hnew (List.mem_of_mem_drop hr')
  · rw [hclosed, excess_map, List.filterMap_map, ← List.filterMap_eq_map, ← hopened]
    rfl

lemma Retained.register (h : Retained s) {r : Registration}
    (hr : s.broker.Registers r.uid r.fd (some r.dupFd)) (hfree : s.files r.dupFd = none) :
    let b := s.broker.registerBuffer r.uid r.fd r.dmabufSize (some r.dupFd)
    let evicted := b.closed.drop s.broker.closed.length
    Retained {
      broker := b
      files := closeAll (Function.update s.files r.dupFd (some r.file)) evicted
      accepted := s.accepted ++ [r]
      log := s.log ++ [.acquire r.dupFd] ++ evicted.map .release } := by
  intro b evicted
  let queue := recent kCapacity s.accepted ++ [r]
  have hqueue : recent kCapacity queue = recent kCapacity (s.accepted ++ [r]) := recent_push
  have hwindow : b.Windowed := FdBroker.windowed_registerBuffer ⟨h.nodup, h.keys, h.fits⟩
  obtain ⟨hlast, htable, hclosed⟩ : b.order = (recent kCapacity queue).map Registration.uid ∧
      (∀ r' ∈ recent kCapacity queue, b.table r'.uid = some ⟨r'.dupFd, r'.dmabufSize⟩) ∧
      b.closed = s.broker.closed ++ (excess kCapacity queue).map Registration.dupFd := h.moves hr
  have hevicted : evicted = (excess kCapacity queue).map Registration.dupFd := by
    change b.closed.drop _ = _
    rw [hclosed, List.drop_left]
  have hfresh : r.dupFd ∉ dupFds s.broker := by
    rw [h.dupFds_eq]
    intro hmem
    obtain ⟨r', hr', he⟩ := List.mem_map.mp hmem
    have hopen := (h.entries r' hr').2
    rw [he, hfree] at hopen
    exact nomatch hopen
  have hdups : (queue.map Registration.dupFd).Nodup := by
    rw [List.map_append, ← h.dupFds_eq, List.map_singleton, List.nodup_append_comm]
    exact List.nodup_cons.mpr ⟨hfresh, h.distinct⟩
  have hsplit : queue.map Registration.dupFd = evicted ++
      (recent kCapacity queue).map Registration.dupFd := by
    rw [hevicted, ← List.map_append, excess_append_recent]
  have hentries : ∀ r' ∈ recent kCapacity queue,
      b.table r'.uid = some ⟨r'.dupFd, r'.dmabufSize⟩ ∧
        closeAll (Function.update s.files r.dupFd (some r.file)) evicted r'.dupFd =
          some r'.file := by
    intro r' hr'
    have hkept : r'.dupFd ∉ evicted := by
      rw [hsplit] at hdups
      intro hx
      exact List.disjoint_of_nodup_append hdups hx (List.mem_map_of_mem hr')
    refine ⟨htable r' hr', ?_⟩
    rw [closeAll, if_neg hkept]
    rcases List.mem_append.mp (List.mem_of_mem_drop hr') with hold | hnewest
    · have hopen := (h.entries r' hold).2
      rw [Function.update_of_ne, hopen]
      intro he
      rw [he, hfree] at hopen
      exact nomatch hopen
    · obtain rfl := List.mem_singleton.mp hnewest
      exact Function.update_self ..
  have hdupFds : dupFds b = (recent kCapacity queue).map Registration.dupFd := by
    rw [dupFds, hlast, List.filterMap_map, ← List.filterMap_eq_map]
    apply List.filterMap_congr
    intro r' hr'
    simp [htable r' hr']
  refine ⟨hwindow.nodup, hwindow.listed, hwindow.fits, hqueue ▸ hlast, hqueue ▸ hentries,
    ?_, ?_, ?_⟩
  · rw [← excess_push, List.map_append, ← h.evicted]
    exact hclosed
  · obtain ⟨held, hholds, hperm⟩ := h.held
    have hpushed : (r.dupFd :: held).Perm (evicted ++ dupFds b) := by
      rw [hdupFds, ← hsplit, List.map_append, ← h.dupFds_eq]
      exact (hperm.cons r.dupFd).trans (List.perm_append_singleton r.dupFd _).symm
    obtain ⟨rest, hrest, hperm'⟩ := Ledger.holds_release_some hpushed
    refine ⟨rest, ?_, hperm'⟩
    rw [Ledger.holds_append, Ledger.holds_append, hholds]
    exact hrest
  · rw [hsplit, ← hdupFds] at hdups
    exact hdups.of_append_right

lemma step_retained (h : Retained s) (hs : step s e = some (o, t)) : Retained t := by
  cases e with
  | registerBuffer uid fd dmabufSize dup =>
    simp only [step] at hs
    by_cases hr : s.broker.Registers uid fd dup
    · rw [if_pos hr] at hs
      cases dup with
      | none => exact nomatch hs
      | some n =>
        cases hfile : s.files fd.toNat with
        | none =>
          rw [hfile] at hs
          exact nomatch hs
        | some file =>
          rw [hfile] at hs
          dsimp only at hs
          split_ifs at hs with hopen
          obtain rfl := (Prod.mk.inj (Option.some.inj hs)).2
          exact h.register (r := ⟨uid, fd, dmabufSize, n, file⟩) hr (by simpa using hopen)
    · rw [if_neg hr, FdBroker.registerBuffer_of_not hr] at hs
      obtain rfl := (Prod.mk.inj (Option.some.inj hs)).2
      exact h
  | opened n file =>
    simp only [step] at hs
    split_ifs at hs with hopen
    obtain rfl := (Prod.mk.inj (Option.some.inj hs)).2
    apply h.files
    intro n' hn'
    apply Function.update_of_ne
    rintro rfl
    obtain ⟨r, hr, rfl⟩ := List.mem_map.mp (h.dupFds_eq ▸ hn')
    rw [(h.entries r hr).2] at hopen
    exact hopen rfl
  | closed n =>
    simp only [step] at hs
    split_ifs at hs with hmem
    obtain rfl := (Prod.mk.inj (Option.some.inj hs)).2
    apply h.files
    intro n' hn'
    apply Function.update_of_ne
    rintro rfl
    exact hmem hn'

theorem broker_window {socketPath : String} {files : ℕ → Option ℕ} {tr : List (Event × Unit)}
    (hr : Run step (start socketPath files) tr s) : Retained s :=
  hr.invariant (retained_start socketPath files) fun _ _ _ _ h hs => step_retained h hs

/-- Descriptor 3 is the only one that is open. -/
def files : ℕ → Option ℕ := fun n => if n = 3 then some 100 else none

/-- 64 buffers fill the window, one is registered twice, one `dup` fails, and the next
buffer evicts the first one. -/
def registrations : List Event :=
  (List.range 64).map (fun k => .registerBuffer (k + 1) 3 8 (some (k + 4))) ++
    [.registerBuffer 1 3 8 (some 90), .registerBuffer 65 3 8 none,
      .registerBuffer 65 3 16 (some 90)]

theorem broker_window_once : ∃ tr s, Run step (start "/tmp/qc_broker_7.sock" files) tr s ∧
    s.accepted.length = 65 ∧ s.broker.closed = [4] ∧ Retained s := by
  have hlast : (exec step (start "/tmp/qc_broker_7.sock" files) registrations).any (fun x =>
      x.2.accepted.length = 65 ∧ x.2.broker.closed = [4]) = true := by decide +kernel
  obtain ⟨⟨tr, s⟩, hx, hlast⟩ := Option.any_eq_true _ _ |>.mp hlast
  obtain ⟨hlen, hclosed⟩ := of_decide_eq_true hlast
  exact ⟨tr, s, exec_run hx, hlen, hclosed, broker_window (exec_run hx)⟩

end RosidlBufferBackends.Qc.Retention
