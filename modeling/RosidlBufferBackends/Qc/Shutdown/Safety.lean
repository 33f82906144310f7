import RosidlBufferBackends.Qc.Shutdown.Handlers

/-! The steps of the worker and the destructor, and the runs of all threads. -/

namespace RosidlBufferBackends.Qc.Shutdown

open Runs Inventory State

variable {s s' : State} {c c' n : ℕ} {conn conn' : Connection} {h : Holder} {l : List ℕ}

section Worker

lemma Kept.worker (h : Kept s) (w : Worker) : Kept { s with worker := w } :=
  ⟨fun c conn hc => ⟨(h.served c conn hc).1, (h.served c conn hc).2, (h.served c conn hc).3,
    (h.served c conn hc).4, (h.served c conn hc).5, (h.served c conn hc).6⟩, h.active, h.fresh,
    h.faults, h.server, h.entries, h.windowed⟩

lemma Staged.worker (h : Staged s) {w : Worker}
    (hs : ∀ c, s.worker ≠ .count c ∧ s.worker ≠ .spawn c) (hw : ∀ c, w ≠ .count c ∧ w ≠ .spawn c)
    (hended : s.worker ≠ .ended) : Staged { s with worker := w } := by
  refine ⟨?_, ?_, ?_, ?_, ?_, h.waited⟩
  · exact fun c conn hc hpc => absurd (h.accepted c conn hc hpc) (hs c).1
  · exact fun c conn hc hpc => absurd (h.counted c conn hc hpc) (hs c).2
  · exact fun c _ hc => absurd hc (hw c).1
  · exact fun c _ hc => absurd hc (hw c).2
  · exact fun hj => absurd (h.joined hj) hended

lemma not_joined (h : Staged s) (hw : s.worker ≠ .ended) : s.destructor.joined = false := by
  cases hj : s.destructor.joined with
  | false => rfl
  | true => exact absurd (h.joined hj) hw

lemma Destructor.not_passed {d : Destructor} (h : d.joined = false) : d.passed = false := by
  cases d <;> first | rfl | exact nomatch h

lemma accepted_kept (h : Kept s) (hn : s.files n = none) : Kept
    { (s.openFor n (.connection s.nextConnection)).put s.nextConnection { connFd := n } with
      worker := .count s.nextConnection
      nextConnection := s.nextConnection + 1 } := by
  obtain ⟨-, hcloses, hdups⟩ := h.fresh _ le_rfl
  have hspares := spares_open (h := .connection s.nextConnection)
    (p := Mine s.nextConnection) hn
  refine ⟨?_, ?_, ?_, h.faults, ?_, ?_, h.windowed⟩
  · intro c conn hc
    rcases update_some hc with ⟨rfl, he⟩ | ⟨hne, hc⟩
    · obtain rfl := Option.some.inj he
      refine ⟨rfl, hcloses, fun _ => Function.update_self .., hdups, nofun, fun _ => rfl⟩
    · have hold := (h.served c conn hc).spared hspares (not_mine hne).1 (not_mine hne).2
      exact ⟨hold.1, hold.2, hold.3, hold.4, hold.5, hold.6⟩
  · have hactive := h.active
    have hadd := total_insert s.nextConnection s.connections
      (fun conn => conn.next.outstanding) { connFd := n }
    unfold Shutdown.active at hactive ⊢
    change s.activeConnections =
      ((total (s.nextConnection + 1) (Function.update s.connections _ _) _ : ℕ) : ℤ)
    rw [hadd, hactive]
    rfl
  · intro c hle
    have hle : s.nextConnection + 1 ≤ c := hle
    have hne : c ≠ s.nextConnection := by omega
    obtain ⟨hnone, hzero⟩ := h.fresh c (by omega)
    exact ⟨(Function.update_of_ne hne _ _).trans hnone, hzero⟩
  · intro m hs
    exact hspares.files m _ (by rintro (he | he) <;> exact nomatch he) (h.server m hs)
  · intro u e he
    exact hspares.files _ _ (by rintro (he | he) <;> exact nomatch he) (h.entries u e he)

lemma accepted_staged (h : Staged s) (hw : s.worker = .accept) : Staged
    { (s.openFor n (.connection s.nextConnection)).put s.nextConnection { connFd := n } with
      worker := .count s.nextConnection
      nextConnection := s.nextConnection + 1 } := by
  have hjoined := not_joined h (by rw [hw]; exact nofun)
  refine ⟨?_, ?_, ?_, nofun, ?_, ?_⟩
  · intro c conn hc hpc
    rcases update_some hc with ⟨rfl, -⟩ | ⟨-, hc⟩
    · rfl
    · exact nomatch hw.symm.trans (h.accepted c conn hc hpc)
  · intro c conn hc hpc
    rcases update_some hc with ⟨rfl, he⟩ | ⟨-, hc⟩
    · obtain rfl := Option.some.inj he
      exact nomatch hpc
    · exact nomatch hw.symm.trans (h.counted c conn hc hpc)
  · rintro _ conn ⟨⟩ hc
    rcases update_some hc with ⟨-, he⟩ | ⟨hne, -⟩
    · obtain rfl := Option.some.inj he
      rfl
    · exact absurd rfl hne
  · intro hj
    exact nomatch hjoined.symm.trans hj
  · intro hp
    exact nomatch (Destructor.not_passed hjoined).symm.trans hp

lemma handed_staged (h : Staged s) {next : Handler} {w : Worker} (hw : s.worker ≠ .ended)
    (hc : s.connections c = some conn)
    (hold : ∀ c' conn', s.connections c' = some conn' → c' ≠ c →
      conn'.next ≠ .accepted ∧ conn'.next ≠ .counted)
    (hnext : next = .counted ∧ w = .spawn c ∨ next = .recv ∧ w = .check)
    {active : ℤ} : Staged { s.goto c conn next with worker := w, activeConnections := active } := by
  have hjoined := not_joined h hw
  refine ⟨?_, ?_, ?_, ?_, ?_, ?_⟩
  · intro c' conn' hc' hpc
    rcases update_some hc' with ⟨rfl, he⟩ | ⟨hne, hc'⟩
    · obtain rfl := Option.some.inj he
      rcases hnext with ⟨rfl, rfl⟩ | ⟨rfl, rfl⟩ <;> exact nomatch hpc
    · exact absurd hpc (hold c' conn' hc' hne).1
  · intro c' conn' hc' hpc
    rcases update_some hc' with ⟨rfl, he⟩ | ⟨hne, hc'⟩
    · obtain rfl := Option.some.inj he
      rcases hnext with ⟨rfl, rfl⟩ | ⟨rfl, rfl⟩
      · rfl
      · exact nomatch hpc
    · exact absurd hpc (hold c' conn' hc' hne).2
  · intro c' conn' hw'
    rcases hnext with ⟨rfl, rfl⟩ | ⟨rfl, rfl⟩ <;> exact nomatch hw'
  · intro c' conn' hw' hc'
    rcases hnext with ⟨rfl, rfl⟩ | ⟨rfl, rfl⟩
    · obtain rfl := Worker.spawn.inj hw'
      rcases update_some hc' with ⟨-, he⟩ | ⟨hne, -⟩
      · obtain rfl := Option.some.inj he
        rfl
      · exact absurd rfl hne
    · exact nomatch hw'
  · intro hj
    exact nomatch hjoined.symm.trans hj
  · intro hp
    exact nomatch (Destructor.not_passed hjoined).symm.trans hp

lemma workerLoop_steady (hk : Kept s) (hs : Staged s) {accepted : Option ℕ}
    (ha : s.workerLoop accepted = some s') : Kept s' ∧ Staged s' := by
  unfold workerLoop at ha
  cases hw : s.worker with
  | check | recheck =>
    have hstaged : ∀ {w : Worker}, (∀ c, w ≠ .count c ∧ w ≠ .spawn c) →
        Staged { s with worker := w } := fun hw' =>
      hs.worker (by rw [hw]; exact fun _ => ⟨nofun, nofun⟩) hw' (by rw [hw]; exact nofun)
    simp only [hw] at ha
    split_ifs at ha
    · obtain rfl := Option.some.inj ha
      exact ⟨hk.worker _, hstaged fun _ => ⟨nofun, nofun⟩⟩
    · obtain rfl := Option.some.inj ha
      exact ⟨hk.worker _, hstaged fun _ => ⟨nofun, nofun⟩⟩
  | accept =>
    simp only [hw] at ha
    cases accepted with
    | none =>
      obtain rfl := Option.some.inj ha
      exact ⟨hk.worker _, hs.worker (by rw [hw]; exact fun _ => ⟨nofun, nofun⟩)
        (fun _ => ⟨nofun, nofun⟩) (by rw [hw]; exact nofun)⟩
    | some n =>
      dsimp only at ha
      split_ifs at ha with hfree
      obtain rfl := Option.some.inj ha
      exact ⟨accepted_kept hk (by simpa using hfree), accepted_staged hs hw⟩
  | count c =>
    simp only [hw] at ha
    cases hc : s.connections c with
    | none =>
      rw [hc] at ha
      exact nomatch ha
    | some conn =>
      simp only [hc] at ha
      obtain rfl := Option.some.inj ha
      have hpc := hs.counting c conn hw hc
      have hserved := hk.served c conn hc
      constructor
      · change Kept { s.goto c conn .counted with
          worker := .spawn c
          activeConnections := s.activeConnections + 1 }
        refine hk.own hc rfl (spares_same rfl rfl) (hserved.goto rfl rfl ?_ ?_ ?_ ?_) ?_ rfl
          hk.faults rfl rfl rfl
        · rw [hpc]; rfl
        · rw [hpc]; rfl
        · rw [hpc]; exact fun _ => rfl
        · exact fun _ => hserved.undivided (by rw [hpc]; rfl)
        · rw [hpc]
          change s.activeConnections + 1 + 0 = s.activeConnections + 1
          omega
      · refine handed_staged hs (by rw [hw]; exact nofun) hc ?_ (.inl ⟨rfl, rfl⟩)
        intro c' conn' hc' hne
        constructor
        · intro hpc'
          exact hne (Worker.count.inj (hw.symm.trans (hs.accepted c' conn' hc' hpc'))).symm
        · exact fun hpc' => nomatch hw.symm.trans (hs.counted c' conn' hc' hpc')
  | spawn c =>
    simp only [hw] at ha
    cases hc : s.connections c with
    | none =>
      rw [hc] at ha
      exact nomatch ha
    | some conn =>
      simp only [hc] at ha
      obtain rfl := Option.some.inj ha
      have hpc := hs.spawning c conn hw hc
      have hserved := hk.served c conn hc
      constructor
      · change Kept { s.goto c conn .recv with worker := .check }
        refine hk.own hc rfl (spares_same rfl rfl) (hserved.goto rfl rfl ?_ ?_ ?_ ?_) ?_ rfl
          hk.faults rfl rfl rfl
        · rw [hpc]; rfl
        · rw [hpc]; rfl
        · rw [hpc]; exact fun _ => rfl
        · exact fun _ => hserved.undivided (by rw [hpc]; rfl)
        · rw [hpc]
          rfl
      · refine handed_staged hs (by rw [hw]; exact nofun) hc ?_ (.inr ⟨rfl, rfl⟩)
        intro c' conn' hc' hne
        constructor
        · exact fun hpc' => nomatch hw.symm.trans (hs.accepted c' conn' hc' hpc')
        · intro hpc'
          exact hne (Worker.spawn.inj (hw.symm.trans (hs.counted c' conn' hc' hpc'))).symm
  | ended =>
    simp only [hw] at ha
    exact nomatch ha

end Worker

section Entries

/-- What the handlers and their connections rely on. -/
structure Same (s s' : State) : Prop where
  connections : s'.connections = s.connections
  nextConnection : s'.nextConnection = s.nextConnection
  activeConnections : s'.activeConnections = s.activeConnections
  worker : s'.worker = s.worker

lemma Kept.spared {p : Holder → Prop} (h : Kept s) (hsame : Same s s') (hspares : Spares s s' p)
    (hp : ∀ c, ¬ p (.connection c) ∧ ¬ p (.duplicate c)) (hfaults : s'.faults = 0)
    (hserver : ∀ n, s'.serverFd = some n → s'.files n = some .server)
    (hentries : ∀ u e, s'.broker.table u = some e → s'.files e.dupFd = some (.entry u))
    (hwindowed : s'.destructor ≠ .unlock → s'.destructor ≠ .destroyed → s'.broker.Windowed) :
    Kept s' := by
  refine ⟨?_, ?_, ?_, hfaults, hserver, hentries, hwindowed⟩
  · intro c conn hc
    rw [hsame.connections] at hc
    exact (h.served c conn hc).spared hspares (hp c).1 (hp c).2
  · have hactive := h.active
    unfold Shutdown.active at hactive ⊢
    rw [hsame.activeConnections, hsame.connections, hsame.nextConnection]
    exact hactive
  · intro c hle
    rw [hsame.nextConnection] at hle
    rw [hsame.connections, hspares.closes _ (hp c).1, hspares.closes _ (hp c).2]
    exact h.fresh c hle

lemma Staged.same (h : Staged s) (hsame : Same s s')
    (hjoined : s'.destructor.joined = true → s.worker = .ended)
    (hpassed : s'.destructor.passed = true → ∀ c conn, s.connections c = some conn →
      conn.next.left = true) : Staged s' := by
  obtain ⟨hconns, -, -, hworker⟩ := hsame
  refine ⟨?_, ?_, ?_, ?_, ?_, ?_⟩
  · rw [hconns, hworker]
    exact h.accepted
  · rw [hconns, hworker]
    exact h.counted
  · rw [hconns, hworker]
    exact h.counting
  · rw [hconns, hworker]
    exact h.spawning
  · rw [hworker]
    exact hjoined
  · rw [hconns]
    exact hpassed

lemma closeAll_entries (hl : l.Nodup) (hentries : ∀ n ∈ l, ∃ u, s.files n = some (.entry u)) :
    ∃ files closes, s.closeAll l = { s with files := files, closes := closes } ∧
      (∀ n, files n = if n ∈ l then none else s.files n) ∧
      ∀ h, (∀ u, h ≠ .entry u) → closes h = s.closes h := by
  induction l generalizing s with
  | nil => exact ⟨s.files, s.closes, rfl, fun _ => rfl, fun _ _ => rfl⟩
  | cons n rest ih =>
    obtain ⟨hnot, hrest⟩ := List.nodup_cons.mp hl
    obtain ⟨u, hu⟩ := hentries n List.mem_cons_self
    have hclose := close_some hu
    have hentries' : ∀ m ∈ rest, ∃ u, (s.close n).files m = some (.entry u) := by
      intro m hm
      obtain ⟨v, hv⟩ := hentries m (List.mem_cons_of_mem _ hm)
      refine ⟨v, ?_⟩
      rw [hclose]
      refine (Function.update_of_ne ?_ _ _).trans hv
      rintro rfl
      exact hnot hm
    obtain ⟨files, closes, he, hfiles, hcloses⟩ := ih hrest hentries'
    refine ⟨files, closes, ?_, ?_, ?_⟩
    · change (s.close n).closeAll rest = _
      rw [he, hclose]
    · intro m
      rw [hfiles m, hclose]
      by_cases hm : m = n
      · subst hm
        rw [if_neg hnot, if_pos List.mem_cons_self]
        exact Function.update_self ..
      · by_cases hr : m ∈ rest
        · rw [if_pos hr, if_pos (List.mem_cons_of_mem _ hr)]
        · rw [if_neg hr, if_neg (by simp [hm, hr])]
          exact Function.update_of_ne hm _ _
    · intro h hne
      rw [hcloses h hne, hclose]
      exact Function.update_of_ne (hne u) _ _

def IsEntry (h : Holder) : Prop := ∃ u, h = .entry u

lemma not_entry (c : ℕ) : ¬ IsEntry (.connection c) ∧ ¬ IsEntry (.duplicate c) :=
  ⟨(fun ⟨_, he⟩ => nomatch he), (fun ⟨_, he⟩ => nomatch he)⟩

/-- The descriptors of some entries of a table. -/
def fdsOf (table : ℕ → Option Entry) (l : List ℕ) : List ℕ :=
  l.filterMap (fun u => (table u).map Entry.dupFd)

lemma mem_fdsOf {table : ℕ → Option Entry} : n ∈ fdsOf table l ↔
    ∃ u ∈ l, ∃ e, table u = some e ∧ e.dupFd = n := by
  unfold fdsOf
  rw [List.mem_filterMap]
  simp only [Option.map_eq_some_iff]

/-- The entries are those of their descriptors. -/
def Entered (table : ℕ → Option Entry) (s : State) : Prop :=
  ∀ u e, table u = some e → s.files e.dupFd = some (.entry u)

lemma Entered.nodup {table : ℕ → Option Entry} (h : Entered table s) (hl : l.Nodup) :
    (fdsOf table l).Nodup := by
  refine List.Nodup.filterMap ?_ hl
  intro u v m hu hv
  obtain ⟨e, he, rfl⟩ := Option.map_eq_some_iff.mp hu
  obtain ⟨e', he', hsame⟩ := Option.map_eq_some_iff.mp hv
  have hfile := h v e' he'
  rw [hsame] at hfile
  exact Holder.entry.inj (Option.some.inj ((h u e he).symm.trans hfile))

lemma Entered.closeAll {table table' : ℕ → Option Entry} (h : Entered table s) (hl : l.Nodup)
    (htable : ∀ u, table' u = if u ∈ l then none else table u) :
    ∃ files closes, s.closeAll (fdsOf table l) = { s with files := files, closes := closes } ∧
      Spares s { s with files := files, closes := closes } IsEntry ∧
      Entered table' { s with files := files, closes := closes } := by
  have hholder : ∀ m ∈ fdsOf table l, ∃ u ∈ l, s.files m = some (.entry u) := by
    intro m hm
    obtain ⟨u, hu, e, he, rfl⟩ := mem_fdsOf.mp hm
    exact ⟨u, hu, h u e he⟩
  obtain ⟨files, closes, he, hfiles, hcloses⟩ := closeAll_entries (h.nodup hl)
    fun m hm => (hholder m hm).imp fun u hu => hu.2
  refine ⟨files, closes, he, ⟨?_, ?_⟩, ?_⟩
  · intro m holder hnot hm
    refine (hfiles m).trans ?_
    rw [if_neg, hm]
    intro hmem
    obtain ⟨u, -, hu⟩ := hholder m hmem
    exact hnot ⟨u, Option.some.inj (hm.symm.trans hu)⟩
  · exact fun holder hnot => hcloses holder fun u hu => hnot ⟨u, hu⟩
  · intro u e hu
    rw [htable] at hu
    split_ifs at hu with hmem
    refine (hfiles e.dupFd).trans ?_
    rw [if_neg, h u e hu]
    intro hclosed
    obtain ⟨v, hv, hfile⟩ := hholder _ hclosed
    obtain rfl := Holder.entry.inj (Option.some.inj ((h u e hu).symm.trans hfile))
    exact hmem hv

lemma registerBuffer_steady (hk : Kept s) (hs : Staged s) {uid dmabufSize : ℕ} {fd : ℤ}
    {dup : Option ℕ} (ha : s.registerBuffer uid fd dmabufSize dup = some s') :
    Kept s' ∧ Staged s' := by
  unfold State.registerBuffer at ha
  dsimp only at ha
  split_ifs at ha with hidle hreg
  · obtain ⟨hidle, -⟩ := hidle
    have hnostage : s.destructor.joined = false ∧ s.destructor.passed = false := by
      rw [hidle]
      exact ⟨rfl, rfl⟩
    cases dup with
    | none => exact nomatch ha
    | some n =>
      dsimp only at ha
      split_ifs at ha with hfree
      obtain rfl := Option.some.inj ha
      have hwin := hk.windowed (by rw [hidle]; exact nofun) (by rw [hidle]; exact nofun)
      have hfree : s.files n = none := by simpa using hfree
      have hnodup : (s.broker.order ++ [uid]).Nodup := by
        rw [List.nodup_append_comm]
        refine List.nodup_cons.mpr ⟨?_, hwin.nodup⟩
        intro hmem
        have hsome := (hwin.listed uid).mpr hmem
        rw [hreg.2.2.2.1] at hsome
        exact nomatch hsome
      have hb := FdBroker.registerBuffer_eq dmabufSize hreg
      obtain ⟨-, htable, -⟩ := FdBroker.evict_eq { s.broker with
        table := Function.update s.broker.table uid (some ⟨n, dmabufSize⟩) }
          (s.broker.order ++ [uid])
      have hclosed := Retention.evict_closed { s.broker with
        table := Function.update s.broker.table uid (some ⟨n, dmabufSize⟩) } hnodup
      rw [← hb] at htable hclosed
      have hentered : Entered (Function.update s.broker.table uid (some ⟨n, dmabufSize⟩))
          (s.openFor n (.entry uid)) := by
        intro u e hu
        rcases update_some hu with ⟨rfl, he⟩ | ⟨-, hu⟩
        · obtain rfl := Option.some.inj he
          exact Function.update_self ..
        · exact (spares_open (p := fun _ => False) hfree).files _ _ id (hk.entries u e hu)
      have hexcess : (Window.excess kCapacity (s.broker.order ++ [uid])).Nodup :=
        hnodup.sublist (List.take_sublist _ _)
      obtain ⟨files, closes, he, hspares, hentries⟩ := hentered.closeAll hexcess htable
      have hwin' : (s.broker.registerBuffer uid fd dmabufSize (some n)).Windowed :=
        FdBroker.windowed_registerBuffer hwin
      have hopened := spares_open (h := .entry uid) (p := IsEntry) hfree
      have hevicted : (s.broker.registerBuffer uid fd dmabufSize (some n)).closed.drop
          s.broker.closed.length = fdsOf (Function.update s.broker.table uid
            (some ⟨n, dmabufSize⟩)) (Window.excess kCapacity (s.broker.order ++ [uid])) := by
        rw [hclosed]
        exact List.drop_left
      rw [hevicted, he]
      constructor
      · refine hk.spared (p := IsEntry) ⟨rfl, rfl, rfl, rfl⟩ ⟨?_, ?_⟩ not_entry hk.faults ?_
          hentries fun _ _ => hwin'
        · exact fun m h hnot hm => hspares.files m h hnot (hopened.files m h hnot hm)
        · exact fun h hnot => (hspares.closes h hnot).trans (hopened.closes h hnot)
        · intro m hm
          exact hspares.files m _ nofun (hopened.files m _ nofun (hk.server m hm))
      · exact hs.same ⟨rfl, rfl, rfl, rfl⟩ hs.joined hs.waited
  · rw [FdBroker.registerBuffer_of_not hreg] at ha
    obtain rfl := Option.some.inj ha
    exact ⟨hk, hs⟩

end Entries

section Destructor

lemma destroy_steady (hk : Kept s) (hs : Staged s) (ha : s.destroy = some s') :
    Kept s' ∧ Staged s' := by
  unfold destroy at ha
  cases hd : s.destructor with
  | idle =>
    simp only [hd] at ha
    obtain rfl := Option.some.inj ha
    have hwin := hk.windowed (by rw [hd]; exact nofun) (by rw [hd]; exact nofun)
    exact ⟨hk.spared (p := IsEntry) ⟨rfl, rfl, rfl, rfl⟩ (spares_same rfl rfl) not_entry hk.faults
      hk.server hk.entries fun _ _ => ⟨hwin.nodup, hwin.listed, hwin.fits⟩,
      hs.same ⟨rfl, rfl, rfl, rfl⟩ nofun nofun⟩
  | closeServer =>
    simp only [hd] at ha
    have hwin := hk.windowed (by rw [hd]; exact nofun) (by rw [hd]; exact nofun)
    cases hserver : s.serverFd with
    | none =>
      simp only [hserver] at ha
      obtain rfl := Option.some.inj ha
      exact ⟨hk.spared (p := IsEntry) ⟨rfl, rfl, rfl, rfl⟩ (spares_same rfl rfl)
        not_entry hk.faults nofun hk.entries fun _ _ => hwin,
        hs.same ⟨rfl, rfl, rfl, rfl⟩ nofun nofun⟩
    | some n =>
      simp only [hserver] at ha
      obtain rfl := Option.some.inj ha
      have hfile := hk.server n hserver
      have hspares := spares_close (p := (· = .server)) hfile rfl
      rw [close_some hfile] at hspares ⊢
      refine ⟨hk.spared (p := (· = .server)) ⟨rfl, rfl, rfl, rfl⟩ ⟨hspares.files, hspares.closes⟩
        (fun _ => ⟨nofun, nofun⟩) hk.faults nofun ?_ fun _ _ => hwin,
        hs.same ⟨rfl, rfl, rfl, rfl⟩ nofun nofun⟩
      exact fun u e he => hspares.files _ _ nofun (hk.entries u e he)
  | join =>
    simp only [hd] at ha
    split_ifs at ha with hended
    obtain rfl := Option.some.inj ha
    have hwin := hk.windowed (by rw [hd]; exact nofun) (by rw [hd]; exact nofun)
    exact ⟨hk.spared (p := IsEntry) ⟨rfl, rfl, rfl, rfl⟩ (spares_same rfl rfl)
      not_entry hk.faults hk.server hk.entries fun _ _ => hwin,
      hs.same ⟨rfl, rfl, rfl, rfl⟩ (fun _ => hended) nofun⟩
  | wait =>
    simp only [hd] at ha
    have hended := hs.joined (by rw [hd]; rfl)
    have hwin := hk.windowed (by rw [hd]; exact nofun) (by rw [hd]; exact nofun)
    split_ifs at ha with hactive
    · obtain rfl := Option.some.inj ha
      exact ⟨hk, hs⟩
    · obtain rfl := Option.some.inj ha
      refine ⟨hk.spared (p := IsEntry) ⟨rfl, rfl, rfl, rfl⟩ (spares_same rfl rfl)
        not_entry hk.faults hk.server hk.entries fun _ _ => hwin,
        hs.same ⟨rfl, rfl, rfl, rfl⟩ (fun _ => hended) ?_⟩
      -- no handler is outstanding, and the worker holds no connection back
      intro _ c conn hc
      have hzero : active s = 0 := by
        have htotal := hk.active
        omega
      have hle := le_total (f := s.connections) (w := fun conn => conn.next.outstanding) (hk.lt hc)
      rw [hc, Option.elim_some] at hle
      unfold active at hzero
      have hout : conn.next.outstanding = 0 := Nat.le_zero.mp (hzero ▸ hle)
      cases hpc : conn.next with
      | accepted => exact nomatch hended.symm.trans (hs.accepted c conn hc hpc)
      | unlockMissed | ended => rfl
      | _ =>
        rw [hpc] at hout
        exact nomatch hout
  | lock =>
    simp only [hd] at ha
    split_ifs at ha
    obtain rfl := Option.some.inj ha
    have hwin := hk.windowed (by rw [hd]; exact nofun) (by rw [hd]; exact nofun)
    exact ⟨hk.spared (p := IsEntry) ⟨rfl, rfl, rfl, rfl⟩ (spares_same rfl rfl)
      not_entry hk.faults hk.server hk.entries fun _ _ => hwin,
      hs.same ⟨rfl, rfl, rfl, rfl⟩ (fun _ => hs.joined (by rw [hd]; rfl))
        fun _ => hs.waited (by rw [hd]; rfl)⟩
  | clear =>
    simp only [hd] at ha
    obtain rfl := Option.some.inj ha
    have hwin := hk.windowed (by rw [hd]; exact nofun) (by rw [hd]; exact nofun)
    have hentered : Entered s.broker.table s := hk.entries
    obtain ⟨files, closes, he, hspares, -⟩ := hentered.closeAll hwin.nodup fun _ => rfl
    have hall : s.closeAll (Retention.dupFds s.broker) = { s with
        files := files, closes := closes } := he
    rw [hall]
    exact ⟨hk.spared (p := IsEntry) ⟨rfl, rfl, rfl, rfl⟩ ⟨hspares.files, hspares.closes⟩ not_entry
      hk.faults (fun n hn => hspares.files n _ nofun (hk.server n hn)) nofun
      fun hne _ => absurd rfl hne,
      hs.same ⟨rfl, rfl, rfl, rfl⟩ (fun _ => hs.joined (by rw [hd]; rfl))
        fun _ => hs.waited (by rw [hd]; rfl)⟩
  | unlock =>
    simp only [hd] at ha
    obtain rfl := Option.some.inj ha
    exact ⟨hk.spared (p := IsEntry) ⟨rfl, rfl, rfl, rfl⟩ (spares_same rfl rfl)
      not_entry hk.faults hk.server hk.entries fun _ hne => absurd rfl hne,
      hs.same ⟨rfl, rfl, rfl, rfl⟩ (fun _ => hs.joined (by rw [hd]; rfl))
        fun _ => hs.waited (by rw [hd]; rfl)⟩
  | destroyed =>
    simp only [hd] at ha
    exact nomatch ha

end Destructor

section Runs

variable {e : Event} {u : Unit} {tr : List (Event × Unit)} {socketPath : String}
  {serverFd : Option ℕ} {others : ℕ → Bool}

lemma step_steady (hk : Kept s) (hs : Staged s) (ha : step s e = some (u, s')) :
    Kept s' ∧ Staged s' := by
  obtain ⟨t, ht, he⟩ := Option.map_eq_some_iff.mp ha
  obtain rfl := (Prod.mk.inj he).2
  cases e with
  | worker accepted => exact workerLoop_steady hk hs ht
  | handler c result =>
    obtain ⟨conn, hc, ht⟩ := Option.bind_eq_some_iff.mp ht
    obtain ⟨conn', hhandles⟩ := handleConnection_handles hk hc ht
    exact ⟨hhandles.kept hk hc, hhandles.staged hs hc⟩
  | destructor => exact destroy_steady hk hs ht
  | registerBuffer uid fd dmabufSize dup => exact registerBuffer_steady hk hs ht
  | opened n =>
    dsimp only at ht
    split_ifs at ht with hfree
    obtain rfl := Option.some.inj ht
    have hspares := spares_open (s := s) (h := .other) (p := fun _ => False) (by simpa using hfree)
    exact ⟨hk.spared (p := fun _ => False) ⟨rfl, rfl, rfl, rfl⟩ hspares (fun _ => ⟨id, id⟩)
      hk.faults (fun m hm => hspares.files m _ id (hk.server m hm))
      (fun v e he => hspares.files _ _ id (hk.entries v e he)) hk.windowed,
      hs.same ⟨rfl, rfl, rfl, rfl⟩ hs.joined hs.waited⟩
  | closed n =>
    dsimp only at ht
    split_ifs at ht with hother
    obtain rfl := Option.some.inj ht
    have hspares := spares_close (p := (· = .other)) hother rfl
    rw [close_some hother] at hspares ⊢
    exact ⟨hk.spared (p := (· = .other)) ⟨rfl, rfl, rfl, rfl⟩ hspares (fun _ => ⟨nofun, nofun⟩)
      hk.faults (fun m hm => hspares.files m _ nofun (hk.server m hm))
      (fun v e he => hspares.files _ _ nofun (hk.entries v e he)) hk.windowed,
      hs.same ⟨rfl, rfl, rfl, rfl⟩ hs.joined hs.waited⟩

/-- Once the destructor has passed, the handlers have returned. -/
def Returned (s : State) : Prop := s.destructor.passed = true →
  ∀ c conn, s.connections c = some conn → conn.next = .ended

lemma close_same (s : State) (n : ℕ) :
    (s.close n).connections = s.connections ∧ (s.close n).destructor = s.destructor := by
  unfold State.close
  split <;> exact ⟨rfl, rfl⟩

lemma closeAll_same (s : State) (l : List ℕ) :
    (s.closeAll l).connections = s.connections ∧ (s.closeAll l).destructor = s.destructor := by
  induction l generalizing s with
  | nil => exact ⟨rfl, rfl⟩
  | cons n rest ih =>
    obtain ⟨hconns, hdestructor⟩ := ih (s.close n)
    obtain ⟨hconns', hdestructor'⟩ := close_same s n
    exact ⟨hconns.trans hconns', hdestructor.trans hdestructor'⟩

lemma workerLoop_destructor {accepted : Option ℕ} (ha : s.workerLoop accepted = some s') :
    s'.destructor = s.destructor ∧ s.worker ≠ .ended := by
  unfold workerLoop at ha
  cases hw : s.worker with
  | check | recheck =>
    simp only [hw] at ha
    split_ifs at ha <;> obtain rfl := Option.some.inj ha <;> exact ⟨rfl, nofun⟩
  | accept =>
    simp only [hw] at ha
    split at ha
    · obtain rfl := Option.some.inj ha
      exact ⟨rfl, nofun⟩
    · split_ifs at ha
      obtain rfl := Option.some.inj ha
      exact ⟨rfl, nofun⟩
  | count c | spawn c =>
    simp only [hw] at ha
    split at ha
    · exact nomatch ha
    · obtain rfl := Option.some.inj ha
      exact ⟨rfl, nofun⟩
  | ended =>
    simp only [hw] at ha
    exact nomatch ha

lemma ended_of_left {pc : Handler} (h : pc.left = true) (hne : pc ≠ .unlockMissed) :
    pc = .ended := by
  cases pc with
  | ended => rfl
  | unlockMissed => exact absurd rfl hne
  | _ => exact nomatch h

lemma destroy_returned (hs' : Staged s') (hr : Returned s) (hg : Released s .destructor u)
    (ha : s.destroy = some s') : Returned s' := by
  unfold destroy at ha
  cases hd : s.destructor with
  | idle =>
    simp only [hd] at ha
    obtain rfl := Option.some.inj ha
    exact nofun
  | closeServer =>
    simp only [hd] at ha
    split at ha
    · obtain rfl := Option.some.inj ha
      exact nofun
    · obtain rfl := Option.some.inj ha
      exact nofun
  | join =>
    simp only [hd] at ha
    split_ifs at ha
    obtain rfl := Option.some.inj ha
    exact nofun
  | wait =>
    simp only [hd] at ha
    split_ifs at ha with hactive
    · obtain rfl := Option.some.inj ha
      exact hr
    · obtain rfl := Option.some.inj ha
      intro hpassed c conn hc
      exact ended_of_left (hs'.waited hpassed c conn hc) (hg rfl hd (not_lt.mp hactive) c conn hc)
  | lock =>
    simp only [hd] at ha
    split_ifs at ha
    obtain rfl := Option.some.inj ha
    exact fun _ => hr (by rw [hd]; rfl)
  | clear =>
    simp only [hd] at ha
    obtain rfl := Option.some.inj ha
    intro _ c conn hc
    exact hr (by rw [hd]; rfl) c conn ((closeAll_same s _).1 ▸ hc)
  | unlock =>
    simp only [hd] at ha
    obtain rfl := Option.some.inj ha
    exact fun _ => hr (by rw [hd]; rfl)
  | destroyed =>
    simp only [hd] at ha
    exact nomatch ha

lemma step_returned (hk : Kept s) (hs : Staged s) (hr : Returned s) (hg : Released s e u)
    (ha : step s e = some (u, s')) : Returned s' := by
  have hs' := (step_steady hk hs ha).2
  obtain ⟨t, ht, he⟩ := Option.map_eq_some_iff.mp ha
  obtain rfl := (Prod.mk.inj he).2
  cases e with
  | worker accepted =>
    obtain ⟨hdestructor, hne⟩ := workerLoop_destructor ht
    intro hpassed
    rw [hdestructor, Destructor.not_passed (not_joined hs hne)] at hpassed
    exact nomatch hpassed
  | handler c result =>
    obtain ⟨conn, hc, ht⟩ := Option.bind_eq_some_iff.mp ht
    obtain ⟨conn', hhandles⟩ := handleConnection_handles hk hc ht
    intro hpassed
    rw [hhandles.destructor] at hpassed
    have hended := hr hpassed c conn hc
    unfold handleConnection at ht
    simp only [hended] at ht
    exact nomatch ht
  | destructor => exact destroy_returned hs' hr hg ht
  | registerBuffer uid fd dmabufSize dup =>
    intro hpassed
    dsimp only at ht
    unfold State.registerBuffer at ht
    dsimp only at ht
    split_ifs at ht with hidle
    · split at ht
      · exact nomatch ht
      · split_ifs at ht
        obtain rfl := Option.some.inj ht
        change (closeAll _ _).destructor.passed = true at hpassed
        rw [(closeAll_same _ _).2] at hpassed
        change s.destructor.passed = true at hpassed
        rw [hidle.1] at hpassed
        exact nomatch hpassed
    · obtain rfl := Option.some.inj ht
      change s.destructor.passed = true at hpassed
      rw [hidle.1] at hpassed
      exact nomatch hpassed
  | opened n =>
    dsimp only at ht
    split_ifs at ht
    obtain rfl := Option.some.inj ht
    exact hr
  | closed n =>
    dsimp only at ht
    split_ifs at ht
    obtain rfl := Option.some.inj ht
    intro hpassed c conn hc
    rw [(close_same s n).2] at hpassed
    rw [(close_same s n).1] at hc
    exact hr hpassed c conn hc

lemma start_steady : Kept (start socketPath serverFd others) ∧
    Staged (start socketPath serverFd others) := by
  constructor
  · refine ⟨nofun, rfl, fun _ _ => ⟨rfl, rfl, rfl⟩, rfl, ?_, nofun, ?_⟩
    · exact fun n hn => if_pos hn
    · exact fun _ _ => ⟨List.nodup_nil, fun _ => by simp [start], Nat.zero_le _⟩
  · refine ⟨nofun, nofun, ?_, ?_, nofun, nofun⟩
    · intro c conn _ hc
      exact nomatch hc
    · intro c conn _ hc
      exact nomatch hc

lemma run_steady (hr : Run step (start socketPath serverFd others) tr s) : Kept s ∧ Staged s :=
  hr.invariant (P := fun s => Kept s ∧ Staged s) start_steady
    fun _ _ _ _ h ha => step_steady h.1 h.2 ha

lemma run_returned (hr : Run step (start socketPath serverFd others) tr s)
    (hg : Every step Released (start socketPath serverFd others) tr) : Returned s := by
  refine hr.induction_every (P := fun _ s => Returned s) hg nofun ?_
  intro pre t e u t' hpre hret hgood ha
  obtain ⟨hk, hs⟩ := run_steady hpre
  exact step_returned hk hs hret hgood ha

lemma Kept.safe (hk : Kept s) (hs : Staged s) (hr : Returned s) : Safe s := by
  refine ⟨hk.active, fun c conn hc => (hk.served c conn hc).decremented,
    fun c conn hc => (hk.served c conn hc).closes,
    fun c conn hc => (hk.served c conn hc).duplicates, hk.faults, ?_⟩
  intro hpassed
  constructor
  · apply hs.joined
    cases hd : s.destructor with
    | lock | clear | unlock | destroyed => rfl
    | _ =>
      rw [hd] at hpassed
      exact nomatch hpassed
  · intro c conn hc
    rw [hr hpassed c conn hc]
    exact ⟨rfl, rfl⟩

end Runs

/-- The broker is safe in every state of a run exactly when the destructor never leaves its
wait loop before a handler that has found no entry unlocks the mutex. -/
theorem shutdown_safe_iff {socketPath : String} {serverFd : Option ℕ} {others : ℕ → Bool}
    {tr : List (Event × Unit)} (hr : Run step (start socketPath serverFd others) tr s) :
    (∀ pre post t, tr = pre ++ post → Run step (start socketPath serverFd others) pre t →
      Safe t) ↔ Every step Released (start socketPath serverFd others) tr := by
  constructor
  · rintro hsafe pre e u post t rfl hpre rfl hwait hactive c conn hc hpc
    obtain ⟨t', ht', hrest⟩ := run_append_iff.mp hr
    obtain rfl := hpre.unique ht'
    obtain ⟨v, hv, -⟩ := run_cons_iff.mp hrest
    have hsafe' := hsafe (pre ++ [(.destructor, u)]) post v (by simp) (hpre.snoc hv)
    have hdestroy : t.destroy = some { t with destructor := .lock } := by
      unfold destroy
      simp only [hwait]
      rw [if_neg (not_lt.mpr hactive)]
    have hstep : step t .destructor = some ((), { t with destructor := .lock }) := by
      unfold step
      dsimp only
      rw [hdestroy]
      rfl
    obtain rfl := (Prod.mk.inj (Option.some.inj (hv.symm.trans hstep))).2
    have huses := ((hsafe'.waited rfl).2 c conn hc).2
    rw [hpc] at huses
    exact nomatch huses
  · rintro hg pre post t rfl hpre
    obtain ⟨hk, hs⟩ := run_steady hpre
    exact hk.safe hs (run_returned hpre hg.init)

def released (s : State) (e : Event) : Bool :=
  decide (e ≠ .destructor) || decide (s.destructor ≠ .wait) || decide (0 < s.activeConnections) ||
    (List.range s.nextConnection).all (fun c =>
      (s.connections c).all (fun conn => decide (conn.next ≠ .unlockMissed)))

lemma every_released {socketPath : String} {serverFd : Option ℕ} {others : ℕ → Bool}
    {tr : List (Event × Unit)}
    (h : Every step (fun s e _ => released s e = true) (start socketPath serverFd others) tr) :
    Every step Released (start socketPath serverFd others) tr := by
  intro pre e u post t heq hpre he hwait hactive c conn hc
  have hgood := h pre e u post t heq hpre
  simp only [released, he, hwait, ne_eq, not_true_eq_false, decide_false, Bool.false_or,
    Bool.or_eq_true, decide_eq_true_eq, List.all_eq_true, List.mem_range] at hgood
  rcases hgood with hpos | hall
  · exact absurd hpos (not_lt.mpr hactive)
  · have hone := hall c ((run_steady hpre).1.lt hc)
    rw [hc] at hone
    exact of_decide_eq_true hone

/-- Connection 0 is served, and connection 1 is accepted while the broker is destroyed. -/
def orderly : List Event :=
  [.registerBuffer 9 3 64 (some 5), .worker none, .worker (some 6), .worker none, .worker none,
    .handler 0 (some 9), .worker none, .handler 0 none, .handler 0 (some 7), .handler 0 none,
    .destructor, .worker (some 8), .worker none, .worker none, .worker none, .destructor,
    .destructor, .destructor, .handler 0 none, .handler 0 none, .handler 0 none, .handler 0 none,
    .handler 1 (some 4), .handler 1 none, .handler 1 none, .handler 1 none, .handler 1 none,
    .handler 1 none, .handler 1 none, .destructor, .destructor, .destructor, .destructor]

theorem shutdown_safe_once : ∃ tr s,
    Run step (start "/tmp/qc_broker_7.sock" (some 4) (· = 3)) tr s ∧
      s.destructor = .destroyed ∧ s.nextConnection = 2 ∧ Safe s := by
  have hlast : (exec step (start "/tmp/qc_broker_7.sock" (some 4) (· = 3)) orderly).any (fun x =>
      decide (x.2.destructor = .destroyed ∧ x.2.nextConnection = 2)) = true := by decide +kernel
  have hgood : EveryExec step (fun s e _ => released s e = true)
      (start "/tmp/qc_broker_7.sock" (some 4) (· = 3)) orderly := by decide +kernel
  obtain ⟨⟨tr, s⟩, hx, hlast⟩ := Option.any_eq_true _ _ |>.mp hlast
  obtain ⟨hdestroyed, hnext⟩ := of_decide_eq_true hlast
  have hr := exec_run hx
  exact ⟨tr, s, hr, hdestroyed, hnext, (shutdown_safe_iff hr).mpr
    (every_released (every_of_exec hx hgood)) tr [] s (by simp) hr⟩

/-- A handler that finds no entry decrements, and the destructor passes before the handler
unlocks the mutex. -/
def overtaken : List Event :=
  [.worker none, .worker (some 6), .worker none, .worker none, .handler 0 (some 9),
    .handler 0 none, .handler 0 none, .handler 0 none, .handler 0 none, .handler 0 none,
    .destructor, .worker none, .destructor, .destructor, .destructor]

theorem unlock_after_wait : ∃ tr s s',
    Run step (start "/tmp/qc_broker_7.sock" (some 4) (fun _ => false)) tr s ∧
      s.destructor.passed = true ∧ s.mutex = some (.handler 0) ∧
      step s (.handler 0 none) = some ((), s') ∧ s'.mutex = none ∧ ¬ Safe s := by
  have hlast : (exec step (start "/tmp/qc_broker_7.sock" (some 4) (fun _ => false)) overtaken).any
      (fun x => x.2.destructor.passed && decide (x.2.mutex = some (.handler 0)) &&
        (x.2.connections 0).any (fun conn => decide (conn.next = .unlockMissed)) &&
        (step x.2 (.handler 0 none)).any (fun y => decide (y.2.mutex = none))) = true := by
    decide +kernel
  obtain ⟨⟨tr, s⟩, hx, hlast⟩ := Option.any_eq_true _ _ |>.mp hlast
  simp only [Bool.and_eq_true, decide_eq_true_eq] at hlast
  obtain ⟨⟨⟨hpassed, hmutex⟩, hconn⟩, hstep⟩ := hlast
  obtain ⟨conn, hc, hpc⟩ := Option.any_eq_true _ _ |>.mp hconn
  obtain ⟨⟨u, s'⟩, hs', hfree⟩ := Option.any_eq_true _ _ |>.mp hstep
  refine ⟨tr, s, s', exec_run hx, hpassed, hmutex, hs', of_decide_eq_true hfree, ?_⟩
  intro hsafe
  have huses := ((hsafe.waited hpassed).2 0 conn hc).2
  rw [of_decide_eq_true hpc] at huses
  exact nomatch huses

end RosidlBufferBackends.Qc.Shutdown
