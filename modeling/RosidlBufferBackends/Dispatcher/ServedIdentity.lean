import RosidlBufferBackends.Dispatcher.Survival

/-! What the clients of a socket receive, when closed numbers are used again. -/

namespace RosidlBufferBackends.Dispatcher

open Runs Inventory Publisher

variable {s u : Publisher} {e : Event} {o : Output} {m k n b : ℕ} {mg : CudaVmmIPCManager}
  {D F : FDDispatcher} {result : Option ℕ} {c : Call} {tr : List (Event × Output)}

/-- The allocation that a file refers to, by manager and block. -/
def File.allocation : File → Option (ℕ × ℕ)
  | .exported m b | .duplicate m b => some (m, b)
  | .listener _ _ | .connection _ | .other _ => none

/-- The number that the step opens. -/
def opens (s : Publisher) : Event → Option ℕ
  | .call m (some n) =>
      match (s.managers m).bind CudaVmmIPCManager.call with
      | some (.socket _ _) | some (.dup _ _ _) => some n
      | _ => none
  | .dispatch k (some n) =>
      match loopOf s k with
      | some (.accept _ _ _) => some n
      | _ => none
  | .export _ _ n | .open n _ => some n
  | _ => none

/-- The numbers that the loop has looked up and is still to use. -/
def Loop.pending : Loop → List ℕ
  | .accept n d _ => [n, d]
  | .send _ d _ => [d]
  | _ => []

/-- No number that a dispatcher is still to use is given out again. -/
def KeepsNumbers (s : Publisher) (e : Event) : Prop :=
  ∀ k < s.nextDispatcher, ∀ l ∈ loopOf s k, ∀ n ∈ l.pending, opens s e ≠ some n

instance (s : Publisher) (e : Event) : Decidable (KeepsNumbers s e) :=
  inferInstanceAs (Decidable
    (∀ k < s.nextDispatcher, ∀ l ∈ loopOf s k, ∀ n ∈ l.pending, opens s e ≠ some n))

/-- The number still refers to the file, or has been closed. -/
def Keeps (s : Publisher) (n : ℕ) (f : File) : Prop := s.fds n = some f ∨ s.fds n = none

/-- The loop is about to use numbers of one block, unless they have been closed. -/
def Loop.Identified (s : Publisher) : Loop → Prop
  | .accept n d _ => ∃ m b, Keeps s n (.listener m b) ∧ Keeps s d (.duplicate m b)
  | .send client d _ => ∃ c conn, s.fds client = some (.connection c) ∧
      s.connections c = some conn ∧ Keeps s d (.duplicate conn.manager conn.block)
  | _ => True

structure Delivering (s : Publisher) : Prop where
  fresh : ∀ c, s.nextConnection ≤ c → s.connections c = none
  queued : ∀ m b queue, s.pending (m, b) = some queue → ∀ c ∈ queue,
    ∃ conn, s.connections c = some conn ∧ conn.manager = m ∧ conn.block = b
  identified : ∀ k l, loopOf s k = some l → l.Identified s
  received : ∀ c conn f, s.connections c = some conn → conn.received = some f →
    f.allocation = some (conn.manager, conn.block)

lemma foldl_closeFd_fds (l : List ℕ) (s : Publisher) (n : ℕ) :
    (l.foldl closeFd s).fds n = s.fds n ∨ (l.foldl closeFd s).fds n = none := by
  induction l generalizing s with
  | nil => exact .inl rfl
  | cons x l ih =>
    rcases ih (s.closeFd x) with hsame | hnone
    · rw [closeFd_fds] at hsame
      by_cases hn : n = x
      · subst hn
        exact .inr (by simpa using hsame)
      · exact .inl (by simpa [hn] using hsame)
    · exact .inr hnone

lemma update_cases {fds : ℕ → Option File} {x : ℕ} (y : Option File) (n : ℕ) :
    n = x ∨ Function.update fds x y n = fds n := by
  by_cases hn : n = x
  · exact .inl hn
  · exact .inr (Function.update_of_ne hn _ _)

lemma closeFd_cases (s : Publisher) (x n : ℕ) :
    (s.closeFd x).fds n = s.fds n ∨ (s.closeFd x).fds n = none := by
  rw [closeFd_fds]
  rcases update_cases (x := x) none n with rfl | hsame
  · exact .inr (Function.update_self ..)
  · exact .inl hsame

/-- What a step does to a number of the table. -/
def Moves (s u : Publisher) (e : Event) (n : ℕ) : Prop :=
  u.fds n = s.fds n ∨ u.fds n = none ∨ opens s e = some n ∧ s.fds n = none

lemma moves_of_closed {x : ℕ} (h : u.fds n = (s.closeFd x).fds n) : Moves s u e n := by
  rcases closeFd_cases s x n with hsame | hnone
  · exact .inl (h.trans hsame)
  · exact .inr (.inl (h.trans hnone))

lemma moves_of_opened {x : ℕ} {f : File} (h : u.fds = Function.update s.fds x (some f))
    (hx : opens s e = some x) (hfree : s.fds x = none) : Moves s u e n := by
  rcases update_cases (x := x) (some f) n with rfl | hsame
  · exact .inr (.inr ⟨hx, hfree⟩)
  · exact .inl (by rw [h, hsame])

lemma calls_moves (hm : s.managers m = some mg) (hc : mg.call = some c)
    (hs : Calls s m mg D result c o u) (n : ℕ) : Moves s u (.call m result) n := by
  cases hs with
  | opened hfree => exact moves_of_opened rfl (by simp [opens, hm, hc]) hfree
  | duplicated _ hfree => exact moves_of_opened rfl (by simp [opens, hm, hc]) hfree
  | abandoned | closedDup | closedUnserved | closedServer | closedServed =>
    exact moves_of_closed rfl
  | cleared =>
    rcases foldl_closeFd_fds D.socketToFd.keys
      (s.setDispatcher mg.dispatcher { D with socketToFd := ∅, epoll := false }) n
        with hsame | hnone
    · exact .inl hsame
    · exact .inr (.inl hnone)
  | _ => exact .inl rfl

lemma dispatches_moves {l : Loop} (hl : loopOf s k = some l) (hs : Dispatches s k D result l o u)
    (n : ℕ) : Moves s u (.dispatch k result) n := by
  cases hs with
  | accepted _ _ hfree => exact moves_of_opened rfl (by simp [opens, hl]) hfree
  | sent hsend => cases hsend <;> exact .inl rfl
  | closed => exact moves_of_closed rfl
  | _ => exact .inl rfl

lemma step_moves (hs : s.step e = some (o, u)) (n : ℕ) : Moves s u e n := by
  cases step_cases hs with
  | called hm hc _ hs => exact calls_moves hm hc hs n
  | dispatched hD hs => exact dispatches_moves (loopOf_of hD) hs n
  | exported hfree => exact moves_of_opened rfl rfl hfree
  | closedExported _ _ => exact moves_of_closed rfl
  | opened hfree => exact moves_of_opened rfl rfl hfree
  | closed _ => exact moves_of_closed rfl
  | _ => exact .inl rfl

lemma Keeps.move {f : File} (h : Keeps s n f) (hu : Moves s u e n) (hopen : opens s e ≠ some n) :
    Keeps u n f := by
  rcases hu with hsame | hnone | ⟨hx, -⟩
  · rw [Keeps, hsame]
    exact h
  · exact .inr hnone
  · exact absurd hx hopen

section Delivering

/-- The connections of `s` are there in `u`, on the same sockets. -/
def Connected (s u : Publisher) : Prop := ∀ c conn, s.connections c = some conn →
  ∃ conn', u.connections c = some conn' ∧ conn'.manager = conn.manager ∧ conn'.block = conn.block

lemma Connected.of_eq (h : u.connections = s.connections) : Connected s u :=
  fun _ conn hc => ⟨conn, h ▸ hc, rfl, rfl⟩

/-- Who waits in `u` has been waiting in `s`. -/
def Queues (s u : Publisher) : Prop := ∀ x q, u.pending x = some q → ∀ c ∈ q,
  ∃ q', s.pending x = some q' ∧ c ∈ q'

lemma Queues.of_pending (h : ∀ x q, u.pending x = some q → s.pending x = some q) : Queues s u :=
  fun x q hq _ hc => ⟨q, h x q hq, hc⟩

lemma Loop.Identified.move {l : Loop} (h : l.Identified s) (hss : Shared s) (hsu : Handling u)
    (hk : KeepsNumbers s e) (hmove : ∀ n, Moves s u e n) (hconn : Connected s u)
    (hl : loopOf s k = some l) (hu : loopOf u k = some l) : l.Identified u := by
  obtain ⟨D, hD, rfl⟩ := Option.map_eq_some_iff.mp hl
  have hlt := hss.dispatcher_lt hD
  have hopen := hk k hlt D.loop hl
  generalize hloop : D.loop = l at h hopen hu
  cases l with
  | accept n d events =>
    obtain ⟨m, b, hn, hd⟩ := h
    exact ⟨m, b, hn.move (hmove n) (hopen n (by simp [Loop.pending])),
      hd.move (hmove d) (hopen d (by simp [Loop.pending]))⟩
  | send client d events =>
    obtain ⟨c, conn, hclient, hc, hd⟩ := h
    obtain ⟨conn', hc', hm, hb⟩ := hconn c conn hc
    obtain ⟨c', hclient'⟩ := hsu.held k client (by simp [clientOf, hu, Loop.client])
    have hsame : u.fds client = s.fds client := by
      rcases hmove client with hsame | hnone | ⟨-, hfree⟩
      · exact hsame
      · cases hnone.symm.trans hclient'
      · cases hfree.symm.trans hclient
    refine ⟨c, conn', hsame.trans hclient, hc', ?_⟩
    rw [hm, hb]
    exact hd.move (hmove d) (hopen d (by simp [Loop.pending]))
  | _ => trivial

lemma Delivering.frame (h : Delivering s) (hss : Sound s) (hsu : Sound u)
    (hk : KeepsNumbers s e) (hmove : ∀ n, Moves s u e n)
    (hc : u.connections = s.connections ∧ u.nextConnection = s.nextConnection)
    (hq : Queues s u)
    (hloop : ∀ j l, loopOf u j = some l → loopOf s j = some l ∨ l.Identified u) :
    Delivering u := by
  obtain ⟨hc, hn⟩ := hc
  refine ⟨hc ▸ hn ▸ h.fresh, ?_, ?_, hc ▸ h.received⟩
  · intro m b queue hqueue c hmem
    rw [hc]
    obtain ⟨queue', hold, hmem⟩ := hq _ _ hqueue c hmem
    exact h.queued m b queue' hold c hmem
  · intro j l hl
    rcases hloop j l hl with hold | hnew
    · exact (h.identified j l hold).move hss.shared hsu.handling hk hmove (.of_eq hc) hold hl
    · exact hnew

lemma update_none {ι α : Type} [DecidableEq ι] {g : ι → Option α} {i j : ι} {y : α}
    (h : Function.update g i none j = some y) : g j = some y := by
  by_cases hj : j = i
  · subst hj
    simp at h
  · rwa [Function.update_of_ne hj] at h

lemma closeFd_pending {x : ℕ × ℕ} {q : List ℕ} (h : (s.closeFd n).pending x = some q) :
    s.pending x = some q := by
  unfold closeFd at h
  split at h
  · exact update_none h
  · exact h

lemma foldl_closeFd_pending {x : ℕ × ℕ} {q : List ℕ} (l : List ℕ)
    (h : (l.foldl closeFd s).pending x = some q) : s.pending x = some q := by
  induction l generalizing s with
  | nil => exact h
  | cons n l ih => exact closeFd_pending (ih h)

lemma foldl_closeFd_connections (l : List ℕ) (s : Publisher) :
    (l.foldl closeFd s).connections = s.connections ∧
      (l.foldl closeFd s).nextConnection = s.nextConnection := by
  induction l generalizing s with
  | nil => exact ⟨rfl, rfl⟩
  | cons n l ih => simpa using ih (s.closeFd n)

lemma calls_connected (hs : Calls s m mg D result c o u) :
    (u.connections = s.connections ∧ u.nextConnection = s.nextConnection) ∧ Queues s u := by
  cases hs with
  | @listening r b e n =>
    refine ⟨⟨rfl, rfl⟩, ?_⟩
    intro x q hq c hmem
    have hq : Function.update s.pending (m, b) (some []) x = some q := hq
    by_cases hx : x = (m, b)
    · subst hx
      rw [Function.update_self] at hq
      obtain rfl := Option.some.inj hq
      exact absurd hmem List.not_mem_nil
    · rw [Function.update_of_ne hx] at hq
      exact ⟨q, hq, hmem⟩
  | abandoned | closedDup | closedUnserved | closedServer | closedServed =>
    refine ⟨by simp [finish, Publisher.goto, Publisher.setManager], .of_pending ?_⟩
    exact fun _ _ hq => closeFd_pending hq
  | cleared =>
    refine ⟨foldl_closeFd_connections _ _, .of_pending ?_⟩
    exact fun x q hq => foldl_closeFd_pending
      (s := s.setDispatcher mg.dispatcher { D with socketToFd := ∅, epoll := false }) _ hq
  | _ => exact ⟨⟨rfl, rfl⟩, .of_pending fun _ _ hq => hq⟩

lemma Delivering.reconnect (h : Delivering s) (hss : Sound s) (hsu : Sound u)
    (hk : KeepsNumbers s e) (hmove : ∀ n, Moves s u e n) {q : ℕ} {conn : Connection}
    (conn' : Connection)
    (hq : s.connections q = some conn) (hm : conn'.manager = conn.manager)
    (hb : conn'.block = conn.block)
    (hr : ∀ f, conn'.received = some f → f.allocation = some (conn.manager, conn.block))
    (hu : u.connections = Function.update s.connections q (some conn'))
    (hn : u.nextConnection = s.nextConnection) (hp : u.pending = s.pending)
    (hloop : ∀ j l, loopOf u j = some l → loopOf s j = some l ∨ l.Identified u) :
    Delivering u := by
  have hconn : Connected s u := by
    intro c old hc
    rw [hu]
    by_cases hx : c = q
    · subst hx
      obtain rfl := Option.some.inj (hq.symm.trans hc)
      exact ⟨conn', Function.update_self .., hm, hb⟩
    · exact ⟨old, by rwa [Function.update_of_ne hx], rfl, rfl⟩
  refine ⟨?_, ?_, ?_, ?_⟩
  · intro c hle
    rw [hn] at hle
    have hne : c ≠ q := by
      rintro rfl
      exact nomatch (h.fresh c hle).symm.trans hq
    rw [hu, Function.update_of_ne hne]
    exact h.fresh c hle
  · intro m b queue hqueue c hmem
    rw [hp] at hqueue
    obtain ⟨old, hc, rfl, rfl⟩ := h.queued m b queue hqueue c hmem
    exact hconn c old hc
  · intro j l hl
    rcases hloop j l hl with hold | hnew
    · exact (h.identified j l hold).move hss.shared hsu.handling hk hmove hconn hold hl
    · exact hnew
  · intro c old f hc hf
    rw [hu] at hc
    rcases update_some hc with ⟨rfl, he⟩ | ⟨_, hc⟩
    · obtain rfl := Option.some.inj he
      rw [hm, hb]
      exact hr f hf
    · exact h.received c old f hc hf

lemma identified_setLoop {v : Publisher} {l : Loop} (hv : ∀ j, loopOf v j = loopOf s j)
    (hl : l.Identified (v.setLoop k D l)) (j : ℕ) (l' : Loop)
    (hj : loopOf (v.setLoop k D l) j = some l') :
    loopOf s j = some l' ∨ l'.Identified (v.setLoop k D l) := by
  rw [loopOf_setLoop] at hj
  split_ifs at hj
  · obtain rfl := Option.some.inj hj
    exact .inr hl
  · exact .inl (hv j ▸ hj)

lemma dispatches_delivering {l : Loop} (h : Delivering s) (hss : Sound s) (hsu : Sound u)
    (hk : KeepsNumbers s (.dispatch k result)) (hmove : ∀ n, Moves s u (.dispatch k result) n)
    (hD : s.dispatchers k = some D) (hl : D.loop = l) (hs : Dispatches s k D result l o u) :
    Delivering u := by
  have hloop : loopOf s k = some l := by rw [loopOf_of hD, hl]
  have hident := h.identified k l hloop
  have hopen := hk k (hss.shared.dispatcher_lt hD) l hloop
  have hgoes : ∀ {v : Publisher} {l' : Loop}, u = v.setLoop k D l' →
      v.connections = s.connections ∧ v.nextConnection = s.nextConnection → Queues s v →
      (∀ j, loopOf v j = loopOf s j) → l'.Identified u → Delivering u := by
    rintro v l' rfl hc hq hv hl'
    exact h.frame hss hsu hk hmove hc hq (identified_setLoop hv hl')
  have hwaits : ∀ {v : Publisher}, v.pending = s.pending → Queues s v :=
    fun hp => .of_pending fun _ _ hq => hp ▸ hq
  cases hs with
  | handled => exact hgoes rfl ⟨rfl, rfl⟩ (hwaits rfl) (fun _ => rfl) trivial
  | missed _ => exact hgoes rfl ⟨rfl, rfl⟩ (hwaits rfl) (fun _ => rfl) trivial
  | @found _ n d events hlookup =>
    refine hgoes rfl ⟨rfl, rfl⟩ (hwaits rfl) (fun _ => rfl) ?_
    obtain ⟨m, mg, b, hm, -, hhas, hd⟩ := hss.owned.maps k D n d hD hlookup
    exact ⟨m, b, .inl ((hss.owned.manages m mg hm).listener hhas), .inl hd⟩
  | unaccepted => exact hgoes rfl ⟨rfl, rfl⟩ (hwaits rfl) (fun _ => rfl) trivial
  | @accepted n d client m b c events queue hn hqueue hfree =>
    refine hgoes rfl ⟨rfl, rfl⟩ ?_ (fun _ => rfl) ?_
    · intro x q hq c' hmem
      have hq : Function.update s.pending (m, b) (some queue) x = some q := hq
      by_cases hx : x = (m, b)
      · subst hx
        rw [Function.update_self] at hq
        obtain rfl := Option.some.inj hq
        exact ⟨_, hqueue, List.mem_cons_of_mem _ hmem⟩
      · rw [Function.update_of_ne hx] at hq
        exact ⟨q, hq, hmem⟩
    · obtain ⟨m', b', hn', hd⟩ := hident
      have hsame : m' = m ∧ b' = b := by
        rcases hn' with hn' | hnone
        · exact File.listener.inj (Option.some.inj (hn'.symm.trans hn))
        · exact nomatch hnone.symm.trans hn
      obtain ⟨rfl, rfl⟩ := hsame
      obtain ⟨conn, hc, rfl, rfl⟩ := h.queued _ _ _ hqueue c List.mem_cons_self
      have hne : opens s (.dispatch k (some client)) ≠ some d := hopen d (by simp [Loop.pending])
      exact ⟨c, conn, Function.update_self .., hc, hd.move (hmove d) hne⟩
  | @sent _ client d events o v hsend =>
    cases hsend with
    | failed _ => exact hgoes rfl ⟨rfl, rfl⟩ (hwaits rfl) (fun _ => rfl) trivial
    | killed _ _ _ _ => exact hgoes rfl ⟨rfl, rfl⟩ (hwaits rfl) (fun _ => rfl) trivial
    | @sent c conn f hf hclient hc _ =>
      obtain ⟨c', conn', hclient', hc', hd⟩ := hident
      obtain rfl := File.connection.inj (Option.some.inj (hclient.symm.trans hclient'))
      obtain rfl := Option.some.inj (hc.symm.trans hc')
      refine h.reconnect hss hsu hk hmove { conn with received := some f } hc rfl rfl ?_ rfl rfl rfl
        (identified_setLoop (v := { s with
          connections := Function.update s.connections c (some { conn with received := some f }) })
          (fun _ => rfl) trivial)
      intro f' hf'
      obtain rfl := Option.some.inj hf'
      rcases hd with hd | hnone
      · obtain rfl := Option.some.inj (hf.symm.trans hd)
        rfl
      · exact nomatch hnone.symm.trans hf
  | @closed _ client events =>
    refine hgoes rfl (by simp) (.of_pending fun _ _ hq => closeFd_pending hq) ?_ trivial
    intro j
    simp [loopOf]

lemma Delivering.connect (h : Delivering s) (hss : Sound s) (hsu : Sound u)
    (hk : KeepsNumbers s e) (hmove : ∀ n, Moves s u e n) {queue : List ℕ}
    (hqueue : s.pending (m, b) = some queue)
    (hu : u.connections = Function.update s.connections s.nextConnection
      (some { manager := m, block := b }))
    (hn : u.nextConnection = s.nextConnection + 1)
    (hp : u.pending = Function.update s.pending (m, b) (some (queue ++ [s.nextConnection])))
    (hloop : loopOf u = loopOf s) : Delivering u := by
  have hnew : s.connections s.nextConnection = none := h.fresh _ le_rfl
  have hconn : Connected s u := by
    intro c conn hc
    have hne : c ≠ s.nextConnection := by
      rintro rfl
      exact nomatch hnew.symm.trans hc
    exact ⟨conn, by rwa [hu, Function.update_of_ne hne], rfl, rfl⟩
  have hold : ∀ m' b' q, s.pending (m', b') = some q → ∀ c ∈ q,
      ∃ conn, u.connections c = some conn ∧ conn.manager = m' ∧ conn.block = b' := by
    intro m' b' q hq c hmem
    obtain ⟨conn, hc, rfl, rfl⟩ := h.queued m' b' q hq c hmem
    exact hconn c conn hc
  refine ⟨?_, ?_, ?_, ?_⟩
  · intro c hle
    rw [hn] at hle
    have hlt : s.nextConnection < c := hle
    rw [hu, Function.update_of_ne hlt.ne']
    exact h.fresh c hlt.le
  · intro m' b' q hq c hmem
    rw [hp] at hq
    by_cases hx : (m', b') = (m, b)
    · obtain ⟨rfl, rfl⟩ := Prod.mk.inj hx
      rw [Function.update_self] at hq
      obtain rfl := Option.some.inj hq
      rcases List.mem_append.mp hmem with hmem | hmem
      · exact hold _ _ queue hqueue c hmem
      · obtain rfl := List.mem_singleton.mp hmem
        exact ⟨_, by rw [hu, Function.update_self], rfl, rfl⟩
    · rw [Function.update_of_ne hx] at hq
      exact hold m' b' q hq c hmem
  · intro j l hj
    have hs := hloop ▸ hj
    exact (h.identified j l hs).move hss.shared hsu.handling hk hmove hconn hs hj
  · intro c conn f hc hf
    rw [hu] at hc
    rcases update_some hc with ⟨_, he⟩ | ⟨_, hc⟩
    · obtain rfl := Option.some.inj he
      exact nomatch hf
    · exact h.received c conn f hc hf

lemma step_delivering (h : Delivering s) (hss : Sound s) (hk : KeepsNumbers s e)
    (hs : s.step e = some (o, u)) : Delivering u := by
  have hsu := step_sound hss hs
  have hmove := step_moves hs
  have hquiet : u.connections = s.connections ∧ u.nextConnection = s.nextConnection →
      (∀ x q, u.pending x = some q → s.pending x = some q) → loopOf u = loopOf s →
      Delivering u := by
    intro hc hp hl
    exact h.frame hss hsu hk hmove hc (.of_pending hp) fun _ _ hj => .inl (hl ▸ hj)
  have hlooped : ∀ {k : ℕ} {D : FDDispatcher} {l : Loop}, u = s.setLoop k D l → l.Identified u →
      Delivering u := by
    rintro k D l rfl hl
    exact h.frame hss hsu hk hmove ⟨rfl, rfl⟩ (.of_pending fun _ _ hq => hq)
      (identified_setLoop (fun _ => rfl) hl)
  cases step_cases hs with
  | shared _ hD => exact hquiet ⟨rfl, rfl⟩ (fun _ _ hq => hq) (loopOf_update hD rfl rfl)
  | @constructed ok _ =>
    refine h.frame hss hsu hk hmove ⟨rfl, rfl⟩ (.of_pending fun _ _ hq => hq) ?_
    intro j l hj
    by_cases hx : j = s.nextDispatcher
    · subst hx
      have hl : some (if ok then Loop.wait else .exited) = some l := by
        simpa [loopOf, Publisher.setManager, Publisher.setDispatcher] using hj
      obtain rfl := Option.some.inj hl
      right
      cases ok <;> trivial
    · left
      simpa [loopOf, Publisher.setManager, Publisher.setDispatcher, hx] using hj
  | repeated _ _ _ => exact h
  | registering _ _ _ _ => exact hquiet ⟨rfl, rfl⟩ (fun _ _ hq => hq) rfl
  | called hm hc hD hcall =>
    obtain ⟨hconn, hq⟩ := calls_connected hcall
    refine h.frame hss hsu hk hmove hconn hq fun j l hj => .inl ?_
    rwa [← calls_loopOf hss.shared hss.owned hm hc hD hcall]
  | destroying _ _ => exact hquiet ⟨rfl, rfl⟩ (fun _ _ hq => hq) rfl
  | removing _ _ _ hD => exact hquiet ⟨rfl, rfl⟩ (fun _ _ hq => hq) (loopOf_update hD rfl rfl)
  | exiting _ _ _ => exact hlooped rfl trivial
  | woken _ _ _ _ => exact hlooped rfl trivial
  | dispatched hD hdispatch => exact dispatches_delivering h hss hsu hk hmove hD rfl hdispatch
  | connected _ hqueue => exact h.connect hss hsu hk hmove hqueue rfl rfl rfl rfl
  | @disconnected c conn hc =>
    exact h.reconnect hss hsu hk hmove { conn with closed := true } hc rfl rfl
      (fun f hf => h.received c conn f hc hf) rfl rfl rfl fun _ _ hj => .inl hj
  | exported _ => exact hquiet ⟨rfl, rfl⟩ (fun _ _ hq => hq) rfl
  | opened _ => exact hquiet ⟨rfl, rfl⟩ (fun _ _ hq => hq) rfl
  | closedExported _ _ | closed _ =>
    exact hquiet (by simp) (fun _ _ hq => closeFd_pending hq) (by funext j; simp [loopOf])

end Delivering

lemma run_delivering {pid : ℕ} (hr : Run step { pid := pid } tr s)
    (hk : Every step (fun s e _ => KeepsNumbers s e) { pid := pid } tr) :
    Sound s ∧ Delivering s := by
  refine hr.induction_every (P := fun _ s => Sound s ∧ Delivering s) hk ⟨sound_init pid, ?_⟩ ?_
  · exact ⟨fun _ _ => rfl, fun _ _ _ h => absurd h nofun, fun _ _ h => absurd h nofun,
      fun _ _ _ h => absurd h nofun⟩
  · intro _ _ _ _ _ _ h hk hs
    exact ⟨step_sound h.1 hs, step_delivering h.2 h.1 hk hs⟩

theorem served_fd_identity {pid : ℕ} (hr : Run step { pid := pid } tr s)
    (hk : Every step (fun s e _ => KeepsNumbers s e) { pid := pid } tr) :
    ∀ c conn f, s.connections c = some conn → conn.received = some f →
      f.allocation = some (conn.manager, conn.block) :=
  (run_delivering hr hk).2.received

theorem served_fd_identity_once : ∃ tr s, Run step { pid := 7 } tr s ∧
    Every step (fun s e _ => KeepsNumbers s e) { pid := 7 } tr ∧
    ∃ conn f, s.connections 0 = some conn ∧ conn.received = some f ∧
      f.allocation = some (conn.manager, conn.block) := by
  let evs := registering ++ [.connect "cuda_vmm_7_0", .epollWait 0 [4], .dispatch 0 none,
    .dispatch 0 (some 6), .dispatch 0 (some 1), .dispatch 0 none, .destroy 0, .removeSocket 0 0,
    .call 0 none, .call 0 none, .call 0 none, .open 4 8, .open 5 9]
  have hlast : (exec step { pid := 7 } evs).any (fun x =>
      (x.2.connections 0).any (fun conn => conn.received.isSome)) = true := by decide +kernel
  have hgood : EveryExec step (fun s e _ => KeepsNumbers s e) { pid := 7 } evs := by decide +kernel
  obtain ⟨⟨tr, s⟩, hx, hconn⟩ := Option.any_eq_true _ _ |>.mp hlast
  obtain ⟨conn, hc, hf⟩ := Option.any_eq_true _ _ |>.mp hconn
  obtain ⟨f, hf⟩ := Option.isSome_iff_exists.mp hf
  have hk := every_of_exec hx hgood
  exact ⟨tr, s, exec_run hx, hk, conn, f, hc, hf,
    served_fd_identity (exec_run hx) hk 0 conn f hc hf⟩

/-- The manager goes between the look-up and `sendmsg`, and another thread opens
files. -/
theorem foreign_file_served : ∃ tr s conn, Run step { pid := 7 } tr s ∧
    s.connections 0 = some conn ∧ conn.manager = 0 ∧ conn.block = 0 ∧
    conn.received = some (.other 9) := by
  let evs := registering ++ [.connect "cuda_vmm_7_0", .epollWait 0 [4], .dispatch 0 none,
    .dispatch 0 (some 6), .destroy 0, .removeSocket 0 0, .call 0 none, .call 0 none, .call 0 none,
    .open 4 8, .open 5 9, .dispatch 0 (some 1)]
  have hlast : (exec step { pid := 7 } evs).any (fun x =>
      decide (x.2.connections 0 = some { manager := 0, block := 0, received := some (.other 9) })) =
      true := by decide +kernel
  obtain ⟨⟨tr, s⟩, hx, hc⟩ := Option.any_eq_true _ _ |>.mp hlast
  exact ⟨tr, s, _, exec_run hx, of_decide_eq_true hc, rfl, rfl, rfl⟩

end RosidlBufferBackends.Dispatcher
