import RosidlBufferBackends.Dispatcher.Ownership

/-! The loop of a dispatcher with its clients, which may close at any point. -/

namespace RosidlBufferBackends.Dispatcher

open Runs Publisher

variable {s s₀ u : Publisher} {e : Event} {o : Output} {k : ℕ} {D D₀ : FDDispatcher}
  {result : Option ℕ} {tr : List (Event × Output)}

/-- The steps of one dispatcher's loop and of the clients. -/
def around (k : ℕ) : Event → Bool
  | .epollWait j _ | .dispatch j _ => decide (j = k)
  | .connect _ | .disconnect _ => true
  | _ => false

/-- The connection that the loop is about to send to. -/
def FDDispatcher.peer (D : FDDispatcher) (s : Publisher) : Option Connection :=
  match D.loop with
  | .send client _ _ =>
      match s.fds client with
      | some (.connection c) => s.connections c
      | _ => none
  | _ => none

def SendsToOpen (s : Publisher) : Event → Prop
  | .dispatch j _ => ∀ D ∈ s.dispatchers j, ∀ conn ∈ D.peer s, conn.closed = false
  | _ => True

instance (s : Publisher) : (e : Event) → Decidable (SendsToOpen s e)
  | .dispatch j _ =>
      inferInstanceAs (Decidable (∀ D ∈ s.dispatchers j, ∀ conn ∈ D.peer s, conn.closed = false))
  | .construct _ | .registerBlock _ _ _ | .call _ _ | .destroy _ | .removeSocket _ _
  | .epollWait _ _ | .connect _ | .disconnect _ | .export _ _ _ | .closeExported _ | .open _ _
  | .close _ => .isTrue trivial

lemma FDDispatcher.peer_of_send {client d c : ℕ} {events : List ℕ}
    (hl : D.loop = .send client d events) (hc : s.fds client = some (.connection c)) :
    D.peer s = s.connections c := by
  simp [FDDispatcher.peer, hl, hc]

lemma FDDispatcher.send_of_peer {conn : Connection} (h : conn ∈ D.peer s) :
    ∃ client d events c, D.loop = .send client d events ∧
      s.fds client = some (.connection c) ∧ s.connections c = some conn := by
  unfold FDDispatcher.peer at h
  split at h
  · rename_i client d events hl
    split at h
    · rename_i c hc
      exact ⟨client, d, events, c, hl, hc, h⟩
    · exact nomatch h
  · exact nomatch h

structure Survives (s₀ : Publisher) (k : ℕ) (D₀ : FDDispatcher) (s : Publisher) : Prop where
  alive : s.killed = false
  running : ∃ D, s.dispatchers k = some D ∧ D.running = true ∧ D.loop ≠ .exited ∧
    D.socketToFd = D₀.socketToFd ∧ D.watched = D₀.watched
  progress : ∃ e, ((∃ ready, e = .epollWait k ready) ∨ ∃ r, e = .dispatch k r) ∧
    (s.step e).isSome
  served : ∀ n f, s₀.fds n = some f → f.manager.isSome → s.fds n = some f
  closed : ∀ n c, s.fds n = some (.connection c) → ∃ j, clientOf s j = some n

/-- The duplicate that the loop has looked up. -/
def Loop.served : Loop → Option ℕ
  | .accept _ d _ | .send _ d _ => some d
  | _ => none

/-- What does not depend on the clients. -/
structure Looping (s₀ : Publisher) (k : ℕ) (D₀ : FDDispatcher) (s : Publisher) : Prop where
  sound : Sound s
  running : ∃ D, s.dispatchers k = some D ∧ D.running = true ∧ D.loop ≠ .exited ∧
    D.socketToFd = D₀.socketToFd ∧ D.watched = D₀.watched ∧
    ∀ d, D.loop.served = some d → ∃ f, s.fds d = some f ∧ f.manager.isSome
  kept : ∀ n f, s₀.fds n = some f → f.manager.isSome → s.fds n = some f

lemma alive_of_step {x : Output × Publisher} (hs : s.step e = some x) : s.killed = false := by
  cases hk : s.killed with
  | false => rfl
  | true => simp [step, hk] at hs

lemma Looping.loop (h : Looping s₀ k D₀ s) (hu : Sound u) (hD : s.dispatchers k = some D)
    {l : Loop} (hv : u.dispatchers = Function.update s.dispatchers k (some { D with loop := l }))
    (hl : l ≠ .exited)
    (hserved : ∀ d, l.served = some d → ∃ f, u.fds d = some f ∧ f.manager.isSome)
    (hkeep : ∀ n f, s.fds n = some f → f.manager.isSome → u.fds n = some f) :
    Looping s₀ k D₀ u := by
  obtain ⟨E, hE, hrun, -, hmap, hwatch, -⟩ := h.running
  obtain rfl := Option.some.inj (hD.symm.trans hE)
  refine ⟨hu, ⟨{ D with loop := l }, ?_, hrun, hl, hmap, hwatch, hserved⟩, ?_⟩
  · rw [hv, Function.update_self]
  exact fun n f hn hf => hkeep n f (h.kept n f hn hf) hf

lemma Looping.dispatches (h : Looping s₀ k D₀ s) (hu : Sound u) (hD : s.dispatchers k = some D)
    {l : Loop} (hl : D.loop = l) (hs : Dispatches s k D result l o u) : Looping s₀ k D₀ u := by
  obtain ⟨E, hE, -, -, -, -, hserved⟩ := h.running
  obtain rfl := Option.some.inj (hD.symm.trans hE)
  cases hs with
  | handled =>
    exact h.loop hu hD rfl (fun h => by cases h) (fun _ h => by cases h) fun _ _ hx _ => hx
  | missed _ =>
    exact h.loop hu hD rfl (fun h => by cases h) (fun _ h => by cases h) fun _ _ hx _ => hx
  | @found _ n d events hlookup =>
    refine h.loop hu hD rfl (fun h => by cases h) ?_ fun _ _ hx _ => hx
    intro d' hd'
    obtain rfl := Option.some.inj hd'
    obtain ⟨m, mg, b, -, -, -, hd⟩ := h.sound.owned.maps k D n d hD hlookup
    exact ⟨_, hd, rfl⟩
  | unaccepted =>
    exact h.loop hu hD rfl (fun h => by cases h) (fun _ h => by cases h) fun _ _ hx _ => hx
  | accepted _ _ hclient =>
    refine h.loop hu hD rfl (fun h => by cases h) ?_ fun _ _ hx _ => opened_keeps hclient hx
    intro d' hd'
    obtain ⟨f, hf, hm⟩ := hserved d' (by rw [hl]; exact hd')
    exact ⟨f, opened_keeps hclient hf, hm⟩
  | sent hsend =>
    cases hsend <;>
      exact h.loop hu hD rfl (fun h => by cases h) (fun _ h => by cases h) fun _ _ hx _ => hx
  | @closed _ client events =>
    obtain ⟨c, hc⟩ := h.sound.handling.held k client
      (by simp [clientOf, loopOf, hD, hl, Loop.client])
    refine h.loop (l := .handle events) hu hD ?_ (fun h => by cases h) (fun _ h => by cases h) ?_
    · simp [setLoop, Publisher.setDispatcher]
    · intro n f hn hf
      have hkeep := closed_keeps hc hn (by rintro rfl; cases hf)
      simpa [setLoop, Publisher.setDispatcher] using hkeep

lemma Looping.step (h : Looping s₀ k D₀ s) (ha : around k e = true) (hs : s.step e = some (o, u)) :
    Looping s₀ k D₀ u := by
  have hu := step_sound h.sound hs
  cases step_cases hs with
  | exiting hD _ hstopped =>
    obtain rfl := of_decide_eq_true ha
    obtain ⟨E, hE, hrun, -⟩ := h.running
    obtain rfl := Option.some.inj (hD.symm.trans hE)
    exact nomatch hstopped.symm.trans hrun
  | woken hD _ _ _ =>
    obtain rfl := of_decide_eq_true ha
    exact h.loop hu hD rfl nofun nofun fun _ _ hx _ => hx
  | dispatched hD hs =>
    obtain rfl := of_decide_eq_true ha
    exact h.dispatches hu hD rfl hs
  | connected _ _ => exact ⟨hu, h.running, h.kept⟩
  | disconnected _ => exact ⟨hu, h.running, h.kept⟩
  | _ => exact nomatch ha

lemma Looping.killed_iff (h : Looping s₀ k D₀ s) (ha : around k e = true)
    (hs : s.step e = some (o, u)) : u.killed = false ↔ SendsToOpen s e := by
  have halive := alive_of_step hs
  cases step_cases hs with
  | exiting _ _ _ => exact iff_of_true halive trivial
  | woken _ _ _ _ => exact iff_of_true halive trivial
  | connected _ _ => exact iff_of_true halive trivial
  | disconnected _ => exact iff_of_true halive trivial
  | @dispatched j D result _ _ hD hs =>
    obtain rfl := of_decide_eq_true ha
    obtain ⟨E, hE, -, -, -, -, hserved⟩ := h.running
    obtain rfl := Option.some.inj (hD.symm.trans hE)
    have hpeer : SendsToOpen s (.dispatch j result) ↔ ∀ conn ∈ D.peer s, conn.closed = false := by
      simp [SendsToOpen, hD]
    rw [hpeer]
    have hquiet : (∀ client d events, D.loop ≠ .send client d events) →
        ∀ conn ∈ D.peer s, conn.closed = false := by
      intro hne conn hconn
      obtain ⟨client, d, events, c, hl, -⟩ := D.send_of_peer hconn
      exact absurd hl (hne client d events)
    generalize hl : D.loop = l at hs hquiet
    cases hs with
    | @sent _ client d events _ _ hsend =>
      obtain ⟨f, hd, -⟩ := hserved d (by rw [hl]; rfl)
      cases hsend with
      | failed hopen =>
        refine iff_of_true halive ?_
        intro conn hconn
        obtain ⟨client', d', events', c, hl', hc, hconn⟩ := D.send_of_peer hconn
        obtain ⟨rfl, rfl, -⟩ := Loop.send.inj (hl.symm.trans hl')
        exact hopen f c conn hd hc hconn
      | @killed c conn _ _ hc hconn hclosed =>
        refine iff_of_false (fun h => by cases h) ?_
        intro hopen
        have hmem : conn ∈ D.peer s := (D.peer_of_send hl hc).trans hconn
        cases hclosed.symm.trans (hopen conn hmem)
      | @sent c conn _ _ hc hconn hopen =>
        refine iff_of_true halive ?_
        intro conn' hconn'
        rw [D.peer_of_send hl hc, hconn] at hconn'
        obtain rfl := Option.mem_some_iff.mp hconn'
        exact hopen
    | closed =>
      exact iff_of_true (by simpa [setLoop, Publisher.setDispatcher] using halive)
        (hquiet fun _ _ _ h => by cases h)
    | _ => exact iff_of_true halive (hquiet fun _ _ _ h => by cases h)
  | _ => cases ha

lemma Looping.progress (h : Looping s₀ k D₀ s) (halive : s.killed = false) :
    ∃ e, ((∃ ready, e = .epollWait k ready) ∨ ∃ r, e = .dispatch k r) ∧ (s.step e).isSome := by
  obtain ⟨D, hD, hrun, hexited, -⟩ := h.running
  cases hl : D.loop with
  | wait =>
    refine ⟨.epollWait k [], .inl ⟨[], rfl⟩, ?_⟩
    simp [Publisher.step, halive, hD, hl, hrun]
  | handle events =>
    refine ⟨.dispatch k none, .inr ⟨none, rfl⟩, ?_⟩
    cases events with
    | nil => simp [Publisher.step, halive, hD, hl, dispatch]
    | cons n events =>
      simp only [Publisher.step, halive, hD, hl, dispatch, Bool.false_eq_true, if_false]
      split <;> rfl
  | accept n d events =>
    exact ⟨.dispatch k none, .inr ⟨none, rfl⟩, by simp [Publisher.step, halive, hD, hl, dispatch]⟩
  | send client d events =>
    exact ⟨.dispatch k none, .inr ⟨none, rfl⟩, by simp [Publisher.step, halive, hD, hl, dispatch]⟩
  | close client events =>
    exact ⟨.dispatch k none, .inr ⟨none, rfl⟩, by simp [Publisher.step, halive, hD, hl, dispatch]⟩
  | exited => exact absurd hl hexited

lemma run_looping (hsound : Sound s₀) (hD₀ : s₀.dispatchers k = some D₀)
    (hrun : D₀.running = true) (hwait : D₀.loop = .wait) (hr : Run step s₀ tr s)
    (ha : ∀ x ∈ tr, around k x.1 = true) : Looping s₀ k D₀ s := by
  induction hr with
  | nil =>
    refine ⟨hsound, ⟨D₀, hD₀, hrun, ?_, rfl, rfl, ?_⟩, fun _ _ hn _ => hn⟩
    · rw [hwait]
      exact nofun
    · rw [hwait]
      exact nofun
  | snoc _ hs ih =>
    have hlast := ha _ (List.mem_append_right _ (List.mem_singleton_self _))
    exact (ih fun x hx => ha x (List.mem_append_left _ hx)).step hlast hs

/-- The loop survives exactly the runs in which no client has closed when it sends. -/
theorem dispatcher_survives_iff {pid : ℕ} {pre : List (Event × Output)}
    (hpre : Run step { pid := pid } pre s₀) (hD₀ : s₀.dispatchers k = some D₀)
    (hrun : D₀.running = true) (hwait : D₀.loop = .wait) (halive : s₀.killed = false)
    (hr : Run step s₀ tr s) (ha : ∀ x ∈ tr, around k x.1 = true) :
    Survives s₀ k D₀ s ↔ Every step (fun s e _ => SendsToOpen s e) s₀ tr := by
  have hsound : Sound s₀ := hpre.invariant (sound_init pid) fun _ _ _ _ h hs => step_sound h hs
  have hloop := run_looping hsound hD₀ hrun hwait hr ha
  have hkilled : s.killed = false ↔ Every step (fun s e _ => SendsToOpen s e) s₀ tr := by
    clear hloop
    induction hr with
    | nil => exact iff_of_true halive fun _ _ _ _ _ heq => absurd heq (by simp)
    | @snoc t v tr e o hr hs ih =>
      have hinit : ∀ x ∈ tr, around k x.1 = true := fun x hx => ha x (List.mem_append_left _ hx)
      have hlast := ha _ (List.mem_append_right _ (List.mem_singleton_self _))
      have hlooping := run_looping hsound hD₀ hrun hwait hr hinit
      rw [hr.every_snoc, hlooping.killed_iff hlast hs]
      have hbefore := (ih hinit).mp (alive_of_step hs)
      exact (and_iff_right hbefore).symm
  rw [← hkilled]
  refine ⟨fun h => h.alive, fun hs => ⟨hs, ?_, hloop.progress hs, hloop.kept, ?_⟩⟩
  · obtain ⟨D, hD, hrun, hexited, hmap, hwatch, -⟩ := hloop.running
    exact ⟨D, hD, hrun, hexited, hmap, hwatch⟩
  · exact hloop.sound.handling.handled

/-- A manager registers its block 0, exported as 3. -/
def registering : List Event :=
  [.construct true, .export 0 0 3, .registerBlock 0 0 3, .call 0 (some 4), .call 0 (some 0),
    .call 0 (some 0), .call 0 (some 5), .call 0 none, .call 0 (some 0), .call 0 none]

theorem dispatcher_survives_once : ∃ s₀ D₀ tr s, Run step s₀ tr s ∧
    Every step (fun s e _ => SendsToOpen s e) s₀ tr ∧ Survives s₀ 0 D₀ s ∧
    (Event.dispatch 0 (some 1), Output.sent 0 (.duplicate 0 0)) ∈ tr := by
  let evs : List Event := [.connect "cuda_vmm_7_0", .epollWait 0 [4], .dispatch 0 none,
    .dispatch 0 (some 6), .dispatch 0 (some 1), .disconnect 0]
  have hlast : (exec step { pid := 7 } registering).any (fun x =>
      !x.2.killed && (x.2.dispatchers 0).any (fun D => D.running && decide (D.loop = .wait)) &&
      (exec step x.2 evs).any (fun y => (∀ z ∈ y.1, around 0 z.1 = true) ∧
        (Event.dispatch 0 (some 1), Output.sent 0 (.duplicate 0 0)) ∈ y.1 ∧
        EveryExec step (fun s e _ => SendsToOpen s e) x.2 evs)) = true := by decide +kernel
  obtain ⟨⟨pre, s₀⟩, hx, hlast⟩ := Option.any_eq_true _ _ |>.mp hlast
  simp only [Bool.and_eq_true, Bool.not_eq_true'] at hlast
  obtain ⟨⟨halive, hD⟩, hlast⟩ := hlast
  obtain ⟨D₀, hD₀, hloop⟩ := Option.any_eq_true _ _ |>.mp hD
  simp only [Bool.and_eq_true, decide_eq_true_eq] at hloop
  obtain ⟨⟨tr, s⟩, hy, hlast⟩ := Option.any_eq_true _ _ |>.mp hlast
  obtain ⟨haround, hsent, hopen⟩ := of_decide_eq_true hlast
  have hevery := every_of_exec hy hopen
  have hsurvives := (dispatcher_survives_iff (exec_run hx) hD₀ hloop.1 hloop.2 halive (exec_run hy)
    haround).mpr hevery
  exact ⟨s₀, D₀, tr, s, exec_run hy, hevery, hsurvives, hsent⟩

/-- The client closes before the dispatcher sends to it. -/
theorem closed_client_kills : ∃ pre s₀ D₀ tr s, Run step { pid := 7 } pre s₀ ∧
    s₀.dispatchers 0 = some D₀ ∧ D₀.running = true ∧ D₀.loop = .wait ∧ s₀.killed = false ∧
    Run step s₀ tr s ∧ (∀ x ∈ tr, around 0 x.1 = true) ∧ s.killed = true := by
  let evs : List Event := [.connect "cuda_vmm_7_0", .epollWait 0 [4], .dispatch 0 none,
    .dispatch 0 (some 6), .disconnect 0, .dispatch 0 (some 1)]
  have hlast : (exec step { pid := 7 } registering).any (fun x =>
      !x.2.killed && (x.2.dispatchers 0).any (fun D => D.running && decide (D.loop = .wait)) &&
      (exec step x.2 evs).any (fun y => (∀ z ∈ y.1, around 0 z.1 = true) ∧
        y.2.killed = true)) = true := by decide +kernel
  obtain ⟨⟨pre, s₀⟩, hx, hlast⟩ := Option.any_eq_true _ _ |>.mp hlast
  simp only [Bool.and_eq_true, Bool.not_eq_true'] at hlast
  obtain ⟨⟨halive, hD⟩, hlast⟩ := hlast
  obtain ⟨D₀, hD₀, hloop⟩ := Option.any_eq_true _ _ |>.mp hD
  simp only [Bool.and_eq_true, decide_eq_true_eq] at hloop
  obtain ⟨⟨tr, s⟩, hy, hlast⟩ := Option.any_eq_true _ _ |>.mp hlast
  obtain ⟨haround, hkilled⟩ := of_decide_eq_true hlast
  exact ⟨pre, s₀, D₀, tr, s, exec_run hx, hD₀, hloop.1, hloop.2, halive, exec_run hy, haround,
    hkilled⟩

end RosidlBufferBackends.Dispatcher
