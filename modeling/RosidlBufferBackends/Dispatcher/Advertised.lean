import RosidlBufferBackends.Dispatcher.Survival

/-! Which of the blocks that `register_block` returns a path for are served. -/

namespace RosidlBufferBackends.Dispatcher

open Runs Inventory Publisher

variable {s u : Publisher} {e : Event} {o : Output} {i m k n b : ℕ} {mg : CudaVmmIPCManager}
  {D F : FDDispatcher} {result : Option ℕ} {c : Call} {tr : List (Event × Output)}

/-- The running dispatcher has the server socket of the block in its epoll set and
maps it to a live duplicate of the exported descriptor. -/
def Served (s : Publisher) (m b : ℕ) : Prop :=
  ∃ mg info D d, s.managers m = some mg ∧ mg.registeredBlocks.lookup b = some info ∧
    s.dispatchers mg.dispatcher = some D ∧ D.running = true ∧ D.loop ≠ .exited ∧
    D.watched info.serverSocket = true ∧ D.socketToFd.lookup info.serverSocket = some d ∧
    s.fds info.serverSocket = some (.listener m b) ∧ s.fds d = some (.duplicate m b)

/-- The call does not fail to duplicate the descriptor of the block, or to watch its
socket. -/
def Call.Adds (b : ℕ) (result : Option ℕ) : Call → Prop
  | .dup b' _ _ | .epollAdd b' _ _ => b' = b → result.isSome
  | _ => True

instance (b : ℕ) (result : Option ℕ) : (c : Call) → Decidable (c.Adds b result)
  | .dup b' _ _ | .epollAdd b' _ _ => inferInstanceAs (Decidable (b' = b → result.isSome))
  | .socket _ _ | .bind _ _ _ | .listen _ _ _ | .abandon _ _ | .insert _ _ _ | .erase _ _ _
  | .closeDup _ _ _ | .record _ _ | .removing | .epollDel _ _ _ | .closeServer _ _ _
  | .closeServed _ _ | .stop | .join | .clear => .isTrue trivial

/-- No call for the block fails in `add_socket`. -/
def AddsSocket (m b : ℕ) (s : Publisher) : Event → Prop
  | .call i result => i = m → ∀ mg ∈ s.managers m, ∀ c ∈ mg.call, c.Adds b result
  | _ => True

instance (m b : ℕ) (s : Publisher) : (e : Event) → Decidable (AddsSocket m b s e)
  | .call i result => inferInstanceAs
      (Decidable (i = m → ∀ mg ∈ s.managers m, ∀ c ∈ mg.call, c.Adds b result))
  | .construct _ | .registerBlock _ _ _ | .dispatch _ _ | .destroy _ | .removeSocket _ _
  | .epollWait _ _ | .connect _ | .disconnect _ | .export _ _ _ | .closeExported _ | .open _ _
  | .close _ => .isTrue trivial

/-- A dispatcher that is shared runs, if it has its descriptors. -/
def Started (s : Publisher) : Prop := ∀ k D, s.dispatchers k = some D → D.owners ≠ [] →
  D.running = D.epoll ∧ (D.running = true → D.loop ≠ .exited)

def Entered (D : FDDispatcher) (n : ℕ) : Prop :=
  D.epoll = true ∧ D.watched n = true ∧ (D.socketToFd.lookup n).isSome

/-- How far the registration of the block has come. -/
def Call.Reaches (D : FDDispatcher) (b : ℕ) : Call → Prop
  | .epollAdd b' n _ => b' = b → (D.socketToFd.lookup n).isSome
  | .record b' n => b' = b → Entered D n
  | .erase b' _ _ | .closeDup b' _ _ => b' ≠ b
  | _ => True

def Serving (m b : ℕ) (s : Publisher) : Prop :=
  ∀ mg D, s.managers m = some mg → s.dispatchers mg.dispatcher = some D →
    (∀ info, mg.registeredBlocks.lookup b = some info → Entered D info.serverSocket) ∧
    ∀ c, mg.call = some c → c.Reaches D b

def SameAt (D F : FDDispatcher) (n : ℕ) : Prop :=
  F.epoll = D.epoll ∧ F.watched n = D.watched n ∧
    F.socketToFd.lookup n = D.socketToFd.lookup n

lemma SameAt.refl (D : FDDispatcher) (n : ℕ) : SameAt D D n := ⟨rfl, rfl, rfl⟩

lemma Entered.same (h : Entered D n) (hs : SameAt D F n) : Entered F n := by
  obtain ⟨he, hw, hl⟩ := hs
  exact ⟨he ▸ h.1, hw ▸ h.2.1, hl ▸ h.2.2⟩

lemma Call.reaches_of_block (h : c.block ≠ some b) : c.Reaches D b := by
  cases c <;> first
    | trivial
    | exact fun he => absurd (congrArg some he) h

lemma Call.reaches_of_left (h : c.left = true) : c.Reaches D b := by
  cases c <;> trivial

/-- What the thread of a manager changes besides the block that it is at. -/
structure Effect (s u : Publisher) (m : ℕ) (mg : CudaVmmIPCManager) (D : FDDispatcher) (c : Call)
    (x : Option CudaVmmIPCManager) (F : FDDispatcher) : Prop where
  managers : u.managers = Function.update s.managers m x
  dispatchers : u.dispatchers = Function.update s.dispatchers mg.dispatcher (some F)
  dispatcher : ∀ mg', x = some mg' → mg'.dispatcher = mg.dispatcher
  registered : ∀ mg' b, x = some mg' → c.block ≠ some b →
    mg'.registeredBlocks.lookup b = mg.registeredBlocks.lookup b
  block : ∀ mg' c', x = some mg' → mg'.call = some c' → c'.block = c.block ∨ c'.block = none
  same : c.left = false → ∀ n, (∀ b, c.block = some b → s.fds n ≠ some (.listener m b)) →
    SameAt D F n

lemma Effect.goto {k : Call}
    (hu : u.managers = Function.update s.managers m (some { mg with call := some k }))
    (hv : u.dispatchers = Function.update s.dispatchers mg.dispatcher (some F))
    (hb : k.block = c.block ∨ k.block = none)
    (hsame : c.left = false → ∀ n, (∀ b, c.block = some b → s.fds n ≠ some (.listener m b)) →
      SameAt D F n) : Effect s u m mg D c (some { mg with call := some k }) F := by
  refine ⟨hu, hv, ?_, ?_, ?_, hsame⟩
  · intro mg' he
    obtain rfl := Option.some.inj he
    rfl
  · intro mg' b he _
    obtain rfl := Option.some.inj he
    rfl
  · intro mg' c₁ he hc₁
    obtain rfl := Option.some.inj he
    obtain rfl := Option.some.inj hc₁
    exact hb

lemma Effect.finish (hu : u.managers = Function.update s.managers m (some { mg with call := none }))
    (hv : u.dispatchers = Function.update s.dispatchers mg.dispatcher (some D)) :
    Effect s u m mg D c (some { mg with call := none }) D := by
  refine ⟨hu, hv, ?_, ?_, ?_, fun _ n _ => .refl D n⟩
  · intro mg' he
    obtain rfl := Option.some.inj he
    rfl
  · intro mg' b he _
    obtain rfl := Option.some.inj he
    rfl
  · intro mg' c₁ he hc₁
    obtain rfl := Option.some.inj he
    exact nomatch hc₁

lemma Effect.drop (hu : u.managers = Function.update s.managers m none)
    (hv : u.dispatchers = Function.update s.dispatchers mg.dispatcher (some F))
    (hsame : c.left = false → ∀ n, SameAt D F n) : Effect s u m mg D c none F :=
  ⟨hu, hv, nofun, nofun, nofun, fun hl n _ => hsame hl n⟩

lemma calls_effect (hD : s.dispatchers mg.dispatcher = some D)
    (hrefs : ∀ x ∈ c.refs m, s.fds x.1 = some x.2) (hs : Calls s m mg D result c o u) :
    ∃ x F, Effect s u m mg D c x F := by
  have hold := dispatchers_same hD
  -- the thread changes its own socket only
  have hne : ∀ {n n' b : ℕ}, s.fds n = some (.listener m b) → c.block = some b →
      (∀ b, c.block = some b → s.fds n' ≠ some (.listener m b)) → n' ≠ n := by
    rintro n _ b hn hb hother rfl
    exact hother b hb hn
  cases hs with
  | unopened => exact ⟨_, D, .finish rfl hold⟩
  | opened _ => exact ⟨_, D, .goto rfl hold (.inl rfl) fun _ n _ => .refl D n⟩
  | refused hc' =>
    refine ⟨_, D, .goto rfl hold ?_ fun _ n _ => .refl D n⟩
    rcases hc' with rfl | rfl <;> exact .inl rfl
  | bound | listening | unduplicated | unadded =>
    exact ⟨_, D, .goto rfl hold (.inl rfl) fun _ n _ => .refl D n⟩
  | abandoned =>
    exact ⟨_, D, .finish (by simp [Publisher.finish, setManager])
      (by simpa [Publisher.finish, setManager] using hold)⟩
  | duplicated _ _ => exact ⟨_, D, .goto rfl hold (.inl rfl) fun _ n _ => .refl D n⟩
  | inserted =>
    have hn := hrefs _ List.mem_cons_self
    refine ⟨_, _, .goto rfl rfl (.inl rfl) fun _ n' hother => ⟨rfl, rfl, ?_⟩⟩
    exact AList.lookup_insert_ne (hne hn rfl hother)
  | added _ =>
    have hn := hrefs _ List.mem_cons_self
    refine ⟨_, _, .goto rfl rfl (.inl rfl) fun _ n' hother => ⟨rfl, ?_, rfl⟩⟩
    exact Function.update_of_ne (hne hn rfl hother) _ _
  | erased =>
    have hn := hrefs _ List.mem_cons_self
    refine ⟨_, _, .goto rfl rfl (.inl rfl) fun _ n' hother => ⟨rfl, rfl, ?_⟩⟩
    exact AList.lookup_erase_ne (hne hn rfl hother)
  | unwatched =>
    have hn := hrefs _ List.mem_cons_self
    refine ⟨_, _, .goto rfl rfl (.inl rfl) fun _ n' hother => ⟨rfl, ?_, rfl⟩⟩
    exact Function.update_of_ne (hne hn rfl hother) _ _
  | @closedDup _ b n d =>
    exact ⟨_, D, .goto (k := .record b n) (by simp [Publisher.goto, setManager])
      (by simpa [Publisher.goto, setManager] using hold) (.inl rfl) fun _ n _ => .refl D n⟩
  | recorded =>
    refine ⟨_, D, rfl, hold, ?_, ?_, ?_, fun _ n _ => .refl D n⟩
    · intro mg' he
      obtain rfl := Option.some.inj he
      rfl
    · intro mg' b' he hb'
      obtain rfl := Option.some.inj he
      exact AList.lookup_insert_ne fun hx => hb' (congrArg some hx.symm)
    · intro mg' c₁ he hc₁
      obtain rfl := Option.some.inj he
      cases hc₁
  | released _ _ => exact ⟨none, _, .drop rfl rfl fun _ n => ⟨rfl, rfl, rfl⟩⟩
  | expired _ _ => exact ⟨_, _, .goto rfl rfl (.inl rfl) fun _ n _ => ⟨rfl, rfl, rfl⟩⟩
  | closedUnserved | closedServed =>
    exact ⟨_, D, .goto (k := .removing) (by simp [Publisher.goto, setManager])
      (by simpa [Publisher.goto, setManager] using hold) (.inr rfl) fun _ n _ => .refl D n⟩
  | @closedServer _ b n d =>
    exact ⟨_, D, .goto (k := .closeServed b d) (by simp [Publisher.goto, setManager])
      (by simpa [Publisher.goto, setManager] using hold) (.inl rfl) fun _ n _ => .refl D n⟩
  | stopping _ => exact ⟨_, _, .goto rfl rfl (.inl rfl) (fun h => by cases h)⟩
  | unstarted _ => exact ⟨none, D, .drop rfl hold (fun h => by cases h)⟩
  | joined _ => exact ⟨_, D, .goto rfl hold (.inl rfl) (fun h => by cases h)⟩
  | cleared =>
    obtain ⟨hmanagers, hdispatchers, -⟩ := foldl_closeFd D.socketToFd.keys
      (s.setDispatcher mg.dispatcher { D with socketToFd := ∅, epoll := false })
    exact ⟨none, _, .drop (by simp [setManager, hmanagers]; rfl) hdispatchers
      (fun h => by cases h)⟩

lemma Call.Reaches.same (hD : ∀ n, s.fds n = some (.listener m b) → SameAt D F n)
    (hrefs : ∀ x ∈ c.refs m, s.fds x.1 = some x.2) (h : c.Reaches D b) : c.Reaches F b := by
  cases c with
  | epollAdd b' n d =>
    rintro rfl
    obtain ⟨-, -, hl⟩ := hD n (hrefs _ List.mem_cons_self)
    exact hl ▸ h rfl
  | record b' n =>
    rintro rfl
    exact (h rfl).same (hD n (hrefs _ List.mem_cons_self))
  | _ => exact h

section Started

lemma Started.set (h : Started s) (hv : u.dispatchers = Function.update s.dispatchers k (some F))
    (hF : F.owners ≠ [] → F.running = F.epoll ∧ (F.running = true → F.loop ≠ .exited)) :
    Started u := by
  intro j E hE
  rw [hv] at hE
  rcases update_some hE with ⟨_, he⟩ | ⟨_, hold⟩
  · obtain rfl := Option.some.inj he
    exact hF
  · exact h j E hold

lemma Started.frame (h : Started s) (hv : u.dispatchers = s.dispatchers) : Started u :=
  fun j E hE => h j E (hv ▸ hE)

lemma calls_started (hsh : Shared s) (h : Started s) (hm : s.managers m = some mg)
    (hc : mg.call = some c) (hD : s.dispatchers mg.dispatcher = some D)
    (hs : Calls s m mg D result c o u) : Started u := by
  have hold := h _ D hD
  have howners : c.left = true → D.owners = [] := by
    intro hl
    obtain ⟨E, hE, hnil, -⟩ := hsh.attached m mg hm
    obtain rfl := Option.some.inj (hD.symm.trans hE)
    exact hnil (by simp [CudaVmmIPCManager.leaving, hc, hl])
  cases hs with
  | inserted | erased | unwatched => exact h.set rfl hold
  | added _ => exact h.set rfl hold
  | released _ _ =>
    refine h.set rfl fun hne => hold ?_
    intro hnil
    exact hne (by simp [hnil])
  | expired _ hnil => exact h.set rfl fun hne => absurd hnil hne
  | stopping _ => exact h.set rfl fun hne => absurd (howners rfl) hne
  | cleared =>
    obtain ⟨-, hdispatchers, -⟩ := foldl_closeFd D.socketToFd.keys
      (s.setDispatcher mg.dispatcher { D with socketToFd := ∅, epoll := false })
    exact h.set hdispatchers fun hne => absurd (howners rfl) hne
  | abandoned | closedDup | closedUnserved | closedServer | closedServed =>
    exact h.frame (by simp [Publisher.finish, Publisher.goto, Publisher.setManager])
  | _ => exact h.frame rfl

lemma dispatches_started {l : Loop} (h : Started s) (hD : s.dispatchers k = some D)
    (hl : D.loop = l) (hs : Dispatches s k D result l o u) : Started u := by
  have hold := h _ D hD
  have hset : ∀ {v : Publisher} {l' : Loop}, v.dispatchers = s.dispatchers → l' ≠ .exited →
      Started (v.setLoop k D l') := by
    intro v l' hv hl'
    refine (h.frame hv).set rfl fun hne => ⟨(hold hne).1, fun _ => hl'⟩
  cases hs with
  | sent hsend => cases hsend <;> exact hset rfl nofun
  | closed => exact hset (by simp) nofun
  | accepted _ _ _ => exact hset rfl nofun
  | _ => exact hset rfl nofun

lemma step_started (hsh : Shared s) (h : Started s) (hs : s.step e = some (o, u)) :
    Started u := by
  cases step_cases hs with
  | shared hc hD =>
    have hold := h _ _ hD
    refine h.set rfl fun _ => hold ?_
    obtain ⟨E, hE, hne⟩ := hsh.current _ hc
    obtain rfl := Option.some.inj (hD.symm.trans hE)
    exact hne
  | @constructed ok _ =>
    refine h.set rfl fun _ => ⟨rfl, ?_⟩
    rintro rfl
    exact nofun
  | called hm hc hD hs => exact calls_started hsh h hm hc hD hs
  | removing _ _ _ hD =>
    have hold := h _ _ hD
    exact h.set rfl hold
  | exiting hD _ hstopped =>
    exact h.set rfl fun hne => ⟨(h _ _ hD hne).1, fun hrun => nomatch hstopped.symm.trans hrun⟩
  | woken hD _ _ _ => exact h.set rfl fun hne => ⟨(h _ _ hD hne).1, fun _ => nofun⟩
  | dispatched hD hs => exact dispatches_started h hD rfl hs
  | closedExported _ _ | closed _ => exact h.frame (by simp)
  | _ => exact h.frame rfl

end Started

section Serving

lemma Serving.frame (h : Serving m b s) (hu : u.managers = s.managers)
    (hv : u.dispatchers = s.dispatchers) : Serving m b u :=
  fun mg D hm hD => h mg D (hu ▸ hm) (hv ▸ hD)

lemma calls_serving_block (h : Serving m b s) (hm : s.managers m = some mg)
    (hc : mg.call = some c) (hD : s.dispatchers mg.dispatcher = some D) (hb : c.block = some b)
    (hnone : mg.registeredBlocks.lookup b = none) (hadds : c.Adds b result)
    (hs : Calls s m mg D result c o u) : Serving m b u := by
  have hreaches := (h mg D hm hD).2 c hc
  have hold := dispatchers_same hD
  have hnext : ∀ {v : Publisher} {G : FDDispatcher} {k : Option Call},
      v.managers = Function.update s.managers m (some { mg with call := k }) →
      v.dispatchers = Function.update s.dispatchers mg.dispatcher (some G) →
      (∀ c₁, k = some c₁ → c₁.Reaches G b) → Serving m b v := by
    intro v G k hu hv hr mg' D' hm' hD'
    rw [hu, Function.update_self] at hm'
    obtain rfl := Option.some.inj hm'
    rw [hv, Function.update_self] at hD'
    obtain rfl := Option.some.inj hD'
    exact ⟨fun info hinfo => absurd (hnone.symm.trans hinfo) (fun h => by cases h), hr⟩
  have hgoto : ∀ {v : Publisher} {G : FDDispatcher} {k : Call},
      v.managers = Function.update s.managers m (some { mg with call := some k }) →
      v.dispatchers = Function.update s.dispatchers mg.dispatcher (some G) →
      k.Reaches G b → Serving m b v := by
    intro v G k hu hv hr
    refine hnext hu hv fun c₁ he => ?_
    obtain rfl := Option.some.inj he
    exact hr
  cases hs with
  | unopened => exact hnext rfl hold (fun _ h => by cases h)
  | opened _ => exact hgoto rfl hold trivial
  | refused _ => exact hgoto rfl hold trivial
  | bound | listening => exact hgoto rfl hold trivial
  | abandoned =>
    exact hnext (k := none) (by simp [Publisher.finish, setManager])
      (by simpa [Publisher.finish, setManager] using hold) (fun _ h => by cases h)
  | unduplicated | unadded => exact absurd (hadds (Option.some.inj hb)) (fun h => by cases h)
  | duplicated _ _ => exact hgoto rfl hold trivial
  | inserted =>
    refine hgoto rfl rfl fun _ => ?_
    rw [AList.lookup_insert]
    rfl
  | added hepoll =>
    refine hgoto rfl rfl fun he => ⟨hepoll, Function.update_self .., hreaches he⟩
  | erased | closedDup => exact absurd (Option.some.inj hb) hreaches
  | @recorded _ b' n =>
    obtain rfl := Option.some.inj hb
    intro mg' D' hm' hD'
    have hm' : Function.update s.managers m _ m = some mg' := hm'
    rw [Function.update_self] at hm'
    obtain rfl := Option.some.inj hm'
    obtain rfl := Option.some.inj (hD.symm.trans hD')
    refine ⟨?_, fun _ he => absurd he (fun h => by cases h)⟩
    intro info hinfo
    rw [AList.lookup_insert] at hinfo
    obtain rfl := Option.some.inj hinfo
    exact hreaches rfl
  | unwatched => exact hgoto rfl rfl trivial
  | closedUnserved | closedServed =>
    exact hgoto (k := .removing) (by simp [Publisher.goto, setManager])
      (by simpa [Publisher.goto, setManager] using hold) trivial
  | @closedServer _ b n d =>
    exact hgoto (k := .closeServed b d) (by simp [Publisher.goto, setManager])
      (by simpa [Publisher.goto, setManager] using hold) trivial
  | _ => cases hb

lemma Effect.serving {i : ℕ} {x : Option CudaVmmIPCManager} (hs : Sound s) (h : Serving m b s)
    (hi : s.managers i = some mg) (hc : mg.call = some c)
    (hD : s.dispatchers mg.dispatcher = some D) (hother : i ≠ m ∨ c.block ≠ some b)
    (he : Effect s u i mg D c x F) : Serving m b u := by
  have hleaving : mg.leaving = c.left := by simp [CudaVmmIPCManager.leaving, hc]
  have hsame : c.left = false → ∀ n, s.fds n = some (.listener m b) → SameAt D F n := by
    intro hl n hn
    refine he.same hl n fun b' hb' hn' => ?_
    obtain ⟨rfl, rfl⟩ := File.listener.inj (Option.some.inj (hn.symm.trans hn'))
    rcases hother with hne | hne
    · exact hne rfl
    · exact hne hb'
  intro mg' D' hm' hD'
  rw [he.managers] at hm'
  rw [he.dispatchers] at hD'
  rcases update_some hm' with ⟨rfl, hx⟩ | ⟨hne, hm⟩
  · have hb : c.block ≠ some b := hother.resolve_left fun hne => hne rfl
    obtain ⟨hregistered, -⟩ := h mg D hi hD
    have hmanages := hs.owned.manages _ mg hi
    rw [he.dispatcher mg' hx, Function.update_self] at hD'
    obtain rfl := Option.some.inj hD'
    refine ⟨?_, ?_⟩
    · intro info hinfo
      rw [he.registered mg' b hx hb] at hinfo
      cases hl : c.left with
      | false => exact (hregistered info hinfo).same (hsame hl _ (hmanages.registered b info hinfo))
      | true =>
        exact absurd (.inl ⟨info, hinfo, rfl⟩) (hmanages.not_has (b := b) (hleaving.trans hl))
    · intro c' hc'
      apply Call.reaches_of_block
      rcases he.block mg' c' hx hc' with hblock | hblock <;> rw [hblock]
      · exact hb
      · intro h
        cases h
  · have hmanages := hs.owned.manages m mg' hm
    by_cases hk : mg'.dispatcher = mg.dispatcher
    · rw [hk, Function.update_self] at hD'
      obtain rfl := Option.some.inj hD'
      obtain ⟨hregistered, hcall⟩ := h mg' D hm (hk ▸ hD)
      cases hl : c.left with
      | false =>
        refine ⟨?_, fun c' hc' => Call.Reaches.same (hsame hl) (hmanages.refs c' hc')
          (hcall c' hc')⟩
        exact fun info hinfo =>
          (hregistered info hinfo).same (hsame hl _ (hmanages.registered b info hinfo))
      | true =>
        -- the last manager of the dispatcher is leaving it
        obtain ⟨E, hE, hnil, -⟩ := hs.shared.attached i mg hi
        obtain rfl := Option.some.inj (hD.symm.trans hE)
        obtain ⟨E, hE, -, hmem⟩ := hs.shared.attached m mg' hm
        rw [hk] at hE
        obtain rfl := Option.some.inj (hD.symm.trans hE)
        have hleft : mg'.leaving = true := by
          by_contra hl'
          have hmem := hmem (by simpa using hl')
          rw [hnil (hleaving.trans hl)] at hmem
          exact List.not_mem_nil hmem
        refine ⟨?_, ?_⟩
        · exact fun info hinfo => absurd (.inl ⟨info, hinfo, rfl⟩) (hmanages.not_has (b := b) hleft)
        · intro c' hc'
          simp only [CudaVmmIPCManager.leaving, hc', Option.any_some] at hleft
          exact Call.reaches_of_left hleft
    · rw [Function.update_of_ne hk] at hD'
      exact h mg' D' hm hD'

lemma calls_serving {i : ℕ} (hs : Sound s) (h : Serving m b s) (hi : s.managers i = some mg)
    (hc : mg.call = some c) (hD : s.dispatchers mg.dispatcher = some D)
    (hadds : i = m → c.Adds b result) (hcall : Calls s i mg D result c o u) : Serving m b u := by
  have hmanages := hs.owned.manages i mg hi
  by_cases hown : i = m ∧ c.block = some b
  · obtain ⟨rfl, hb⟩ := hown
    exact calls_serving_block h hi hc hD hb (hmanages.unregistered c b hc hb) (hadds rfl) hcall
  · obtain ⟨x, F, he⟩ := calls_effect hD (hmanages.refs c hc) hcall
    exact he.serving hs h hi hc hD (not_and_or.mp hown)

lemma Serving.loop (h : Serving m b s) (hD : s.dispatchers k = some D)
    (hu : u.managers = s.managers) {l : Loop}
    (hv : u.dispatchers = Function.update s.dispatchers k (some { D with loop := l })) :
    Serving m b u := by
  intro mg E hm hE
  rw [hu] at hm
  rw [hv] at hE
  rcases update_some hE with ⟨rfl, he⟩ | ⟨_, hE⟩
  · obtain rfl := Option.some.inj he
    exact h mg D hm hD
  · exact h mg E hm hE

lemma dispatches_serving {l : Loop} (h : Serving m b s) (hD : s.dispatchers k = some D)
    (hs : Dispatches s k D result l o u) : Serving m b u := by
  cases hs with
  | sent hsend => cases hsend <;> exact h.loop hD rfl rfl
  | @closed _ client events =>
    refine h.loop (l := .handle events) hD ?_ ?_ <;> simp [setLoop, Publisher.setDispatcher]
  | accepted _ _ _ => exact h.loop hD rfl rfl
  | _ => exact h.loop hD rfl rfl

lemma Serving.change (hs : Sound s) (h : Serving m b s) {x : Option CudaVmmIPCManager}
    (hu : u.managers = Function.update s.managers i x)
    (hv : u.dispatchers = Function.update s.dispatchers k (some F))
    (hx : i = m → ∀ mg', x = some mg' → mg'.dispatcher = k ∧
      (∀ info, mg'.registeredBlocks.lookup b = some info → Entered F info.serverSocket) ∧
      ∀ c, mg'.call = some c → c.Reaches F b)
    (hsame : i ≠ m → ∀ D, s.dispatchers k = some D →
      ∀ n, s.fds n = some (.listener m b) → SameAt D F n) : Serving m b u := by
  intro mg' D' hm' hD'
  rw [hu] at hm'
  rw [hv] at hD'
  rcases update_some hm' with ⟨rfl, he⟩ | ⟨hne, hm⟩
  · obtain ⟨hk, hserving⟩ := hx rfl mg' he
    rw [hk, Function.update_self] at hD'
    obtain rfl := Option.some.inj hD'
    exact hserving
  · have hmanages := hs.owned.manages m mg' hm
    obtain ⟨D, hD, -⟩ := hs.shared.attached m mg' hm
    obtain ⟨hregistered, hcall⟩ := h mg' D hm hD
    rcases update_some hD' with ⟨hk, he⟩ | ⟨_, hold⟩
    · obtain rfl := Option.some.inj he
      have hsame := hsame hne.symm D (hk ▸ hD)
      refine ⟨?_, fun c hc => Call.Reaches.same hsame (hmanages.refs c hc) (hcall c hc)⟩
      exact fun info hinfo =>
        (hregistered info hinfo).same (hsame _ (hmanages.registered b info hinfo))
    · obtain rfl := Option.some.inj (hD.symm.trans hold)
      exact ⟨hregistered, hcall⟩

lemma Serving.enter (hs : Sound s) (h : Serving m b s) (hi : s.managers i = some mg)
    (hc : ∀ D, c.Reaches D b) : Serving m b (s.goto i mg c) := by
  obtain ⟨D, hD, -⟩ := hs.shared.attached i mg hi
  refine h.change hs (i := i) rfl (dispatchers_same hD) ?_ ?_
  · rintro rfl mg' he
    obtain rfl := Option.some.inj he
    refine ⟨rfl, (h mg D hi hD).1, ?_⟩
    intro c₁ he
    obtain rfl := Option.some.inj he
    exact hc D
  · intro _ E hE n _
    obtain rfl := Option.some.inj (hD.symm.trans hE)
    exact .refl D n

lemma Serving.remove {b' : ℕ} {info : RegisteredBlockInfo} (hs : Sound s) (h : Serving m b s)
    (hi : s.managers i = some mg) (hinfo : mg.registeredBlocks.lookup b' = some info)
    (hD : s.dispatchers mg.dispatcher = some D) :
    Serving m b ((s.setDispatcher mg.dispatcher
      { D with socketToFd := D.socketToFd.erase info.serverSocket }).setManager i
        (some { mg with
          registeredBlocks := mg.registeredBlocks.erase b'
          call := some (.epollDel b' info.serverSocket
            (D.socketToFd.lookup info.serverSocket)) })) := by
  have hlistener := (hs.owned.manages i mg hi).registered b' info hinfo
  have hsame : i ≠ m ∨ b' ≠ b → ∀ n, s.fds n = some (.listener m b) →
      SameAt D { D with socketToFd := D.socketToFd.erase info.serverSocket } n := by
    intro hne n hn
    refine ⟨rfl, rfl, AList.lookup_erase_ne ?_⟩
    rintro rfl
    obtain ⟨rfl, rfl⟩ := File.listener.inj (Option.some.inj (hn.symm.trans hlistener))
    exact hne.elim (fun hx => hx rfl) fun hx => hx rfl
  refine h.change hs (i := i) rfl rfl ?_ fun hne E hE => ?_
  · rintro rfl mg' he
    obtain rfl := Option.some.inj he
    refine ⟨rfl, ?_, ?_⟩
    · intro info' hinfo'
      by_cases hb : b = b'
      · subst hb
        rw [AList.lookup_erase] at hinfo'
        exact nomatch hinfo'
      · rw [AList.lookup_erase_ne hb] at hinfo'
        have hn := (hs.owned.manages i mg hi).registered b info' hinfo'
        exact ((h mg D hi hD).1 info' hinfo').same (hsame (.inr (Ne.symm hb)) _ hn)
    · intro c he
      obtain rfl := Option.some.inj he
      trivial
  · obtain rfl := Option.some.inj (hD.symm.trans hE)
    exact hsame (.inl hne)

lemma step_serving (hs : Sound s) (h : Serving m b s) (hadds : AddsSocket m b s e)
    (hstep : s.step e = some (o, u)) : Serving m b u := by
  cases step_cases hstep with
  | shared hc hD =>
    refine h.change hs (i := s.nextManager) rfl rfl ?_ ?_
    · rintro - mg' he
      obtain rfl := Option.some.inj he
      exact ⟨rfl, fun _ he => absurd he nofun, fun _ he => absurd he nofun⟩
    · intro _ E hE n _
      obtain rfl := Option.some.inj (hD.symm.trans hE)
      exact ⟨rfl, rfl, rfl⟩
  | constructed _ =>
    refine h.change hs (i := s.nextManager) rfl rfl ?_ ?_
    · rintro - mg' he
      obtain rfl := Option.some.inj he
      exact ⟨rfl, fun _ he => absurd he nofun, fun _ he => absurd he nofun⟩
    · intro _ E hE
      exact nomatch (hs.shared.dispatcher _ le_rfl).symm.trans hE
  | registering hi _ _ _ => exact h.enter hs hi fun _ => trivial
  | destroying hi _ => exact h.enter hs hi fun _ => trivial
  | called hi hc hD hcall =>
    refine calls_serving hs h hi hc hD ?_ hcall
    exact fun hm => hadds hm _ (by rw [← hm]; exact hi) _ hc
  | removing hi _ hinfo hD => exact h.remove hs hi hinfo hD
  | exiting hD _ _ => exact h.loop hD rfl rfl
  | woken hD _ _ _ => exact h.loop hD rfl rfl
  | dispatched hD hs => exact dispatches_serving h hD hs
  | closedExported _ _ | closed _ => exact h.frame (by simp) (by simp)
  | _ => exact h.frame rfl rfl

end Serving

lemma served_of_registered {info : RegisteredBlockInfo} (hs : Sound s) (hstarted : Started s)
    (h : Serving m b s) (hm : s.managers m = some mg) (hl : mg.leaving = false)
    (hinfo : mg.registeredBlocks.lookup b = some info) : Served s m b := by
  obtain ⟨D, hD, -, hmem⟩ := hs.shared.attached m mg hm
  have howners : D.owners ≠ [] := List.ne_nil_of_mem (hmem hl)
  obtain ⟨hrun, hloop⟩ := hstarted _ D hD howners
  obtain ⟨hepoll, hwatched, hmapped⟩ := (h mg D hm hD).1 info hinfo
  obtain ⟨d, hd⟩ := Option.isSome_iff_exists.mp hmapped
  have hlistener := (hs.owned.manages m mg hm).registered b info hinfo
  obtain ⟨m', mg', b', hm', -, hhas, hdup⟩ := hs.owned.maps _ D _ d hD hd
  obtain ⟨rfl, rfl⟩ := File.listener.inj
    (Option.some.inj (hlistener.symm.trans ((hs.owned.manages m' mg' hm').listener hhas)))
  have hrun := hrun.trans hepoll
  exact ⟨mg, info, D, d, hm, hinfo, hD, hrun, hloop hrun, hwatched, hd, hlistener, hdup⟩

lemma run_serving {pid : ℕ} (hr : Run step { pid := pid } tr s)
    (hadds : Every step (fun s e _ => AddsSocket m b s e) { pid := pid } tr) :
    Sound s ∧ Started s ∧ Serving m b s := by
  refine hr.induction_every (P := fun _ s => Sound s ∧ Started s ∧ Serving m b s) hadds
    ⟨sound_init pid, fun _ _ h => absurd h nofun, fun _ _ h => absurd h nofun⟩ ?_
  rintro _ _ _ _ _ - ⟨hs, hstarted, hserving⟩ hadds hstep
  exact ⟨step_sound hs hstep, step_started hs.shared hstarted hstep,
    step_serving hs hserving hadds hstep⟩

lemma registered_of_returned {path : String} (hs : s.step e = some (.returned m b path, u)) :
    ∃ mg info, u.managers m = some mg ∧ mg.leaving = false ∧
      mg.registeredBlocks.lookup b = some info ∧ info.socketPath = path := by
  cases step_cases hs with
  | repeated hm hc hinfo => exact ⟨_, _, hm, by simp [CudaVmmIPCManager.leaving, hc], hinfo, rfl⟩
  | called _ _ _ hcall =>
    cases hcall with
    | recorded => exact ⟨_, _, Function.update_self .., rfl, AList.lookup_insert _, rfl⟩
  | @dispatched k D _ _ _ _ hdispatch =>
    generalize D.loop = l at hdispatch
    cases hdispatch with
    | sent hsend => cases hsend

theorem advertised_block_served {pid : ℕ} {path : String}
    (hr : Run step { pid := pid } (tr ++ [(e, .returned m b path)]) s)
    (hadds : Every step (fun s e _ => AddsSocket m b s e) { pid := pid }
      (tr ++ [(e, .returned m b path)])) : Served s m b := by
  obtain ⟨t, -, hstep⟩ := run_snoc_iff.mp hr
  obtain ⟨hs, hstarted, hserving⟩ := run_serving hr hadds
  obtain ⟨mg, info, hm, hl, hinfo, -⟩ := registered_of_returned hstep
  exact served_of_registered hs hstarted hserving hm hl hinfo

theorem advertised_block_served_once : ∃ tr e s,
    Run step { pid := 7 } (tr ++ [(e, .returned 0 0 "cuda_vmm_7_0")]) s ∧ Served s 0 0 := by
  have hlast : (exec step { pid := 7 } registering).any (fun x =>
      decide (x.1.getLast? = some (.call 0 none, .returned 0 0 "cuda_vmm_7_0"))) = true := by
    decide +kernel
  have hadds : EveryExec step (fun s e _ => AddsSocket 0 0 s e) { pid := 7 } registering := by
    decide +kernel
  obtain ⟨⟨tr, s⟩, hx, hlast⟩ := Option.any_eq_true _ _ |>.mp hlast
  obtain ⟨tr, rfl⟩ := List.getLast?_eq_some_iff.mp (of_decide_eq_true hlast)
  exact ⟨tr, _, s, exec_run hx, advertised_block_served (exec_run hx) (every_of_exec hx hadds)⟩

/-- The socket of a registered block is not in the map. -/
def unmapped (s : Publisher) (m b : ℕ) : Bool :=
  (s.managers m).any fun mg => (mg.registeredBlocks.lookup b).any fun info =>
    (s.dispatchers mg.dispatcher).any fun D => (D.socketToFd.lookup info.serverSocket).isNone

lemma not_served_of_unmapped (h : unmapped s m b = true) : ¬ Served s m b := by
  rintro ⟨mg, info, D, d, hm, hinfo, hD, -, -, -, hd, -⟩
  simp [unmapped, hm, hinfo, hD, hd] at h

/-- `dup` fails in the call that registers the block, and the block is advertised
twice. -/
theorem unserved_block_advertised : ∃ tr e e' path s s',
    Run step { pid := 7 } (tr ++ [(e, .returned 0 0 path)]) s ∧ ¬ Served s 0 0 ∧
    Run step s [(e', .returned 0 0 path)] s' ∧ ¬ Served s' 0 0 := by
  let evs : List Event := [.construct true, .export 0 0 3, .registerBlock 0 0 3, .call 0 (some 4),
    .call 0 (some 0), .call 0 (some 0), .call 0 none, .call 0 none]
  have hlast : (exec step { pid := 7 } evs).any (fun x =>
      decide (x.1.getLast? = some (.call 0 none, .returned 0 0 "cuda_vmm_7_0")) &&
      unmapped x.2 0 0 && (exec step x.2 [.registerBlock 0 0 3]).any (fun y =>
        decide (y.1 = [(.registerBlock 0 0 3, .returned 0 0 "cuda_vmm_7_0")]) &&
        unmapped y.2 0 0)) = true := by decide +kernel
  obtain ⟨⟨tr, s⟩, hx, hlast⟩ := Option.any_eq_true _ _ |>.mp hlast
  simp only [Bool.and_eq_true, decide_eq_true_eq] at hlast
  obtain ⟨⟨htr, hs⟩, hlast⟩ := hlast
  obtain ⟨tr, rfl⟩ := List.getLast?_eq_some_iff.mp htr
  obtain ⟨⟨tr', s'⟩, hy, hlast⟩ := Option.any_eq_true _ _ |>.mp hlast
  simp only [Bool.and_eq_true, decide_eq_true_eq] at hlast
  obtain ⟨rfl, hs'⟩ := hlast
  exact ⟨tr, _, _, _, s, s', exec_run hx, not_served_of_unmapped hs, exec_run hy,
    not_served_of_unmapped hs'⟩

end RosidlBufferBackends.Dispatcher
