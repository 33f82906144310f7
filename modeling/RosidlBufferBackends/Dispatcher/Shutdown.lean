import RosidlBufferBackends.Dispatcher.Advertised

/-! What the managers of a process leave behind. Every descriptor that they opened has a holder
that will close it, and the last manager of a dispatcher takes the dispatcher down. -/

namespace RosidlBufferBackends.Dispatcher

open Runs Inventory Publisher

variable {s u : Publisher} {e : Event} {o : Output} {m k n b : ℕ} {mg mg' : CudaVmmIPCManager}
  {D F : FDDispatcher} {result : Option ℕ} {f : File} {c : Call}

/-- The manager for which `register_block` opened the file. -/
def File.server : File → Option ℕ
  | .duplicate m _ | .listener m _ => some m
  | .exported _ _ | .connection _ | .other _ => none

/-- The table of the manager, its thread or the map of its dispatcher has the number. -/
def Holds (D : FDDispatcher) (m : ℕ) (mg : CudaVmmIPCManager) (n : ℕ) (f : File) : Prop :=
  (∃ b info, mg.registeredBlocks.lookup b = some info ∧ info.serverSocket = n ∧
    f = .listener m b) ∨
  (∃ c, mg.call = some c ∧ (n, f) ∈ c.refs m) ∨
  ∃ x b, D.socketToFd.lookup x = some n ∧ f = .duplicate m b

def Call.Entering (b n d : ℕ) (c : Call) : Prop := c = .epollAdd b n d ∨ c = .erase b n d

structure Held (s : Publisher) : Prop where
  held : ∀ n f m, s.fds n = some f → f.server = some m → ∃ mg D, s.managers m = some mg ∧
    s.dispatchers mg.dispatcher = some D ∧ Holds D m mg n f
  mapped : ∀ m mg D c b n d, s.managers m = some mg → s.dispatchers mg.dispatcher = some D →
    mg.call = some c → c.Entering b n d → D.socketToFd.lookup n = some d

section Held

lemma Holds.map (h : Holds D m mg n f)
    (hmap : ∀ x, D.socketToFd.lookup x = some n → F.socketToFd.lookup x = some n) :
    Holds F m mg n f := by
  obtain h | h | ⟨x, b, hx, rfl⟩ := h
  · exact .inl h
  · exact .inr (.inl h)
  · exact .inr (.inr ⟨x, b, hmap x hx, rfl⟩)

lemma of_closed {fds : ℕ → Option File} {x : ℕ} (hx : Function.update fds n none x = some f) :
    x ≠ n ∧ fds x = some f := by
  rcases update_some hx with ⟨_, he⟩ | ⟨hne, hx⟩
  · exact nomatch he
  · exact ⟨hne, hx⟩

/-- One manager takes a step with its dispatcher. -/
lemma Held.change (h : Held s) (ho : Owned s) (hm : s.managers m = some mg)
    (hD : s.dispatchers mg.dispatcher = some D) {x : Option CudaVmmIPCManager}
    (hx : ∀ mg', x = some mg' → mg'.dispatcher = mg.dispatcher)
    (hu : u.managers = Function.update s.managers m x)
    (hv : u.dispatchers = Function.update s.dispatchers mg.dispatcher (some F))
    (hfds : ∀ n f i, u.fds n = some f → f.server = some i → i ≠ m → s.fds n = some f)
    (hother : ∀ x n, D.socketToFd.lookup x = some n →
      F.socketToFd.lookup x = some n ∨ ∃ b, s.fds n = some (.duplicate m b))
    (hown : ∀ n f, u.fds n = some f → f.server = some m → ∃ mg', x = some mg' ∧ Holds F m mg' n f)
    (hmap : ∀ mg' c b n d, x = some mg' → mg'.call = some c → c.Entering b n d →
      F.socketToFd.lookup n = some d) : Held u := by
  have hself : u.dispatchers mg.dispatcher = some F := by rw [hv, Function.update_self]
  constructor
  · intro n f i hn hf
    by_cases hi : i = m
    · subst hi
      obtain ⟨mg', he, hholds⟩ := hown n f hn hf
      refine ⟨mg', F, by rw [hu, Function.update_self, he], ?_, hholds⟩
      rwa [hx mg' he]
    · have hold := hfds n f i hn hf hi
      obtain ⟨mi, E, hmi, hE, hholds⟩ := h.held n f i hold hf
      have hmi' : u.managers i = some mi := by rwa [hu, Function.update_of_ne hi]
      by_cases hk : mi.dispatcher = mg.dispatcher
      · obtain rfl : D = E := Option.some.inj (hD.symm.trans (hk ▸ hE))
        refine ⟨mi, F, hmi', hk ▸ hself, hholds.map ?_⟩
        intro x hl
        obtain hl | ⟨b, hdup⟩ := hother x n hl
        · exact hl
        · obtain rfl := Option.some.inj (hold.symm.trans hdup)
          exact absurd (Option.some.inj hf).symm hi
      · exact ⟨mi, E, hmi', by rwa [hv, Function.update_of_ne hk], hholds⟩
  · intro i mi E c b n d hi hE hc hentering
    rw [hu] at hi
    rcases update_some hi with ⟨rfl, he⟩ | ⟨hne, hold⟩
    · rw [hx mi he, hself] at hE
      obtain rfl := Option.some.inj hE
      exact hmap mi c b n d he hc hentering
    · by_cases hk : mi.dispatcher = mg.dispatcher
      · rw [hk, hself] at hE
        obtain rfl := Option.some.inj hE
        have hl := h.mapped i mi D c b n d hold (hk ▸ hD) hc hentering
        obtain hl | ⟨b', hdup⟩ := hother n d hl
        · exact hl
        · have hd : s.fds d = some (.duplicate i b) := by
            refine (ho.manages i mi hold).refs c hc (d, .duplicate i b) ?_
            rcases hentering with rfl | rfl <;> exact List.mem_cons_of_mem _ List.mem_cons_self
          obtain ⟨rfl, -⟩ := File.duplicate.inj (Option.some.inj (hd.symm.trans hdup))
          exact absurd rfl hne
      · rw [hv, Function.update_of_ne hk] at hE
        exact h.mapped i mi E c b n d hold hE hc hentering

/-- The thread of a manager goes on, and opens nothing. -/
lemma Held.goto (h : Held s) (ho : Owned s) (hm : s.managers m = some mg) (hc : mg.call = some c)
    (hD : s.dispatchers mg.dispatcher = some D) {x : Option Call}
    (hu : u.managers = Function.update s.managers m (some { mg with call := x }))
    (hv : u.dispatchers = Function.update s.dispatchers mg.dispatcher (some F))
    (hF : F.socketToFd = D.socketToFd)
    (hfds : ∀ n f, u.fds n = some f → f.server.isSome → s.fds n = some f)
    (hrefs : ∀ n f, f.server = some m → (n, f) ∈ c.refs m → u.fds n = some f →
      Holds D m { mg with call := x } n f)
    (hmap : ∀ c b n d, x = some c → c.Entering b n d → D.socketToFd.lookup n = some d) :
    Held u := by
  refine h.change ho hm hD ?_ hu hv (fun n f i hn hf _ => hfds n f hn (by simp [hf]))
    (fun x n hl => .inl (hF ▸ hl)) ?_ ?_
  · rintro _ ⟨⟩
    rfl
  · intro n f hn hf
    obtain ⟨mg₀, D₀, hm₀, hD₀, hholds⟩ := h.held n f m (hfds n f hn (by simp [hf])) hf
    obtain rfl := Option.some.inj (hm.symm.trans hm₀)
    obtain rfl := Option.some.inj (hD.symm.trans hD₀)
    refine ⟨_, rfl, Holds.map (D := D) ?_ fun x hl => hF ▸ hl⟩
    obtain hb | ⟨c₀, hc₀, hmem⟩ | hlast := hholds
    · exact .inl hb
    · obtain rfl := Option.some.inj (hc.symm.trans hc₀)
      exact hrefs n f hf hmem hn
    · exact .inr (.inr hlast)
  · rintro _ c₁ b n d ⟨⟩ hc₁ hentering
    exact hF ▸ hmap c₁ b n d hc₁ hentering

/-- The thread closes a number, and keeps the others that it holds. -/
lemma Held.close (h : Held s) (ho : Owned s) (hm : s.managers m = some mg)
    (hc : mg.call = some c) (hD : s.dispatchers mg.dispatcher = some D) {x : Option Call}
    (hrefs : ∀ y f, y ≠ n → (y, f) ∈ c.refs m → ∃ c₁, x = some c₁ ∧ (y, f) ∈ c₁.refs m)
    (hmap : ∀ c b n d, x = some c → ¬ c.Entering b n d) :
    Held ((s.closeFd n).setManager m (some { mg with call := x })) := by
  have hfds : ((s.closeFd n).setManager m (some { mg with call := x })).fds =
      Function.update s.fds n none := closeFd_fds s n
  refine h.goto ho hm hc hD (F := D) (x := x) (by simp [Publisher.setManager]) ?_ rfl ?_ ?_
    fun c b n d he hentering => absurd hentering (hmap c b n d he)
  · exact (closeFd_dispatchers s n).trans (dispatchers_same hD)
  · intro y f hy _
    exact (of_closed (hfds ▸ hy)).2
  · intro y f _ hmem hy
    exact .inr (.inl (hrefs y f (of_closed (hfds ▸ hy)).1 hmem))

/-- No block is registered any more, and the thread has nothing open. -/
lemma Held.bare (h : Held s) (ho : Owned s) (hm : s.managers m = some mg)
    (hc : mg.call = some c) (hempty : mg.registeredBlocks.entries = [])
    (hrefs : c.refs m = []) (hins : c.inserted = none) :
    ∀ n f, s.fds n = some f → f.server ≠ some m := by
  intro n f hn hf
  obtain ⟨mg₀, D, hm₀, hD, hholds⟩ := h.held n f m hn hf
  obtain rfl := Option.some.inj (hm.symm.trans hm₀)
  have hnone : ∀ b, mg.registeredBlocks.lookup b = none := by
    intro b
    apply AList.lookup_eq_none.mpr
    simp [AList.mem_keys, AList.keys, hempty]
  obtain ⟨b, info, hb, -⟩ | ⟨c₀, hc₀, hmem⟩ | ⟨x, b, hl, rfl⟩ := hholds
  · exact nomatch (hnone b).symm.trans hb
  · obtain rfl := Option.some.inj (hc.symm.trans hc₀)
    rw [hrefs] at hmem
    exact nomatch hmem
  · obtain ⟨i, mi, b', hi, -, hhas, hdup⟩ := ho.maps _ D x n hD hl
    obtain ⟨rfl, -⟩ := File.duplicate.inj (Option.some.inj (hn.symm.trans hdup))
    obtain rfl := Option.some.inj (hm.symm.trans hi)
    obtain ⟨info, hb, -⟩ | ⟨c₀, hc₀, he⟩ := hhas
    · exact nomatch (hnone b').symm.trans hb
    · obtain rfl := Option.some.inj (hc.symm.trans hc₀)
      exact nomatch hins.symm.trans he

/-- The managers and maps stay, a manager that is new is not in a call, and no file of a manager
is new. -/
lemma Held.frame (h : Held s)
    (hu : ∀ i mi, s.managers i = some mi → u.managers i = some mi)
    (hnew : ∀ i mi, u.managers i = some mi → s.managers i = some mi ∨ mi.call = none)
    (hv : ∀ k D, s.dispatchers k = some D →
      ∃ F, u.dispatchers k = some F ∧ F.socketToFd = D.socketToFd)
    (hsome : ∀ i mi, s.managers i = some mi → (s.dispatchers mi.dispatcher).isSome)
    (hfds : ∀ n f, u.fds n = some f → f.server.isSome → s.fds n = some f) : Held u := by
  constructor
  · intro n f i hn hf
    obtain ⟨mi, D, hi, hD, hholds⟩ := h.held n f i (hfds n f hn (by simp [hf])) hf
    obtain ⟨F, hF, hmap⟩ := hv _ D hD
    exact ⟨mi, F, hu i mi hi, hF, hholds.map fun x hl => hmap ▸ hl⟩
  · intro i mi F c b n d hi hF hc hentering
    obtain hi | hnone := hnew i mi hi
    · obtain ⟨D, hD⟩ := Option.isSome_iff_exists.mp (hsome i mi hi)
      obtain ⟨E, hE, hmap⟩ := hv _ D hD
      obtain rfl := Option.some.inj (hF.symm.trans hE)
      rw [hmap]
      exact h.mapped i mi D c b n d hi hD hc hentering
    · exact nomatch hnone.symm.trans hc

lemma mem_refs_server {e x : ℕ} {l : List (ℕ × File)} (hf : f.server = some m)
    (hx : (x, f) ∈ (e, .exported k b) :: l) : (x, f) ∈ l := by
  obtain he | hx := List.mem_cons.mp hx
  · obtain ⟨-, rfl⟩ := Prod.mk.inj he
    exact nomatch hf
  · exact hx

lemma server_of_opened {fds : ℕ → Option File} {x : ℕ} {g : File}
    (hx : Function.update fds n (some g) x = some f) (hg : g.server = none)
    (hf : f.server.isSome) : fds x = some f := by
  rcases update_some hx with ⟨rfl, he⟩ | ⟨_, hx⟩
  · obtain rfl := Option.some.inj he
    rw [hg] at hf
    exact nomatch hf
  · exact hx

lemma calls_held (hsh : Shared s) (ho : Owned s) (h : Held s) (hm : s.managers m = some mg)
    (hc : mg.call = some c) (hD : s.dispatchers mg.dispatcher = some D)
    (hs : Calls s m mg D result c o u) : Held u := by
  have hmanages := ho.manages m mg hm
  have hrefs := hmanages.refs c hc
  have hsame := dispatchers_same hD
  have hold : ∀ n f, s.fds n = some f → f.server = some m → Holds D m mg n f := by
    intro n f hn hf
    obtain ⟨mg₀, D₀, hm₀, hD₀, hholds⟩ := h.held n f m hn hf
    obtain rfl := Option.some.inj (hm.symm.trans hm₀)
    obtain rfl := Option.some.inj (hD.symm.trans hD₀)
    exact hholds
  -- the thread gives up what it holds, with nothing registered
  have hdrop : ∀ {x : Option CudaVmmIPCManager} {v : Publisher} {F : FDDispatcher},
      (∀ mg', x = some mg' → mg'.dispatcher = mg.dispatcher ∧
        ∀ c b n d, mg'.call = some c → ¬ c.Entering b n d) →
      mg.registeredBlocks.entries = [] → c.refs m = [] → c.inserted = none →
      v.managers = Function.update s.managers m x →
      v.dispatchers = Function.update s.dispatchers mg.dispatcher (some F) →
      (∀ x n, D.socketToFd.lookup x = some n → F.socketToFd.lookup x = some n) →
      v.fds = s.fds → Held v := by
    intro x v F hx hempty hnil hins hu hv hmap hf
    refine h.change ho hm hD (fun mg' he => (hx mg' he).1) hu hv (fun _ _ _ hn _ _ => hf ▸ hn)
      (fun x n hl => .inl (hmap x n hl)) ?_ ?_
    · exact fun n f hn hs => absurd hs (h.bare ho hm hc hempty hnil hins n f (hf ▸ hn))
    · exact fun mg' c b n d he hcall hentering => absurd hentering ((hx mg' he).2 c b n d hcall)
  have hleft : c.left = true → mg.registeredBlocks.entries = [] := by
    intro hl
    exact hmanages.left (by simpa [CudaVmmIPCManager.leaving, hc] using hl)
  cases hs with
  | unopened =>
    exact h.goto ho hm hc hD rfl hsame rfl (fun _ _ hn _ => hn)
      (fun _ _ hf hx _ => absurd (mem_refs_server hf hx) List.not_mem_nil)
      (by rintro _ _ _ _ ⟨⟩)
  | @opened b e n hn =>
    refine h.change ho hm hD (F := D) (by rintro _ ⟨⟩; rfl) rfl hsame ?_ (fun _ _ hl => .inl hl)
      ?_ ?_
    · intro x f i hx hf hi
      rcases update_some hx with ⟨rfl, he⟩ | ⟨_, hx⟩
      · obtain rfl := Option.some.inj he
        exact absurd (Option.some.inj hf).symm hi
      · exact hx
    · intro x f hx hf
      refine ⟨_, rfl, ?_⟩
      rcases update_some hx with ⟨rfl, he⟩ | ⟨_, hx⟩
      · obtain rfl := Option.some.inj he
        exact .inr (.inl ⟨_, rfl, List.mem_cons_of_mem _ List.mem_cons_self⟩)
      · obtain ⟨b', info, hb⟩ | ⟨c₀, hc₀, hmem⟩ | hlast := hold x f hx hf
        · exact .inl ⟨b', info, hb⟩
        · obtain rfl := Option.some.inj (hc.symm.trans hc₀)
          exact absurd (mem_refs_server hf hmem) List.not_mem_nil
        · exact .inr (.inr hlast)
    · rintro _ c₁ b' n' d ⟨⟩ hcall hentering
      obtain rfl := Option.some.inj hcall
      exact absurd hentering (by rintro (h | h) <;> cases h)
  | @refused _ b e n hcall =>
    refine h.goto ho hm hc hD rfl hsame rfl (fun _ _ hn _ => hn) ?_ ?_
    · intro x f hf hx _
      refine .inr (.inl ⟨_, rfl, ?_⟩)
      rcases hcall with rfl | rfl <;> exact mem_refs_server hf hx
    · rintro c₁ b' n' d ⟨⟩ (h | h) <;> cases h
  | bound | listening =>
    refine h.goto ho hm hc hD rfl hsame rfl (fun _ _ hn _ => hn)
      (fun _ _ _ hx _ => .inr (.inl ⟨_, rfl, hx⟩)) ?_
    rintro c₁ b' n' d ⟨⟩ (h | h) <;> cases h
  | @abandoned _ b n =>
    refine h.close ho hm hc hD (x := none) ?_ (by rintro _ _ _ _ ⟨⟩)
    intro y f hne hmem
    exact absurd (congrArg Prod.fst (List.mem_singleton.mp hmem)) hne
  | unduplicated =>
    refine h.goto ho hm hc hD rfl hsame rfl (fun _ _ hn _ => hn)
      (fun _ _ hf hx _ => .inr (.inl ⟨_, rfl, mem_refs_server hf hx⟩)) ?_
    rintro c₁ b' n' d ⟨⟩ (h | h) <;> cases h
  | @duplicated b e n d m' b' he hd =>
    obtain ⟨rfl, rfl⟩ := File.exported.inj (Option.some.inj
      (he.symm.trans (hrefs _ List.mem_cons_self)))
    refine h.change ho hm hD (F := D) (by rintro _ ⟨⟩; rfl) rfl hsame ?_ (fun _ _ hl => .inl hl)
      ?_ ?_
    · intro x f i hx hf hi
      rcases update_some hx with ⟨rfl, he⟩ | ⟨_, hx⟩
      · obtain rfl := Option.some.inj he
        exact absurd (Option.some.inj hf).symm hi
      · exact hx
    · intro x f hx hf
      refine ⟨_, rfl, ?_⟩
      rcases update_some hx with ⟨rfl, he⟩ | ⟨_, hx⟩
      · obtain rfl := Option.some.inj he
        exact .inr (.inl ⟨_, rfl, List.mem_cons_of_mem _ List.mem_cons_self⟩)
      · obtain ⟨b', info, hb⟩ | ⟨c₀, hc₀, hmem⟩ | hlast := hold x f hx hf
        · exact .inl ⟨b', info, hb⟩
        · obtain rfl := Option.some.inj (hc.symm.trans hc₀)
          obtain ⟨rfl, rfl⟩ := Prod.mk.inj (List.mem_singleton.mp (mem_refs_server hf hmem))
          exact .inr (.inl ⟨_, rfl, List.mem_cons_self⟩)
        · exact .inr (.inr hlast)
    · rintro _ c₁ b' n' d ⟨⟩ hcall hentering
      obtain rfl := Option.some.inj hcall
      exact absurd hentering (by rintro (h | h) <;> cases h)
  | @inserted _ b n d =>
    -- the map has no entry for a socket that is not registered yet
    have hfree : ∀ x, D.socketToFd.lookup n ≠ some x := by
      intro x hl
      obtain ⟨i, mi, b', hi, -, hhas, -⟩ := ho.maps _ D n x hD hl
      have hlistener := (ho.manages i mi hi).listener hhas
      obtain ⟨rfl, rfl⟩ := File.listener.inj (Option.some.inj
        (hlistener.symm.trans (hrefs _ List.mem_cons_self)))
      obtain rfl := Option.some.inj (hm.symm.trans hi)
      obtain ⟨info, hb, -⟩ | ⟨c₀, hc₀, he⟩ := hhas
      · cases (hmanages.unregistered _ _ hc rfl).symm.trans hb
      · obtain rfl := Option.some.inj (hc.symm.trans hc₀)
        cases he
    have hkeep : ∀ x y, D.socketToFd.lookup x = some y →
        (D.socketToFd.insert n d).lookup x = some y := by
      intro x y hl
      have hne : x ≠ n := by
        rintro rfl
        exact hfree y hl
      rwa [AList.lookup_insert_ne hne]
    refine h.change ho hm hD (F := { D with socketToFd := D.socketToFd.insert n d })
      (by rintro _ ⟨⟩; rfl) rfl rfl (fun _ _ _ hn _ _ => hn)
        (fun x y hl => .inl (hkeep x y hl)) ?_ ?_
    · intro x f hx hf
      refine ⟨_, rfl, Holds.map (D := D) ?_ fun y hl => hkeep y x hl⟩
      obtain ⟨b', info, hb⟩ | ⟨c₀, hc₀, hmem⟩ | hlast := hold x f hx hf
      · exact .inl ⟨b', info, hb⟩
      · obtain rfl := Option.some.inj (hc.symm.trans hc₀)
        exact .inr (.inl ⟨_, rfl, hmem⟩)
      · exact .inr (.inr hlast)
    · rintro _ c₁ b' n' d' ⟨⟩ hcall (rfl | rfl)
      · obtain ⟨rfl, rfl, rfl⟩ := Call.epollAdd.inj (Option.some.inj hcall)
        exact AList.lookup_insert _
      · cases hcall
  | @unadded b n d =>
    have hl := h.mapped m mg D _ b n d hm hD hc (.inl rfl)
    refine h.goto ho hm hc hD rfl hsame rfl (fun _ _ hn _ => hn)
      (fun _ _ _ hx _ => .inr (.inl ⟨_, rfl, hx⟩)) ?_
    rintro c₁ b' n' d' ⟨⟩ (h | h)
    · cases h
    · obtain ⟨rfl, rfl, rfl⟩ := Call.erase.inj h
      exact hl
  | @added r b n d _ =>
    have hl := h.mapped m mg D _ b n d hm hD hc (.inl rfl)
    refine h.goto ho hm hc hD rfl rfl rfl (fun _ _ hn _ => hn) ?_ ?_
    · intro x f _ hmem _
      obtain he | hmem := List.mem_cons.mp hmem
      · exact .inr (.inl ⟨_, rfl, he ▸ List.mem_cons_self⟩)
      · obtain ⟨rfl, rfl⟩ := Prod.mk.inj (List.mem_singleton.mp hmem)
        exact .inr (.inr ⟨n, b, hl, rfl⟩)
    · rintro c₁ b' n' d' ⟨⟩ (h | h) <;> cases h
  | @erased _ b n d =>
    have hmapped := h.mapped m mg D _ b n d hm hD hc (.inr rfl)
    have hd := hrefs (d, .duplicate m b) (List.mem_cons_of_mem _ List.mem_cons_self)
    have herase : ∀ x y, D.socketToFd.lookup x = some y →
        y = d ∨ (D.socketToFd.erase n).lookup x = some y := by
      intro x y hl
      by_cases hx : x = n
      · subst hx
        exact .inl (Option.some.inj (hl.symm.trans hmapped))
      · exact .inr (by rwa [AList.lookup_erase_ne hx])
    refine h.change ho hm hD (F := { D with socketToFd := D.socketToFd.erase n })
      (by rintro _ ⟨⟩; rfl) rfl rfl (fun _ _ _ hn _ _ => hn) ?_ ?_ ?_
    · intro x y hl
      obtain rfl | hl := herase x y hl
      · exact .inr ⟨b, hd⟩
      · exact .inl hl
    · intro x f hx hf
      refine ⟨_, rfl, ?_⟩
      obtain ⟨b', info, hb⟩ | ⟨c₀, hc₀, hmem⟩ | ⟨y, b', hl, rfl⟩ := hold x f hx hf
      · exact .inl ⟨b', info, hb⟩
      · obtain rfl := Option.some.inj (hc.symm.trans hc₀)
        exact .inr (.inl ⟨_, rfl, hmem⟩)
      · obtain rfl | hl := herase y x hl
        · obtain ⟨-, rfl⟩ := File.duplicate.inj (Option.some.inj (hd.symm.trans hx))
          exact .inr (.inl ⟨_, rfl, List.mem_cons_of_mem _ List.mem_cons_self⟩)
        · exact .inr (.inr ⟨y, b', hl, rfl⟩)
    · rintro _ c₁ b' n' d' ⟨⟩ hcall (rfl | rfl) <;> cases hcall
  | @closedDup _ b n d =>
    refine h.close ho hm hc hD (x := some (.record b n)) ?_ ?_
    · intro y f hne hmem
      obtain he | hmem := List.mem_cons.mp hmem
      · exact ⟨_, rfl, he ▸ List.mem_cons_self⟩
      · exact absurd (congrArg Prod.fst (List.mem_singleton.mp hmem)) hne
    · rintro c₁ b' n' d' ⟨⟩ (h | h) <;> cases h
  | @recorded _ b n =>
    refine h.change ho hm hD (F := D) (by rintro _ ⟨⟩; rfl) rfl hsame (fun _ _ _ hn _ _ => hn)
      (fun _ _ hl => .inl hl) ?_ (by rintro _ _ _ _ _ ⟨⟩ hcall; cases hcall)
    intro x f hx hf
    refine ⟨_, rfl, ?_⟩
    obtain ⟨b', info, hb, rfl, rfl⟩ | ⟨c₀, hc₀, hmem⟩ | hlast := hold x f hx hf
    · have hne : b' ≠ b := by
        rintro rfl
        cases (hmanages.unregistered _ _ hc rfl).symm.trans hb
      exact .inl ⟨b', info, (AList.lookup_insert_ne hne).trans hb, rfl, rfl⟩
    · obtain rfl := Option.some.inj (hc.symm.trans hc₀)
      obtain ⟨rfl, rfl⟩ := Prod.mk.inj (List.mem_singleton.mp hmem)
      exact .inl ⟨b, _, AList.lookup_insert _, rfl, rfl⟩
    · exact .inr (.inr hlast)
  | released hempty _ =>
    exact hdrop (x := none) (by rintro _ ⟨⟩) hempty rfl rfl rfl rfl (fun _ _ hl => hl) rfl
  | expired hempty _ =>
    refine hdrop (x := some { mg with call := some .stop }) ?_ hempty rfl rfl rfl rfl
      (fun _ _ hl => hl) rfl
    rintro _ ⟨⟩
    refine ⟨rfl, ?_⟩
    rintro c₁ b n d ⟨⟩ (h | h) <;> cases h
  | unwatched =>
    refine h.goto ho hm hc hD rfl rfl rfl (fun _ _ hn _ => hn)
      (fun _ _ _ hx _ => .inr (.inl ⟨_, rfl, hx⟩)) ?_
    rintro c₁ b' n' d' ⟨⟩ (h | h) <;> cases h
  | closedUnserved | closedServer | closedServed =>
    refine h.close ho hm hc hD (x := some _) ?_ ?_
    · intro y f hne hmem
      obtain he | hmem := List.mem_cons.mp hmem
      · exact absurd (congrArg Prod.fst he) hne
      · exact ⟨_, rfl, hmem⟩
    · rintro c₁ b' n' d' ⟨⟩ (h | h) <;> cases h
  | stopping _ =>
    refine hdrop (x := some { mg with call := some .join }) ?_ (hleft rfl) rfl rfl rfl rfl
      (fun _ _ hl => hl) rfl
    rintro _ ⟨⟩
    refine ⟨rfl, ?_⟩
    rintro c₁ b n d ⟨⟩ (h | h) <;> cases h
  | unstarted _ =>
    exact hdrop (x := none) (by rintro _ ⟨⟩) (hleft rfl) rfl rfl rfl hsame (fun _ _ hl => hl) rfl
  | joined _ =>
    refine hdrop (x := some { mg with call := some .clear }) ?_ (hleft rfl) rfl rfl rfl hsame
      (fun _ _ hl => hl) rfl
    rintro _ ⟨⟩
    refine ⟨rfl, ?_⟩
    rintro c₁ b n d ⟨⟩ (h | h) <;> cases h
  | cleared =>
    have hkeys := ho.map_empty hsh hm
      (by simp [CudaVmmIPCManager.leaving, hc, Call.left]) hD
    rw [hkeys]
    refine hdrop (x := none) (F := { D with socketToFd := ∅, epoll := false })
      (by rintro _ ⟨⟩) (hleft rfl) rfl rfl rfl
      rfl ?_ rfl
    intro x n hl
    have hmem := AList.mem_keys.mp (AList.lookup_isSome.mp (Option.isSome_of_eq_some hl))
    rw [hkeys] at hmem
    cases hmem

lemma map_update (hD : s.dispatchers k = some D) (hF : F.socketToFd = D.socketToFd) (j : ℕ)
    (E : FDDispatcher) (hE : s.dispatchers j = some E) :
    ∃ E', Function.update s.dispatchers k (some F) j = some E' ∧ E'.socketToFd = E.socketToFd := by
  by_cases hj : j = k
  · subst hj
    obtain rfl := Option.some.inj (hD.symm.trans hE)
    exact ⟨F, Function.update_self .., hF⟩
  · exact ⟨E, by rwa [Function.update_of_ne hj], rfl⟩

/-- The thread of a dispatcher opens and closes connections only. -/
lemma Held.loop (hsh : Shared s) (h : Held s) (hD : s.dispatchers k = some D) {v : Publisher}
    {l : Loop} (hu : v.managers = s.managers) (hv : v.dispatchers = s.dispatchers)
    (hfds : ∀ n f, v.fds n = some f → f.server.isSome → s.fds n = some f) :
    Held (v.setLoop k D l) := by
  refine h.frame (fun i mi hi => hu ▸ hi) (fun i mi hi => .inl (hu ▸ hi)) ?_ ?_ hfds
  · have hset : (v.setLoop k D l).dispatchers =
        Function.update s.dispatchers k (some { D with loop := l }) := by rw [← hv]; rfl
    rw [hset]
    exact map_update hD rfl
  · intro i mi hi
    obtain ⟨E, hE, -⟩ := hsh.attached i mi hi
    simp [hE]

lemma dispatches_held {l : Loop} (hsh : Shared s) (h : Held s) (hD : s.dispatchers k = some D)
    (hs : Dispatches s k D result l o u) : Held u := by
  cases hs with
  | accepted _ _ _ =>
    exact h.loop hsh hD rfl rfl fun _ _ hx hf => server_of_opened hx rfl hf
  | sent hsend => cases hsend <;> exact h.loop hsh hD rfl rfl fun _ _ hx _ => hx
  | closed =>
    refine h.loop hsh hD (closeFd_managers s _) (closeFd_dispatchers s _) fun _ _ hx _ => ?_
    rw [closeFd_fds] at hx
    exact (of_closed hx).2
  | _ => exact h.loop hsh hD rfl rfl fun _ _ hx _ => hx

lemma Held.remove (ho : Owned s) (h : Held s) {info : RegisteredBlockInfo}
    (hm : s.managers m = some mg) (hc : mg.call = some .removing)
    (hb : mg.registeredBlocks.lookup b = some info) (hD : s.dispatchers mg.dispatcher = some D) :
    Held ((s.setDispatcher mg.dispatcher
      { D with socketToFd := D.socketToFd.erase info.serverSocket }).setManager m
        (some { mg with
          registeredBlocks := mg.registeredBlocks.erase b
          call := some
            (.epollDel b info.serverSocket (D.socketToFd.lookup info.serverSocket)) })) := by
  -- what the map has under the socket is a duplicate for the block
  have hserved : ∀ d, D.socketToFd.lookup info.serverSocket = some d →
      s.fds d = some (.duplicate m b) := by
    intro d hl
    obtain ⟨i, mi, b', hi, -, hhas, hd⟩ := ho.maps _ D _ d hD hl
    have hlistener := (ho.manages i mi hi).listener hhas
    obtain ⟨rfl, rfl⟩ := File.listener.inj (Option.some.inj
      (hlistener.symm.trans ((ho.manages m mg hm).registered b info hb)))
    exact hd
  refine h.change ho hm hD (by rintro _ ⟨⟩; rfl) rfl rfl (fun _ _ _ hn _ _ => hn) ?_ ?_ ?_
  · intro x n hl
    by_cases hx : x = info.serverSocket
    · subst hx
      exact .inr ⟨b, hserved n hl⟩
    · exact .inl ((AList.lookup_erase_ne hx).trans hl)
  · intro n f hn hf
    refine ⟨_, rfl, ?_⟩
    obtain ⟨mg₀, D₀, hm₀, hD₀, hholds⟩ := h.held n f m hn hf
    obtain rfl := Option.some.inj (hm.symm.trans hm₀)
    obtain rfl := Option.some.inj (hD.symm.trans hD₀)
    obtain ⟨b', info', hb', rfl, rfl⟩ | ⟨c, hcall, hmem⟩ | ⟨x, b', hl, rfl⟩ := hholds
    · by_cases hx : b' = b
      · subst hx
        obtain rfl := Option.some.inj (hb.symm.trans hb')
        exact .inr (.inl ⟨_, rfl, List.mem_cons_self⟩)
      · exact .inl ⟨b', info', (AList.lookup_erase_ne hx).trans hb', rfl, rfl⟩
    · obtain rfl := Option.some.inj (hc.symm.trans hcall)
      exact nomatch hmem
    · by_cases hx : x = info.serverSocket
      · subst hx
        obtain ⟨-, rfl⟩ := File.duplicate.inj (Option.some.inj (hn.symm.trans (hserved n hl)))
        refine .inr (.inl ⟨_, rfl, List.mem_cons_of_mem _ (List.mem_map.mpr ⟨n, ?_, rfl⟩)⟩)
        exact Option.mem_toList.mpr hl
      · exact .inr (.inr ⟨x, b', (AList.lookup_erase_ne hx).trans hl, rfl⟩)
  · rintro _ c b' n d ⟨⟩ hcall (rfl | rfl) <;> exact nomatch hcall

/-- A manager that is in no call enters one, with nothing open yet. -/
lemma Held.enter (hsh : Shared s) (ho : Owned s) (h : Held s) (hm : s.managers m = some mg)
    (hc : mg.call = none) (hentering : ∀ b n d, ¬ c.Entering b n d) : Held (s.goto m mg c) := by
  obtain ⟨D, hD, -⟩ := hsh.attached m mg hm
  refine h.change ho hm hD (F := D) (by rintro _ ⟨⟩; rfl) rfl (dispatchers_same hD)
    (fun _ _ _ hn _ _ => hn) (fun _ _ hl => .inl hl) ?_ ?_
  · intro n f hn hf
    refine ⟨_, rfl, ?_⟩
    obtain ⟨mg₀, D₀, hm₀, hD₀, hholds⟩ := h.held n f m hn hf
    obtain rfl := Option.some.inj (hm.symm.trans hm₀)
    obtain rfl := Option.some.inj (hD.symm.trans hD₀)
    obtain hb | ⟨c, hcall, -⟩ | hlast := hholds
    · exact .inl hb
    · exact nomatch hc.symm.trans hcall
    · exact .inr (.inr hlast)
  · rintro _ c₁ b n d ⟨⟩ hcall h
    obtain rfl := Option.some.inj hcall
    exact absurd h (hentering b n d)

lemma step_held (hsound : Sound s) (h : Held s) (hs : s.step e = some (o, u)) : Held u := by
  have hsh := hsound.shared
  have ho := hsound.owned
  have hsome : ∀ i mi, s.managers i = some mi → (s.dispatchers mi.dispatcher).isSome := by
    intro i mi hi
    obtain ⟨E, hE, -⟩ := hsh.attached i mi hi
    simp [hE]
  have hold : ∀ {v : Publisher}, v.managers = s.managers → v.dispatchers = s.dispatchers →
      (∀ n f, v.fds n = some f → f.server.isSome → s.fds n = some f) → Held v :=
    fun hu hv hfds => h.frame (fun _ _ hi => hu ▸ hi) (fun _ _ hi => .inl (hu ▸ hi))
      (fun j E hE => ⟨E, hv ▸ hE, rfl⟩) hsome hfds
  -- a manager that is new has a number of its own
  have hadd : ∀ (i : ℕ) (mi x : CudaVmmIPCManager), s.managers i = some mi →
      Function.update s.managers s.nextManager (some x) i = some mi := by
    intro i mi x hi
    rwa [Function.update_of_ne (hsh.manager_lt hi).ne]
  have hnew : ∀ (i k : ℕ) (mi : CudaVmmIPCManager),
      Function.update s.managers s.nextManager (some { dispatcher := k }) i = some mi →
      s.managers i = some mi ∨ mi.call = none := by
    intro i k mi hi
    rcases update_some hi with ⟨_, he⟩ | ⟨_, hi⟩
    · exact .inr (Option.some.inj he ▸ rfl)
    · exact .inl hi
  cases step_cases hs with
  | shared _ hD =>
    exact h.frame (fun i mi hi => hadd i mi _ hi) (fun i mi hi => hnew i _ mi hi)
      (map_update hD rfl) hsome fun _ _ hx _ => hx
  | constructed _ =>
    refine h.frame (fun i mi hi => hadd i mi _ hi) (fun i mi hi => hnew i _ mi hi) ?_ hsome
      fun _ _ hx _ => hx
    intro j E hE
    exact ⟨E, (Function.update_of_ne (hsh.dispatcher_lt hE).ne _ _).trans hE, rfl⟩
  | repeated _ _ _ => exact h
  | registering hm hc _ _ =>
    exact h.enter hsh ho hm hc (by rintro _ _ _ (h | h) <;> exact nomatch h)
  | called hm hc hD hs => exact calls_held hsh ho h hm hc hD hs
  | destroying hm hc => exact h.enter hsh ho hm hc (by rintro _ _ _ (h | h) <;> exact nomatch h)
  | removing hm hc hb hD => exact h.remove ho hm hc hb hD
  | exiting hD _ _ => exact h.loop hsh hD rfl rfl fun _ _ hx _ => hx
  | woken hD _ _ _ => exact h.loop hsh hD rfl rfl fun _ _ hx _ => hx
  | dispatched hD hs => exact dispatches_held hsh h hD hs
  | connected _ _ => exact hold rfl rfl fun _ _ hx _ => hx
  | disconnected _ => exact hold rfl rfl fun _ _ hx _ => hx
  | exported _ => exact hold rfl rfl fun _ _ hx hf => server_of_opened hx rfl hf
  | opened _ => exact hold rfl rfl fun _ _ hx hf => server_of_opened hx rfl hf
  | closedExported _ _ | closed _ =>
    refine hold (closeFd_managers s _) (closeFd_dispatchers s _) fun _ _ hx _ => ?_
    rw [closeFd_fds] at hx
    exact (of_closed hx).2

end Held

/-- A dispatcher whose worker has ended, or was never started. -/
structure Down (D : FDDispatcher) : Prop where
  running : D.running = false
  epoll : D.epoll = false
  exited : D.loop = .exited

/-- How far the last manager of a dispatcher has taken it down. -/
def Call.Ends (D : FDDispatcher) : Call → Prop
  | .stop => D.running = false → Down D
  | .join => D.running = false
  | .clear => D.running = false ∧ D.loop = .exited
  | _ => True

/-- The dispatchers and the managers that share them. -/
structure Ending (s : Publisher) : Prop where
  nodup : ∀ k D, s.dispatchers k = some D → D.owners.Nodup
  owners : ∀ k D m, s.dispatchers k = some D → m ∈ D.owners →
    ∃ mg, s.managers m = some mg ∧ mg.dispatcher = k
  alone : ∀ m m' mg mg', s.managers m = some mg → s.managers m' = some mg' →
    mg.leaving = true → mg'.leaving = true → mg.dispatcher = mg'.dispatcher → m = m'
  unstarted : ∀ k D, s.dispatchers k = some D → D.owners ≠ [] → D.running = false → Down D
  ends : ∀ m mg D c, s.managers m = some mg → s.dispatchers mg.dispatcher = some D →
    mg.call = some c → c.Ends D
  down : ∀ k D, s.dispatchers k = some D → D.owners = [] →
    (∀ m mg, s.managers m = some mg → mg.dispatcher ≠ k) → Down D

section Ending

lemma Call.ends_of_staying (h : c.left = false) : c.Ends D := by
  cases c <;> first | exact trivial | exact nomatch h

lemma leaving_of_call (hc : mg.call = some c) : mg.leaving = c.left := by
  simp [CudaVmmIPCManager.leaving, hc]

lemma Down.of_same (h : Down D) (hr : F.running = D.running) (he : F.epoll = D.epoll)
    (hl : F.loop = D.loop) : Down F :=
  ⟨hr.trans h.running, he.trans h.epoll, hl.trans h.exited⟩

lemma Call.Ends.of_same (h : c.Ends D) (hr : F.running = D.running) (he : F.epoll = D.epoll)
    (hl : F.loop = D.loop) : c.Ends F := by
  cases c with
  | stop => exact fun hrun => (h (hr ▸ hrun)).of_same hr he hl
  | join => exact hr.trans h
  | clear => exact ⟨hr.trans h.1, hl.trans h.2⟩
  | _ => trivial

/-- One manager takes a step with its dispatcher. -/
lemma Ending.change (h : Ending s) (hm : s.managers m = some mg)
    (hD : s.dispatchers mg.dispatcher = some D) {x : Option CudaVmmIPCManager}
    (hx : ∀ mg', x = some mg' → mg'.dispatcher = mg.dispatcher)
    (hu : u.managers = Function.update s.managers m x)
    (hv : u.dispatchers = Function.update s.dispatchers mg.dispatcher (some F))
    (hnodup : F.owners.Nodup) (howners : ∀ i ∈ F.owners, i ∈ D.owners ∧ (x = none → i ≠ m))
    (halone : ∀ mg', x = some mg' → mg'.leaving = true → ∀ i mi, i ≠ m →
      s.managers i = some mi → mi.leaving = true → mi.dispatcher ≠ mg.dispatcher)
    (hunstarted : F.owners ≠ [] → F.running = false → Down F)
    (hends : ∀ mg' c, x = some mg' → mg'.call = some c → c.Ends F)
    (hothers : ∀ i mi c, i ≠ m → s.managers i = some mi → mi.dispatcher = mg.dispatcher →
      mi.call = some c → c.Ends F)
    (hdown : F.owners = [] → x = none →
      (∀ i mi, i ≠ m → s.managers i = some mi → mi.dispatcher ≠ mg.dispatcher) → Down F) :
    Ending u := by
  have hself : u.dispatchers mg.dispatcher = some F := by rw [hv, Function.update_self]
  have hrest : ∀ {i mi}, i ≠ m → s.managers i = some mi → u.managers i = some mi := by
    intro i mi hi hmi
    rwa [hu, Function.update_of_ne hi]
  have hmine : u.managers m = x := by rw [hu, Function.update_self]
  constructor
  · intro k E hE
    rw [hv] at hE
    rcases update_some hE with ⟨rfl, he⟩ | ⟨_, hE⟩
    · exact Option.some.inj he ▸ hnodup
    · exact h.nodup k E hE
  · intro k E i hE hi
    rw [hv] at hE
    rcases update_some hE with ⟨rfl, he⟩ | ⟨hk, hE⟩
    · obtain rfl := Option.some.inj he
      obtain ⟨hiD, hne⟩ := howners i hi
      by_cases him : i = m
      · subst him
        cases hxe : x with
        | none => exact absurd rfl (hne hxe)
        | some mg' => exact ⟨mg', hmine.trans hxe, hx mg' hxe⟩
      · obtain ⟨mi, hmi, hdis⟩ := h.owners _ D i hD hiD
        exact ⟨mi, hrest him hmi, hdis⟩
    · obtain ⟨mi, hmi, hdis⟩ := h.owners k E i hE hi
      have him : i ≠ m := by
        rintro rfl
        obtain rfl := Option.some.inj (hm.symm.trans hmi)
        exact hk hdis.symm
      exact ⟨mi, hrest him hmi, hdis⟩
  · intro i j mi mj hi hj hli hlj hdis
    rw [hu] at hi hj
    rcases update_some hi with ⟨rfl, hmi⟩ | ⟨him, hmi⟩ <;>
      rcases update_some hj with ⟨rfl, hmj⟩ | ⟨hjm, hmj⟩
    · rfl
    · exact absurd (hdis.symm.trans (hx mi hmi)) (halone mi hmi hli j mj hjm hmj hlj)
    · exact absurd (hdis.trans (hx mj hmj)) (halone mj hmj hlj i mi him hmi hli)
    · exact h.alone i j mi mj hmi hmj hli hlj hdis
  · intro k E hE hne hrun
    rw [hv] at hE
    rcases update_some hE with ⟨rfl, he⟩ | ⟨_, hE⟩
    · obtain rfl := Option.some.inj he
      exact hunstarted hne hrun
    · exact h.unstarted k E hE hne hrun
  · intro i mi E c hi hE hc
    rw [hu] at hi
    rcases update_some hi with ⟨rfl, hmi⟩ | ⟨him, hmi⟩
    · rw [hx mi hmi, hself] at hE
      exact Option.some.inj hE ▸ hends mi c hmi hc
    · by_cases hk : mi.dispatcher = mg.dispatcher
      · rw [hk, hself] at hE
        exact Option.some.inj hE ▸ hothers i mi c him hmi hk hc
      · rw [hv, Function.update_of_ne hk] at hE
        exact h.ends i mi E c hmi hE hc
  · intro k E hE hnil hnone
    rw [hv] at hE
    rcases update_some hE with ⟨rfl, he⟩ | ⟨hk, hE⟩
    · obtain rfl := Option.some.inj he
      cases hxe : x with
      | none => exact hdown hnil hxe fun i mi him hi => hnone i mi (hrest him hi)
      | some mg' => exact absurd (hx mg' hxe) (hnone m mg' (hmine.trans hxe))
    · refine h.down k E hE hnil ?_
      intro i mi hi
      by_cases him : i = m
      · subst him
        obtain rfl := Option.some.inj (hm.symm.trans hi)
        exact Ne.symm hk
      · exact hnone i mi (hrest him hi)

/-- The thread of a manager that stays goes on, and leaves the worker alone. -/
lemma Ending.goto (h : Ending s) (hm : s.managers m = some mg)
    (hD : s.dispatchers mg.dispatcher = some D)
    (hu : u.managers = Function.update s.managers m (some mg'))
    (hv : u.dispatchers = Function.update s.dispatchers mg.dispatcher (some F))
    (hd : mg'.dispatcher = mg.dispatcher) (hl : mg'.leaving = false) (ho : F.owners = D.owners)
    (hr : F.running = D.running) (he : F.epoll = D.epoll)
    (hloop : F.loop = D.loop) : Ending u := by
  refine h.change hm hD ?_ hu hv (ho ▸ h.nodup _ D hD) (fun i hi => ⟨ho ▸ hi, nofun⟩) ?_ ?_ ?_ ?_
    nofun
  · rintro _ ⟨⟩
    exact hd
  · rintro _ ⟨⟩ hlv
    exact nomatch hl.symm.trans hlv
  · intro hne hrun
    exact (h.unstarted _ D hD (ho ▸ hne) (hr ▸ hrun)).of_same hr he hloop
  · rintro _ c ⟨⟩ hc
    exact c.ends_of_staying (leaving_of_call hc ▸ hl)
  · intro i mi c _ hi hk hc
    exact (h.ends i mi D c hi (hk ▸ hD) hc).of_same hr he hloop

lemma calls_ending (hsh : Shared s) (ho : Owned s) (h : Ending s) (hm : s.managers m = some mg)
    (hc : mg.call = some c) (hD : s.dispatchers mg.dispatcher = some D)
    (hs : Calls s m mg D result c o u) : Ending u := by
  have hsame := dispatchers_same hD
  have hleaving := leaving_of_call hc
  obtain ⟨D₀, hD₀, hleft, hmem⟩ := hsh.attached m mg hm
  obtain rfl := Option.some.inj (hD₀.symm.trans hD)
  have hothers : ∀ {F : FDDispatcher}, F.running = D₀.running → F.epoll = D₀.epoll →
      F.loop = D₀.loop → ∀ i mi c, i ≠ m → s.managers i = some mi →
      mi.dispatcher = mg.dispatcher → mi.call = some c → c.Ends F :=
    fun hr he hl i mi c _ hi hk hc => (h.ends i mi D₀ c hi (hk ▸ hD) hc).of_same hr he hl
  -- a manager that has given up its share was the last one
  have hlast : c.left = true → ∀ i mi, i ≠ m → s.managers i = some mi →
      mi.dispatcher ≠ mg.dispatcher := by
    intro hl i mi hne hi hk
    obtain ⟨E, hE, -, hmi⟩ := hsh.attached i mi hi
    obtain rfl := Option.some.inj (hD.symm.trans (hk ▸ hE))
    have hnil := hleft (hleaving.trans hl)
    cases hlv : mi.leaving with
    | true => exact hne (h.alone i m mi mg hi hm hlv (hleaving.trans hl) hk)
    | false =>
      have := hmi hlv
      rw [hnil] at this
      exact nomatch this
  cases hs with
  | inserted | added _ | erased | unwatched =>
    exact h.goto hm hD rfl rfl rfl rfl rfl rfl rfl rfl
  | abandoned | closedDup | closedUnserved | closedServer | closedServed =>
    exact h.goto hm hD (congrArg (fun g => Function.update g m _) (closeFd_managers s _))
      ((closeFd_dispatchers s _).trans hsame) rfl rfl rfl rfl rfl rfl
  | @released r _ hne =>
    have hD₀ne : D₀.owners ≠ [] := by
      intro hnil
      rw [hnil] at hne
      exact hne rfl
    refine h.change (x := none) hm hD nofun rfl rfl ((h.nodup _ D₀ hD).erase m) ?_ nofun ?_ nofun
      (hothers rfl rfl rfl) fun hnil => absurd hnil hne
    · intro i hi
      obtain ⟨him, hi⟩ := (h.nodup _ D₀ hD).mem_erase_iff.mp hi
      exact ⟨hi, fun _ => him⟩
    · exact fun _ hrun => (h.unstarted _ D₀ hD hD₀ne hrun).of_same rfl rfl rfl
  | @expired r _ hnil =>
    have hmem := hmem hleaving
    refine h.change (x := some { mg with call := some .stop }) hm hD (by rintro _ ⟨⟩; rfl) rfl rfl
      ((h.nodup _ D₀ hD).erase m) ?_ ?_ (fun hne => absurd hnil hne) ?_ (hothers rfl rfl rfl) nofun
    · exact fun i hi => ⟨List.mem_of_mem_erase hi, nofun⟩
    · rintro _ ⟨⟩ - i mi _ hi hl hk
      obtain ⟨E, hE, hnone, -⟩ := hsh.attached i mi hi
      obtain rfl := Option.some.inj (hD.symm.trans (hk ▸ hE))
      rw [hnone hl] at hmem
      exact nomatch hmem
    · rintro _ c ⟨⟩ hcall
      obtain rfl := Option.some.inj hcall
      exact fun hrun => (h.unstarted _ D₀ hD (List.ne_nil_of_mem hmem) hrun).of_same rfl rfl rfl
  | stopping hrun =>
    refine h.change hm hD (by rintro _ ⟨⟩; rfl) rfl rfl (h.nodup _ D₀ hD) (fun i hi => ⟨hi, nofun⟩)
      (fun _ _ _ i mi hne hi _ => hlast rfl i mi hne hi) ?_ ?_ ?_ nofun
    · exact fun hne => absurd (hleft hleaving) hne
    · rintro _ c ⟨⟩ hcall
      obtain rfl := Option.some.inj hcall
      rfl
    · exact fun i mi _ hne hi hk => absurd hk (hlast rfl i mi hne hi)
  | unstarted hrun =>
    refine h.change (x := none) hm hD nofun rfl hsame (h.nodup _ D₀ hD) ?_ nofun
      (h.unstarted _ D₀ hD) nofun
      (hothers rfl rfl rfl) ?_
    · intro i hi
      rw [hleft hleaving] at hi
      exact nomatch hi
    · exact fun _ _ _ => h.ends m mg D₀ _ hm hD hc hrun
  | joined hloop =>
    refine h.change hm hD (by rintro _ ⟨⟩; rfl) rfl hsame (h.nodup _ D₀ hD)
      (fun i hi => ⟨hi, nofun⟩) (fun _ _ _ i mi hne hi _ => hlast rfl i mi hne hi)
      (h.unstarted _ D₀ hD) ?_ (hothers rfl rfl rfl) nofun
    rintro _ c ⟨⟩ hcall
    obtain rfl := Option.some.inj hcall
    exact ⟨h.ends m mg D₀ _ hm hD hc, hloop⟩
  | cleared =>
    obtain ⟨hrun, hloop⟩ := h.ends m mg D₀ _ hm hD hc
    rw [ho.map_empty hsh hm hleaving hD]
    refine h.change (x := none)
      (F := { D₀ with socketToFd := ∅, epoll := false }) hm hD nofun rfl rfl
      (h.nodup _ D₀ hD) ?_ nofun ?_ nofun ?_ fun _ _ _ => ⟨hrun, rfl, hloop⟩
    · intro i hi
      rw [hleft hleaving] at hi
      exact nomatch hi
    · exact fun hne => absurd (hleft hleaving) hne
    · exact fun i mi _ hne hi hk => absurd hk (hlast rfl i mi hne hi)
  | _ => exact h.goto hm hD rfl hsame rfl rfl rfl rfl rfl rfl

/-- A dispatcher whose thread runs is not down. -/
lemma Ending.loop (h : Ending s) (hD : s.dispatchers k = some D) (hl : D.loop ≠ .exited)
    (hu : u.managers = s.managers)
    (hv : u.dispatchers = Function.update s.dispatchers k (some F)) (ho : F.owners = D.owners)
    (hr : F.running = D.running) : Ending u := by
  have hnot : ¬ Down D := fun hdown => hl hdown.exited
  constructor
  · intro j E hE
    rw [hv] at hE
    rcases update_some hE with ⟨rfl, he⟩ | ⟨_, hE⟩
    · obtain rfl := Option.some.inj he
      exact ho ▸ h.nodup j D hD
    · exact h.nodup j E hE
  · intro j E m hE hm
    rw [hu]
    rw [hv] at hE
    rcases update_some hE with ⟨rfl, he⟩ | ⟨_, hE⟩
    · obtain rfl := Option.some.inj he
      exact h.owners j D m hD (ho ▸ hm)
    · exact h.owners j E m hE hm
  · exact hu ▸ h.alone
  · intro j E hE hne hrun
    rw [hv] at hE
    rcases update_some hE with ⟨rfl, he⟩ | ⟨_, hE⟩
    · obtain rfl := Option.some.inj he
      exact absurd (h.unstarted j D hD (ho ▸ hne) (hr ▸ hrun)) hnot
    · exact h.unstarted j E hE hne hrun
  · intro m mg E c hm hE hc
    rw [hu] at hm
    rw [hv] at hE
    rcases update_some hE with ⟨hk, he⟩ | ⟨_, hE⟩
    · obtain rfl := Option.some.inj he
      have hends := h.ends m mg D c hm (hk ▸ hD) hc
      cases c with
      | stop => exact fun hrun => absurd (hends (hr ▸ hrun)) hnot
      | join => exact hr.trans hends
      | clear => exact absurd hends.2 hl
      | _ => trivial
    · exact h.ends m mg E c hm hE hc
  · intro j E hE hnil hnone
    rw [hu] at hnone
    rw [hv] at hE
    rcases update_some hE with ⟨rfl, he⟩ | ⟨_, hE⟩
    · obtain rfl := Option.some.inj he
      exact absurd (h.down j D hD (ho ▸ hnil) hnone) hnot
    · exact h.down j E hE hnil hnone

lemma Ending.setLoop {v : Publisher} {l : Loop} (h : Ending s) (hD : s.dispatchers k = some D)
    (hl : D.loop ≠ .exited) (hu : v.managers = s.managers) (hv : v.dispatchers = s.dispatchers) :
    Ending (v.setLoop k D l) :=
  h.loop hD hl hu (congrArg (fun g => Function.update g k _) hv) rfl rfl

lemma dispatches_ending {l : Loop} (h : Ending s) (hD : s.dispatchers k = some D)
    (hl : D.loop = l) (hs : Dispatches s k D result l o u) : Ending u := by
  cases hs with
  | sent hsend =>
    have hl : D.loop ≠ .exited := by rw [hl]; exact nofun
    cases hsend <;> exact h.setLoop hD hl rfl rfl
  | closed =>
    exact h.setLoop hD (by rw [hl]; exact nofun) (closeFd_managers s _) (closeFd_dispatchers s _)
  | _ => exact h.setLoop hD (by rw [hl]; exact nofun) rfl rfl

lemma Ending.frame (h : Ending s) (hu : u.managers = s.managers)
    (hv : u.dispatchers = s.dispatchers) : Ending u :=
  ⟨hv ▸ h.nodup, hv ▸ hu ▸ h.owners, hu ▸ h.alone, hv ▸ h.unstarted, hv ▸ hu ▸ h.ends,
    hv ▸ hu ▸ h.down⟩

/-- A manager is constructed, and joins a dispatcher. -/
lemma Ending.enroll {l : List ℕ} (hsh : Shared s) (h : Ending s)
    (hu : u.managers = Function.update s.managers s.nextManager (some { dispatcher := k }))
    (hv : u.dispatchers = Function.update s.dispatchers k (some F))
    (howners : F.owners = s.nextManager :: l) (hnodup : l.Nodup)
    (hl : ∀ i ∈ l, ∃ mi, s.managers i = some mi ∧ mi.dispatcher = k)
    (hrun : F.running = false → Down F)
    (hends : ∀ i mi c, s.managers i = some mi → mi.dispatcher = k → mi.call = some c → c.Ends F) :
    Ending u := by
  have hfresh : s.managers s.nextManager = none := hsh.manager _ le_rfl
  have hrest : ∀ {i mi}, s.managers i = some mi → u.managers i = some mi := by
    intro i mi hi
    rwa [hu, Function.update_of_ne (hsh.manager_lt hi).ne]
  have hself : u.managers s.nextManager = some { dispatcher := k } := by
    rw [hu, Function.update_self]
  constructor
  · intro j E hE
    rw [hv] at hE
    rcases update_some hE with ⟨rfl, he⟩ | ⟨_, hE⟩
    · obtain rfl := Option.some.inj he
      rw [howners]
      refine List.nodup_cons.mpr ⟨fun hmem => ?_, hnodup⟩
      obtain ⟨mi, hi, -⟩ := hl _ hmem
      exact nomatch hfresh.symm.trans hi
    · exact h.nodup j E hE
  · intro j E i hE hi
    rw [hv] at hE
    rcases update_some hE with ⟨rfl, he⟩ | ⟨_, hE⟩
    · obtain rfl := Option.some.inj he
      rw [howners] at hi
      obtain rfl | hi := List.mem_cons.mp hi
      · exact ⟨_, hself, rfl⟩
      · obtain ⟨mi, hmi, hk⟩ := hl i hi
        exact ⟨mi, hrest hmi, hk⟩
    · obtain ⟨mi, hmi, hk⟩ := h.owners j E i hE hi
      exact ⟨mi, hrest hmi, hk⟩
  · intro i j mi mj hi hj hli hlj hdis
    rw [hu] at hi hj
    rcases update_some hi with ⟨-, he⟩ | ⟨_, hi⟩
    · exact nomatch
        (Option.some.inj he ▸ hli : CudaVmmIPCManager.leaving { dispatcher := k } = true)
    · rcases update_some hj with ⟨-, he⟩ | ⟨_, hj⟩
      · exact nomatch (Option.some.inj he ▸ hlj :
          CudaVmmIPCManager.leaving { dispatcher := k } = true)
      · exact h.alone i j mi mj hi hj hli hlj hdis
  · intro j E hE hne hr
    rw [hv] at hE
    rcases update_some hE with ⟨rfl, he⟩ | ⟨_, hE⟩
    · obtain rfl := Option.some.inj he
      exact hrun hr
    · exact h.unstarted j E hE hne hr
  · intro i mi E c hi hE hc
    rw [hu] at hi
    rw [hv] at hE
    rcases update_some hi with ⟨-, he⟩ | ⟨_, hi⟩
    · obtain rfl := Option.some.inj he
      exact nomatch hc
    · rcases update_some hE with ⟨hk, he⟩ | ⟨_, hE⟩
      · obtain rfl := Option.some.inj he
        exact hends i mi c hi hk hc
      · exact h.ends i mi E c hi hE hc
  · intro j E hE hnil hnone
    rw [hv] at hE
    rcases update_some hE with ⟨rfl, -⟩ | ⟨_, hE⟩
    · exact absurd rfl (hnone _ _ hself)
    · exact h.down j E hE hnil fun i mi hi => hnone i mi (hrest hi)

lemma step_ending (hsound : Sound s) (h : Ending s) (hs : s.step e = some (o, u)) : Ending u := by
  have hsh := hsound.shared
  cases step_cases hs with
  | @shared _ k D hcached hD =>
    obtain ⟨E, hE, hne⟩ := hsh.current k hcached
    obtain rfl := Option.some.inj (hD.symm.trans hE)
    refine h.enroll hsh rfl rfl rfl (h.nodup k D hD) (fun i hi => h.owners k D i hD hi) ?_ ?_
    · exact fun hrun => (h.unstarted k D hD hne hrun).of_same rfl rfl rfl
    · exact fun i mi c hi hk hc => (h.ends i mi D c hi (hk ▸ hD) hc).of_same rfl rfl rfl
  | @constructed ok _ =>
    refine h.enroll (l := []) hsh rfl rfl rfl List.nodup_nil nofun ?_ ?_
    · rintro rfl
      exact ⟨rfl, rfl, rfl⟩
    · intro i mi c hi hk
      obtain ⟨E, hE, -⟩ := hsh.attached i mi hi
      rw [hk, hsh.dispatcher _ le_rfl] at hE
      exact nomatch hE
  | repeated _ _ _ => exact h
  | registering hm _ _ _ | destroying hm _ =>
    obtain ⟨D, hD, -⟩ := hsh.attached _ _ hm
    exact h.goto hm hD rfl (dispatchers_same hD) rfl rfl rfl rfl rfl rfl
  | called hm hc hD hcall => exact calls_ending hsh hsound.owned h hm hc hD hcall
  | removing hm _ _ hD => exact h.goto hm hD rfl rfl rfl rfl rfl rfl rfl rfl
  | exiting hD hwait _ | woken hD hwait _ _ =>
    exact h.setLoop hD (by rw [hwait]; exact nofun) rfl rfl
  | dispatched hD hdispatch => exact dispatches_ending h hD rfl hdispatch
  | closedExported _ _ | closed _ => exact h.frame (closeFd_managers s _) (closeFd_dispatchers s _)
  | _ => exact h.frame rfl rfl

end Ending

/-- An address or a queue is that of an open socket. -/
structure Listening (s : Publisher) : Prop where
  bound : ∀ path m b, s.bound path = some (m, b) → ∃ n, s.fds n = some (.listener m b)
  pending : ∀ m b q, s.pending (m, b) = some q → ∃ n, s.fds n = some (.listener m b)

section Listening

lemma Listening.frame (h : Listening s)
    (hb : ∀ path m b, u.bound path = some (m, b) →
      s.bound path = some (m, b) ∨ ∃ n, s.fds n = some (.listener m b))
    (hp : ∀ m b q, u.pending (m, b) = some q →
      (∃ q, s.pending (m, b) = some q) ∨ ∃ n, s.fds n = some (.listener m b))
    (hf : ∀ n m b, s.fds n = some (.listener m b) → u.fds n = some (.listener m b)) :
    Listening u := by
  constructor
  · intro path m b hpath
    obtain hpath | ⟨n, hn⟩ := hb path m b hpath
    · obtain ⟨n, hn⟩ := h.bound path m b hpath
      exact ⟨n, hf n m b hn⟩
    · exact ⟨n, hf n m b hn⟩
  · intro m b q hq
    obtain ⟨q, hq⟩ | ⟨n, hn⟩ := hp m b q hq
    · obtain ⟨n, hn⟩ := h.pending m b q hq
      exact ⟨n, hf n m b hn⟩
    · exact ⟨n, hf n m b hn⟩

lemma Listening.of_same (h : Listening s) (hb : u.bound = s.bound) (hp : u.pending = s.pending)
    (hf : ∀ n m b, s.fds n = some (.listener m b) → u.fds n = some (.listener m b)) :
    Listening u :=
  h.frame (fun _ _ _ he => .inl (hb ▸ he)) (fun _ _ q he => .inl ⟨q, hp ▸ he⟩) hf

lemma Listening.closeFd (h : Listening s) (n : ℕ) : Listening (s.closeFd n) := by
  unfold Publisher.closeFd
  split
  · rename_i m b hn
    constructor
    · intro path m' b' hpath
      dsimp only at hpath
      split_ifs at hpath with hne
      obtain ⟨x, hx⟩ := h.bound path m' b' hpath
      refine ⟨x, (Function.update_of_ne ?_ _ _).trans hx⟩
      rintro rfl
      obtain ⟨rfl, rfl⟩ := File.listener.inj (Option.some.inj (hn.symm.trans hx))
      exact hne hpath
    · intro m' b' q hq
      dsimp only at hq
      rcases update_some hq with ⟨-, he⟩ | ⟨hne, hq⟩
      · exact nomatch he
      obtain ⟨x, hx⟩ := h.pending m' b' q hq
      refine ⟨x, (Function.update_of_ne ?_ _ _).trans hx⟩
      rintro rfl
      obtain ⟨rfl, rfl⟩ := File.listener.inj (Option.some.inj (hn.symm.trans hx))
      exact hne rfl
  · rename_i hno
    refine h.of_same rfl rfl fun x m b hx => (Function.update_of_ne ?_ _ _).trans hx
    rintro rfl
    exact hno m b hx

lemma Listening.open {fds : ℕ → Option File} {g : File} (hn : fds n = none) (x m b : ℕ)
    (hx : fds x = some (.listener m b)) :
    Function.update fds n (some g) x = some (.listener m b) := by
  rw [Function.update_of_ne]
  · exact hx
  · rintro rfl
    exact nomatch hn.symm.trans hx

lemma calls_listening (hsh : Shared s) (ho : Owned s) (h : Listening s)
    (hm : s.managers m = some mg) (hc : mg.call = some c)
    (hD : s.dispatchers mg.dispatcher = some D) (hs : Calls s m mg D result c o u) :
    Listening u := by
  have hrefs := (ho.manages m mg hm).refs c hc
  cases hs with
  | opened hn | duplicated _ hn => exact h.of_same rfl rfl (Listening.open hn)
  | bound =>
    refine h.frame (fun path m' b' hpath => ?_) (fun _ _ q he => .inl ⟨q, he⟩) fun _ _ _ he => he
    rcases update_some hpath with ⟨-, he⟩ | ⟨_, hpath⟩
    · obtain ⟨rfl, rfl⟩ := Prod.mk.inj (Option.some.inj he)
      exact .inr ⟨_, hrefs (_, .listener _ _) (List.mem_cons_of_mem _ List.mem_cons_self)⟩
    · exact .inl hpath
  | listening =>
    refine h.frame (fun _ _ _ he => .inl he) (fun m' b' q hq => ?_) fun _ _ _ he => he
    rcases update_some hq with ⟨hx, -⟩ | ⟨_, hq⟩
    · obtain ⟨rfl, rfl⟩ := Prod.mk.inj hx
      exact .inr ⟨_, hrefs (_, .listener _ _) (List.mem_cons_of_mem _ List.mem_cons_self)⟩
    · exact .inl ⟨q, hq⟩
  | @abandoned _ _ n | @closedDup _ _ _ n | @closedUnserved _ _ n | @closedServer _ _ n _
  | @closedServed _ _ n =>
    exact (h.closeFd n).of_same rfl rfl fun _ _ _ he => he
  | cleared =>
    have hkeys := ho.map_empty hsh hm
      (by simp [CudaVmmIPCManager.leaving, hc, Call.left]) hD
    rw [hkeys]
    exact h.of_same rfl rfl fun _ _ _ he => he
  | _ => exact h.of_same rfl rfl fun _ _ _ he => he

lemma dispatches_listening {l : Loop} (h : Listening s) (hs : Dispatches s k D result l o u) :
    Listening u := by
  cases hs with
  | accepted hn hq hclient =>
    refine h.frame (fun _ _ _ he => .inl he) (fun m' b' q he => ?_) (Listening.open hclient)
    rcases update_some he with ⟨hx, -⟩ | ⟨_, he⟩
    · obtain ⟨rfl, rfl⟩ := Prod.mk.inj hx
      exact .inr ⟨_, hn⟩
    · exact .inl ⟨q, he⟩
  | sent hsend => cases hsend <;> exact h.of_same rfl rfl fun _ _ _ he => he
  | @closed _ client => exact (h.closeFd client).of_same rfl rfl fun _ _ _ he => he
  | _ => exact h.of_same rfl rfl fun _ _ _ he => he

lemma step_listening (hsound : Sound s) (h : Listening s) (hs : s.step e = some (o, u)) :
    Listening u := by
  cases step_cases hs with
  | called hm hc hD hcall => exact calls_listening hsound.shared hsound.owned h hm hc hD hcall
  | dispatched _ hdispatch => exact dispatches_listening h hdispatch
  | connected hpath hq =>
    refine h.frame (fun _ _ _ he => .inl he) (fun m' b' q he => ?_) fun _ _ _ he => he
    rcases update_some he with ⟨hx, -⟩ | ⟨_, he⟩
    · obtain ⟨rfl, rfl⟩ := Prod.mk.inj hx
      exact .inl ⟨_, hq⟩
    · exact .inl ⟨q, he⟩
  | exported hn | opened hn => exact h.of_same rfl rfl (Listening.open hn)
  | @closedExported _ _ n _ _ | @closed n _ _ => exact h.closeFd n
  | _ => exact h.of_same rfl rfl fun _ _ _ he => he

end Listening

section Leaving

variable {pid : ℕ} {tr : List (Event × Output)}

structure Kept (s : Publisher) : Prop where
  sound : Sound s
  held : Held s
  ending : Ending s
  listening : Listening s

lemma run_kept (hr : Run step { pid := pid } tr s) : Kept s := by
  refine hr.invariant ?_ ?_
  · exact {
      sound := sound_init pid
      held := ⟨fun _ _ _ h => absurd h nofun, fun _ _ _ _ _ _ _ h => absurd h nofun⟩
      ending := ⟨fun _ _ h => absurd h nofun, fun _ _ _ h => absurd h nofun,
        fun _ _ _ _ h => absurd h nofun, fun _ _ h => absurd h nofun,
        fun _ _ _ _ h => absurd h nofun, fun _ _ h => absurd h nofun⟩
      listening := ⟨fun _ _ _ h => absurd h nofun, fun _ _ _ h => absurd h nofun⟩ }
  · intro _ _ _ _ h hs
    exact ⟨step_sound h.sound hs, step_held h.sound h.held hs, step_ending h.sound h.ending hs,
      step_listening h.sound h.listening hs⟩

/-- No manager uses the dispatcher any more. -/
def Unused (s : Publisher) (k : ℕ) : Prop := ∀ m mg, s.managers m = some mg → mg.dispatcher ≠ k

lemma Kept.unowned (h : Kept s) (hD : s.dispatchers k = some D) (hk : Unused s k) :
    D.owners = [] := by
  by_contra hne
  obtain ⟨m, hm⟩ := List.exists_mem_of_ne_nil _ hne
  obtain ⟨mg, hmg, hdis⟩ := h.ending.owners k D m hD hm
  exact hk m mg hmg hdis

lemma Kept.down (h : Kept s) (hD : s.dispatchers k = some D) (hk : Unused s k) :
    Down D ∧ D.socketToFd.entries = [] ∧ s.cached ≠ some k := by
  have hnil := h.unowned hD hk
  refine ⟨h.ending.down k D hD hnil hk, ?_, ?_⟩
  · apply List.eq_nil_iff_forall_not_mem.mpr
    rintro ⟨x, d⟩ hmem
    obtain ⟨m, mg, -, hm, hdis, -⟩ := h.sound.owned.maps k D x d hD (AList.mem_lookup_iff.mpr hmem)
    exact hk m mg hm hdis
  · intro hcached
    obtain ⟨E, hE, hne⟩ := h.sound.shared.current k hcached
    obtain rfl := Option.some.inj (hD.symm.trans hE)
    exact hne hnil

/-- Whatever the managers opened is in the hands of one that still exists. -/
structure Tidy (s : Publisher) : Prop where
  dispatcher : ∀ k D, s.dispatchers k = some D → Unused s k →
    Down D ∧ D.socketToFd.entries = [] ∧ s.cached ≠ some k
  file : ∀ n f m, s.fds n = some f → f.server = some m → ∃ mg D, s.managers m = some mg ∧
    s.dispatchers mg.dispatcher = some D ∧ Holds D m mg n f
  connection : ∀ n c, s.fds n = some (.connection c) → ∃ k D m mg, s.dispatchers k = some D ∧
    D.loop.client = some n ∧ s.managers m = some mg ∧ mg.dispatcher = k
  bound : ∀ path m b, s.bound path = some (m, b) → (s.managers m).isSome
  pending : ∀ m b q, s.pending (m, b) = some q → (s.managers m).isSome

lemma Tidy.files (h : Tidy s) (hnone : ∀ m, s.managers m = none) (hn : s.fds n = some f) :
    (∃ m b, f = .exported m b) ∨ ∃ x, f = .other x := by
  cases f with
  | exported m b => exact .inl ⟨m, b, rfl⟩
  | other x => exact .inr ⟨x, rfl⟩
  | connection c =>
    obtain ⟨k, D, m, mg, -, -, hm, -⟩ := h.connection n c hn
    exact nomatch (hnone m).symm.trans hm
  | duplicate m b | listener m b =>
    obtain ⟨mg, D, hm, -⟩ := h.file n _ m hn rfl
    exact nomatch (hnone m).symm.trans hm

theorem managers_leave_nothing (hr : Run step { pid := pid } tr s) : Tidy s := by
  have h := run_kept hr
  have hlistener : ∀ {m b}, (∃ n, s.fds n = some (.listener m b)) → (s.managers m).isSome := by
    rintro m b ⟨n, hn⟩
    obtain ⟨mg, D, hm, -⟩ := h.held.held n _ m hn rfl
    simp [hm]
  refine ⟨fun k D hD hk => h.down hD hk, h.held.held, ?_,
    fun path m b hb => hlistener (h.listening.bound path m b hb),
    fun m b q hq => hlistener (h.listening.pending m b q hq)⟩
  intro n c hn
  obtain ⟨k, hk⟩ := h.sound.handling.handled n c hn
  obtain ⟨l, hl, hclient⟩ := Option.bind_eq_some_iff.mp hk
  obtain ⟨D, hD, rfl⟩ := Option.map_eq_some_iff.mp hl
  -- a dispatcher that nobody uses has left its loop
  by_contra hno
  have hunused : Unused s k := fun m mg hm hdis => hno ⟨k, D, m, mg, hD, hclient, hm, hdis⟩
  obtain ⟨hdown, -⟩ := h.down hD hunused
  rw [hdown.exited] at hclient
  exact nomatch hclient

/-- The only manager registers a block, serves a client and is destroyed. -/
theorem managers_leave_nothing_once : ∃ tr s, Run step { pid := 7 } tr s ∧
    (Event.dispatch 0 (some 1), Output.sent 0 (.duplicate 0 0)) ∈ tr ∧ Tidy s ∧
    ∀ n f, s.fds n = some f → (∃ m b, f = .exported m b) ∨ ∃ x, f = .other x := by
  let evs : List Event := registering ++ [.connect "cuda_vmm_7_0", .epollWait 0 [4],
    .dispatch 0 none, .dispatch 0 (some 6), .destroy 0, .dispatch 0 (some 1), .removeSocket 0 0,
    .call 0 none, .call 0 none, .dispatch 0 none, .call 0 none, .call 0 none, .call 0 none,
    .dispatch 0 none, .epollWait 0 [], .call 0 none, .call 0 none]
  have hlast : (exec step { pid := 7 } evs).any (fun x =>
      decide ((Event.dispatch 0 (some 1), Output.sent 0 (.duplicate 0 0)) ∈ x.1) &&
      decide (x.2.nextManager = 1) && (x.2.managers 0).isNone) = true := by decide +kernel
  obtain ⟨⟨tr, s⟩, hx, hlast⟩ := Option.any_eq_true _ _ |>.mp hlast
  simp only [Bool.and_eq_true, decide_eq_true_eq, Option.isNone_iff_eq_none] at hlast
  obtain ⟨⟨hsent, hnext⟩, hzero⟩ := hlast
  have htidy := managers_leave_nothing (exec_run hx)
  refine ⟨tr, s, exec_run hx, hsent, htidy, fun n f => htidy.files fun m => ?_⟩
  obtain rfl | hm := Nat.eq_zero_or_pos m
  · exact hzero
  · exact (run_kept (exec_run hx)).sound.shared.manager m (hnext ▸ hm)

end Leaving

end RosidlBufferBackends.Dispatcher
