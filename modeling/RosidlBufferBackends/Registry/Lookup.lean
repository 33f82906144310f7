import RosidlBufferBackends.Registry.Visibility

/-! What a process finds about a registration once its refresh returns, over whole
runs of the host. -/

namespace RosidlBufferBackends.Registry

open Runs Host

variable {s u : Host} {ev : Event} {o : Output} {t p q : ℕ} {e : EndpointEntry}

/-- What a query in an instance reports about the entry. -/
def found (instanceId : ℕ) (e : EndpointEntry) : LocalityInfo :=
  { locality := if e.instanceId = instanceId then .intraProcess else .interProcessSameHost
    entityType := e.entityType
    remoteInstanceId := e.instanceId
    deviceId := e.deviceId
    uid := e.uid
    ipcCapable := e.ipcCapable
    found := true }

lemma query_of_answers (h : Answers s q e) : ∃ m, s.managers q = some m ∧
    s.queryEndpointLocality q e.gid = some (found m.identity.instanceId e) := by
  obtain ⟨m, hm, hcache⟩ := h
  refine ⟨m, hm, ?_⟩
  simp [queryEndpointLocality, hm, Cache.query, hcache, EndpointEntry.cached, found]

def Undisturbed (s : Host) (ev : Event) (_ : Output) : Prop := undisturbed s ev = true

/-- The process stays, and no other registration takes the gid. -/
def Lasts (p gid : ℕ) (tr : List (Event × Output)) : Prop :=
  ∀ x ∈ tr, ¬ Registers x.2 gid ∧ ¬ Leaves x.1 p

section Runs

variable {tr : List (Event × Output)}

lemma Lasts.left {gid : ℕ} {tr' : List (Event × Output)} (h : Lasts p gid (tr ++ tr')) :
    Lasts p gid tr :=
  fun x hx => h x (List.mem_append_left _ hx)

lemma Lasts.right {gid : ℕ} {tr' : List (Event × Output)} (h : Lasts p gid (tr ++ tr')) :
    Lasts p gid tr' :=
  fun x hx => h x (List.mem_append_right _ hx)

lemma Lasts.head {gid : ℕ} (h : Lasts p gid ((ev, o) :: tr)) : ¬ Registers o gid ∧ ¬ Leaves ev p :=
  h _ List.mem_cons_self

lemma Lasts.tail {gid : ℕ} (h : Lasts p gid ((ev, o) :: tr)) : Lasts p gid tr :=
  fun x hx => h x (List.mem_cons_of_mem _ hx)

lemma run_visible (hr : Run step s tr u) (hg : Every step Undisturbed s tr)
    (hl : Lasts p e.gid tr) (hc : Consistent s) (hv : Visible s p e) :
    Consistent u ∧ Visible u p e := by
  refine hr.induction_every (P := fun _ w => Consistent w ∧ Visible w p e)
    (hg.with_mem hl) ⟨hc, hv⟩ ?_
  rintro _ w ev o w' _ ⟨hc, hv⟩ ⟨hq, ho, hleave⟩ hs
  exact ⟨step_consistent hc hq hs, step_visible hc hv hq ho hleave hs⟩

lemma run_fresh (hr : Run step s tr u) (hg : Every step Undisturbed s tr)
    (hl : Lasts p e.gid tr) (hc : Consistent s) (hv : Visible s p e)
    (hf : Fresh s q e) (hb : RunBy s t q) :
    (Consistent u ∧ Visible u p e) ∧ Fresh u q e ∧ RunBy u t q := by
  refine hr.induction_every
    (P := fun _ w => (Consistent w ∧ Visible w p e) ∧ Fresh w q e ∧ RunBy w t q)
    (hg.with_mem hl) ⟨⟨hc, hv⟩, hf, hb⟩ ?_
  rintro _ w ev o w' _ ⟨⟨hc, hv⟩, hf, hb⟩ ⟨hq, ho, hleave⟩ hs
  exact ⟨⟨step_consistent hc hq hs, step_visible hc hv hq ho hleave hs⟩,
    step_fresh hc hv hf ho hs, step_runBy hb hs⟩

lemma run_answers (hr : Run step s tr u) (hg : Every step Undisturbed s tr)
    (hl : Lasts p e.gid tr) (hstay : ∀ x ∈ tr, ¬ Leaves x.1 q) (hc : Consistent s)
    (hv : Visible s p e) (hf : Fresh s q e) (ha : Answers s q e) : Answers u q e := by
  have hrun := hr.induction_every
    (P := fun _ w => (Consistent w ∧ Visible w p e) ∧ Fresh w q e ∧ Answers w q e)
    ((hg.with_mem hl).with_mem hstay) ⟨⟨hc, hv⟩, hf, ha⟩ ?_
  · exact hrun.2.2
  rintro _ w ev o w' _ ⟨⟨hc, hv⟩, hf, ha⟩ ⟨⟨hq, ho, hleave⟩, hstay⟩ hs
  exact ⟨⟨step_consistent hc hq hs, step_visible hc hv hq ho hleave hs⟩,
    step_fresh hc hv hf ho hs, step_answers hc hf ha hstay hs⟩

/-- The process `p` wrote the entry and has not left, no one has registered its
gid since, and a refresh of the process `q` that acquired the semaphore later has
returned. -/
def Refreshed (tr : List (Event × Output)) (p : ℕ) (e : EndpointEntry) (q : ℕ) : Prop :=
  ∃ pre mid mid' post e₁ e₂ e₃ t,
    tr = pre ++ (e₁, .registered p e) :: (mid ++ (e₂, .acquired t q) ::
      (mid' ++ (e₃, .refreshed t) :: post)) ∧
    Lasts p e.gid (mid ++ (e₂, .acquired t q) :: (mid' ++ (e₃, .refreshed t) :: post)) ∧
    ∀ x ∈ post, ¬ Leaves x.1 q

lemma answers_of_run (hr : Run step {} tr s) (hg : Every step Undisturbed {} tr)
    (h : Refreshed tr p e q) : Answers s q e := by
  obtain ⟨pre, mid, mid', post, e₁, e₂, e₃, t, rfl, hl, hstay⟩ := h
  obtain ⟨s₁, hr₁, hrest₁⟩ := run_append_iff.mp hr
  have hc₁ : Consistent s₁ := run_consistent hr₁ hg.init
  obtain ⟨s₂, hs₂, hrest₂⟩ := run_cons_iff.mp hrest₁
  obtain ⟨hq₁, hg₂⟩ := (hg.suffix hr₁).cons hs₂
  have hc₂ := step_consistent hc₁ hq₁ hs₂
  have hv₂ := visible_of_registered hc₁ hs₂
  -- until the refresh acquires the semaphore
  obtain ⟨s₃, hr₃, hrest₃⟩ := run_append_iff.mp hrest₂
  obtain ⟨hc₃, hv₃⟩ := run_visible hr₃ hg₂.init hl.left hc₂ hv₂
  obtain ⟨s₄, hs₄, hrest₄⟩ := run_cons_iff.mp hrest₃
  obtain ⟨hq₃, hg₄⟩ := (hg₂.suffix hr₃).cons hs₄
  obtain ⟨ho₄, hl₄⟩ := hl.right.head
  have hc₄ := step_consistent hc₃ hq₃ hs₄
  have hv₄ := step_visible hc₃ hv₃ hq₃ ho₄ hl₄ hs₄
  obtain ⟨hf₄, hb₄⟩ := fresh_of_acquired hc₃ hq₃ hs₄ (e := e)
  -- until its merge
  obtain ⟨s₅, hr₅, hrest₅⟩ := run_append_iff.mp hrest₄
  have hl₅ := hl.right.tail
  obtain ⟨⟨hc₅, hv₅⟩, hf₅, hb₅⟩ := run_fresh hr₅ hg₄.init hl₅.left hc₄ hv₄ hf₄ hb₄
  obtain ⟨s₆, hs₆, hr₆⟩ := run_cons_iff.mp hrest₅
  obtain ⟨hq₅, hg₆⟩ := (hg₄.suffix hr₅).cons hs₆
  obtain ⟨ho₆, hl₆⟩ := hl₅.right.head
  have hc₆ := step_consistent hc₅ hq₅ hs₆
  have hv₆ := step_visible hc₅ hv₅ hq₅ ho₆ hl₆ hs₆
  have hf₆ := step_fresh hc₅ hv₅ hf₅ ho₆ hs₆
  have ha₆ := answers_of_refreshed hc₅ hf₅ hb₅ hs₆
  exact run_answers hr₆ hg₆ hl₅.right.tail hstay hc₆ hv₆ hf₆ ha₆

end Runs

instance (o : Output) (gid : ℕ) : Decidable (Registers o gid) :=
  match o with
  | .registered _ e => decidable_of_iff (e.gid = gid) (by simp [Registers])
  | .quiet => .isFalse (by simp [Registers])
  | .returned _ _ => .isFalse (by simp [Registers])
  | .acquired _ _ => .isFalse (by simp [Registers])
  | .refreshed _ => .isFalse (by simp [Registers])

instance (ev : Event) (pid : ℕ) : Decidable (Leaves ev pid) :=
  inferInstanceAs (Decidable (_ ∨ _))

instance (p gid : ℕ) (tr : List (Event × Output)) : Decidable (Lasts p gid tr) :=
  inferInstanceAs (Decidable (∀ x ∈ tr, _))

instance (s : Host) (ev : Event) (o : Output) : Decidable (Undisturbed s ev o) :=
  inferInstanceAs (Decidable (_ = true))

/-- When nothing in use is unlinked and no older update waits, every live process
finds what was registered, and all managers share one segment. -/
theorem registration_visible {tr : List (Event × Output)} (hr : Run step {} tr s)
    (hg : Every step Undisturbed {} tr) :
    (∀ p e q, Refreshed tr p e q → ∃ m, s.managers q = some m ∧
      s.queryEndpointLocality q e.gid = some (found m.identity.instanceId e)) ∧
    ∀ p p' m m', s.managers p = some m → s.managers p' = some m' → m.seg = m'.seg := by
  constructor
  · intro p e q h
    exact query_of_answers (answers_of_run hr hg h)
  · intro p p' m m' hm hm'
    have hc := run_consistent hr hg
    have hseg := (hc.named.manager p m hm).1
    have hseg' := (hc.named.manager p' m' hm').1
    exact Option.some.inj (hseg.symm.trans hseg')

def quietly (evs : List Event) : List (Event × Output) := evs.map (fun ev => (ev, .quiet))

/-- A process starts and constructs its manager in thread `t`. -/
def attaching (pid t : ℕ) : List Event :=
  [.start pid, .construct pid 1 0 1000] ++ List.replicate 7 (.advance t)

theorem registration_visible_once : ∃ tr s, Run step {} tr s ∧ Every step Undisturbed {} tr ∧
    ∃ e, Refreshed tr 11 e 12 ∧ e.gid = 77 ∧ ∃ m, s.managers 12 = some m ∧
      s.queryEndpointLocality 12 77 = some (found m.identity.instanceId e) := by
  let e : EndpointEntry := ⟨makeInstanceId 11 1, 77, .publisher, 0, 1000, true, false⟩
  let pre := quietly (attaching 11 0 ++
    [.registerEndpoint 11 77 .publisher, .advance 1, .advance 1])
  let mid := quietly [.advance 1] ++ (.advance 1, .returned 1 true) ::
    quietly (attaching 12 2 ++ [.refreshFromRemote 12])
  let mid' := quietly [.advance 3, .advance 3]
  let tr := pre ++ (.advance 1, .registered 11 e) :: (mid ++ (.advance 3, .acquired 3 12) ::
    (mid' ++ [(.advance 3, .refreshed 3)]))
  have hexec : (exec step {} (tr.map Prod.fst)).map Prod.fst = some tr := by decide +kernel
  obtain ⟨⟨tr', s⟩, hs, rfl⟩ := Option.map_eq_some_iff.mp hexec
  have hr := exec_run hs
  have hg : Every step Undisturbed {} tr := every_of_exec hs (by decide +kernel)
  have hl : Lasts 11 77 (mid ++ (.advance 3, .acquired 3 12) ::
    (mid' ++ [(.advance 3, .refreshed 3)])) := by decide +kernel
  have href : Refreshed tr 11 e 12 := ⟨pre, mid, mid', [], _, _, _, 3, rfl, hl, nofun⟩
  exact ⟨tr, s, hr, hg, e, href, rfl, (registration_visible hr hg).1 11 e 12 href⟩

/-- The destructor of 11 unlinks the names of the segment that 12 maps, so 13
creates another. -/
theorem unlinked_registration_not_found : ∃ tr s, Run step {} tr s ∧
    ∃ e, Refreshed tr 12 e 13 ∧
      (∃ m m', s.managers 12 = some m ∧ s.managers 13 = some m' ∧ m.seg ≠ m'.seg) ∧
      ∃ info, s.queryEndpointLocality 13 e.gid = some info ∧ info.found = false := by
  let e : EndpointEntry := ⟨makeInstanceId 12 1, 77, .publisher, 0, 1000, true, false⟩
  let pre := quietly (attaching 11 0 ++ attaching 12 1 ++ [.destroy 11] ++
    List.replicate 8 (.advance 2) ++ [.registerEndpoint 12 77 .publisher, .advance 3, .advance 3])
  let mid := quietly [.advance 3] ++ (.advance 3, .returned 3 true) ::
    quietly (attaching 13 4 ++ [.refreshFromRemote 13])
  let mid' := quietly [.advance 5, .advance 5]
  let tr := pre ++ (.advance 3, .registered 12 e) :: (mid ++ (.advance 5, .acquired 5 13) ::
    (mid' ++ [(.advance 5, .refreshed 5)]))
  have hexec : (exec step {} (tr.map Prod.fst)).map Prod.fst = some tr := by decide +kernel
  have hlast : (exec step {} (tr.map Prod.fst)).any (fun x =>
      (x.2.managers 12).any (fun m => (x.2.managers 13).any (fun m' => m.seg ≠ m'.seg)) &&
        (x.2.queryEndpointLocality 13 77).any (fun info => !info.found)) = true := by
    decide +kernel
  obtain ⟨⟨tr', s⟩, hs, rfl⟩ := Option.map_eq_some_iff.mp hexec
  have hl : Lasts 12 77 (mid ++ (.advance 5, .acquired 5 13) ::
    (mid' ++ [(.advance 5, .refreshed 5)])) := by decide +kernel
  have href : Refreshed tr 12 e 13 := ⟨pre, mid, mid', [], _, _, _, 5, rfl, hl, nofun⟩
  refine ⟨tr, s, exec_run hs, e, href, ?_⟩
  simpa [hs, Option.any_eq_true] using hlast

end RosidlBufferBackends.Registry
