import RosidlBufferBackends.Registry.Lookup

/-! All that map a segment lock it with one semaphore, unless the name of the
semaphore is removed while another process may still open the segment. -/

namespace RosidlBufferBackends.Registry

open Runs Host Inventory

variable {s u v : Host} {e : Event} {o : Output} {t seg sem : ℕ} {th : Thread}

/-- A manager, or a thread of one, accesses the segment under the semaphore. -/
def Uses (s : Host) (seg sem : ℕ) : Prop :=
  (∃ p m, s.managers p = some m ∧ m.seg = seg ∧ m.sem = sem) ∨
    ∃ t th, s.threads t = some th ∧ th.pc.opened = true ∧ th.seg = seg ∧ th.sem = sem

/-- A constructor has opened the segment and no semaphore yet. -/
def Opening (s : Host) (seg : ℕ) : Prop :=
  ∃ t th, s.threads t = some th ∧ th.pc.mapped = true ∧ th.pc.opened = false ∧ th.seg = seg

def Openable (s : Host) (seg : ℕ) : Prop := s.shmName = some seg ∨ Opening s seg

def openable (s : Host) (seg : ℕ) : Bool :=
  decide (s.shmName = some seg) ||
    s.anyThread (fun th => th.pc.mapped && !th.pc.opened && decide (th.seg = seg))

/-- `sem_unlink` is called when nothing locks a segment that can still be opened. -/
def keepsSemaphore (s : Host) : Event → Bool
  | .advance t =>
      match s.threads t with
      | none => true
      | some th =>
          match th.pc with
          | .semUnlink =>
              !(s.alive.any (fun p => (s.managers p).any (fun m => openable s m.seg)) ||
                s.anyThread (fun th => th.pc.opened && openable s th.seg))
          | _ => true
  | _ => true

structure Peopled (s : Host) : Prop where
  fresh : ∀ t, s.nextThread ≤ t → s.threads t = none
  manager : ∀ p m, s.managers p = some m → p ∈ s.alive ∧ m.identity.pid = p
  thread : ∀ t th, s.threads t = some th → th.identity.pid ∈ s.alive

structure Paired (s : Host) : Prop where
  used : ∀ seg sem, Uses s seg sem → seg < s.nextSegment ∧ sem < s.nextSem
  opening : ∀ seg, Openable s seg → seg < s.nextSegment
  named : ∀ sem, s.semName = some sem → sem < s.nextSem
  same : ∀ seg sem sem', Uses s seg sem → Uses s seg sem' → sem = sem'
  current : ∀ seg sem, Uses s seg sem → Openable s seg → s.semName = some sem

/-- What `u` has in use or can open, `s` has too. -/
structure Within (s u : Host) : Prop where
  uses : ∀ seg sem, Uses u seg sem → Uses s seg sem
  openable : ∀ seg, Openable u seg → Openable s seg
  nextSegment : s.nextSegment ≤ u.nextSegment
  nextSem : s.nextSem ≤ u.nextSem
  semName : u.semName = s.semName

section Peopled

lemma Peopled.put (h : Peopled s) (hlt : t < s.nextThread) {x : Option Thread}
    (hx : ∀ th', x = some th' → th'.identity.pid ∈ s.alive) : Peopled (s.put t x) := by
  refine ⟨?_, h.manager, ?_⟩
  · intro t' hle
    have hne : t' ≠ t := (hlt.trans_le hle).ne'
    rw [put_threads, Function.update_of_ne hne]
    exact h.fresh t' hle
  · intro t' th' ht'
    rcases update_some ht' with ⟨_, he⟩ | ⟨_, ht'⟩
    · exact hx th' he
    · exact h.thread t' th' ht'

lemma Peopled.lt (h : Peopled s) (ht : s.threads t = some th) : t < s.nextThread := by
  by_contra hlt
  exact absurd ((h.fresh t (not_lt.mp hlt)).symm.trans ht) nofun

lemma Peopled.change (h : Peopled s) {pid : ℕ} {x : Option HostEndpointManager}
    (hx : ∀ m, x = some m → pid ∈ s.alive ∧ m.identity.pid = pid) :
    Peopled (s.modifyManager pid x) := by
  refine ⟨h.fresh, ?_, h.thread⟩
  intro p m hm
  by_cases hp : p = pid
  · subst hp
    exact hx m (by simpa [Host.modifyManager] using hm)
  · exact h.manager p m (by simpa [Host.modifyManager, Function.update_of_ne hp] using hm)

lemma Peopled.spawn (h : Peopled s) (hth : th.identity.pid ∈ s.alive) : Peopled (s.spawn th) := by
  refine ⟨?_, h.manager, ?_⟩
  · intro t hle
    have hle : s.nextThread + 1 ≤ t := hle
    have hne : t ≠ s.nextThread := by omega
    exact (Function.update_of_ne hne _ _).trans (h.fresh t (by omega))
  · intro t th' ht
    rcases update_some ht with ⟨_, he⟩ | ⟨_, ht⟩
    · obtain rfl := Option.some.inj he
      exact hth
    · exact h.thread t th' ht

lemma Peopled.goto (h : Peopled s) (ht : s.threads t = some th) {seg sem : ℕ} {pc : Pc} :
    Peopled (s.put t (some { th with seg := seg, sem := sem, pc := pc })) := by
  apply h.put (h.lt ht)
  intro th' hx
  obtain rfl := Option.some.inj hx
  exact h.thread t th ht

lemma advance_peopled (h : Peopled s) (ht : s.threads t = some th) (ha : Advance s t th o u) :
    Peopled u := by
  have hdone : Peopled (s.put t none) := h.put (h.lt ht) nofun
  cases ha with
  | passed _ => exact h.goto ht
  | opened _ _ => exact h.goto ht
  | created _ _ =>
    have hf : Peopled s.shmCreate := ⟨h.fresh, h.manager, h.thread⟩
    exact hf.goto ht
  | semOpened _ _ => exact h.goto ht
  | semCreated _ _ =>
    have hf : Peopled s.semCreate := ⟨h.fresh, h.manager, h.thread⟩
    exact hf.goto ht
  | acquired _ _ _ =>
    have hf : Peopled (s.wait th.sem) := ⟨h.fresh, h.manager, h.thread⟩
    exact hf.goto ht
  | released _ =>
    have hf : Peopled (s.post th.sem) := ⟨h.fresh, h.manager, h.thread⟩
    exact hf.goto ht
  | attached _ =>
    have hf : Peopled (s.modifyRegistry th.seg (fun r => r.attach s.isAlive)) :=
      ⟨h.fresh, h.manager, h.thread⟩
    exact hf.goto ht
  | constructed _ =>
    have hf : Peopled ((s.post th.sem).put t none) := ⟨hdone.fresh, hdone.manager, hdone.thread⟩
    apply hf.change
    intro m hm
    obtain rfl := Option.some.inj hm
    exact ⟨h.thread t th ht, rfl⟩
  | full _ _ => exact h.goto ht
  | scanned _ _ => exact h.goto ht
  | @written gid type slot m _ _ =>
    have hf : Peopled (s.modifyRegistry th.seg (fun r => r.writeSlot slot (entryOf m gid type))) :=
      ⟨h.fresh, h.manager, h.thread⟩
    exact hf.goto ht
  | rejected _ => exact ⟨hdone.fresh, hdone.manager, hdone.thread⟩
  | registered _ hm =>
    apply hdone.change
    intro m' hm'
    obtain rfl := Option.some.inj hm'
    have hold := h.manager _ _ hm
    exact hold
  | read _ => exact h.goto ht
  | refreshed _ hm =>
    apply hdone.change
    intro m' hm'
    obtain rfl := Option.some.inj hm'
    have hold := h.manager _ _ hm
    exact hold
  | @detached r _ _ =>
    have hf : Peopled (s.modifyRegistry th.seg (fun _ => r)) := ⟨h.fresh, h.manager, h.thread⟩
    exact hf.goto ht
  | closed _ => exact hdone
  | shmUnlinked _ =>
    have hf : Peopled { s with shmName := none } := ⟨h.fresh, h.manager, h.thread⟩
    exact hf.goto ht
  | semUnlinked _ => exact ⟨hdone.fresh, hdone.manager, hdone.thread⟩

lemma step_peopled (h : Peopled s) (hs : step s e = some (o, u)) : Peopled u := by
  cases step_cases hs with
  | started _ _ =>
    refine ⟨h.fresh, ?_, fun t th ht => List.mem_cons_of_mem _ (h.thread t th ht)⟩
    intro p m hm
    exact ⟨List.mem_cons_of_mem _ (h.manager p m hm).1, (h.manager p m hm).2⟩
  | @exited pid =>
    refine ⟨?_, ?_, ?_⟩
    · intro t hle
      simp [h.fresh t hle]
    · intro p m hm
      obtain ⟨hp, hm⟩ := removed_manager hm
      exact ⟨List.mem_filter.mpr ⟨(h.manager p m hm).1, by simpa using hp⟩, (h.manager p m hm).2⟩
    · intro t th ht
      obtain ⟨ht, hne⟩ := exited_thread ht
      exact List.mem_filter.mpr ⟨h.thread t th ht, by simpa using hne⟩
  | constructing hmem _ => exact h.spawn hmem
  | flagged hm =>
    apply h.change
    intro m' hm'
    obtain rfl := Option.some.inj hm'
    have hold := h.manager _ _ hm
    exact hold
  | called hm _ =>
    obtain ⟨halive, hpid⟩ := h.manager _ _ hm
    exact h.spawn (hpid ▸ halive)
  | destroying _ hm =>
    obtain ⟨halive, hpid⟩ := h.manager _ _ hm
    exact (h.spawn (hpid ▸ halive)).change nofun
  | advanced ht ha => exact advance_peopled h ht ha

end Peopled

section Within

lemma Within.refl (s : Host) : Within s s := ⟨fun _ _ h => h, fun _ h => h, le_rfl, le_rfl, rfl⟩

lemma Within.frame (h : Within s u) {registries : ℕ → EndpointRegistry} {semValue : ℕ → ℕ} :
    Within s { u with registries := registries, semValue := semValue } :=
  ⟨h.uses, h.openable, h.nextSegment, h.nextSem, h.semName⟩

lemma Within.wait (h : Within s u) (sem : ℕ) : Within s (u.wait sem) := h.frame

lemma Within.post (h : Within s u) (sem : ℕ) : Within s (u.post sem) := h.frame

lemma Within.modifyRegistry (h : Within s u) (seg : ℕ) (f : EndpointRegistry → EndpointRegistry) :
    Within s (u.modifyRegistry seg f) := h.frame

lemma Within.put (h : Within s u) {x : Option Thread}
    (ho : ∀ th, x = some th → th.pc.opened = true → Uses s th.seg th.sem)
    (hm : ∀ th, x = some th → th.pc.mapped = true → th.pc.opened = false → Openable s th.seg) :
    Within s (u.put t x) := by
  refine ⟨?_, ?_, h.nextSegment, h.nextSem, h.semName⟩
  · rintro seg sem (⟨p, m, hp, rfl, rfl⟩ | ⟨t', th', ht', hop, rfl, rfl⟩)
    · exact h.uses _ _ (.inl ⟨p, m, hp, rfl, rfl⟩)
    · rcases update_some ht' with ⟨_, he⟩ | ⟨_, ht'⟩
      · exact ho th' he hop
      · exact h.uses _ _ (.inr ⟨t', th', ht', hop, rfl, rfl⟩)
  · rintro seg (hname | ⟨t', th', ht', hmap, hop, rfl⟩)
    · exact h.openable seg (.inl hname)
    · rcases update_some ht' with ⟨_, he⟩ | ⟨_, ht'⟩
      · exact hm th' he hmap hop
      · exact h.openable _ (.inr ⟨t', th', ht', hmap, hop, rfl⟩)

lemma Within.finish (h : Within s u) : Within s (u.put t none) := h.put nofun nofun

lemma uses_of_thread (ht : s.threads t = some th) (ho : th.pc.opened = true) :
    Uses s th.seg th.sem := .inr ⟨t, th, ht, ho, rfl, rfl⟩

lemma uses_of_manager {p : ℕ} {m : HostEndpointManager} (hm : s.managers p = some m) :
    Uses s m.seg m.sem := .inl ⟨p, m, hm, rfl, rfl⟩

lemma Within.goto (h : Within s u) (ht : s.threads t = some th) {pc : Pc}
    (ho : pc.opened = true → th.pc.opened = true)
    (hm : pc.mapped = true → pc.opened = false → th.pc.mapped = true ∧ th.pc.opened = false) :
    Within s (u.goto t th pc) := by
  apply h.put
  · intro th' hx hop
    obtain rfl := Option.some.inj hx
    have huse : Uses s th.seg th.sem := uses_of_thread ht (ho hop)
    exact huse
  · intro th' hx hmap hop
    obtain rfl := Option.some.inj hx
    obtain ⟨hmap, hop⟩ := hm hmap hop
    exact .inr ⟨t, th, ht, hmap, hop, rfl⟩

lemma Within.proceed (h : Within s u) (ht : s.threads t = some th) {pc : Pc}
    (hop : th.pc.opened = true) (hm : pc.mapped = true → pc.opened = true) :
    Within s (u.goto t th pc) := by
  refine h.goto ht (fun _ => hop) ?_
  intro hmap hclosed
  exact absurd ((hm hmap).symm.trans hclosed) nofun

lemma Within.change (h : Within s u) {pid : ℕ} {x : Option HostEndpointManager}
    (hx : ∀ m, x = some m → Uses s m.seg m.sem) : Within s (u.modifyManager pid x) := by
  refine ⟨?_, h.openable, h.nextSegment, h.nextSem, h.semName⟩
  rintro seg sem (⟨p, m, hp, rfl, rfl⟩ | huse)
  · by_cases hne : p = pid
    · subst hne
      exact hx m (by simpa [Host.modifyManager] using hp)
    · exact h.uses _ _
        (uses_of_manager (p := p)
          (by simpa [Host.modifyManager, Function.update_of_ne hne] using hp))
  · exact h.uses _ _ (.inr huse)

lemma Within.spawn (h : Within s u) (ho : th.pc.opened = true → Uses s th.seg th.sem)
    (hm : th.pc.mapped = true → th.pc.opened = true) : Within s (u.spawn th) := by
  have hput : Within s (u.put u.nextThread (some th)) := by
    apply h.put
    · intro th' hx hop
      obtain rfl := Option.some.inj hx
      exact ho hop
    · intro th' hx hmap hop
      obtain rfl := Option.some.inj hx
      exact absurd ((hm hmap).symm.trans hop) nofun
  exact ⟨hput.uses, hput.openable, hput.nextSegment, hput.nextSem, hput.semName⟩

lemma Paired.within (h : Paired s) (hw : Within s u) : Paired u := by
  refine ⟨?_, ?_, ?_, ?_, ?_⟩
  · intro seg sem hu
    obtain ⟨hseg, hsem⟩ := h.used seg sem (hw.uses seg sem hu)
    exact ⟨hseg.trans_le hw.nextSegment, hsem.trans_le hw.nextSem⟩
  · intro seg ho
    exact (h.opening seg (hw.openable seg ho)).trans_le hw.nextSegment
  · intro sem hn
    exact (h.named sem (hw.semName ▸ hn)).trans_le hw.nextSem
  · intro seg sem sem' hu hu'
    exact h.same seg sem sem' (hw.uses seg sem hu) (hw.uses seg sem' hu')
  · intro seg sem hu ho
    rw [hw.semName]
    exact h.current seg sem (hw.uses seg sem hu) (hw.openable seg ho)

end Within

section Paired

lemma Paired.shmCreate (h : Paired s) : Paired s.shmCreate := by
  have hopen : ∀ seg, Openable s.shmCreate seg → seg = s.nextSegment ∨ Openable s seg := by
    rintro seg (hname | hopening)
    · exact .inl (Option.some.inj hname).symm
    · exact .inr (.inr hopening)
  refine ⟨?_, ?_, h.named, h.same, ?_⟩
  · intro seg sem hu
    obtain ⟨hseg, hsem⟩ := h.used seg sem hu
    exact ⟨hseg.trans (Nat.lt_succ_self _), hsem⟩
  · intro seg ho
    rcases hopen seg ho with rfl | ho
    · exact Nat.lt_succ_self _
    · exact (h.opening seg ho).trans (Nat.lt_succ_self _)
  · intro seg sem hu ho
    rcases hopen seg ho with rfl | ho
    · exact absurd (h.used _ sem hu).1 (lt_irrefl _)
    · exact h.current seg sem hu ho

lemma Paired.semCreate (h : Paired s) (hnone : s.semName = none) : Paired s.semCreate := by
  refine ⟨?_, h.opening, ?_, h.same, ?_⟩
  · intro seg sem hu
    obtain ⟨hseg, hsem⟩ := h.used seg sem hu
    exact ⟨hseg, hsem.trans (Nat.lt_succ_self _)⟩
  · intro sem hn
    obtain rfl : s.nextSem = sem := Option.some.inj hn
    exact Nat.lt_succ_self _
  · intro seg sem hu ho
    have hcurrent := h.current seg sem hu ho
    rw [hnone] at hcurrent
    exact nomatch hcurrent

/-- A constructor that has opened a segment opens the semaphore of the name. -/
lemma Paired.semOpen (h : Paired s) (ht : s.threads t = some th) (hpc : th.pc = .semOpen)
    (hsem : s.semName = some sem) :
    Paired (s.goto t { th with sem := sem } .attachWait) := by
  have hself : Openable s th.seg :=
    .inr ⟨t, th, ht, by rw [hpc]; rfl, by rw [hpc]; rfl, rfl⟩
  have huses : ∀ seg sem', Uses (s.goto t { th with sem := sem } .attachWait) seg sem' →
      Uses s seg sem' ∨ (seg = th.seg ∧ sem' = sem) := by
    rintro seg sem' (⟨p, m, hp, rfl, rfl⟩ | ⟨t', th', ht', hop, rfl, rfl⟩)
    · exact .inl (uses_of_manager hp)
    · rcases update_some ht' with ⟨_, he⟩ | ⟨_, ht'⟩
      · obtain rfl := Option.some.inj he
        exact .inr ⟨rfl, rfl⟩
      · exact .inl (uses_of_thread ht' hop)
  have hopen : ∀ seg, Openable (s.goto t { th with sem := sem } .attachWait) seg →
      Openable s seg := by
    rintro seg (hname | ⟨t', th', ht', hmap, hop, rfl⟩)
    · exact .inl hname
    · rcases update_some ht' with ⟨_, he⟩ | ⟨_, ht'⟩
      · obtain rfl := Option.some.inj he
        exact nomatch hop
      · exact .inr ⟨t', th', ht', hmap, hop, rfl⟩
  have hother : ∀ sem', Uses s th.seg sem' → sem' = sem := by
    intro sem' hu
    have hcurrent := h.current th.seg sem' hu hself
    exact Option.some.inj (hcurrent.symm.trans hsem)
  refine ⟨?_, fun seg ho => h.opening seg (hopen seg ho), h.named, ?_, ?_⟩
  · intro seg sem' hu
    rcases huses seg sem' hu with hu | ⟨rfl, rfl⟩
    · exact h.used seg sem' hu
    · exact ⟨h.opening _ hself, h.named _ hsem⟩
  · intro seg sem₁ sem₂ h₁ h₂
    rcases huses seg sem₁ h₁ with hu₁ | ⟨rfl, rfl⟩ <;>
      rcases huses _ sem₂ h₂ with hu₂ | ⟨hseg, he⟩
    · exact h.same seg sem₁ sem₂ hu₁ hu₂
    · rw [hseg] at hu₁
      exact (hother sem₁ hu₁).trans he.symm
    · exact (hother sem₂ hu₂).symm
    · exact he.symm
  · intro seg sem' hu ho
    rcases huses seg sem' hu with hu | ⟨rfl, rfl⟩
    · exact h.current seg sem' hu (hopen seg ho)
    · exact hsem

lemma openable_of (hp : Peopled s) (ho : Openable s seg) : openable s seg = true := by
  rcases ho with hname | ⟨t, th, ht, hmap, hop, hseg⟩
  · simp [openable, hname]
  · have hany := anyThread_of_mem
      (p := fun th => th.pc.mapped && !th.pc.opened && decide (th.seg = seg)) hp.fresh ht
      (by simp [hmap, hop, hseg])
    simp [openable, hany]

lemma Paired.semUnlink (hp : Peopled s) (h : Paired s) (ht : s.threads t = some th)
    (hpc : th.pc = .semUnlink) (hk : keepsSemaphore s (.advance t) = true) :
    Paired { s with semName := none } := by
  refine ⟨h.used, h.opening, nofun, h.same, ?_⟩
  intro seg sem hu ho
  have ho := openable_of hp ho
  simp only [keepsSemaphore, ht, hpc, Bool.not_eq_true', Bool.or_eq_false_iff] at hk
  rcases hu with ⟨p, m, hm, rfl, rfl⟩ | ⟨t', th', ht', hop, rfl, rfl⟩
  · have hm : s.managers p = some m := hm
    have hnone := List.any_eq_false.mp hk.1 p (hp.manager p m hm).1
    simp [hm, ho] at hnone
  · have hany := anyThread_of_mem (p := fun th => th.pc.opened && openable s th.seg) hp.fresh ht'
      (by simp [hop, ho])
    rw [hk.2] at hany
    exact nomatch hany

lemma advance_paired (hp : Peopled s) (h : Paired s) (ht : s.threads t = some th)
    (hk : keepsSemaphore s (.advance t) = true) (ha : Advance s t th o u) : Paired u := by
  have hr := Within.refl s
  have hpc_opened : ∀ {pc}, th.pc = pc → pc.opened = true → th.pc.opened = true :=
    fun he ho => he ▸ ho
  cases ha with
  | passed hpass =>
    refine h.within (hr.goto ht (passes_flags hpass).2.1 ?_)
    intro hmap hop
    generalize th.pc = pc₀ at hpass
    cases hpass <;> first | exact ⟨rfl, rfl⟩ | exact nomatch hmap
  | @opened seg _ hseg =>
    refine h.within (hr.put ?_ ?_)
    · intro th' hx hop
      obtain rfl := Option.some.inj hx
      exact nomatch hop
    · intro th' hx _ _
      obtain rfl := Option.some.inj hx
      exact .inl hseg
  | created _ _ =>
    refine h.shmCreate.within ((Within.refl _).put ?_ ?_)
    · intro th' hx hop
      obtain rfl := Option.some.inj hx
      exact nomatch hop
    · intro th' hx _ _
      obtain rfl := Option.some.inj hx
      exact .inl rfl
  | semOpened hpc hsem => exact h.semOpen ht hpc hsem
  | semCreated hpc hnone =>
    have hthread : s.semCreate.threads t = some th := ht
    exact (h.semCreate hnone).semOpen hthread hpc rfl
  | acquired hacq _ _ =>
    obtain ⟨hop, hhold, _, _⟩ := acquires_flags hacq
    exact h.within ((hr.wait _).proceed ht hop fun _ => Pc.opened_of_holding hhold)
  | released hrel =>
    have hop := Pc.opened_of_holding (releases_flags hrel).1
    refine h.within ((hr.post _).proceed ht hop ?_)
    intro hmap
    generalize th.pc = pc₀ at hrel
    cases hrel <;> first | rfl | exact nomatch hmap
  | attached hpc =>
    exact h.within ((hr.modifyRegistry _ _).proceed ht (hpc_opened hpc rfl) fun _ => rfl)
  | constructed hpc =>
    refine h.within ((hr.post _).finish.change ?_)
    intro m hm
    obtain rfl := Option.some.inj hm
    have huse : Uses s th.seg th.sem := uses_of_thread ht (hpc_opened hpc rfl)
    exact huse
  | full hpc _ => exact h.within (hr.proceed ht (hpc_opened hpc rfl) fun _ => rfl)
  | scanned hpc _ => exact h.within (hr.proceed ht (hpc_opened hpc rfl) fun _ => rfl)
  | written hpc _ =>
    exact h.within ((hr.modifyRegistry _ _).proceed ht (hpc_opened hpc rfl) fun _ => rfl)
  | rejected _ => exact h.within (hr.post _).finish
  | registered _ hm =>
    refine h.within (hr.finish.change ?_)
    intro m' hm'
    obtain rfl := Option.some.inj hm'
    have huse := uses_of_manager hm
    exact huse
  | read hpc => exact h.within (hr.proceed ht (hpc_opened hpc rfl) fun _ => rfl)
  | refreshed _ hm =>
    refine h.within (hr.finish.change ?_)
    intro m' hm'
    obtain rfl := Option.some.inj hm'
    have huse := uses_of_manager hm
    exact huse
  | detached hpc _ =>
    exact h.within ((hr.modifyRegistry _ _).proceed ht (hpc_opened hpc rfl) fun _ => rfl)
  | closed _ => exact h.within hr.finish
  | shmUnlinked _ =>
    have hw : Within s { s with shmName := none } := by
      refine ⟨fun _ _ hu => hu, ?_, le_rfl, le_rfl, rfl⟩
      rintro seg (hname | hopening)
      · exact nomatch hname
      · exact .inr hopening
    refine h.within (hw.goto ht nofun nofun)
  | semUnlinked hpc => exact (h.semUnlink hp ht hpc hk).within (Within.refl _).finish

lemma step_paired (hp : Peopled s) (h : Paired s) (hk : keepsSemaphore s e = true)
    (hs : step s e = some (o, u)) : Paired u := by
  have hr := Within.refl s
  cases step_cases hs with
  | started _ _ => exact h.within ⟨hr.uses, hr.openable, le_rfl, le_rfl, rfl⟩
  | exited =>
    refine h.within ⟨?_, ?_, le_rfl, le_rfl, rfl⟩
    · rintro seg sem (⟨p, m, hm, rfl, rfl⟩ | ⟨t, th, ht, hop, rfl, rfl⟩)
      · exact uses_of_manager (removed_manager hm).2
      · exact uses_of_thread (exited_thread ht).1 hop
    · rintro seg (hname | ⟨t, th, ht, hmap, hop, rfl⟩)
      · exact .inl hname
      · exact .inr ⟨t, th, (exited_thread ht).1, hmap, hop, rfl⟩
  | constructing _ _ => exact h.within (hr.spawn nofun nofun)
  | flagged hm =>
    refine h.within (hr.change ?_)
    intro m' hm'
    obtain rfl := Option.some.inj hm'
    have huse := uses_of_manager hm
    exact huse
  | called hm hpc =>
    refine h.within (hr.spawn (fun _ => uses_of_manager hm) ?_)
    intro _
    rcases hpc with ⟨_, _, rfl⟩ | rfl <;> rfl
  | destroying _ hm =>
    exact h.within ((hr.spawn (fun _ => uses_of_manager hm) fun _ => rfl).change nofun)
  | advanced ht ha => exact advance_paired hp h ht hk ha

end Paired

structure Guarded (s : Host) : Prop where
  value : ∀ sem, s.semValue sem ≤ 1
  held : ∀ t th, s.threads t = some th → th.pc.holding = true → s.semValue th.sem = 0
  unique : ∀ t th t' th', s.threads t = some th → s.threads t' = some th' →
    th.pc.holding = true → th'.pc.holding = true → th.sem = th'.sem → t = t'

/-- What a registration has found is still so when it writes. -/
def Slotted (s : Host) : Prop :=
  ∀ t th gid type slot, s.threads t = some th → th.pc = .write gid type slot →
    (s.registries th.seg).findSlot gid = some slot

section Guarded

lemma Guarded.of (h : Guarded s) (hv : u.semValue = s.semValue)
    (ht : ∀ t th, u.threads t = some th → th.pc.holding = true →
      ∃ th₀, s.threads t = some th₀ ∧ th₀.pc.holding = true ∧ th.sem = th₀.sem) : Guarded u := by
  refine ⟨hv ▸ h.value, ?_, ?_⟩
  · intro t th hth hh
    obtain ⟨th₀, h₀, hh₀, hsem⟩ := ht t th hth hh
    rw [hv, hsem]
    exact h.held t th₀ h₀ hh₀
  · intro t th t' th' hth hth' hh hh' hsem
    obtain ⟨th₀, h₀, hh₀, he⟩ := ht t th hth hh
    obtain ⟨th₁, h₁, hh₁, he'⟩ := ht t' th' hth' hh'
    exact h.unique t th₀ t' th₁ h₀ h₁ hh₀ hh₁ (he.symm.trans (hsem.trans he'))

lemma Guarded.put (h : Guarded s) (hv : u.semValue = s.semValue)
    (ht : s.threads t = some th) {x : Option Thread}
    (hu : u.threads = Function.update s.threads t x)
    (hx : ∀ th', x = some th' → th'.pc.holding = true → th.pc.holding = true ∧ th'.sem = th.sem) :
    Guarded u := by
  apply h.of hv
  intro t' th' ht' hh
  rw [hu] at ht'
  rcases update_some ht' with ⟨rfl, he⟩ | ⟨_, ht'⟩
  · exact ⟨th, ht, hx th' he hh⟩
  · exact ⟨th', ht', hh, rfl⟩

lemma Guarded.goto (h : Guarded s) (hv : u.semValue = s.semValue) (ht : s.threads t = some th)
    {seg : ℕ} {pc : Pc}
    (hu : u.threads = Function.update s.threads t (some { th with seg := seg, pc := pc }))
    (hh : pc.holding = true → th.pc.holding = true) : Guarded u := by
  apply h.put hv ht hu
  intro th' hx hh'
  obtain rfl := Option.some.inj hx
  exact ⟨hh hh', rfl⟩

lemma Guarded.acquire (h : Guarded s) {pc : Pc} (hv : s.semValue th.sem ≠ 0) :
    Guarded ((s.wait th.sem).goto t th pc) := by
  have hvalue : ∀ sem, ((s.wait th.sem).goto t th pc).semValue sem =
      if sem = th.sem then s.semValue sem - 1 else s.semValue sem := by
    intro sem
    by_cases hx : sem = th.sem
    · subst hx
      simp [Host.goto, Host.put, Host.wait]
    · simp [Host.goto, Host.put, Host.wait, hx]
  have hone := h.value th.sem
  -- a holder of the semaphore would have left it at 0
  have hnone : ∀ {t' th'}, s.threads t' = some th' → th'.pc.holding = true → th'.sem ≠ th.sem := by
    intro t' th' ht' hh he
    exact hv (he ▸ h.held t' th' ht' hh)
  refine ⟨?_, ?_, ?_⟩
  · intro sem
    have hle := h.value sem
    rw [hvalue]
    split <;> omega
  · intro t' th' ht' hh
    rw [hvalue]
    rcases update_some ht' with ⟨_, he⟩ | ⟨_, ht'⟩
    · obtain rfl := Option.some.inj he
      simp only [if_true]
      omega
    · rw [if_neg (hnone ht' hh)]
      exact h.held t' th' ht' hh
  · intro t₁ th₁ t₂ th₂ h₁ h₂ hh₁ hh₂ hsem
    rcases update_some h₁ with ⟨rfl, he₁⟩ | ⟨_, hs₁⟩ <;>
      rcases update_some h₂ with ⟨rfl, he₂⟩ | ⟨_, hs₂⟩
    · rfl
    · obtain rfl := Option.some.inj he₁
      exact absurd hsem.symm (hnone hs₂ hh₂)
    · obtain rfl := Option.some.inj he₂
      exact absurd hsem (hnone hs₁ hh₁)
    · exact h.unique t₁ th₁ t₂ th₂ hs₁ hs₂ hh₁ hh₂ hsem

lemma Guarded.release (h : Guarded s) (ht : s.threads t = some th) (hh : th.pc.holding = true)
    {x : Option Thread} (hx : ∀ th', x = some th' → th'.pc.holding = false) :
    Guarded ((s.post th.sem).put t x) := by
  have hzero := h.held t th ht hh
  have hold : ∀ {t' th'}, ((s.post th.sem).put t x).threads t' = some th' →
      th'.pc.holding = true → s.threads t' = some th' ∧ th'.sem ≠ th.sem := by
    intro t' th' ht' hh'
    rcases update_some ht' with ⟨_, he⟩ | ⟨hne, ht'⟩
    · exact absurd ((hx th' he).symm.trans hh') nofun
    · exact ⟨ht', fun he => hne (h.unique t' th' t th ht' ht hh' hh he)⟩
  refine ⟨?_, ?_, ?_⟩
  · intro sem
    by_cases hs : sem = th.sem
    · subst hs
      simp [Host.put, Host.post, hzero]
    · simpa [Host.put, Host.post, Function.update_of_ne hs] using h.value sem
  · intro t' th' ht' hh'
    obtain ⟨ht', hne⟩ := hold ht' hh'
    simpa [Host.put, Host.post, Function.update_of_ne hne] using h.held t' th' ht' hh'
  · intro t₁ th₁ t₂ th₂ h₁ h₂ hh₁ hh₂ hsem
    exact h.unique t₁ th₁ t₂ th₂ (hold h₁ hh₁).1 (hold h₂ hh₂).1 hh₁ hh₂ hsem

lemma Guarded.semCreate (h : Guarded s) (hp : Paired s) : Guarded s.semCreate := by
  refine ⟨?_, ?_, h.unique⟩
  · intro sem
    by_cases hx : sem = s.nextSem
    · subst hx
      simp [Host.semCreate]
    · simpa [Host.semCreate, Function.update_of_ne hx] using h.value sem
  · intro t th ht hh
    have hlt := (hp.used _ _ (uses_of_thread ht (Pc.opened_of_holding hh))).2
    have hsem : th.sem ≠ s.nextSem := hlt.ne
    simpa [Host.semCreate, Function.update_of_ne hsem] using h.held t th ht hh

lemma advance_guarded (hp : Paired s) (h : Guarded s) (ht : s.threads t = some th)
    (ha : Advance s t th o u) : Guarded u := by
  cases ha with
  | passed hpass =>
    refine h.goto rfl ht rfl ?_
    rw [(passes_flags hpass).2.2.1]
    exact nofun
  | opened _ _ => exact h.goto rfl ht rfl nofun
  | created _ _ =>
    have hf : Guarded s.shmCreate := h.of rfl fun t th ht hh => ⟨th, ht, hh, rfl⟩
    exact hf.goto rfl ht rfl nofun
  | @semOpened sem _ _ =>
    refine Guarded.put (u := s.goto t { th with sem := sem } .attachWait) h rfl ht rfl ?_
    intro th' hx hh
    obtain rfl := Option.some.inj hx
    exact nomatch hh
  | semCreated _ _ =>
    have hthread : s.semCreate.threads t = some th := ht
    refine Guarded.put (u := s.semCreate.goto t { th with sem := s.nextSem } .attachWait)
      (h.semCreate hp) rfl hthread rfl ?_
    intro th' hx hh
    obtain rfl := Option.some.inj hx
    exact nomatch hh
  | acquired _ hv _ => exact h.acquire hv
  | released hrel =>
    obtain ⟨hh, hfree, _, _⟩ := releases_flags hrel
    apply h.release ht hh
    intro th' hx
    obtain rfl := Option.some.inj hx
    exact hfree
  | attached hpc => exact h.goto rfl ht rfl fun _ => by rw [hpc]; rfl
  | constructed hpc =>
    have hr : Guarded ((s.post th.sem).put t none) := h.release ht (by rw [hpc]; rfl) nofun
    exact ⟨hr.value, hr.held, hr.unique⟩
  | full hpc _ => exact h.goto rfl ht rfl fun _ => by rw [hpc]; rfl
  | scanned hpc _ => exact h.goto rfl ht rfl fun _ => by rw [hpc]; rfl
  | written hpc _ => exact h.goto rfl ht rfl fun _ => by rw [hpc]; rfl
  | rejected hpc => exact h.release ht (by rw [hpc]; rfl) nofun
  | registered _ _ => exact h.put rfl ht rfl nofun
  | read hpc => exact h.goto rfl ht rfl fun _ => by rw [hpc]; rfl
  | refreshed _ _ => exact h.put rfl ht rfl nofun
  | detached hpc _ => exact h.goto rfl ht rfl fun _ => by rw [hpc]; rfl
  | closed _ => exact h.put rfl ht rfl nofun
  | shmUnlinked _ => exact h.goto rfl ht rfl nofun
  | semUnlinked _ => exact h.put rfl ht rfl nofun

lemma Guarded.spawn (h : Guarded s) (hh : th.pc.holding = false) : Guarded (s.spawn th) := by
  refine Guarded.of (u := s.spawn th) h rfl ?_
  intro t th' ht hh'
  rcases update_some ht with ⟨_, he⟩ | ⟨_, ht⟩
  · obtain rfl := Option.some.inj he
    exact absurd (hh.symm.trans hh') nofun
  · exact ⟨th', ht, hh', rfl⟩

lemma step_guarded (hp : Paired s) (h : Guarded s) (hs : step s e = some (o, u)) : Guarded u := by
  cases step_cases hs with
  | started _ _ => exact ⟨h.value, h.held, h.unique⟩
  | exited => exact h.of rfl fun t th ht hh => ⟨th, (exited_thread ht).1, hh, rfl⟩
  | constructing _ _ => exact h.spawn rfl
  | flagged _ => exact ⟨h.value, h.held, h.unique⟩
  | called _ hpc =>
    apply h.spawn
    rcases hpc with ⟨_, _, rfl⟩ | rfl <;> rfl
  | @destroying pid m _ _ =>
    have hf : Guarded (s.spawn
        { identity := m.identity, seg := m.seg, sem := m.sem, pc := .detachWait }) := h.spawn rfl
    exact ⟨hf.value, hf.held, hf.unique⟩
  | advanced ht ha => exact advance_guarded hp h ht ha

end Guarded

section Slotted

lemma Slotted.put (h : Slotted s) {x : Option Thread}
    (hu : u.threads = Function.update s.threads t x)
    (hx : ∀ th', x = some th' → ∀ gid type slot, th'.pc = .write gid type slot →
      (u.registries th'.seg).findSlot gid = some slot)
    (hreg : ∀ t' th', t' ≠ t → s.threads t' = some th' → th'.pc.holding = true →
      u.registries th'.seg = s.registries th'.seg) : Slotted u := by
  intro t' th' gid type slot ht' hpc
  rw [hu] at ht'
  rcases update_some ht' with ⟨_, he⟩ | ⟨hne, hold⟩
  · exact hx th' he gid type slot hpc
  · rw [hreg t' th' hne hold (by rw [hpc]; rfl)]
    exact h t' th' gid type slot hold hpc

lemma Slotted.goto (h : Slotted s) (th : Thread) {pc : Pc} (hu : u.registries = s.registries)
    (ht : u.threads = Function.update s.threads t (some { th with pc := pc }))
    (hpc : ∀ gid type slot, pc = .write gid type slot →
      (s.registries th.seg).findSlot gid = some slot) : Slotted u := by
  apply h.put ht
  · intro th' hx gid type slot he
    obtain rfl := Option.some.inj hx
    rw [hu]
    exact hpc gid type slot he
  · intro t' th' _ _ _
    rw [hu]

/-- The others that hold a semaphore hold it for another segment. -/
lemma other_segment (hp : Paired s) (hg : Guarded s) (ht : s.threads t = some th)
    (hh : th.pc.holding = true) {t' : ℕ} {th' : Thread} (hne : t' ≠ t)
    (ht' : s.threads t' = some th') (hh' : th'.pc.holding = true) : th'.seg ≠ th.seg := by
  intro hseg
  have huse := uses_of_thread ht (Pc.opened_of_holding hh)
  have huse' := uses_of_thread ht' (Pc.opened_of_holding hh')
  rw [hseg] at huse'
  have hsem := hp.same _ _ _ huse' huse
  exact hne (hg.unique t' th' t th ht' ht hh' hh hsem)

lemma Slotted.modify (h : Slotted s) (hp : Paired s) (hg : Guarded s)
    (ht : s.threads t = some th) (hh : th.pc.holding = true)
    {f : EndpointRegistry → EndpointRegistry}
    {pc : Pc} (hpc : ∀ gid type slot, pc ≠ .write gid type slot) :
    Slotted ((s.modifyRegistry th.seg f).goto t th pc) := by
  refine Slotted.put (u := (s.modifyRegistry th.seg f).goto t th pc) h rfl ?_ ?_
  · intro th' hx gid type slot he
    obtain rfl := Option.some.inj hx
    exact absurd he (hpc gid type slot)
  · intro t' th' hne ht' hh'
    exact Function.update_of_ne (other_segment hp hg ht hh hne ht' hh') _ _

lemma advance_slotted (hp : Paired s) (hg : Guarded s) (h : Slotted s) (ht : s.threads t = some th)
    (ha : Advance s t th o u) : Slotted u := by
  cases ha with
  | @passed pc hpass =>
    refine h.goto th rfl rfl ?_
    rintro gid type slot rfl
    exact nomatch (passes_flags hpass).2.2.1
  | @opened seg _ _ =>
    exact h.goto { th with seg := seg } rfl rfl nofun
  | created _ _ =>
    refine Slotted.put (u := s.shmCreate.goto t { th with seg := s.nextSegment } .ftruncate)
      h rfl ?_ ?_
    · intro th' hx gid type slot he
      obtain rfl := Option.some.inj hx
      exact nomatch he
    · intro t' th' _ ht' hh'
      have hlt := (hp.used _ _ (uses_of_thread ht' (Pc.opened_of_holding hh'))).1
      exact Function.update_of_ne hlt.ne _ _
  | @semOpened sem _ _ =>
    exact h.goto { th with sem := sem } rfl rfl nofun
  | semCreated _ _ =>
    exact h.goto { th with sem := s.nextSem } rfl rfl nofun
  | @acquired pc _ hacq _ _ =>
    refine h.goto th rfl rfl ?_
    rintro gid type slot rfl
    generalize th.pc = pc₀ at hacq
    exact nomatch hacq
  | @released pc hrel =>
    refine h.goto th rfl rfl ?_
    rintro gid type slot rfl
    exact nomatch (releases_flags hrel).2.1
  | attached hpc => exact h.modify hp hg ht (by rw [hpc]; rfl) nofun
  | constructed _ => exact h.put rfl nofun fun _ _ _ _ _ => rfl
  | full _ _ => exact h.goto th rfl rfl nofun
  | @scanned gid type slot _ hfind =>
    refine h.goto th rfl rfl ?_
    intro gid' type' slot' he
    obtain ⟨rfl, rfl, rfl⟩ := Pc.write.inj he
    exact hfind
  | written hpc _ => exact h.modify hp hg ht (by rw [hpc]; rfl) nofun
  | rejected _ => exact h.put rfl nofun fun _ _ _ _ _ => rfl
  | registered _ _ => exact h.put rfl nofun fun _ _ _ _ _ => rfl
  | read _ => exact h.goto th rfl rfl nofun
  | refreshed _ _ => exact h.put rfl nofun fun _ _ _ _ _ => rfl
  | detached hpc _ => exact h.modify hp hg ht (by rw [hpc]; rfl) nofun
  | closed _ => exact h.put rfl nofun fun _ _ _ _ _ => rfl
  | shmUnlinked _ => exact h.goto th rfl rfl nofun
  | semUnlinked _ => exact h.put rfl nofun fun _ _ _ _ _ => rfl

lemma Slotted.spawn (h : Slotted s) (hpc : ∀ gid type slot, th.pc ≠ .write gid type slot) :
    Slotted (s.spawn th) := by
  refine Slotted.put (u := s.spawn th) h rfl ?_ fun _ _ _ _ _ => rfl
  intro th' hx gid type slot he
  obtain rfl := Option.some.inj hx
  exact absurd he (hpc gid type slot)

lemma step_slotted (hp : Paired s) (hg : Guarded s) (h : Slotted s)
    (hs : step s e = some (o, u)) : Slotted u := by
  cases step_cases hs with
  | started _ _ => exact h
  | exited => exact fun t th gid type slot ht hpc => h t th gid type slot (exited_thread ht).1 hpc
  | constructing _ _ => exact h.spawn nofun
  | flagged _ => exact h
  | called _ hpc =>
    apply h.spawn
    rcases hpc with ⟨_, _, rfl⟩ | rfl <;> exact nofun
  | @destroying pid m _ _ =>
    have hf : Slotted (s.spawn
        { identity := m.identity, seg := m.seg, sem := m.sem, pc := .detachWait }) := h.spawn nofun
    exact hf
  | advanced ht ha => exact advance_slotted hp hg h ht ha

end Slotted

structure Separated (s : Host) : Prop where
  peopled : Peopled s
  paired : Paired s
  guarded : Guarded s
  slotted : Slotted s

lemma not_uses_init : ¬ Uses {} seg sem := by
  rintro (⟨p, m, hm, _⟩ | ⟨t, th, ht, _⟩)
  · exact nomatch hm
  · exact nomatch ht

lemma not_openable_init : ¬ Openable {} seg := by
  rintro (hname | ⟨t, th, ht, _⟩)
  · exact nomatch hname
  · exact nomatch ht

lemma separated_init : Separated {} where
  peopled := ⟨fun _ _ => rfl, fun _ _ h => absurd h nofun, fun _ _ h => absurd h nofun⟩
  paired := by
    refine ⟨?_, ?_, fun _ h => absurd h nofun, ?_, ?_⟩
    · exact fun _ _ h => absurd h not_uses_init
    · exact fun _ h => absurd h not_openable_init
    · exact fun _ _ _ h => absurd h not_uses_init
    · exact fun _ _ h => absurd h not_uses_init
  guarded :=
    ⟨fun _ => Nat.zero_le 1, fun _ _ h => absurd h nofun, fun _ _ _ _ h => absurd h nofun⟩
  slotted := fun _ _ _ _ _ h => absurd h nofun

lemma step_separated (h : Separated s) (hk : keepsSemaphore s e = true)
    (hs : step s e = some (o, u)) : Separated u :=
  ⟨step_peopled h.peopled hs, step_paired h.peopled h.paired hk hs,
    step_guarded h.paired h.guarded hs, step_slotted h.paired h.guarded h.slotted hs⟩

lemma run_separated {tr : List (Event × Output)} (hr : Run step {} tr s)
    (hk : Every step (fun s e _ => keepsSemaphore s e = true) {} tr) : Separated s :=
  hr.induction_every (P := fun _ s => Separated s) hk separated_init
    fun _ _ _ _ _ _ h hk hs => step_separated h hk hs

/-- The write of a registration leaves the others alone. -/
lemma Separated.write_keeps (h : Separated s) (ht : s.threads t = some th) {pid : ℕ}
    {e e' : EndpointEntry}
    (hs : step s (.advance t) = some (.registered pid e, u))
    (hl : (s.registries th.seg).Lists e') (ha : e'.active = true) (hg : e'.gid ≠ e.gid) :
    (u.registries th.seg).Lists e' := by
  generalize hev : Event.advance t = ev at hs
  generalize hout : Output.registered pid e = out at hs
  cases step_cases hs with
  | @advanced t' th' _ _ ht' hadv =>
    obtain rfl := Event.advance.inj hev
    obtain rfl := Option.some.inj (ht.symm.trans ht')
    cases hadv with
    | @written gid type slot m hpc _ =>
      obtain ⟨rfl, rfl⟩ := Output.registered.inj hout
      have hfind := h.slotted t th gid type slot ht hpc
      have hkeep : ((s.registries th.seg).writeSlot slot (entryOf m gid type)).Lists e' :=
        EndpointRegistry.writeSlot_keeps hfind hl ha hg
      simpa [Host.goto, Host.put, Host.modifyRegistry] using hkeep
    | acquired _ _ ho =>
      subst hout
      rcases ho with ho | ⟨_, ho⟩ <;> cases ho
    | _ => cases hout
  | _ => cases hout

theorem segment_mutual_exclusion {tr : List (Event × Output)} (hr : Run step {} tr s)
    (hk : Every step (fun s e _ => keepsSemaphore s e = true) {} tr) :
    (∀ seg sem sem', Uses s seg sem → Uses s seg sem' → sem = sem') ∧
      (∀ t t' th th', s.threads t = some th → s.threads t' = some th' →
        th.pc.holding = true → th'.pc.holding = true → th.seg = th'.seg → t = t') ∧
      ∀ t th pid e u, s.threads t = some th →
        step s (.advance t) = some (.registered pid e, u) →
        ∀ e', (s.registries th.seg).Lists e' → e'.active = true → e'.gid ≠ e.gid →
          (u.registries th.seg).Lists e' := by
  have h := run_separated hr hk
  refine ⟨h.paired.same, ?_, ?_⟩
  · intro t t' th th' ht ht' hh hh' hseg
    by_contra hne
    exact other_segment h.paired h.guarded ht' hh' hne ht hh hseg
  · intro t th pid e u ht hs e' hl ha hg
    exact h.write_keeps ht hs hl ha hg

/-- 11 is gone when 12 makes a new segment and a new semaphore; 13 joins, and registers an endpoint
beside that of 12. -/
theorem segment_mutual_exclusion_once : ∃ tr s, Run step {} tr s ∧
    Every step (fun s e _ => keepsSemaphore s e = true) {} tr ∧
    (∃ m m', s.managers 12 = some m ∧ s.managers 13 = some m' ∧ m.seg = 1 ∧ m'.seg = 1 ∧
      m.sem = m'.sem) ∧
    ∃ e e' u, step s (.advance 5) = some (.registered 13 e', u) ∧ e.gid ≠ e'.gid ∧
      (u.registries 1).Lists e := by
  let e : EndpointEntry := ⟨makeInstanceId 12 1, 77, .publisher, 0, 1000, true, false⟩
  let e' : EndpointEntry := ⟨makeInstanceId 13 1, 78, .publisher, 0, 1000, true, false⟩
  let evs := attaching 11 0 ++ [.destroy 11] ++ List.replicate 8 (.advance 1) ++ attaching 12 2 ++
    attaching 13 3 ++ [.registerEndpoint 12 77 .publisher] ++ List.replicate 5 (.advance 4) ++
    [.registerEndpoint 13 78 .publisher, .advance 5, .advance 5]
  have hlast : (exec step {} evs).any (fun x =>
      (x.2.managers 12).any (fun m => (x.2.managers 13).any (fun m' => m.seg = 1 ∧ m'.seg = 1)) &&
      (x.2.threads 5).any (fun th => th.seg = 1) &&
      (step x.2 (.advance 5)).any (fun y => y.1 = .registered 13 e' ∧
        ∃ i < (x.2.registries 1).numEntries, (x.2.registries 1).entries i = e)) = true := by
    decide +kernel
  have hgood : EveryExec step (fun s e _ => keepsSemaphore s e = true) {} evs := by decide +kernel
  obtain ⟨⟨tr, s⟩, hx, hp⟩ := Option.any_eq_true _ _ |>.mp hlast
  rw [Bool.and_eq_true, Bool.and_eq_true] at hp
  obtain ⟨⟨hmanagers, hthread⟩, hstep⟩ := hp
  obtain ⟨m, hm, hother⟩ := Option.any_eq_true _ _ |>.mp hmanagers
  obtain ⟨m', hm', hsegs⟩ := Option.any_eq_true _ _ |>.mp hother
  obtain ⟨hseg, hseg'⟩ := of_decide_eq_true hsegs
  obtain ⟨th, hth, hthseg⟩ := Option.any_eq_true _ _ |>.mp hthread
  obtain ⟨⟨o, u⟩, hstep, hregistered⟩ := Option.any_eq_true _ _ |>.mp hstep
  obtain ⟨rfl, hlists⟩ := of_decide_eq_true hregistered
  have hr := exec_run hx
  have hk := every_of_exec hx hgood
  obtain ⟨hsame, -, hkeeps⟩ := segment_mutual_exclusion hr hk
  have hsem : m.sem = m'.sem :=
    hsame 1 _ _ (.inl ⟨12, m, hm, hseg, rfl⟩) (.inl ⟨13, m', hm', hseg', rfl⟩)
  have hthseg : th.seg = 1 := of_decide_eq_true hthseg
  have hlisted := hkeeps 5 th 13 e' u hth hstep e (hthseg ▸ hlists) rfl (by decide)
  rw [hthseg] at hlisted
  exact ⟨tr, s, hr, hk, ⟨m, m', hm, hm', hseg, hseg', hsem⟩, e, e', u, hstep, by decide, hlisted⟩

/-- The destructor of 11 is between its two calls of unlink while 12 opens a new
segment with the old semaphore. -/
theorem split_semaphores : ∃ tr s, Run step {} tr s ∧
    (∃ m m', s.managers 12 = some m ∧ s.managers 13 = some m' ∧ m.seg = m'.seg ∧
      m.sem ≠ m'.sem) ∧
    (∃ th th', s.threads 4 = some th ∧ s.threads 5 = some th' ∧ th.pc.holding = true ∧
      th'.pc.holding = true ∧ th.seg = 1 ∧ th'.seg = 1) ∧
    ∃ e e' u, step s (.advance 5) = some (.registered 13 e', u) ∧ e.gid ≠ e'.gid ∧
      e.active = true ∧ (s.registries 1).Lists e ∧ ¬ (u.registries 1).Lists e := by
  let e : EndpointEntry := ⟨makeInstanceId 12 1, 77, .publisher, 0, 1000, true, false⟩
  let e' : EndpointEntry := ⟨makeInstanceId 13 1, 78, .publisher, 0, 1000, true, false⟩
  let evs := attaching 11 0 ++ [.destroy 11] ++ List.replicate 7 (.advance 1) ++
    [.start 12, .construct 12 1 0 1000] ++ List.replicate 7 (.advance 2) ++ [.advance 1] ++
    attaching 13 3 ++ [.registerEndpoint 12 77 .publisher, .registerEndpoint 13 78 .publisher,
    .advance 4, .advance 4, .advance 5, .advance 5, .advance 4]
  have hlast : (exec step {} evs).any (fun x =>
      (x.2.managers 12).any (fun m => (x.2.managers 13).any (fun m' =>
        m.seg = m'.seg ∧ m.sem ≠ m'.sem)) &&
      (x.2.threads 4).any (fun th => (x.2.threads 5).any (fun th' =>
        th.pc.holding && th'.pc.holding && decide (th.seg = 1 ∧ th'.seg = 1))) &&
      (step x.2 (.advance 5)).any (fun y => y.1 = .registered 13 e' ∧
        (∃ i < (x.2.registries 1).numEntries, (x.2.registries 1).entries i = e) ∧
        ¬ ∃ i < (y.2.registries 1).numEntries, (y.2.registries 1).entries i = e)) = true := by
    decide +kernel
  obtain ⟨⟨tr, s⟩, hx, hp⟩ := Option.any_eq_true _ _ |>.mp hlast
  rw [Bool.and_eq_true, Bool.and_eq_true] at hp
  obtain ⟨⟨hm, ht⟩, hw⟩ := hp
  obtain ⟨m, hm, hp⟩ := Option.any_eq_true _ _ |>.mp hm
  obtain ⟨m', hm', hp⟩ := Option.any_eq_true _ _ |>.mp hp
  obtain ⟨th, ht, hq⟩ := Option.any_eq_true _ _ |>.mp ht
  obtain ⟨th', ht', hq⟩ := Option.any_eq_true _ _ |>.mp hq
  obtain ⟨⟨o, u⟩, hs, hw⟩ := Option.any_eq_true _ _ |>.mp hw
  obtain ⟨rfl, hl, hn⟩ := of_decide_eq_true hw
  obtain ⟨hseg, hsem⟩ := of_decide_eq_true hp
  simp only [Bool.and_eq_true, decide_eq_true_eq] at hq
  obtain ⟨⟨hh, hh'⟩, hone, hone'⟩ := hq
  refine ⟨tr, s, exec_run hx, ⟨m, m', hm, hm', hseg, hsem⟩,
    ⟨th, th', ht, ht', hh, hh', hone, hone'⟩, e, e', u, hs, ?_, rfl, hl, hn⟩
  decide

end RosidlBufferBackends.Registry
