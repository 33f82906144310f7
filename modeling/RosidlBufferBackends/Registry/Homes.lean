import RosidlBufferBackends.Registry.Attachment

/-! With gids that are unique to the manager that registers them, a manager takes
its own endpoints for its own, whatever happens to the registry. -/

namespace RosidlBufferBackends.Registry

open Runs Host Inventory

variable {home : ℕ → ℕ} {s u : Host} {e : Event} {o : Output} {t p gid : ℕ} {th : Thread}
  {r : EndpointRegistry} {c c' : Cache} {id : ℕ}

namespace Pc

/-- A constructor that has not returned. -/
def constructing : Pc → Bool
  | .shmOpen | .ftruncate | .mmap | .semOpen | .attachWait | .attachBody | .attachPost => true
  | _ => false

def registering : Pc → Option ℕ
  | .registerWait gid _ | .scan gid _ | .write gid _ _ | .registerPost gid _
  | .registerCache gid _ => some gid
  | _ => none

def bringing : Pc → Option Cache
  | .refreshPost updates | .refreshCache updates => some updates
  | _ => none

end Pc

def Cache.Homed (home : ℕ → ℕ) (instanceId : ℕ) (c : Cache) : Prop :=
  ∀ gid info, c gid = some info → home gid = instanceId → info.locality = .intraProcess

/-- Every active entry is that of the manager which the gid belongs to. -/
def EndpointRegistry.Homed (home : ℕ → ℕ) (r : EndpointRegistry) : Prop :=
  ∀ i, (r.entries i).active = true → (r.entries i).instanceId = home (r.entries i).gid

/-- The next step of the thread has only to do with endpoints of its manager. -/
structure Rooted (home : ℕ → ℕ) (s : Host) (th : Thread) : Prop where
  calling : ∀ m, th.pc.calling = true → s.managers th.identity.pid = some m →
    m.identity = th.identity
  registering : ∀ gid, th.pc.registering = some gid → home gid = th.identity.instanceId
  bringing : ∀ c, th.pc.bringing = some c → c.Homed home th.identity.instanceId
  constructing : th.pc.constructing = true → s.managers th.identity.pid = none

structure Homed (home : ℕ → ℕ) (s : Host) : Prop where
  fresh : ∀ t, s.nextThread ≤ t → s.threads t = none
  thread : ∀ t th, s.threads t = some th → Rooted home s th
  sole : ∀ t th t' th', s.threads t = some th → s.threads t' = some th' →
    th.pc.constructing = true → th'.identity.pid = th.identity.pid → t' = t
  manager : ∀ p m, s.managers p = some m → m.identity.pid = p ∧
    m.cache.Homed home m.identity.instanceId
  registry : ∀ seg, (s.registries seg).Homed home

/-- A step of a thread that neither returns nor reads the registry. -/
structure Pc.Follows (pc pc' : Pc) : Prop where
  calling : pc'.calling = true → pc.calling = true
  registering : ∀ gid, pc'.registering = some gid → pc.registering = some gid
  bringing : ∀ c, pc'.bringing = some c → pc.bringing = some c
  constructing : pc'.constructing = pc.constructing

lemma homed_initial : Homed home {} := by
  constructor
  · simp
  · simp
  · simp
  · simp
  · simp [EndpointRegistry.Homed]

section Caches

lemma updates_homed (h : r.Homed home) : Cache.Homed home id (r.updates id) := by
  have hfold : ∀ n, Cache.Homed home id ((List.range n).foldl
      (fun u i => if (r.entries i).active then
        Function.update u (r.entries i).gid (some ((r.entries i).cached id)) else u)
      (fun _ => none)) := by
    intro n
    induction n with
    | zero => exact nofun
    | succ n ih =>
      rw [List.range_succ, List.foldl_append]
      simp only [List.foldl_cons, List.foldl_nil]
      split
      · rename_i hactive
        intro gid info hinfo hgid
        by_cases hg : gid = (r.entries n).gid
        · subst hg
          rw [Function.update_self] at hinfo
          obtain rfl := Option.some.inj hinfo
          simp [EndpointEntry.cached, h n hactive, hgid]
        · rw [Function.update_of_ne hg] at hinfo
          exact ih gid info hinfo hgid
      · exact ih
  exact hfold r.numEntries

lemma merge_homed (h : c.Homed home id) (h' : c'.Homed home id) : (c.merge c').Homed home id := by
  intro gid info hinfo hgid
  unfold Cache.merge at hinfo
  split at hinfo
  · rename_i hc'
    obtain rfl := Option.some.inj hinfo
    exact h' gid _ hc' hgid
  · exact h gid info hinfo hgid

lemma mapEntries_homed {f : EndpointEntry → EndpointEntry} (h : r.Homed home)
    (hf : ∀ e, f e = e ∨ (f e).active = false) : (r.mapEntries f).Homed home := by
  intro i
  simp only [EndpointRegistry.mapEntries]
  split
  · rcases hf (r.entries i) with he | he
    · rw [he]
      exact h i
    · rw [he]
      intro hactive
      cases hactive
  · exact h i

lemma purge_homed {alive : ℕ → Bool} (h : r.Homed home) :
    (r.purgeDeadEntries alive).Homed home := by
  apply mapEntries_homed h
  intro e
  split
  · exact .inr rfl
  · exact .inl rfl

lemma attach_homed {alive : ℕ → Bool} (h : r.Homed home) : (r.attach alive).Homed home := by
  unfold EndpointRegistry.attach
  split_ifs
  · intro i
    simp only
    split
    · exact fun hactive => nomatch hactive
    · exact h i
  · exact purge_homed h

lemma detach_homed {alive : ℕ → Bool} (h : r.Homed home) : (r.detach alive id).Homed home := by
  apply purge_homed
  apply mapEntries_homed h
  intro e
  split
  · exact .inr rfl
  · exact .inl rfl

lemma writeSlot_homed {entry : EndpointEntry} (slot : ℕ × Bool) (h : r.Homed home)
    (he : entry.instanceId = home entry.gid) : (r.writeSlot slot entry).Homed home := by
  intro i
  by_cases hi : i = slot.1
  · subst hi
    simpa [EndpointRegistry.writeSlot] using fun _ => he
  · simpa [EndpointRegistry.writeSlot, Function.update_of_ne hi] using h i

end Caches

section Threads

lemma Rooted.follows (h : Rooted home s th) {pc : Pc} (hf : th.pc.Follows pc) {seg sem : ℕ} :
    Rooted home s { th with
      seg := seg
      sem := sem
      pc := pc } :=
  ⟨fun m hc => h.calling m (hf.calling hc), fun gid hg => h.registering gid (hf.registering gid hg),
    fun c hc => h.bringing c (hf.bringing c hc), fun hc => h.constructing (hf.constructing ▸ hc)⟩

lemma Homed.put (h : Homed home s) (ht : s.threads t = some th) {x : Option Thread}
    (hx : ∀ th', x = some th' → Rooted home s th' ∧ th'.identity = th.identity ∧
      th'.pc.constructing = th.pc.constructing) : Homed home (s.put t x) := by
  have hold : ∀ {t' th'}, (s.put t x).threads t' = some th' → Rooted home s th' ∧
      ∃ th, s.threads t' = some th ∧ th'.identity = th.identity ∧
        th'.pc.constructing = th.pc.constructing := by
    intro t' th' ht'
    rcases update_some ht' with ⟨rfl, he⟩ | ⟨_, ht'⟩
    · exact ⟨(hx th' he).1, th, ht, (hx th' he).2⟩
    · exact ⟨h.thread t' th' ht', th', ht', rfl, rfl⟩
  refine ⟨?_, ?_, ?_, h.manager, h.registry⟩
  · intro t' hle
    have hne : t' ≠ t := by
      rintro rfl
      exact nomatch (h.fresh t' hle).symm.trans ht
    rw [put_threads, Function.update_of_ne hne]
    exact h.fresh t' hle
  · intro t' th' ht'
    obtain ⟨hr, -⟩ := hold ht'
    exact ⟨hr.calling, hr.registering, hr.bringing, hr.constructing⟩
  · intro t₁ th₁ t₂ th₂ h₁ h₂ hc hp
    obtain ⟨-, th, hth, hid, hcon⟩ := hold h₁
    obtain ⟨-, th', hth', hid', -⟩ := hold h₂
    exact h.sole t₁ th t₂ th' hth hth' (hcon ▸ hc) (by rw [← hid, ← hid', hp])

lemma Homed.finish (h : Homed home s) (ht : s.threads t = some th) : Homed home (s.put t none) :=
  h.put ht nofun

lemma Homed.follow (h : Homed home s) (ht : s.threads t = some th) {pc : Pc}
    (hf : th.pc.Follows pc) {seg sem : ℕ} :
    Homed home (s.put t (some { th with
      seg := seg
      sem := sem
      pc := pc })) := by
  apply h.put ht
  intro th' hx
  obtain rfl := Option.some.inj hx
  exact ⟨(h.thread t th ht).follows hf, rfl, hf.constructing⟩

lemma Homed.goto (h : Homed home s) (ht : s.threads t = some th) {pc : Pc}
    (hf : th.pc.Follows pc) : Homed home (s.goto t th pc) := h.follow ht hf

lemma Homed.frame (h : Homed home s) {semValue : ℕ → ℕ} {shmName semName : Option ℕ}
    {nextSegment nextSem : ℕ} {alive : List ℕ} {registries : ℕ → EndpointRegistry}
    (hr : ∀ seg, (registries seg).Homed home) :
    Homed home { s with
      registries := registries
      nextSegment := nextSegment
      shmName := shmName
      semValue := semValue
      nextSem := nextSem
      semName := semName
      alive := alive } := by
  refine ⟨h.fresh, ?_, h.sole, h.manager, hr⟩
  intro t th ht
  have hroot := h.thread t th ht
  exact ⟨hroot.calling, hroot.registering, hroot.bringing, hroot.constructing⟩

lemma Homed.wait (h : Homed home s) (sem : ℕ) : Homed home (s.wait sem) := h.frame h.registry

lemma Homed.post (h : Homed home s) (sem : ℕ) : Homed home (s.post sem) := h.frame h.registry

lemma Homed.modifyRegistry (h : Homed home s) (seg : ℕ) {f : EndpointRegistry → EndpointRegistry}
    (hf : (f (s.registries seg)).Homed home) : Homed home (s.modifyRegistry seg f) := by
  refine h.frame fun seg' => ?_
  by_cases hseg : seg' = seg
  · subst hseg
    rwa [Function.update_self]
  · rw [Function.update_of_ne hseg]
    exact h.registry seg'

lemma Homed.shmCreate (h : Homed home s) : Homed home s.shmCreate := by
  refine h.frame fun seg => ?_
  by_cases hseg : seg = s.nextSegment
  · subst hseg
    rw [Function.update_self]
    exact fun _ hactive => nomatch hactive
  · rw [Function.update_of_ne hseg]
    exact h.registry seg

lemma Homed.spawn (h : Homed home s) (hr : Rooted home s th)
    (hc : th.pc.constructing = true →
      ∀ t th', s.threads t = some th' → th'.identity.pid ≠ th.identity.pid)
    (hn : ∀ t th', s.threads t = some th' → th'.identity.pid = th.identity.pid →
      th'.pc.constructing = false) : Homed home (s.spawn th) := by
  refine ⟨?_, ?_, ?_, h.manager, h.registry⟩
  · intro t hle
    have hlt : s.nextThread < t := hle
    simp only [Host.spawn, put_threads, Function.update_of_ne hlt.ne']
    exact h.fresh t hlt.le
  · intro t th' ht
    have hroot : Rooted home s th' := by
      rcases update_some ht with ⟨_, he⟩ | ⟨_, ht⟩
      · obtain rfl := Option.some.inj he
        exact hr
      · exact h.thread t th' ht
    exact ⟨hroot.calling, hroot.registering, hroot.bringing, hroot.constructing⟩
  · intro t₁ th₁ t₂ th₂ h₁ h₂ hcon hp
    rcases update_some h₁ with ⟨rfl, he₁⟩ | ⟨_, h₁⟩ <;>
      rcases update_some h₂ with ⟨rfl, he₂⟩ | ⟨_, h₂⟩
    · rfl
    · obtain rfl := Option.some.inj he₁
      exact absurd hp (hc hcon t₂ th₂ h₂)
    · obtain rfl := Option.some.inj he₂
      rw [hn t₁ th₁ h₁ hp.symm] at hcon
      cases hcon
    · exact h.sole t₁ th₁ t₂ th₂ h₁ h₂ hcon hp

end Threads

section Steps

lemma Pc.Follows.plain {pc pc' : Pc} (hc : pc'.calling = false ∨ pc.calling = true)
    (hg : pc'.registering = none) (hb : pc'.bringing = none)
    (hk : pc'.constructing = pc.constructing) : pc.Follows pc' := by
  refine ⟨?_, ?_, ?_, hk⟩
  · intro hcall
    exact hc.resolve_left fun hno => nomatch hno.symm.trans hcall
  · intro gid h
    exact nomatch hg.symm.trans h
  · intro c h
    exact nomatch hb.symm.trans h

lemma passes_follows {pc pc' : Pc} (h : Passes pc pc') : pc.Follows pc' := by
  cases h <;> exact .plain (.inl rfl) rfl rfl rfl

lemma acquires_follows {pc pc' : Pc} (h : Acquires pc pc') : pc.Follows pc' := by
  cases h with
  | attach => exact .plain (.inl rfl) rfl rfl rfl
  | register gid type => exact ⟨fun _ => rfl, fun _ hg => hg, nofun, rfl⟩
  | refresh => exact .plain (.inr rfl) rfl rfl rfl
  | detach => exact .plain (.inl rfl) rfl rfl rfl

lemma releases_follows {pc pc' : Pc} (h : Releases pc pc') : pc.Follows pc' := by
  cases h with
  | register gid type => exact ⟨fun _ => rfl, fun _ hg => hg, nofun, rfl⟩
  | refresh updates => exact ⟨fun _ => rfl, nofun, fun _ hc => hc, rfl⟩
  | detach unlink => exact .plain (.inl rfl) rfl rfl rfl

/-- The manager keeps its identity, and what it adds to its cache is homed. -/
lemma Homed.changeManager (h : Homed home s) {m m' : HostEndpointManager}
    (hm : s.managers p = some m) (hid : m'.identity = m.identity)
    (hc : m'.cache.Homed home m.identity.instanceId) :
    Homed home (s.modifyManager p (some m')) := by
  have hmanagers : ∀ {p' m₀}, (s.modifyManager p (some m')).managers p' = some m₀ →
      (p' = p ∧ m₀ = m') ∨ s.managers p' = some m₀ := by
    intro p' m₀ h₀
    by_cases hp : p' = p
    · subst hp
      exact .inl ⟨rfl, by simpa [Host.modifyManager, eq_comm] using h₀⟩
    · exact .inr (by simpa [Host.modifyManager, Function.update_of_ne hp] using h₀)
  refine ⟨h.fresh, ?_, h.sole, ?_, h.registry⟩
  · intro t th ht
    have hroot := h.thread t th ht
    refine ⟨?_, hroot.registering, hroot.bringing, ?_⟩
    · intro m₀ hcall h₀
      rcases hmanagers h₀ with ⟨hp, rfl⟩ | h₀
      · rw [hid]
        exact hroot.calling m hcall (hp ▸ hm)
      · exact hroot.calling m₀ hcall h₀
    · intro hcon
      have hnone := hroot.constructing hcon
      have hp : th.identity.pid ≠ p := by
        rintro rfl
        cases hnone.symm.trans hm
      simpa [Host.modifyManager, Function.update_of_ne hp] using hnone
  · intro p' m₀ h₀
    rcases hmanagers h₀ with ⟨rfl, rfl⟩ | h₀
    · rw [hid]
      exact ⟨(h.manager p' m hm).1, hc⟩
    · exact h.manager p' m₀ h₀

lemma Homed.attach (h : Homed home s) (ht : s.threads t = some th)
    (hcon : th.pc.constructing = true) {seg sem : ℕ} :
    Homed home ((s.put t none).modifyManager th.identity.pid
      (some { identity := th.identity, seg := seg, sem := sem })) := by
  have hp := h.finish ht
  have hother : ∀ {t' th'}, (s.put t none).threads t' = some th' →
      th'.identity.pid ≠ th.identity.pid := by
    intro t' th' ht' he
    rcases update_some ht' with ⟨_, hx⟩ | ⟨hne, ht'⟩
    · exact nomatch hx
    · exact hne (h.sole t th t' th' ht ht' hcon he)
  refine ⟨hp.fresh, ?_, hp.sole, ?_, hp.registry⟩
  · intro t' th' ht'
    have hroot := hp.thread t' th' ht'
    have hmanager : (Function.update s.managers th.identity.pid
        (some { identity := th.identity, seg := seg, sem := sem })) th'.identity.pid =
          s.managers th'.identity.pid := Function.update_of_ne (hother ht') _ _
    exact ⟨fun m hc hm => hroot.calling m hc (hmanager.symm.trans hm), hroot.registering,
      hroot.bringing, fun hc => hmanager.trans (hroot.constructing hc)⟩
  · intro p' m hm
    by_cases hx : p' = th.identity.pid
    · subst hx
      have hm' := (Function.update_self th.identity.pid _ s.managers).symm.trans hm
      obtain rfl := Option.some.inj hm'
      exact ⟨rfl, nofun⟩
    · exact h.manager p' m ((Function.update_of_ne hx _ s.managers).symm.trans hm)

lemma advance_homed (h : Homed home s) (ht : s.threads t = some th) (ha : Advance s t th o u) :
    Homed home u := by
  have hroot := h.thread t th ht
  cases ha with
  | passed hp => exact h.goto ht (passes_follows hp)
  | opened hpc _ => exact h.follow ht (.plain (.inl rfl) rfl rfl (by rw [hpc]; rfl))
  | created hpc _ => exact h.shmCreate.follow ht (.plain (.inl rfl) rfl rfl (by rw [hpc]; rfl))
  | semOpened hpc _ => exact h.follow ht (.plain (.inl rfl) rfl rfl (by rw [hpc]; rfl))
  | semCreated hpc _ =>
    have hc : Homed home s.semCreate := h.frame h.registry
    exact hc.follow ht (.plain (.inl rfl) rfl rfl (by rw [hpc]; rfl))
  | acquired hp _ _ => exact (h.wait th.sem).goto ht (acquires_follows hp)
  | released hp => exact (h.post th.sem).goto ht (releases_follows hp)
  | attached hpc =>
    have hm := h.modifyRegistry th.seg (f := fun r => r.attach s.isAlive)
      (attach_homed (h.registry th.seg))
    exact hm.goto ht (.plain (.inl rfl) rfl rfl (by rw [hpc]; rfl))
  | constructed hpc => exact (h.post th.sem).attach ht (by rw [hpc]; rfl)
  | full hpc _ => exact h.goto ht (.plain (.inr (by rw [hpc]; rfl)) rfl rfl (by rw [hpc]; rfl))
  | scanned hpc _ =>
    refine h.goto ht ⟨?_, ?_, nofun, ?_⟩
    · rw [hpc]
      exact fun _ => rfl
    · rw [hpc]
      exact fun _ hg => hg
    · rw [hpc]
      rfl
  | @written gid type slot m hpc hm =>
    have hid := hroot.calling m (by rw [hpc]; rfl) hm
    have hgid := hroot.registering gid (by rw [hpc]; rfl)
    have hmod := h.modifyRegistry th.seg (f := fun r => r.writeSlot slot (entryOf m gid type))
      (writeSlot_homed slot (h.registry th.seg) (by rw [entryOf, hid, hgid]))
    refine hmod.goto ht ⟨?_, ?_, nofun, ?_⟩
    · rw [hpc]
      exact fun _ => rfl
    · rw [hpc]
      exact fun _ hg => hg
    · rw [hpc]
      rfl
  | rejected _ => exact (h.post th.sem).finish ht
  | @registered gid type m hpc hm =>
    have hcache := (h.manager _ m hm).2
    refine (h.finish ht).changeManager hm ?_ ?_
    · rfl
    · intro gid' info hinfo hgid
      by_cases hg : gid' = gid
      · subst hg
        obtain rfl := Option.some.inj ((Function.update_self gid' _ m.cache).symm.trans hinfo)
        rfl
      · exact hcache gid' info ((Function.update_of_ne hg _ m.cache).symm.trans hinfo) hgid
  | read hpc =>
    refine h.put ht ?_
    intro th' hx
    obtain rfl := Option.some.inj hx
    refine ⟨⟨fun m _ => hroot.calling m (by rw [hpc]; rfl), nofun, ?_, nofun⟩, rfl, ?_⟩
    · intro c hc
      obtain rfl := Option.some.inj hc
      exact updates_homed (h.registry th.seg)
    · rw [hpc]
      rfl
  | @refreshed updates m hpc hm =>
    have hid := hroot.calling m (by rw [hpc]; rfl) hm
    have hbrought := hroot.bringing updates (by rw [hpc]; rfl)
    refine (h.finish ht).changeManager hm ?_ ?_
    · rfl
    · exact merge_homed (h.manager _ m hm).2 (hid ▸ hbrought)
  | detached hpc hr =>
    have hm := h.modifyRegistry th.seg (f := fun _ => _) (hr ▸ detach_homed (h.registry th.seg))
    exact hm.goto ht (.plain (.inl rfl) rfl rfl (by rw [hpc]; rfl))
  | closed _ => exact h.finish ht
  | shmUnlinked hpc =>
    have hf : Homed home { s with shmName := none } := h.frame h.registry
    exact hf.goto ht (.plain (.inl rfl) rfl rfl (by rw [hpc]; rfl))
  | semUnlinked _ =>
    have hf : Homed home { s with semName := none } := h.frame h.registry
    exact hf.finish ht

/-- A gid is registered by the manager that it belongs to. -/
def RegistersOwn (home : ℕ → ℕ) (s : Host) : Event → Prop
  | .registerEndpoint pid gid _ =>
      ∀ m, s.managers pid = some m → home gid = m.identity.instanceId
  | _ => True

lemma Homed.idle (h : Homed home s) (hi : s.idle p = true) (ht : s.threads t = some th) :
    th.identity.pid ≠ p := by
  intro he
  have hany := anyThread_of_mem (p := fun th => decide (th.identity.pid = p)) h.fresh ht
    (decide_eq_true he)
  simp [Host.idle, hany] at hi

lemma Homed.remove (h : Homed home s) (p : ℕ)
    {threads : ℕ → Option Thread} (ht : ∀ t th, threads t = some th → s.threads t = some th)
    {alive : List ℕ} : Homed home { s with
      alive := alive
      managers := Function.update s.managers p none
      threads := threads } := by
  refine ⟨?_, ?_, ?_, ?_, h.registry⟩
  · intro t hle
    have hnone := h.fresh t hle
    refine Option.eq_none_iff_forall_ne_some.mpr fun th hx => ?_
    exact nomatch hnone.symm.trans (ht t th hx)
  · intro t th hx
    have hroot := h.thread t th (ht t th hx)
    refine ⟨?_, hroot.registering, hroot.bringing, ?_⟩
    · intro m hc hm
      exact hroot.calling m hc (removed_manager hm).2
    · intro hc
      by_cases hp : th.identity.pid = p
      · simp [hp]
      · exact (Function.update_of_ne hp _ _).trans (hroot.constructing hc)
  · intro t₁ th₁ t₂ th₂ h₁ h₂
    exact h.sole t₁ th₁ t₂ th₂ (ht t₁ th₁ h₁) (ht t₂ th₂ h₂)
  · intro p' m hm
    exact h.manager p' m (removed_manager hm).2

lemma Homed.called (h : Homed home s) {m : HostEndpointManager} (hm : s.managers p = some m)
    {c : Pc} (hg : ∀ gid, c.registering = some gid → home gid = m.identity.instanceId)
    (hb : c.bringing = none) (hc : c.constructing = false) :
    Homed home (s.spawn { identity := m.identity, seg := m.seg, sem := m.sem, pc := c }) := by
  have hpid := (h.manager p m hm).1
  refine h.spawn ⟨?_, hg, ?_, ?_⟩ ?_ ?_
  · intro m' _ hm'
    rw [hpid, hm] at hm'
    rw [Option.some.inj hm']
  · intro c' hc'
    exact nomatch hb.symm.trans hc'
  · intro hcon
    exact nomatch hc.symm.trans hcon
  · intro hcon
    exact nomatch hc.symm.trans hcon
  · intro t th ht he
    by_contra hcon
    have hnone := (h.thread t th ht).constructing (Bool.not_eq_false _ ▸ hcon)
    rw [he, hpid, hm] at hnone
    exact nomatch hnone

lemma step_homed (h : Homed home s) (hg : RegistersOwn home s e) (hs : step s e = some (o, u)) :
    Homed home u := by
  cases e with
  | start pid =>
    simp only [step] at hs
    split_ifs at hs
    obtain ⟨-, rfl⟩ := Prod.mk.inj (Option.some.inj hs)
    exact h.frame h.registry
  | exit pid =>
    simp only [step] at hs
    split_ifs at hs
    obtain ⟨-, rfl⟩ := Prod.mk.inj (Option.some.inj hs)
    exact h.remove pid fun t th ht => (exited_thread ht).1
  | construct pid k deviceId uid =>
    simp only [step] at hs
    split_ifs at hs with hgate
    obtain ⟨-, rfl⟩ := Prod.mk.inj (Option.some.inj hs)
    have hidle : ∀ {t th}, s.threads t = some th → th.identity.pid ≠ pid := h.idle hgate.2.2
    refine h.spawn ⟨(fun _ h => by cases h), (fun _ h => by cases h), (fun _ h => by cases h),
      ?_⟩ ?_ ?_
    · exact fun _ => Option.isNone_iff_eq_none.mp hgate.2.1
    · exact fun _ t th ht => hidle ht
    · exact fun t th ht hp => absurd hp (hidle ht)
  | setIpcCapable pid capable =>
    simp only [step] at hs
    split at hs
    · cases hs
    · rename_i m hm
      obtain ⟨-, rfl⟩ := Prod.mk.inj (Option.some.inj hs)
      refine h.changeManager hm ?_ ?_
      · rfl
      · exact (h.manager pid m hm).2
  | registerEndpoint pid gid type =>
    obtain ⟨m, hm, he⟩ := call_case hs
    obtain ⟨-, rfl⟩ := Prod.mk.inj he
    refine h.called hm ?_ rfl rfl
    rintro gid' ⟨rfl⟩
    exact hg m hm
  | refreshFromRemote pid =>
    obtain ⟨m, hm, he⟩ := call_case hs
    obtain ⟨-, rfl⟩ := Prod.mk.inj he
    exact h.called hm (fun _ h => by cases h) rfl rfl
  | destroy pid =>
    simp only [step] at hs
    split_ifs at hs
    obtain ⟨x, hx, he⟩ := Option.map_eq_some_iff.mp hs
    obtain ⟨m, hm, rfl⟩ := call_case hx
    obtain ⟨-, rfl⟩ := Prod.mk.inj he
    have hspawned := h.called hm (c := .detachWait) (fun _ h => by cases h) rfl rfl
    exact hspawned.remove pid fun _ _ ht => ht
  | advance t =>
    simp only [step] at hs
    split at hs
    · cases hs
    · exact advance_homed h ‹_› (advance_cases hs)

/-- A manager keeps its identity and what is in its cache. -/
structure Outlives (m m' : HostEndpointManager) : Prop where
  identity : m'.identity = m.identity
  cache : ∀ gid, (m.cache gid).isSome → (m'.cache gid).isSome

lemma Outlives.refl (m : HostEndpointManager) : Outlives m m := ⟨rfl, fun _ h => h⟩

/-- A constructor of the process is about to return. -/
def Attaching (s : Host) (p : ℕ) : Prop :=
  ∃ t th, s.threads t = some th ∧ th.pc.constructing = true ∧ th.identity.pid = p

lemma Attaching.manager (h : Homed home s) (ha : Attaching s p) : s.managers p = none := by
  obtain ⟨t, th, ht, hc, rfl⟩ := ha
  exact (h.thread t th ht).constructing hc

lemma step_attaching (hs : step s e = some (o, u)) (ha : Attaching u p) :
    Attaching s p ∨ ∃ k deviceId uid, e = .construct p k deviceId uid := by
  obtain ⟨t', th', ht', hc', rfl⟩ := ha
  have hput : ∀ {t th}, s.threads t = some th → ∀ {x : Option Thread},
      (∀ th₁, x = some th₁ → th₁.identity = th.identity ∧
        (th₁.pc.constructing = true → th.pc.constructing = true)) →
      Function.update s.threads t x t' = some th' → Attaching s th'.identity.pid := by
    intro t th ht x hx hu
    rcases update_some hu with ⟨rfl, he⟩ | ⟨_, hold⟩
    · obtain ⟨hid, hcon⟩ := hx th' he
      exact ⟨t', th, ht, hcon hc', by rw [hid]⟩
    · exact ⟨t', th', hold, hc', rfl⟩
  have hspawn : ∀ {th}, (s.spawn th).threads t' = some th' → th.pc.constructing = false →
      Attaching s th'.identity.pid := by
    intro th hu hno
    rcases update_some hu with ⟨_, he⟩ | ⟨_, hold⟩
    · obtain rfl := Option.some.inj he
      exact nomatch hno.symm.trans hc'
    · exact ⟨t', th', hold, hc', rfl⟩
  cases step_cases hs with
  | started _ _ => exact .inl ⟨t', th', ht', hc', rfl⟩
  | exited => exact .inl ⟨t', th', (exited_thread ht').1, hc', rfl⟩
  | @constructing pid k uid deviceId _ _ =>
    rcases update_some ht' with ⟨_, he⟩ | ⟨_, hold⟩
    · obtain rfl := Option.some.inj he
      exact .inr ⟨k, deviceId, uid, rfl⟩
    · exact .inl ⟨t', th', hold, hc', rfl⟩
  | flagged _ => exact .inl ⟨t', th', ht', hc', rfl⟩
  | called _ hpc =>
    refine .inl (hspawn ht' ?_)
    rcases hpc with ⟨_, _, rfl⟩ | rfl <;> rfl
  | destroying _ _ => exact .inl (hspawn ht' rfl)
  | @advanced t th _ _ ht ha =>
    left
    have hend : Function.update s.threads t none t' = some th' → Attaching s th'.identity.pid :=
      hput ht (x := none) fun _ hx => nomatch hx
    have hgo : ∀ {pc seg sem}, pc.constructing = th.pc.constructing →
        Function.update s.threads t (some { th with
          seg := seg
          sem := sem
          pc := pc }) t' = some th' → Attaching s th'.identity.pid := by
      intro pc seg sem hpc
      apply hput ht
      intro th₁ hx
      obtain rfl := Option.some.inj hx
      exact ⟨rfl, fun hc => hpc ▸ hc⟩
    cases ha with
    | passed hp => exact hgo (passes_follows hp).constructing ht'
    | acquired hp _ _ => exact hgo (acquires_follows hp).constructing ht'
    | released hp => exact hgo (releases_follows hp).constructing ht'
    | constructed _ => exact hend ht'
    | rejected _ => exact hend ht'
    | registered _ _ => exact hend ht'
    | refreshed _ _ => exact hend ht'
    | closed _ => exact hend ht'
    | semUnlinked _ => exact hend ht'
    | opened hpc _ | created hpc _ | semOpened hpc _ | semCreated hpc _ | attached hpc
    | full hpc _ | scanned hpc _ | written hpc _ | read hpc | detached hpc _ | shmUnlinked hpc =>
      exact hgo (by rw [hpc]; rfl) ht'

lemma step_manager (hs : step s e = some (o, u)) {m' : HostEndpointManager}
    (hm' : u.managers p = some m') :
    Attaching s p ∨ ∃ m, s.managers p = some m ∧ Outlives m m' := by
  have hsame : ∀ {x : Option HostEndpointManager}, x = some m' → s.managers p = x →
      Attaching s p ∨ ∃ m, s.managers p = some m ∧ Outlives m m' :=
    fun hx hp => .inr ⟨m', hp.trans hx, .refl m'⟩
  have hchange : ∀ {pid m m₁}, s.managers pid = some m → Outlives m m₁ →
      (s.modifyManager pid (some m₁)).managers p = some m' →
      ∃ m, s.managers p = some m ∧ Outlives m m' := by
    intro pid m m₁ hm hout hx
    by_cases hp : p = pid
    · subst hp
      obtain rfl := Option.some.inj ((Function.update_self p _ s.managers).symm.trans hx)
      exact ⟨m, hm, hout⟩
    · exact ⟨m', (Function.update_of_ne hp _ s.managers).symm.trans hx, .refl m'⟩
  cases step_cases hs with
  | started _ _ => exact hsame hm' rfl
  | exited => exact hsame (removed_manager hm').2 rfl
  | constructing _ _ => exact hsame hm' rfl
  | flagged hm =>
    refine .inr (hchange hm ?_ hm')
    exact ⟨rfl, fun _ h => h⟩
  | called _ _ => exact hsame hm' rfl
  | destroying _ _ => exact hsame (removed_manager hm').2 rfl
  | @advanced t th _ _ ht ha =>
    cases ha with
    | constructed hpc =>
      by_cases hp : p = th.identity.pid
      · exact .inl ⟨t, th, ht, by rw [hpc]; rfl, hp.symm⟩
      · exact hsame ((Function.update_of_ne hp _ s.managers).symm.trans hm') rfl
    | @registered gid _ m _ hm =>
      refine .inr (hchange hm ?_ hm')
      refine ⟨rfl, fun gid' h => ?_⟩
      by_cases hg : gid' = gid
      · subst hg
        simp
      · simpa [Function.update_of_ne hg] using h
    | refreshed _ hm =>
      refine .inr (hchange hm ?_ hm')
      exact ⟨rfl, fun _ h => Cache.merge_isSome h⟩
    | _ => exact hsame hm' rfl

end Steps

end RosidlBufferBackends.Registry
