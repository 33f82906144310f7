import RosidlBufferBackends.Registry.Exclusion

/-! A registration reaches every process that refreshes after it, as long as no
name is unlinked while it is in use. -/

namespace RosidlBufferBackends.Registry

open Runs Host EndpointRegistry Inventory

variable {s u : Host} {ev : Event} {o : Output} {t : ℕ} {th : Thread} {p q : ℕ} {e : EndpointEntry}

def Registers (o : Output) (gid : ℕ) : Prop := ∃ pid e, o = .registered pid e ∧ e.gid = gid

/-- The process leaves the registry, with or without its destructor. -/
def Leaves (ev : Event) (pid : ℕ) : Prop := ev = .destroy pid ∨ ev = .exit pid

/-- The registry of the live manager of `p` lists the entry. -/
structure Visible (s : Host) (p : ℕ) (e : EndpointEntry) : Prop where
  active : e.active = true
  listed : ∃ m, s.managers p = some m ∧ m.identity.instanceId = e.instanceId ∧
    (s.registries m.seg).Lists e

/-- The threads whose next steps change a cache. -/
def Pc.carrying : Pc → Bool
  | .registerPost _ _ | .registerCache _ _ | .refreshPost _ | .refreshCache _ => true
  | _ => false

/-- What the thread brings into its process's cache agrees with the entry. -/
structure Agrees (e : EndpointEntry) (th : Thread) : Prop where
  snapshot : ∀ updates, th.pc = .refreshPost updates ∨ th.pc = .refreshCache updates →
    updates e.gid = some (e.cached th.identity.instanceId)
  register : ∀ gid type, th.pc = .registerPost gid type ∨ th.pc = .registerCache gid type →
    gid ≠ e.gid

def Fresh (s : Host) (q : ℕ) (e : EndpointEntry) : Prop :=
  ∀ t th, s.threads t = some th → th.identity.pid = q → Agrees e th

def Answers (s : Host) (q : ℕ) (e : EndpointEntry) : Prop :=
  ∃ m, s.managers q = some m ∧ m.cache e.gid = some (e.cached m.identity.instanceId)

def RunBy (s : Host) (t q : ℕ) : Prop :=
  t < s.nextThread ∧ ∀ th, s.threads t = some th → th.identity.pid = q

lemma Consistent.pidOf_manager (h : Consistent s) {m : HostEndpointManager}
    (hm : s.managers p = some m) : pidOf m.identity.instanceId = p := by
  obtain ⟨hpid, hlt, k, hk, hid⟩ := h.identified.manager p m hm
  rw [hid, pidOf_makeInstanceId hlt hk, hpid]

lemma Consistent.pidOf_thread (h : Consistent s) (ht : s.threads t = some th) :
    pidOf th.identity.instanceId = th.identity.pid := by
  obtain ⟨_, hlt, k, hk, hid⟩ := h.identified.thread t th ht
  rw [hid, pidOf_makeInstanceId hlt hk]

lemma Visible.notDead (hc : Consistent s) (h : Visible s p e) : isDead s.isAlive e = false := by
  obtain ⟨m, hm, hid, _⟩ := h.listed
  have halive := hc.named.alive p m hm
  have hpid := hc.pidOf_manager hm
  rw [hid] at hpid
  simp [isDead, hpid, isAlive, halive]

section Visible

lemma Visible.congr (h : Visible s p e) (hr : u.registries = s.registries)
    (hm : ∀ m, s.managers p = some m → ∃ m', u.managers p = some m' ∧
      m'.identity = m.identity ∧ m'.seg = m.seg) : Visible u p e := by
  obtain ⟨m, hman, hid, hl⟩ := h.listed
  obtain ⟨m', hm', hid', hseg⟩ := hm m hman
  exact ⟨h.active, m', hm', by rw [hid', hid], by rwa [hr, hseg]⟩

lemma Visible.keep (h : Visible s p e) (hr : u.registries = s.registries)
    (hm : u.managers = s.managers) : Visible u p e :=
  h.congr hr fun m hman => ⟨m, hm ▸ hman, rfl, rfl⟩

lemma Visible.changeManager (h : Visible s p e) {pid : ℕ} {m m' : HostEndpointManager}
    (hm : s.managers pid = some m) (hid : m'.identity = m.identity) (hseg : m'.seg = m.seg) :
    Visible (s.modifyManager pid (some m')) p e := by
  refine h.congr rfl ?_
  intro m₀ hm₀
  by_cases hp : p = pid
  · subst hp
    obtain rfl := Option.some.inj (hm₀.symm.trans hm)
    exact ⟨m', by simp [modifyManager], hid, hseg⟩
  · exact ⟨m₀, by simpa [modifyManager, Function.update_of_ne hp] using hm₀, rfl, rfl⟩

lemma Visible.otherManager (h : Visible s p e) {pid : ℕ} (hp : p ≠ pid)
    (x : Option HostEndpointManager) : Visible (s.modifyManager pid x) p e := by
  refine h.congr rfl ?_
  intro m hm
  exact ⟨m, by simpa [modifyManager, Function.update_of_ne hp] using hm, rfl, rfl⟩

/-- All threads with the segment open write to the registry of the manager. -/
lemma Visible.rewrite (hc : Consistent s) (h : Visible s p e) (ht : s.threads t = some th)
    (hmap : th.pc.mapped = true) {f : EndpointRegistry → EndpointRegistry}
    (hf : (s.registries th.seg).version ≠ 0 → (s.registries th.seg).Lists e →
      (f (s.registries th.seg)).Lists e) (x : Option Thread) :
    Visible ((s.modifyRegistry th.seg f).put t x) p e := by
  obtain ⟨m, hm, hid, hl⟩ := h.listed
  have hseg : m.seg = th.seg := by
    have hm' := (hc.named.manager p m hm).1
    have ht' := hc.named.mapped t th ht hmap
    exact Option.some.inj (hm'.symm.trans ht')
  have hv := hc.recorded.initialised p m hm
  rw [hseg] at hv hl
  refine ⟨h.active, m, hm, hid, ?_⟩
  simpa [put, modifyRegistry, hseg] using hf hv hl

lemma advance_visible (hc : Consistent s) (h : Visible s p e) (ht : s.threads t = some th)
    (hq : undisturbed s (.advance t) = true) (ho : ¬ Registers o e.gid) (ha : Advance s t th o u) :
    Visible u p e := by
  have hdead := h.notDead hc
  obtain ⟨m, hm, hid, hl⟩ := h.listed
  have hseg := (hc.named.manager p m hm).1
  cases ha with
  | passed _ => exact h.keep rfl rfl
  | opened _ _ => exact h.keep rfl rfl
  | created _ hnone => exact absurd (hnone.symm.trans hseg) nofun
  | semOpened _ _ => exact h.keep rfl rfl
  | semCreated _ _ => exact h.keep rfl rfl
  | acquired _ _ _ => exact h.keep rfl rfl
  | released _ => exact h.keep rfl rfl
  | attached hpc =>
    apply h.rewrite hc ht (by rw [hpc]; rfl)
    exact fun hv hl => attach_lists hv hl hdead
  | constructed hpc =>
    have hother : p ≠ th.identity.pid := by
      rintro rfl
      have hnone := hc.identified.pending t th ht (by rw [hpc]; rfl)
      exact absurd (hnone.symm.trans hm) nofun
    have hk : Visible ((s.post th.sem).put t none) p e := h.keep rfl rfl
    exact hk.otherManager hother _
  | full _ _ => exact h.keep rfl rfl
  | scanned _ _ => exact h.keep rfl rfl
  | @written gid type slot m' hpc hm' =>
    have hslot := hc.recorded.slot t th gid type slot ht hpc
    apply h.rewrite hc ht (by rw [hpc]; rfl)
    intro _ hl
    apply writeSlot_keeps hslot hl h.active
    intro hg
    exact ho ⟨_, _, rfl, hg.symm⟩
  | rejected _ => exact h.keep rfl rfl
  | registered _ hm' =>
    have hk : Visible (s.put t none) p e := h.keep rfl rfl
    refine hk.changeManager hm' ?_ ?_
    · rfl
    · rfl
  | read _ => exact h.keep rfl rfl
  | refreshed _ hm' =>
    have hk : Visible (s.put t none) p e := h.keep rfl rfl
    refine hk.changeManager hm' ?_ ?_
    · rfl
    · rfl
  | detached hpc hr =>
    -- a destructor runs in another process, whose entries have another instance
    have hne : e.instanceId ≠ th.identity.instanceId := by
      intro he
      have hpid := hc.pidOf_thread ht
      rw [← he, ← hid, hc.pidOf_manager hm] at hpid
      have hnone := hc.identified.pending t th ht (by rw [hpc]; rfl)
      rw [← hpid, hm] at hnone
      exact nomatch hnone
    apply h.rewrite hc ht (by rw [hpc]; rfl)
    intro _ hl
    rw [hr]
    exact detach_lists hl hne hdead
  | closed _ => exact h.keep rfl rfl
  | shmUnlinked hpc =>
    have hunused : segmentUsed s m.seg = false := by
      simpa [undisturbed, ht, hpc, hseg] using hq
    exact absurd rfl ((hc.named.unused hunused).1 p m hm)
  | semUnlinked _ => exact h.keep rfl rfl

lemma step_visible (hc : Consistent s) (h : Visible s p e) (hq : undisturbed s ev = true)
    (ho : ¬ Registers o e.gid) (hl : ¬ Leaves ev p) (hs : step s ev = some (o, u)) :
    Visible u p e := by
  cases step_cases hs with
  | started _ _ => exact h.keep rfl rfl
  | @exited pid =>
    have hp : p ≠ pid := by
      rintro rfl
      exact hl (.inr rfl)
    refine h.congr rfl ?_
    intro m hm
    exact ⟨m, (Function.update_of_ne hp _ _).trans hm, rfl, rfl⟩
  | constructing _ _ => exact h.keep rfl rfl
  | flagged hm =>
    refine h.changeManager hm ?_ ?_
    · rfl
    · rfl
  | called _ _ => exact h.keep rfl rfl
  | @destroying pid m _ _ =>
    have hp : p ≠ pid := by
      rintro rfl
      exact hl (.inl rfl)
    have hk : Visible (s.spawn ⟨m.identity, m.seg, m.sem, .detachWait⟩) p e := h.keep rfl rfl
    exact hk.otherManager hp none
  | advanced ht ha => exact advance_visible hc h ht hq ho ha

lemma visible_of_registered (hc : Consistent s) (hs : step s ev = some (.registered p e, u)) :
    Visible u p e := by
  cases step_cases hs with
  | advanced ht ha =>
    cases ha with
    | acquired _ _ ho => rcases ho with ho | ⟨_, ho⟩ <;> exact nomatch ho
    | written hpc hm =>
      have hslot := hc.recorded.slot _ _ _ _ _ ht hpc
      have hseg := (hc.named.manager _ _ hm).1
      have hseg' := hc.named.mapped _ _ ht (by rw [hpc]; rfl)
      obtain hx := Option.some.inj (hseg.symm.trans hseg')
      refine ⟨rfl, _, hm, rfl, ?_⟩
      simpa [goto, put, modifyRegistry, hx] using writeSlot_lists hslot _

end Visible

section Fresh

lemma agrees_of_not_carrying (h : th.pc.carrying = false) : Agrees e th := by
  constructor
  · intro updates hpc
    rcases hpc with hpc | hpc <;> simp [hpc, Pc.carrying] at h
  · intro gid type hpc
    rcases hpc with hpc | hpc <;> simp [hpc, Pc.carrying] at h

lemma Fresh.put (h : Fresh s q e) {x : Option Thread}
    (hu : u.threads = Function.update s.threads t x)
    (hx : ∀ th', x = some th' → th'.identity.pid = q → Agrees e th') : Fresh u q e := by
  intro t' th' ht' hq
  rw [hu] at ht'
  rcases update_some ht' with ⟨_, he⟩ | ⟨_, ht'⟩
  · exact hx th' he hq
  · exact h t' th' ht' hq

lemma Fresh.finish (h : Fresh s q e) (hu : u.threads = Function.update s.threads t none) :
    Fresh u q e :=
  h.put hu nofun

lemma Fresh.goto (h : Fresh s q e) {th' : Thread}
    (hu : u.threads = Function.update s.threads t (some th')) (hpc : th'.pc.carrying = false) :
    Fresh u q e := by
  apply h.put hu
  intro th₀ hx _
  obtain rfl := Option.some.inj hx
  exact agrees_of_not_carrying hpc

lemma passes_carrying {pc pc' : Pc} (h : Passes pc pc') : pc'.carrying = false := by
  cases h <;> rfl

lemma acquires_carrying {pc pc' : Pc} (h : Acquires pc pc') : pc'.carrying = false := by
  cases h <;> rfl

lemma advance_fresh (hc : Consistent s) (hv : Visible s p e) (h : Fresh s q e)
    (ht : s.threads t = some th) (ho : ¬ Registers o e.gid) (ha : Advance s t th o u) :
    Fresh u q e := by
  cases ha with
  | passed hp => exact h.goto rfl (passes_carrying hp)
  | opened _ _ => exact h.goto rfl rfl
  | created _ _ => exact h.goto rfl rfl
  | semOpened _ _ => exact h.goto rfl rfl
  | semCreated _ _ => exact h.goto rfl rfl
  | acquired hp _ _ => exact h.goto rfl (acquires_carrying hp)
  | released hp =>
    refine h.put rfl ?_
    intro th' hx hpid
    obtain rfl := Option.some.inj hx
    have hold := h t th ht hpid
    generalize hpc : th.pc = pc₀ at hp
    cases hp with
    | register gid type =>
      refine ⟨by simp, ?_⟩
      intro gid' type' hpc'
      obtain ⟨rfl, _⟩ : gid = gid' ∧ type = type' := by simpa using hpc'
      exact hold.register gid type (.inl hpc)
    | refresh updates =>
      refine ⟨?_, by simp⟩
      intro updates' hpc'
      obtain rfl : updates = updates' := by simpa using hpc'
      exact hold.snapshot updates (.inl hpc)
    | detach unlink => exact agrees_of_not_carrying rfl
  | attached _ => exact h.goto rfl rfl
  | constructed _ => exact h.finish rfl
  | full _ _ => exact h.goto rfl rfl
  | scanned _ _ => exact h.goto rfl rfl
  | @written gid type slot m _ _ =>
    refine h.put rfl ?_
    intro th' hx _
    obtain rfl := Option.some.inj hx
    refine ⟨by simp, ?_⟩
    intro gid' type' hpc' hg
    obtain ⟨rfl, _⟩ : gid = gid' ∧ type = type' := by simpa using hpc'
    exact ho ⟨_, _, rfl, hg⟩
  | rejected _ => exact h.finish rfl
  | registered _ _ => exact h.finish rfl
  | read hpc =>
    refine h.put rfl ?_
    intro th' hx _
    obtain rfl := Option.some.inj hx
    refine ⟨?_, by simp⟩
    intro updates hpc'
    obtain ⟨m, hm, _, hl⟩ := hv.listed
    have hbound := (hc.named.manager p m hm).1
    have hmapped := hc.named.mapped t th ht (by rw [hpc]; rfl)
    have hseg : m.seg = th.seg := Option.some.inj (hbound.symm.trans hmapped)
    have hd := hc.recorded.distinct th.seg hmapped
    rw [hseg] at hl
    obtain rfl : (s.registries th.seg).updates th.identity.instanceId = updates := by
      simpa using hpc'
    exact updates_of_lists hd hl hv.active
  | refreshed _ _ => exact h.finish rfl
  | detached _ _ => exact h.goto rfl rfl
  | closed _ => exact h.finish rfl
  | shmUnlinked _ => exact h.goto rfl rfl
  | semUnlinked _ => exact h.finish rfl

lemma step_fresh (hc : Consistent s) (hv : Visible s p e) (h : Fresh s q e)
    (ho : ¬ Registers o e.gid) (hs : step s ev = some (o, u)) : Fresh u q e := by
  cases step_cases hs with
  | started _ _ => exact h
  | exited => exact fun t th ht => h t th (exited_thread ht).1
  | constructing _ _ => exact h.goto rfl rfl
  | flagged _ => exact h
  | called _ hpc =>
    refine h.goto rfl ?_
    rcases hpc with ⟨_, _, rfl⟩ | rfl <;> rfl
  | destroying _ _ => exact h.goto rfl rfl
  | advanced ht ha => exact advance_fresh hc hv h ht ho ha

/-- When a refresh acquires the semaphore, its process has no older update to come. -/
lemma fresh_of_acquired (hc : Consistent s) (hq : undisturbed s ev = true)
    (hs : step s ev = some (.acquired t q, u)) : Fresh u q e ∧ RunBy u t q := by
  cases step_cases hs with
  | @advanced _ th _ _ ht ha =>
    cases ha with
    | @acquired pc _ hp hv ho =>
      obtain ⟨hpc, he⟩ : th.pc = .refreshWait ∧ _ := ho.resolve_left (fun h => by cases h)
      obtain ⟨rfl, rfl⟩ := Output.acquired.inj he
      have hread : pc = .read := by
        rw [hpc] at hp
        cases hp
        rfl
      have hlocked : Locked ((s.wait th.sem).goto t th pc) :=
        hc.locked.acquire hc.named ht (acquires_flags hp).1 hv
      have hmerging : s.anyThread
          (fun th' => th'.pc.merging && decide (th'.identity.pid = th.identity.pid)) = false := by
        simpa [undisturbed, ht, hpc] using hq
      constructor
      · intro t' th' ht' hpid
        rcases update_some ht' with ⟨_, hx⟩ | ⟨hne, hold⟩
        · obtain rfl := Option.some.inj hx
          exact agrees_of_not_carrying (by rw [hread]; rfl)
        · apply agrees_of_not_carrying
          cases hcarry : th'.pc.carrying with
          | false => rfl
          | true =>
            exfalso
            cases hh : th'.pc.holding with
            | true =>
              have hself : ((s.wait th.sem).goto t th pc).threads t =
                  some { th with pc := pc } := by
                simp [goto, put]
              exact hne (hlocked.unique t' th' t _ ht' hself hh (acquires_flags hp).2.1)
            | false =>
              have hm : th'.pc.merging = true := by
                cases hpc' : th'.pc <;> simp_all [Pc.carrying, Pc.holding, Pc.merging]
              have hany := anyThread_of_mem
                (p := fun th' => th'.pc.merging && decide (th'.identity.pid = th.identity.pid))
                hc.named.fresh hold (by simp [hm, hpid])
              rw [hmerging] at hany
              cases hany
      · refine ⟨hc.named.lt ht, ?_⟩
        intro th' ht'
        rcases update_some ht' with ⟨_, hx⟩ | ⟨hne, _⟩
        · obtain rfl := Option.some.inj hx
          rfl
        · exact absurd rfl hne

end Fresh

section Answers

lemma advance_threads (ha : Advance s t th o u) : u.nextThread = s.nextThread ∧
    ∃ x, u.threads = Function.update s.threads t x ∧
      ∀ th', x = some th' → th'.identity = th.identity := by
  have hsome : ∀ {th₀ : Thread}, th₀.identity = th.identity →
      ∀ th', some th₀ = some th' → th'.identity = th.identity := by
    intro th₀ hid th' hx
    obtain rfl := Option.some.inj hx
    exact hid
  cases ha with
  | constructed _ => exact ⟨rfl, none, rfl, nofun⟩
  | rejected _ => exact ⟨rfl, none, rfl, nofun⟩
  | registered _ _ => exact ⟨rfl, none, rfl, nofun⟩
  | refreshed _ _ => exact ⟨rfl, none, rfl, nofun⟩
  | closed _ => exact ⟨rfl, none, rfl, nofun⟩
  | semUnlinked _ => exact ⟨rfl, none, rfl, nofun⟩
  | _ => exact ⟨rfl, some _, rfl, hsome rfl⟩

lemma step_runBy (h : RunBy s t q) (hs : step s ev = some (o, u)) : RunBy u t q := by
  obtain ⟨hlt, hthread⟩ := h
  have hspawn : ∀ {th : Thread}, RunBy (s.spawn th) t q := by
    intro th
    refine ⟨Nat.lt_succ_of_lt hlt, ?_⟩
    intro th' ht'
    rcases update_some ht' with ⟨he, _⟩ | ⟨_, ht'⟩
    · exact absurd he hlt.ne
    · exact hthread th' ht'
  cases step_cases hs with
  | started _ _ => exact ⟨hlt, hthread⟩
  | exited => exact ⟨hlt, fun th ht => hthread th (exited_thread ht).1⟩
  | constructing _ _ => exact hspawn
  | flagged _ => exact ⟨hlt, hthread⟩
  | called _ _ => exact hspawn
  | destroying _ _ => exact hspawn
  | @advanced t' th _ _ ht ha =>
    obtain ⟨hnext, x, hx, hid⟩ := advance_threads ha
    refine ⟨hnext ▸ hlt, ?_⟩
    intro th' ht'
    rw [hx] at ht'
    rcases update_some ht' with ⟨rfl, he⟩ | ⟨_, ht'⟩
    · rw [hid th' he]
      exact hthread th ht
    · exact hthread th' ht'

lemma Answers.changeManager (h : Answers s q e) {pid : ℕ} {m m' : HostEndpointManager}
    (hm : s.managers pid = some m) (hid : m'.identity = m.identity)
    (hcache : pid = q → m.cache e.gid = some (e.cached m.identity.instanceId) →
      m'.cache e.gid = some (e.cached m.identity.instanceId)) :
    Answers (s.modifyManager pid (some m')) q e := by
  obtain ⟨m₀, hm₀, hc⟩ := h
  by_cases hq : q = pid
  · subst hq
    obtain rfl := Option.some.inj (hm₀.symm.trans hm)
    refine ⟨m', by simp [modifyManager], ?_⟩
    rw [hid]
    exact hcache rfl hc
  · exact ⟨m₀, by simpa [modifyManager, Function.update_of_ne hq] using hm₀, hc⟩

lemma Answers.otherManager (h : Answers s q e) {pid : ℕ} (hq : q ≠ pid)
    (x : Option HostEndpointManager) : Answers (s.modifyManager pid x) q e := by
  obtain ⟨m, hm, hc⟩ := h
  exact ⟨m, by simpa [modifyManager, Function.update_of_ne hq] using hm, hc⟩

/-- The manager of a call has the identity under which the call was made. -/
lemma Consistent.identity_of_calling (hc : Consistent s) (ht : s.threads t = some th)
    (hcall : th.pc.calling = true) {m : HostEndpointManager}
    (hm : s.managers th.identity.pid = some m) : m.identity = th.identity := by
  obtain ⟨m', hm', hid⟩ := hc.identified.calling t th ht hcall
  obtain rfl := Option.some.inj (hm'.symm.trans hm)
  exact hid

lemma advance_answers (hc : Consistent s) (hf : Fresh s q e) (h : Answers s q e)
    (ht : s.threads t = some th) (ha : Advance s t th o u) : Answers u q e := by
  have hkeep : ∀ {v : Host}, v.managers = s.managers → Answers v q e := by
    intro v hv
    obtain ⟨m, hm, hcache⟩ := h
    exact ⟨m, hv ▸ hm, hcache⟩
  cases ha with
  | constructed hpc =>
    have hother : q ≠ th.identity.pid := by
      rintro rfl
      obtain ⟨m, hm, _⟩ := h
      have hnone := hc.identified.pending t th ht (by rw [hpc]; rfl)
      exact absurd (hnone.symm.trans hm) nofun
    have hk : Answers ((s.post th.sem).put t none) q e := hkeep rfl
    exact hk.otherManager hother _
  | registered hpc hm =>
    have hk : Answers (s.put t none) q e := hkeep rfl
    refine hk.changeManager hm ?_ ?_
    · rfl
    · intro hpid hcache
      have hne := (hf t th ht hpid).register _ _ (.inr hpc)
      change Function.update _ _ _ e.gid = _
      rwa [Function.update_of_ne hne.symm]
  | @refreshed updates m hpc hm =>
    have hk : Answers (s.put t none) q e := hkeep rfl
    refine hk.changeManager hm ?_ ?_
    · rfl
    · intro hpid _
      have hid := hc.identity_of_calling ht (by rw [hpc]; rfl) hm
      have hsnap := (hf t th ht hpid).snapshot _ (.inr hpc)
      change m.cache.merge updates e.gid = _
      rw [hid]
      exact Cache.merge_of_some hsnap
  | _ => exact hkeep rfl

lemma step_answers (hc : Consistent s) (hf : Fresh s q e) (h : Answers s q e)
    (hl : ¬ Leaves ev q) (hs : step s ev = some (o, u)) : Answers u q e := by
  cases step_cases hs with
  | @exited pid =>
    have hq : q ≠ pid := by
      rintro rfl
      exact hl (.inr rfl)
    obtain ⟨m, hm, hcache⟩ := h
    exact ⟨m, (Function.update_of_ne hq _ _).trans hm, hcache⟩
  | flagged hm => exact h.changeManager hm rfl (fun _ hcache => hcache)
  | @destroying pid m _ _ =>
    have hq : q ≠ pid := by
      rintro rfl
      exact hl (.inl rfl)
    have hk : Answers (s.spawn ⟨m.identity, m.seg, m.sem, .detachWait⟩) q e := h
    exact hk.otherManager hq none
  | advanced ht ha => exact advance_answers hc hf h ht ha
  | started _ _ => exact h
  | constructing _ _ => exact h
  | called _ _ => exact h

lemma answers_of_refreshed (hc : Consistent s) (hf : Fresh s q e) (hr : RunBy s t q)
    (hs : step s ev = some (.refreshed t, u)) : Answers u q e := by
  cases step_cases hs with
  | @advanced t' th _ _ ht ha =>
    cases ha with
    | acquired _ _ ho => rcases ho with ho | ⟨_, ho⟩ <;> exact nomatch ho
    | @refreshed updates m hpc hm =>
      have hpid := hr.2 th ht
      have hid := hc.identity_of_calling ht (by rw [hpc]; rfl) hm
      have hsnap := (hf t th ht hpid).snapshot updates (.inr hpc)
      refine ⟨{ m with cache := m.cache.merge updates }, by simp [modifyManager, hpid], ?_⟩
      change m.cache.merge updates e.gid = _
      rw [hid]
      exact Cache.merge_of_some hsnap

end Answers

end RosidlBufferBackends.Registry
