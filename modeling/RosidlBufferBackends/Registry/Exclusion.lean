import RosidlBufferBackends.Registry.Attachment

/-! One thread at a time is between `sem_wait` and `sem_post`, and what the
registry holds is what the last of them left. -/

namespace RosidlBufferBackends.Registry

open Runs Host Inventory

variable {s u : Host} {e : Event} {o : Output} {t : ℕ} {th : Thread}

structure Locked (s : Host) : Prop where
  value : ∀ sem, s.semName = some sem → s.semValue sem ≤ 1
  held : ∀ t th, s.threads t = some th → th.pc.holding = true → s.semValue th.sem = 0
  unique : ∀ t th t' th', s.threads t = some th → s.threads t' = some th' →
    th.pc.holding = true → th'.pc.holding = true → t = t'

structure Recorded (s : Host) : Prop where
  initialised : ∀ p m, s.managers p = some m → (s.registries m.seg).version ≠ 0
  ready : ∀ t th, s.threads t = some th → th.pc.ready = true → (s.registries th.seg).version ≠ 0
  distinct : ∀ seg, s.shmName = some seg → (s.registries seg).Distinct
  slot : ∀ t th gid type slot, s.threads t = some th → th.pc = .write gid type slot →
    (s.registries th.seg).findSlot gid = some slot

section Locked

lemma Locked.put (h : Locked s) {x : Option Thread} (ht : s.threads t = some th)
    (hx : ∀ th', x = some th' → th'.pc.holding = true →
      th.pc.holding = true ∧ th'.sem = th.sem) : Locked (s.put t x) := by
  have hold : ∀ {t' th'}, (s.put t x).threads t' = some th' → th'.pc.holding = true →
      ∃ th, s.threads t' = some th ∧ th.pc.holding = true ∧ th'.sem = th.sem := by
    intro t' th' ht' hh
    rcases update_some ht' with ⟨rfl, he⟩ | ⟨_, ht'⟩
    · exact ⟨th, ht, hx th' he hh⟩
    · exact ⟨th', ht', hh, rfl⟩
  refine ⟨h.value, ?_, ?_⟩
  · intro t' th' ht' hh
    obtain ⟨th₀, h₀, hh₀, hsem⟩ := hold ht' hh
    rw [hsem]
    exact h.held t' th₀ h₀ hh₀
  · intro t₁ th₁ t₂ th₂ h₁ h₂ hh₁ hh₂
    obtain ⟨_, h₁', hh₁', _⟩ := hold h₁ hh₁
    obtain ⟨_, h₂', hh₂', _⟩ := hold h₂ hh₂
    exact h.unique _ _ _ _ h₁' h₂' hh₁' hh₂'

lemma Locked.goto (h : Locked s) (ht : s.threads t = some th) {pc : Pc}
    (hpc : pc.holding = true → th.pc.holding = true) : Locked (s.goto t th pc) := by
  apply h.put ht
  intro th' hx hh
  obtain rfl := Option.some.inj hx
  exact ⟨hpc hh, rfl⟩

lemma Locked.finish (h : Locked s) (ht : s.threads t = some th) : Locked (s.put t none) :=
  h.put ht nofun

lemma Locked.frame (h : Locked s) {registries : ℕ → EndpointRegistry} {shmName : Option ℕ}
    {nextSegment : ℕ} {managers : ℕ → Option HostEndpointManager} {alive : List ℕ} :
    Locked { s with
      registries := registries, shmName := shmName, nextSegment := nextSegment,
      managers := managers, alive := alive } :=
  ⟨h.value, h.held, h.unique⟩

lemma Locked.modifyRegistry (h : Locked s) (seg : ℕ) (f : EndpointRegistry → EndpointRegistry) :
    Locked (s.modifyRegistry seg f) :=
  h.frame

lemma Locked.modifyManager (h : Locked s) (pid : ℕ) (x : Option HostEndpointManager) :
    Locked (s.modifyManager pid x) :=
  h.frame

lemma Locked.spawn (h : Locked s) {th : Thread} (hh : th.pc.holding = false) :
    Locked (s.spawn th) := by
  have hold : ∀ {t' th'}, (s.spawn th).threads t' = some th' → th'.pc.holding = true →
      s.threads t' = some th' := by
    intro t' th' ht' hh'
    rcases update_some ht' with ⟨_, he⟩ | ⟨_, ht'⟩
    · obtain rfl := Option.some.inj he
      rw [hh] at hh'
      exact nomatch hh'
    · exact ht'
  refine ⟨h.value, ?_, ?_⟩
  · intro t' th' ht' hh'
    exact h.held t' th' (hold ht' hh') hh'
  · intro t₁ th₁ t₂ th₂ h₁ h₂ hh₁ hh₂
    exact h.unique t₁ th₁ t₂ th₂ (hold h₁ hh₁) (hold h₂ hh₂) hh₁ hh₂

/-- All holders wait on the one named semaphore. -/
lemma holding_sem (hn : Named s) {t' : ℕ} {th' : Thread} (ht : s.threads t = some th)
    (ht' : s.threads t' = some th') (ho : th.pc.opened = true) (ho' : th'.pc.opened = true) :
    th'.sem = th.sem := by
  have hsem := hn.opened t th ht ho
  have hsem' := hn.opened t' th' ht' ho'
  exact Option.some.inj (hsem'.symm.trans hsem)

lemma Locked.acquire (hn : Named s) (h : Locked s) (ht : s.threads t = some th) {pc : Pc}
    (ho : th.pc.opened = true) (hv : s.semValue th.sem ≠ 0) :
    Locked ((s.wait th.sem).goto t th pc) := by
  have hle := h.value th.sem (hn.opened t th ht ho)
  -- a holder would have left the semaphore at 0
  have hnone : ∀ {t' th'}, s.threads t' = some th' → th'.pc.holding = false := by
    intro t' th' ht'
    cases hh : th'.pc.holding with
    | false => rfl
    | true =>
      have hzero := h.held t' th' ht' hh
      rw [holding_sem hn ht ht' ho (Pc.opened_of_holding hh)] at hzero
      exact absurd hzero hv
  refine ⟨?_, ?_, ?_⟩
  · intro sem hsem
    by_cases hx : sem = th.sem
    · subst hx
      simp only [Host.goto, Host.put, Host.wait, Function.update_self]
      omega
    · simpa [Host.goto, Host.put, Host.wait, Function.update_of_ne hx] using h.value sem hsem
  · intro t' th' ht' hh
    rcases update_some ht' with ⟨_, he⟩ | ⟨_, ht'⟩
    · obtain rfl := Option.some.inj he
      simp only [Host.goto, Host.put, Host.wait, Function.update_self]
      omega
    · rw [hnone ht'] at hh
      exact nomatch hh
  · intro t₁ th₁ t₂ th₂ h₁ h₂ hh₁ hh₂
    rcases update_some h₁ with ⟨rfl, _⟩ | ⟨_, h₁'⟩
    · rcases update_some h₂ with ⟨rfl, _⟩ | ⟨_, h₂'⟩
      · rfl
      · rw [hnone h₂'] at hh₂
        exact nomatch hh₂
    · rw [hnone h₁'] at hh₁
      exact nomatch hh₁

lemma Locked.release (h : Locked s) (ht : s.threads t = some th)
    (hh : th.pc.holding = true) {x : Option Thread}
    (hx : ∀ th', x = some th' → th'.pc.holding = false) : Locked ((s.post th.sem).put t x) := by
  have hzero := h.held t th ht hh
  have hnone : ∀ {t' th'}, ((s.post th.sem).put t x).threads t' = some th' →
      th'.pc.holding = false := by
    intro t' th' ht'
    rcases update_some ht' with ⟨_, he⟩ | ⟨hne, ht'⟩
    · exact hx th' he
    · cases hh' : th'.pc.holding with
      | false => rfl
      | true => exact absurd (h.unique t' th' t th ht' ht hh' hh) hne
  refine ⟨?_, ?_, ?_⟩
  · intro sem hsem
    by_cases hx : sem = th.sem
    · subst hx
      simp [Host.put, Host.post, hzero]
    · simpa [Host.put, Host.post, Function.update_of_ne hx] using h.value sem hsem
  · intro t' th' ht' hh'
    rw [hnone ht'] at hh'
    exact nomatch hh'
  · intro t₁ th₁ t₂ th₂ h₁ h₂ hh₁ hh₂
    rw [hnone h₁] at hh₁
    exact nomatch hh₁

lemma Named.semCreate_locked (hn : Named s) (hnone : s.semName = none) :
    Locked s.semCreate := by
  have hidle : ∀ {t th}, s.threads t = some th → th.pc.holding = true → False := by
    intro t th ht hh
    have hsem := hn.opened t th ht (Pc.opened_of_holding hh)
    rw [hnone] at hsem
    exact nomatch hsem
  refine ⟨?_, ?_, ?_⟩
  · intro sem hsem
    obtain rfl : s.nextSem = sem := Option.some.inj hsem
    simp [Host.semCreate]
  · intro t th ht hh
    exact (hidle ht hh).elim
  · intro t th t' th' ht _ hh _
    exact (hidle ht hh).elim

lemma advance_locked (hn : Named s) (h : Locked s) (ht : s.threads t = some th)
    (ha : Advance s t th o u) : Locked u := by
  cases ha with
  | passed hp => exact h.goto ht (by rw [(passes_flags hp).2.2.1]; exact nofun)
  | opened hpc _ =>
    apply h.put ht
    intro th' hx hh
    obtain rfl := Option.some.inj hx
    exact nomatch hh
  | created hpc _ =>
    have hf : Locked s.shmCreate := h.frame
    apply hf.put ht
    intro th' hx hh
    obtain rfl := Option.some.inj hx
    exact nomatch hh
  | semOpened hpc _ =>
    apply h.put ht
    intro th' hx hh
    obtain rfl := Option.some.inj hx
    exact nomatch hh
  | semCreated hpc hnone =>
    apply (hn.semCreate_locked hnone).put ht
    intro th' hx hh
    obtain rfl := Option.some.inj hx
    exact nomatch hh
  | acquired hp hv _ => exact h.acquire hn ht (acquires_flags hp).1 hv
  | released hp =>
    apply h.release ht (releases_flags hp).1
    intro th' hx
    obtain rfl := Option.some.inj hx
    exact (releases_flags hp).2.1
  | attached hpc => exact (h.modifyRegistry _ _).goto ht (fun _ => by rw [hpc]; rfl)
  | constructed hpc =>
    have hr : Locked ((s.post th.sem).put t none) := h.release ht (by rw [hpc]; rfl) nofun
    exact hr.modifyManager _ _
  | full hpc _ => exact h.goto ht (fun _ => by rw [hpc]; rfl)
  | scanned hpc _ => exact h.goto ht (fun _ => by rw [hpc]; rfl)
  | written hpc _ => exact (h.modifyRegistry _ _).goto ht (fun _ => by rw [hpc]; rfl)
  | rejected hpc => exact h.release ht (by rw [hpc]; rfl) nofun
  | registered _ _ => exact (h.finish ht).modifyManager _ _
  | read hpc => exact h.goto ht (fun _ => by rw [hpc]; rfl)
  | refreshed _ _ => exact (h.finish ht).modifyManager _ _
  | detached hpc _ => exact (h.modifyRegistry _ _).goto ht (fun _ => by rw [hpc]; rfl)
  | closed _ => exact h.finish ht
  | shmUnlinked _ =>
    have hf : Locked { s with shmName := none } := h.frame
    exact hf.goto ht nofun
  | semUnlinked _ =>
    have hf : Locked { s with semName := none } := ⟨nofun, h.held, h.unique⟩
    exact hf.finish ht

lemma step_locked (hn : Named s) (h : Locked s) (hs : step s e = some (o, u)) : Locked u := by
  cases step_cases hs with
  | started _ _ => exact h.frame
  | exited =>
    refine ⟨h.value, ?_, ?_⟩
    · intro t th ht hh
      exact h.held t th (exited_thread ht).1 hh
    · intro t th t' th' ht ht' hh hh'
      exact h.unique t th t' th' (exited_thread ht).1 (exited_thread ht').1 hh hh'
  | constructing _ _ => exact h.spawn rfl
  | flagged _ => exact h.modifyManager _ _
  | called _ hpc =>
    apply h.spawn
    rcases hpc with ⟨_, _, rfl⟩ | rfl <;> rfl
  | destroying _ _ => exact (h.spawn rfl).modifyManager _ _
  | advanced ht ha => exact advance_locked hn h ht ha

end Locked

section Recorded

lemma Recorded.put (h : Recorded s) {x : Option Thread}
    (hr : ∀ th', x = some th' → th'.pc.ready = true → (s.registries th'.seg).version ≠ 0)
    (hs : ∀ th', x = some th' → ∀ gid type slot, th'.pc = .write gid type slot →
      (s.registries th'.seg).findSlot gid = some slot) : Recorded (s.put t x) := by
  refine ⟨h.initialised, ?_, h.distinct, ?_⟩
  · intro t' th' ht' hready
    rcases update_some ht' with ⟨_, he⟩ | ⟨_, ht'⟩
    · exact hr th' he hready
    · exact h.ready t' th' ht' hready
  · intro t' th' gid type slot ht' hpc
    rcases update_some ht' with ⟨_, he⟩ | ⟨_, ht'⟩
    · exact hs th' he gid type slot hpc
    · exact h.slot t' th' gid type slot ht' hpc

def Pc.writing : Pc → Bool
  | .write _ _ _ => true
  | _ => false

lemma Recorded.goto (h : Recorded s) (ht : s.threads t = some th) {pc : Pc}
    (hr : pc.ready = true → th.pc.ready = true) (hw : pc.writing = false) :
    Recorded (s.goto t th pc) := by
  apply h.put
  · intro th' hx hready
    obtain rfl := Option.some.inj hx
    exact h.ready t th ht (hr hready)
  · intro th' hx gid type slot hpc
    obtain rfl := Option.some.inj hx
    have hpc' : pc = .write gid type slot := hpc
    rw [hpc'] at hw
    exact nomatch hw

lemma Recorded.finish (h : Recorded s) (t : ℕ) : Recorded (s.put t none) := h.put nofun nofun

lemma Recorded.frame (h : Recorded s) {semValue : ℕ → ℕ} {semName : Option ℕ} {nextSem : ℕ}
    {alive : List ℕ} :
    Recorded { s with
      semValue := semValue, semName := semName, nextSem := nextSem, alive := alive } :=
  ⟨h.initialised, h.ready, h.distinct, h.slot⟩

lemma Recorded.wait (h : Recorded s) (sem : ℕ) : Recorded (s.wait sem) := h.frame

lemma Recorded.post (h : Recorded s) (sem : ℕ) : Recorded (s.post sem) := h.frame

lemma Recorded.modifyManager (h : Recorded s) {pid : ℕ} {x : Option HostEndpointManager}
    (hx : ∀ m, x = some m → (s.registries m.seg).version ≠ 0) :
    Recorded (s.modifyManager pid x) := by
  refine ⟨?_, h.ready, h.distinct, h.slot⟩
  intro p m hm
  by_cases hp : p = pid
  · subst hp
    exact hx m (by simpa [Host.modifyManager] using hm)
  · exact h.initialised p m (by simpa [Host.modifyManager, Function.update_of_ne hp] using hm)

lemma Recorded.changeManager (h : Recorded s) {pid : ℕ} {m m' : HostEndpointManager}
    (hm : s.managers pid = some m) (hseg : m'.seg = m.seg) :
    Recorded (s.modifyManager pid (some m')) := by
  apply h.modifyManager
  intro m₀ hm₀
  obtain rfl := Option.some.inj hm₀
  rw [hseg]
  exact h.initialised pid m hm

lemma Recorded.spawn (h : Recorded s) {th : Thread}
    (hr : th.pc.ready = true → (s.registries th.seg).version ≠ 0) (hw : th.pc.writing = false) :
    Recorded (s.spawn th) := by
  have hput : Recorded (s.put s.nextThread (some th)) := by
    apply h.put
    · intro th' hx hready
      obtain rfl := Option.some.inj hx
      exact hr hready
    · intro th' hx gid type slot hpc
      obtain rfl := Option.some.inj hx
      rw [hpc] at hw
      exact nomatch hw
  exact ⟨hput.initialised, hput.ready, hput.distinct, hput.slot⟩

lemma Named.shmCreate_recorded (hn : Named s) (hnone : s.shmName = none) :
    Recorded s.shmCreate := by
  have hmapped : ∀ {t th}, s.threads t = some th → th.pc.mapped = true → False := by
    intro t th ht hm
    have hseg := hn.mapped t th ht hm
    rw [hnone] at hseg
    exact nomatch hseg
  refine ⟨?_, ?_, ?_, ?_⟩
  · intro p m hm
    have hseg := (hn.manager p m hm).1
    rw [hnone] at hseg
    exact nomatch hseg
  · intro t th ht hr
    exact (hmapped ht (Pc.mapped_of_opened (Pc.opened_of_ready hr))).elim
  · intro seg hseg
    obtain rfl : s.nextSegment = seg := Option.some.inj hseg
    intro i hi
    simp [Host.shmCreate] at hi
  · intro t th gid type slot ht hpc
    exact (hmapped ht (by rw [hpc]; rfl)).elim

/-- The holder of the semaphore rewrites the registry. -/
lemma Recorded.rewrite (hl : Locked s) (h : Recorded s) (ht : s.threads t = some th)
    (hh : th.pc.holding = true) {f : EndpointRegistry → EndpointRegistry} {pc : Pc}
    (hv : (f (s.registries th.seg)).version ≠ 0)
    (hd : (s.registries th.seg).Distinct → (f (s.registries th.seg)).Distinct)
    (hw : pc.writing = false) :
    Recorded ((s.modifyRegistry th.seg f).goto t th pc) := by
  have hversion : ∀ {seg}, (s.registries seg).version ≠ 0 →
      ((s.modifyRegistry th.seg f).registries seg).version ≠ 0 := by
    intro seg hs
    by_cases hx : seg = th.seg
    · subst hx
      simpa [Host.modifyRegistry] using hv
    · simpa [Host.modifyRegistry, Function.update_of_ne hx] using hs
  refine ⟨?_, ?_, ?_, ?_⟩
  · intro p m hm
    exact hversion (h.initialised p m hm)
  · intro t' th' ht' hr
    rcases update_some ht' with ⟨_, he⟩ | ⟨_, ht'⟩
    · obtain rfl := Option.some.inj he
      simpa [Host.goto, Host.put, Host.modifyRegistry] using hv
    · exact hversion (h.ready t' th' ht' hr)
  · intro seg hseg
    have hold := h.distinct seg hseg
    by_cases hx : seg = th.seg
    · subst hx
      simpa [Host.goto, Host.put, Host.modifyRegistry] using hd hold
    · simpa [Host.goto, Host.put, Host.modifyRegistry, Function.update_of_ne hx] using hold
  · intro t' th' gid type slot ht' hpc
    rcases update_some ht' with ⟨_, he⟩ | ⟨hne, ht'⟩
    · obtain rfl := Option.some.inj he
      have hpc' : pc = .write gid type slot := hpc
      rw [hpc'] at hw
      exact nomatch hw
    · exact absurd (hl.unique t' th' t th ht' ht (by rw [hpc]; rfl) hh) hne

lemma passes_writing {pc pc' : Pc} (h : Passes pc pc') : pc'.writing = false := by
  cases h <;> rfl

lemma acquires_writing {pc pc' : Pc} (h : Acquires pc pc') : pc'.writing = false := by
  cases h <;> rfl

lemma releases_writing {pc pc' : Pc} (h : Releases pc pc') : pc'.writing = false := by
  cases h <;> rfl

lemma advance_recorded (hn : Named s) (hl : Locked s) (h : Recorded s)
    (ht : s.threads t = some th) (ha : Advance s t th o u) : Recorded u := by
  have hready : th.pc.ready = true → (s.registries th.seg).version ≠ 0 := h.ready t th ht
  cases ha with
  | passed hp =>
    exact h.goto ht (by rw [(passes_flags hp).2.2.2.1]; exact nofun) (passes_writing hp)
  | opened _ _ =>
    apply h.put
    · intro th' hx hr
      obtain rfl := Option.some.inj hx
      exact nomatch hr
    · intro th' hx gid type slot hpc
      obtain rfl := Option.some.inj hx
      exact nomatch hpc
  | created _ hnone =>
    apply (hn.shmCreate_recorded hnone).put
    · intro th' hx hr
      obtain rfl := Option.some.inj hx
      exact nomatch hr
    · intro th' hx gid type slot hpc
      obtain rfl := Option.some.inj hx
      exact nomatch hpc
  | semOpened _ _ =>
    apply h.put
    · intro th' hx hr
      obtain rfl := Option.some.inj hx
      exact nomatch hr
    · intro th' hx gid type slot hpc
      obtain rfl := Option.some.inj hx
      exact nomatch hpc
  | semCreated _ _ =>
    have hf : Recorded s.semCreate := h.frame
    apply hf.put
    · intro th' hx hr
      obtain rfl := Option.some.inj hx
      exact nomatch hr
    · intro th' hx gid type slot hpc
      obtain rfl := Option.some.inj hx
      exact nomatch hpc
  | acquired hp _ _ => exact (h.wait th.sem).goto ht (acquires_flags hp).2.2.1 (acquires_writing hp)
  | released hp => exact (h.post th.sem).goto ht (releases_flags hp).2.2.1 (releases_writing hp)
  | attached hpc =>
    apply h.rewrite hl ht (by rw [hpc]; rfl)
    · exact EndpointRegistry.attach_version _ _
    · exact EndpointRegistry.attach_distinct
    · rfl
  | constructed hpc =>
    apply ((h.post th.sem).finish t).modifyManager
    intro m hm
    obtain rfl := Option.some.inj hm
    exact hready (by rw [hpc]; rfl)
  | full hpc _ => exact h.goto ht (fun _ => by rw [hpc]; rfl) rfl
  | scanned hpc hslot =>
    apply h.put
    · intro th' hx _
      obtain rfl := Option.some.inj hx
      exact hready (by rw [hpc]; rfl)
    · intro th' hx gid' type' slot' hpc'
      obtain rfl := Option.some.inj hx
      obtain ⟨rfl, _, rfl⟩ := Pc.write.inj hpc'
      exact hslot
  | written hpc hm =>
    have hslot := h.slot t th _ _ _ ht hpc
    apply h.rewrite hl ht (by rw [hpc]; rfl)
    · exact hready (by rw [hpc]; rfl)
    · exact fun hd => EndpointRegistry.writeSlot_distinct hd hslot rfl
    · rfl
  | rejected _ => exact (h.post th.sem).finish t
  | registered _ hm =>
    refine (h.finish t).changeManager hm ?_
    rfl
  | read hpc => exact h.goto ht (fun _ => by rw [hpc]; rfl) rfl
  | refreshed _ hm =>
    refine (h.finish t).changeManager hm ?_
    rfl
  | detached hpc hr =>
    apply h.rewrite hl ht (by rw [hpc]; rfl)
    · rw [hr]
      exact hready (by rw [hpc]; rfl)
    · intro hd
      rw [hr]
      exact EndpointRegistry.detach_distinct hd
    · rfl
  | closed _ => exact h.finish t
  | shmUnlinked _ =>
    have hf : Recorded { s with shmName := none } := ⟨h.initialised, h.ready, nofun, h.slot⟩
    exact hf.goto ht nofun rfl
  | semUnlinked _ =>
    have hf : Recorded { s with semName := none } := h.frame
    exact hf.finish t

lemma step_recorded (hn : Named s) (hl : Locked s) (h : Recorded s)
    (hs : step s e = some (o, u)) : Recorded u := by
  cases step_cases hs with
  | started _ _ => exact h.frame
  | exited =>
    refine ⟨?_, ?_, h.distinct, ?_⟩
    · intro p m hm
      exact h.initialised p m (removed_manager hm).2
    · intro t th ht hr
      exact h.ready t th (exited_thread ht).1 hr
    · intro t th gid type slot ht hpc
      exact h.slot t th gid type slot (exited_thread ht).1 hpc
  | constructing _ _ => exact h.spawn nofun rfl
  | flagged hm => exact h.changeManager hm rfl
  | called hm hpc =>
    apply h.spawn (fun _ => h.initialised _ _ hm)
    rcases hpc with ⟨_, _, rfl⟩ | rfl <;> rfl
  | destroying _ hm =>
    refine (h.spawn ?_ rfl).modifyManager nofun
    exact fun _ => h.initialised _ _ hm
  | advanced ht ha => exact advance_recorded hn hl h ht ha

end Recorded

/-- The state of a host on which nothing in use has been unlinked. -/
structure Consistent (s : Host) : Prop where
  named : Named s
  identified : Identified s
  locked : Locked s
  recorded : Recorded s

lemma consistent_initial : Consistent {} := by
  constructor
  · constructor <;> simp
  · constructor <;> simp
  · constructor <;> simp
  · constructor <;> simp

lemma step_consistent (h : Consistent s) (hq : undisturbed s e = true)
    (hs : step s e = some (o, u)) : Consistent u :=
  ⟨step_named h.named h.identified hq hs, step_identified h.named h.identified hq hs,
    step_locked h.named h.locked hs, step_recorded h.named h.locked h.recorded hs⟩

lemma run_consistent {tr : List (Event × Output)} (hr : Run step {} tr s)
    (hq : Every step (fun s e _ => undisturbed s e = true) {} tr) : Consistent s := by
  refine hr.induction_every (P := fun _ t => Consistent t) hq consistent_initial ?_
  intro tr t e o u _ h hgood hs
  exact step_consistent h hgood hs

end RosidlBufferBackends.Registry
