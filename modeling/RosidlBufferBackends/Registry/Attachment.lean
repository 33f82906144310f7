import RosidlBufferBackends.Lib.Inventory
import RosidlBufferBackends.Registry.HostSteps

/-! As long as nothing in use is unlinked, all attached managers map one segment
and lock it with one semaphore. -/

namespace RosidlBufferBackends.Registry

open Runs Host Inventory

variable {s u : Host} {e : Event} {o : Output} {t : ℕ} {th : Thread}

/-- A manager, or a constructor or destructor, may access the segment. -/
def segmentUsed (s : Host) (seg : ℕ) : Bool :=
  s.alive.any (fun p => (s.managers p).any (fun m => m.seg = seg)) ||
    s.anyThread (fun th => th.pc.mapped && decide (th.seg = seg))

def semUsed (s : Host) (sem : ℕ) : Bool :=
  s.alive.any (fun p => (s.managers p).any (fun m => m.sem = sem)) ||
    s.anyThread (fun th => th.pc.opened && decide (th.sem = sem))

/-- A name is unlinked when nothing uses the object that it names, and a call
acquires the semaphore when its process has no cache update to come. -/
def undisturbed (s : Host) : Event → Bool
  | .construct _ k _ _ => decide (k < 2 ^ 32)
  | .advance t =>
      match s.threads t with
      | none => true
      | some th =>
          match th.pc with
          | .shmUnlink => s.shmName.all (fun seg => !segmentUsed s seg)
          | .semUnlink => s.semName.all (fun sem => !semUsed s sem)
          | .registerWait _ _ | .refreshWait =>
              !s.anyThread (fun th' => th'.pc.merging &&
                  decide (th'.identity.pid = th.identity.pid))
          | _ => true
  | _ => true

structure Named (s : Host) : Prop where
  manager : ∀ p m, s.managers p = some m → s.shmName = some m.seg ∧ s.semName = some m.sem
  mapped : ∀ t th, s.threads t = some th → th.pc.mapped = true → s.shmName = some th.seg
  opened : ∀ t th, s.threads t = some th → th.pc.opened = true → s.semName = some th.sem
  fresh : ∀ t, s.nextThread ≤ t → s.threads t = none
  alive : ∀ p m, s.managers p = some m → p ∈ s.alive

@[simp] lemma put_threads (s : Host) (t : ℕ) (x : Option Thread) :
    (s.put t x).threads = Function.update s.threads t x := rfl

lemma anyThread_of_mem {p : Thread → Bool} (hf : ∀ t, s.nextThread ≤ t → s.threads t = none)
    (ht : s.threads t = some th) (hp : p th = true) : s.anyThread p = true := by
  have hlt : t < s.nextThread := by
    by_contra hlt
    rw [hf t (not_lt.mp hlt)] at ht
    exact nomatch ht
  exact List.any_eq_true.mpr ⟨t, List.mem_range.mpr hlt, by simp [ht, hp]⟩

lemma removed_manager {pid p : ℕ} {m : HostEndpointManager}
    (hm : Function.update s.managers pid none p = some m) : p ≠ pid ∧ s.managers p = some m := by
  by_cases hp : p = pid
  · simp [hp] at hm
  · exact ⟨hp, by rwa [Function.update_of_ne hp] at hm⟩

lemma exited_thread {pid : ℕ} (ht : (s.threads t).bind
    (fun th => if th.identity.pid = pid then none else some th) = some th) :
    s.threads t = some th ∧ th.identity.pid ≠ pid := by
  obtain ⟨th', ht', hx⟩ := Option.bind_eq_some_iff.mp ht
  split_ifs at hx with hne
  obtain rfl := Option.some.inj hx
  exact ⟨ht', hne⟩

section Named

lemma Named.put (h : Named s) {x : Option Thread} (hlt : t < s.nextThread)
    (hm : ∀ th', x = some th' → th'.pc.mapped = true → s.shmName = some th'.seg)
    (ho : ∀ th', x = some th' → th'.pc.opened = true → s.semName = some th'.sem) :
    Named (s.put t x) := by
  refine ⟨h.manager, ?_, ?_, ?_, h.alive⟩
  · intro t' th' ht' hmap
    rcases update_some ht' with ⟨_, hx⟩ | ⟨_, ht'⟩
    · exact hm th' hx hmap
    · exact h.mapped t' th' ht' hmap
  · intro t' th' ht' hop
    rcases update_some ht' with ⟨_, hx⟩ | ⟨_, ht'⟩
    · exact ho th' hx hop
    · exact h.opened t' th' ht' hop
  · intro t' hle
    have hx : t' ≠ t := (hlt.trans_le hle).ne'
    rw [put_threads, Function.update_of_ne hx]
    exact h.fresh t' hle

lemma Named.frame (h : Named s) (registries : ℕ → EndpointRegistry) (semValue : ℕ → ℕ) :
    Named { s with registries := registries, semValue := semValue } :=
  ⟨h.manager, h.mapped, h.opened, h.fresh, h.alive⟩

lemma Named.wait (h : Named s) (sem : ℕ) : Named (s.wait sem) := h.frame _ _

lemma Named.post (h : Named s) (sem : ℕ) : Named (s.post sem) := h.frame _ _

lemma Named.modifyRegistry (h : Named s) (seg : ℕ) (f : EndpointRegistry → EndpointRegistry) :
    Named (s.modifyRegistry seg f) :=
  h.frame _ _

lemma Named.lt (h : Named s) (ht : s.threads t = some th) : t < s.nextThread := by
  by_contra hlt
  rw [h.fresh t (not_lt.mp hlt)] at ht
  exact nomatch ht

lemma Named.goto (h : Named s) (ht : s.threads t = some th) {pc : Pc}
    (hm : pc.mapped = true → th.pc.mapped = true) (ho : pc.opened = true → th.pc.opened = true) :
    Named (s.goto t th pc) := by
  apply h.put (h.lt ht)
  · intro th' hx hmap
    obtain rfl := Option.some.inj hx
    exact h.mapped t th ht (hm hmap)
  · intro th' hx hop
    obtain rfl := Option.some.inj hx
    exact h.opened t th ht (ho hop)

lemma Named.finish (h : Named s) (ht : s.threads t = some th) : Named (s.put t none) :=
  h.put (h.lt ht) nofun nofun

lemma Named.spawn (h : Named s) {th : Thread}
    (hm : th.pc.mapped = true → s.shmName = some th.seg)
    (ho : th.pc.opened = true → s.semName = some th.sem) : Named (s.spawn th) := by
  refine ⟨h.manager, ?_, ?_, ?_, h.alive⟩
  · intro t' th' ht' hmap
    rcases update_some ht' with ⟨_, hx⟩ | ⟨_, ht'⟩
    · obtain rfl := Option.some.inj hx
      exact hm hmap
    · exact h.mapped t' th' ht' hmap
  · intro t' th' ht' hop
    rcases update_some ht' with ⟨_, hx⟩ | ⟨_, ht'⟩
    · obtain rfl := Option.some.inj hx
      exact ho hop
    · exact h.opened t' th' ht' hop
  · intro t' hle
    have hle' : s.nextThread + 1 ≤ t' := hle
    have hx : t' ≠ s.nextThread := by omega
    simp only [Host.spawn, put_threads, Function.update_of_ne hx]
    exact h.fresh t' (by omega)

lemma Named.modifyManager (h : Named s) {pid : ℕ} {x : Option HostEndpointManager}
    (hx : ∀ m, x = some m → s.shmName = some m.seg ∧ s.semName = some m.sem ∧ pid ∈ s.alive) :
    Named (s.modifyManager pid x) := by
  have hcases : ∀ {p m}, (s.modifyManager pid x).managers p = some m →
      (p = pid ∧ x = some m) ∨ s.managers p = some m := by
    intro p m hm
    by_cases hp : p = pid
    · subst hp
      exact .inl ⟨rfl, by simpa [Host.modifyManager] using hm⟩
    · exact .inr (by simpa [Host.modifyManager, Function.update_of_ne hp] using hm)
  refine ⟨?_, h.mapped, h.opened, h.fresh, ?_⟩
  · intro p m hm
    rcases hcases hm with ⟨_, hx'⟩ | hm
    · exact ⟨(hx m hx').1, (hx m hx').2.1⟩
    · exact h.manager p m hm
  · intro p m hm
    rcases hcases hm with ⟨rfl, hx'⟩ | hm
    · exact (hx m hx').2.2
    · exact h.alive p m hm

/-- Nothing uses the segment when its name is unlinked. -/
lemma Named.unused (h : Named s) {seg : ℕ} (hu : segmentUsed s seg = false) :
    (∀ p m, s.managers p = some m → m.seg ≠ seg) ∧
      ∀ t th, s.threads t = some th → th.pc.mapped = true → th.seg ≠ seg := by
  obtain ⟨hman, hthr⟩ := Bool.or_eq_false_iff.mp hu
  constructor
  · intro p m hm hseg
    have hp := List.any_eq_false.mp hman p (h.alive p m hm)
    simp [hm, hseg] at hp
  · intro t th ht hmap hseg
    have hany := anyThread_of_mem (p := fun th => th.pc.mapped && decide (th.seg = seg)) h.fresh ht
      (by simp [hmap, hseg])
    rw [hany] at hthr
    exact nomatch hthr

lemma Named.semUnused (h : Named s) {sem : ℕ} (hu : semUsed s sem = false) :
    (∀ p m, s.managers p = some m → m.sem ≠ sem) ∧
      ∀ t th, s.threads t = some th → th.pc.opened = true → th.sem ≠ sem := by
  obtain ⟨hman, hthr⟩ := Bool.or_eq_false_iff.mp hu
  constructor
  · intro p m hm hsem
    have hp := List.any_eq_false.mp hman p (h.alive p m hm)
    simp [hm, hsem] at hp
  · intro t th ht hop hsem
    have hany := anyThread_of_mem (p := fun th => th.pc.opened && decide (th.sem = sem)) h.fresh ht
      (by simp [hop, hsem])
    rw [hany] at hthr
    exact nomatch hthr

lemma Named.changeManager (h : Named s) {pid : ℕ} {m m' : HostEndpointManager}
    (hm : s.managers pid = some m) (hseg : m'.seg = m.seg) (hsem : m'.sem = m.sem) :
    Named (s.modifyManager pid (some m')) := by
  apply h.modifyManager
  intro m₀ hm₀
  obtain rfl := Option.some.inj hm₀
  rw [hseg, hsem]
  exact ⟨(h.manager pid m hm).1, (h.manager pid m hm).2, h.alive pid m hm⟩

lemma Named.shmCreate (h : Named s) (hn : s.shmName = none) : Named s.shmCreate := by
  have habs : ∀ {seg}, s.shmName ≠ some seg := by simp [hn]
  refine ⟨?_, ?_, h.opened, h.fresh, h.alive⟩
  · intro p m hm
    exact absurd (h.manager p m hm).1 habs
  · intro t th ht hmap
    exact absurd (h.mapped t th ht hmap) habs

lemma Named.semCreate (h : Named s) (hn : s.semName = none) : Named s.semCreate := by
  have habs : ∀ {sem}, s.semName ≠ some sem := by simp [hn]
  refine ⟨?_, h.mapped, ?_, h.fresh, h.alive⟩
  · intro p m hm
    exact absurd (h.manager p m hm).2 habs
  · intro t th ht hop
    exact absurd (h.opened t th ht hop) habs

lemma Named.shmUnlink (h : Named s) (hu : ∀ seg, s.shmName = some seg → segmentUsed s seg = false) :
    Named { s with shmName := none } := by
  refine ⟨?_, ?_, h.opened, h.fresh, h.alive⟩
  · intro p m hm
    have hseg := (h.manager p m hm).1
    exact absurd rfl ((h.unused (hu _ hseg)).1 p m hm)
  · intro t th ht hmap
    have hseg := h.mapped t th ht hmap
    exact absurd rfl ((h.unused (hu _ hseg)).2 t th ht hmap)

lemma Named.semUnlink (h : Named s) (hu : ∀ sem, s.semName = some sem → semUsed s sem = false) :
    Named { s with semName := none } := by
  refine ⟨?_, h.mapped, ?_, h.fresh, h.alive⟩
  · intro p m hm
    have hsem := (h.manager p m hm).2
    exact absurd rfl ((h.semUnused (hu _ hsem)).1 p m hm)
  · intro t th ht hop
    have hsem := h.opened t th ht hop
    exact absurd rfl ((h.semUnused (hu _ hsem)).2 t th ht hop)

lemma passes_flags {pc pc' : Pc} (h : Passes pc pc') :
    (pc'.mapped = true → pc.mapped = true) ∧ (pc'.opened = true → pc.opened = true) ∧
      pc'.holding = false ∧ pc'.ready = false ∧ pc'.calling = pc.calling := by
  cases h <;> simp [Pc.mapped, Pc.opened, Pc.holding, Pc.ready, Pc.calling]

lemma acquires_flags {pc pc' : Pc} (h : Acquires pc pc') :
    pc.opened = true ∧ pc'.holding = true ∧ (pc'.ready = true → pc.ready = true) ∧
      pc'.calling = pc.calling := by
  cases h <;> simp [Pc.mapped, Pc.opened, Pc.holding, Pc.ready, Pc.calling]

lemma releases_flags {pc pc' : Pc} (h : Releases pc pc') :
    pc.holding = true ∧ pc'.holding = false ∧ (pc'.ready = true → pc.ready = true) ∧
      pc'.calling = pc.calling := by
  cases h <;> simp [Pc.mapped, Pc.opened, Pc.holding, Pc.ready, Pc.calling]

lemma advance_named (h : Named s) (ht : s.threads t = some th)
    (hq : undisturbed s (.advance t) = true)
    (hid : th.identity.pid ∈ s.alive) (ha : Advance s t th o u) : Named u := by
  have hheld : th.pc.opened = true → s.shmName = some th.seg ∧ s.semName = some th.sem :=
    fun ho => ⟨h.mapped t th ht (Pc.mapped_of_opened ho), h.opened t th ht ho⟩
  cases ha with
  | passed hp => exact h.goto ht (passes_flags hp).1 (passes_flags hp).2.1
  | opened _ hseg =>
    apply h.put (h.lt ht)
    · intro th' hx _
      obtain rfl := Option.some.inj hx
      exact hseg
    · intro th' hx ho
      obtain rfl := Option.some.inj hx
      exact nomatch ho
  | created _ hnone =>
    apply (h.shmCreate hnone).put (h.lt ht)
    · intro th' hx _
      obtain rfl := Option.some.inj hx
      rfl
    · intro th' hx ho
      obtain rfl := Option.some.inj hx
      exact nomatch ho
  | semOpened hpc hsem =>
    have hmap := h.mapped t th ht (by rw [hpc]; rfl)
    apply h.put (h.lt ht)
    · intro th' hx _
      obtain rfl := Option.some.inj hx
      exact hmap
    · intro th' hx _
      obtain rfl := Option.some.inj hx
      exact hsem
  | semCreated hpc hnone =>
    have hmap := h.mapped t th ht (by rw [hpc]; rfl)
    apply (h.semCreate hnone).put (h.lt ht)
    · intro th' hx _
      obtain rfl := Option.some.inj hx
      exact hmap
    · intro th' hx _
      obtain rfl := Option.some.inj hx
      rfl
  | acquired hp _ _ =>
    have hop := (acquires_flags hp).1
    exact (h.wait th.sem).goto ht (fun _ => Pc.mapped_of_opened hop) (fun _ => hop)
  | released hp =>
    have hop := Pc.opened_of_holding (releases_flags hp).1
    exact (h.post th.sem).goto ht (fun _ => Pc.mapped_of_opened hop) (fun _ => hop)
  | attached hpc =>
    exact (h.modifyRegistry _ _).goto ht (fun _ => by rw [hpc]; rfl) (fun _ => by rw [hpc]; rfl)
  | constructed hpc =>
    obtain ⟨hseg, hsem⟩ := hheld (by rw [hpc]; rfl)
    apply ((h.post th.sem).finish ht).modifyManager
    intro m hm
    obtain rfl := Option.some.inj hm
    exact ⟨hseg, hsem, hid⟩
  | full hpc _ => exact h.goto ht (fun _ => by rw [hpc]; rfl) (fun _ => by rw [hpc]; rfl)
  | scanned hpc _ => exact h.goto ht (fun _ => by rw [hpc]; rfl) (fun _ => by rw [hpc]; rfl)
  | written hpc _ =>
    exact (h.modifyRegistry _ _).goto ht (fun _ => by rw [hpc]; rfl) (fun _ => by rw [hpc]; rfl)
  | rejected _ => exact (h.post th.sem).finish ht
  | registered _ hm =>
    refine (h.finish ht).changeManager hm ?_ ?_
    · rfl
    · rfl
  | read hpc => exact h.goto ht (fun _ => by rw [hpc]; rfl) (fun _ => by rw [hpc]; rfl)
  | refreshed _ hm =>
    refine (h.finish ht).changeManager hm ?_ ?_
    · rfl
    · rfl
  | detached hpc _ =>
    exact (h.modifyRegistry _ _).goto ht (fun _ => by rw [hpc]; rfl) (fun _ => by rw [hpc]; rfl)
  | closed _ => exact h.finish ht
  | shmUnlinked hpc =>
    have hw : Named { s with shmName := none } := by
      apply h.shmUnlink
      intro seg hseg
      simpa [undisturbed, ht, hpc, hseg] using hq
    exact hw.goto ht nofun nofun
  | semUnlinked hpc =>
    have hw : Named { s with semName := none } := by
      apply h.semUnlink
      intro sem hsem
      simpa [undisturbed, ht, hpc, hsem] using hq
    exact hw.finish ht

end Named

/-- The identity of a process and of a manager that it has constructed. -/
def Genuine (id : Identity) : Prop :=
  id.pid < 2 ^ 31 ∧ ∃ k < 2 ^ 32, id.instanceId = makeInstanceId id.pid k

/-- A constructor or a destructor is its process's only thread, and the process
has no manager meanwhile. -/
structure Identified (s : Host) : Prop where
  alive : ∀ p ∈ s.alive, p < 2 ^ 31
  manager : ∀ p m, s.managers p = some m → m.identity.pid = p ∧ Genuine m.identity
  thread : ∀ t th, s.threads t = some th → th.identity.pid ∈ s.alive ∧ Genuine th.identity
  calling : ∀ t th, s.threads t = some th → th.pc.calling = true →
    ∃ m, s.managers th.identity.pid = some m ∧ m.identity = th.identity
  pending : ∀ t th, s.threads t = some th → th.pc.calling = false →
    s.managers th.identity.pid = none
  sole : ∀ t th t' th', s.threads t = some th → s.threads t' = some th' →
    th.pc.calling = false → th'.identity.pid = th.identity.pid → t' = t

section Identified

lemma Identified.put (h : Identified s) {x : Option Thread}
    (hx : ∀ th', x = some th' → ∃ th, s.threads t = some th ∧ th'.identity = th.identity ∧
      th'.pc.calling = th.pc.calling) : Identified (s.put t x) := by
  have hold : ∀ {t' th'}, (s.put t x).threads t' = some th' → ∃ th, s.threads t' = some th ∧
      th'.identity = th.identity ∧ th'.pc.calling = th.pc.calling := by
    intro t' th' ht'
    rcases update_some ht' with ⟨rfl, he⟩ | ⟨_, ht'⟩
    · exact hx th' he
    · exact ⟨th', ht', rfl, rfl⟩
  refine ⟨h.alive, h.manager, ?_, ?_, ?_, ?_⟩
  · intro t' th' ht'
    obtain ⟨th, ht, hid, _⟩ := hold ht'
    rw [hid]
    exact h.thread t' th ht
  · intro t' th' ht' hc
    obtain ⟨th, ht, hid, hcall⟩ := hold ht'
    rw [hid]
    exact h.calling t' th ht (hcall ▸ hc)
  · intro t' th' ht' hc
    obtain ⟨th, ht, hid, hcall⟩ := hold ht'
    rw [hid]
    exact h.pending t' th ht (hcall ▸ hc)
  · intro t₁ th₁ t₂ th₂ h₁ h₂ hc hp
    obtain ⟨th, ht, hid, hcall⟩ := hold h₁
    obtain ⟨th', ht', hid', _⟩ := hold h₂
    exact h.sole t₁ th t₂ th' ht ht' (hcall ▸ hc) (by rw [← hid, ← hid', hp])

lemma Identified.finish (h : Identified s) (t : ℕ) : Identified (s.put t none) := h.put nofun

lemma Identified.goto (h : Identified s) (ht : s.threads t = some th) {pc : Pc}
    (hc : pc.calling = th.pc.calling) : Identified (s.goto t th pc) := by
  apply h.put
  intro th' hx
  obtain rfl := Option.some.inj hx
  exact ⟨th, ht, rfl, hc⟩

lemma Identified.spawn (h : Identified s) {th : Thread} (hid : th.identity.pid ∈ s.alive)
    (hg : Genuine th.identity) (hc : th.pc.calling = true →
      ∃ m, s.managers th.identity.pid = some m ∧ m.identity = th.identity)
    (hp : th.pc.calling = false → s.managers th.identity.pid = none ∧
      ∀ t th', s.threads t = some th' → th'.identity.pid ≠ th.identity.pid) :
    Identified (s.spawn th) := by
  refine ⟨h.alive, h.manager, ?_, ?_, ?_, ?_⟩
  · intro t' th' ht'
    rcases update_some ht' with ⟨_, he⟩ | ⟨_, ht'⟩
    · obtain rfl := Option.some.inj he
      exact ⟨hid, hg⟩
    · exact h.thread t' th' ht'
  · intro t' th' ht' hcall
    rcases update_some ht' with ⟨_, he⟩ | ⟨_, ht'⟩
    · obtain rfl := Option.some.inj he
      exact hc hcall
    · exact h.calling t' th' ht' hcall
  · intro t' th' ht' hcall
    rcases update_some ht' with ⟨_, he⟩ | ⟨_, ht'⟩
    · obtain rfl := Option.some.inj he
      exact (hp hcall).1
    · exact h.pending t' th' ht' hcall
  · intro t₁ th₁ t₂ th₂ h₁ h₂ hcall he
    rcases update_some h₁ with ⟨rfl, hx₁⟩ | ⟨_, h₁⟩ <;>
      rcases update_some h₂ with ⟨rfl, hx₂⟩ | ⟨_, h₂⟩
    · rfl
    · obtain rfl := Option.some.inj hx₁
      exact absurd he ((hp hcall).2 t₂ th₂ h₂)
    · -- the new thread is a call, so its manager is not under destruction
      obtain rfl := Option.some.inj hx₂
      have hnone := h.pending t₁ th₁ h₁ hcall
      rw [← he] at hnone
      cases hcall' : th.pc.calling with
      | true =>
        obtain ⟨m, hm, _⟩ := hc hcall'
        rw [hnone] at hm
        exact nomatch hm
      | false => exact absurd he.symm ((hp hcall').2 t₁ th₁ h₁)
    · exact h.sole t₁ th₁ t₂ th₂ h₁ h₂ hcall he

lemma Identified.modifyManager (h : Identified s) {pid : ℕ} {m : HostEndpointManager}
    (hpid : m.identity.pid = pid) (hg : Genuine m.identity)
    (hold : ∀ m', s.managers pid = some m' → m'.identity = m.identity)
    (hp : ∀ t th, s.threads t = some th → th.pc.calling = false → th.identity.pid ≠ pid) :
    Identified (s.modifyManager pid (some m)) := by
  refine ⟨h.alive, ?_, h.thread, ?_, ?_, h.sole⟩
  · intro p m' hm'
    by_cases hx : p = pid
    · subst hx
      obtain rfl : m = m' := by simpa [Host.modifyManager] using hm'
      exact ⟨hpid, hg⟩
    · exact h.manager p m' (by simpa [Host.modifyManager, Function.update_of_ne hx] using hm')
  · intro t th ht hc
    obtain ⟨m', hm', hid⟩ := h.calling t th ht hc
    by_cases hx : th.identity.pid = pid
    · refine ⟨m, by simp [Host.modifyManager, hx], ?_⟩
      rw [← hold m' (hx ▸ hm'), hid]
    · exact ⟨m', by simpa [Host.modifyManager, Function.update_of_ne hx] using hm', hid⟩
  · intro t th ht hc
    have hx := hp t th ht hc
    simpa [Host.modifyManager, Function.update_of_ne hx] using h.pending t th ht hc

lemma Identified.no_pending (h : Identified s) {pid : ℕ} {m : HostEndpointManager}
    (hm : s.managers pid = some m) (ht : s.threads t = some th) (hc : th.pc.calling = false) :
    th.identity.pid ≠ pid := by
  intro he
  have hnone := h.pending t th ht hc
  rw [he, hm] at hnone
  exact nomatch hnone

lemma Identified.changeManager (h : Identified s) {pid : ℕ} {m m' : HostEndpointManager}
    (hm : s.managers pid = some m) (hid : m'.identity = m.identity) :
    Identified (s.modifyManager pid (some m')) := by
  refine h.modifyManager ?_ ?_ ?_ ?_
  · rw [hid]
    exact (h.manager pid m hm).1
  · rw [hid]
    exact (h.manager pid m hm).2
  · intro m₀ hm₀
    obtain rfl := Option.some.inj (hm₀.symm.trans hm)
    exact hid.symm
  · intro t th ht hc
    exact h.no_pending hm ht hc

lemma Identified.frame (h : Identified s) {registries : ℕ → EndpointRegistry} {semValue : ℕ → ℕ}
    {shmName semName : Option ℕ} {nextSegment nextSem : ℕ} :
    Identified { s with
      registries := registries, semValue := semValue, shmName := shmName, semName := semName,
      nextSegment := nextSegment, nextSem := nextSem } :=
  ⟨h.alive, h.manager, h.thread, h.calling, h.pending, h.sole⟩

lemma Identified.wait (h : Identified s) (sem : ℕ) : Identified (s.wait sem) := h.frame

lemma Identified.post (h : Identified s) (sem : ℕ) : Identified (s.post sem) := h.frame

lemma Identified.modifyRegistry (h : Identified s) (seg : ℕ)
    (f : EndpointRegistry → EndpointRegistry) : Identified (s.modifyRegistry seg f) :=
  h.frame

lemma Identified.shmCreate (h : Identified s) : Identified s.shmCreate := h.frame

lemma Identified.semCreate (h : Identified s) : Identified s.semCreate := h.frame

lemma Identified.goto_frame (h : Identified s) (ht : s.threads t = some th) {seg sem : ℕ} {pc : Pc}
    (hc : pc.calling = th.pc.calling) :
    Identified (s.put t (some { th with seg := seg, sem := sem, pc := pc })) := by
  apply h.put
  intro th' hx
  obtain rfl := Option.some.inj hx
  exact ⟨th, ht, rfl, hc⟩

lemma advance_identified (h : Identified s) (ht : s.threads t = some th) (ha : Advance s t th o u) :
    Identified u := by
  cases ha with
  | passed hp => exact h.goto ht (passes_flags hp).2.2.2.2
  | opened hpc _ => exact h.goto_frame ht (by rw [hpc]; rfl)
  | created hpc _ => exact h.shmCreate.goto_frame ht (by rw [hpc]; rfl)
  | semOpened hpc _ => exact h.goto_frame ht (by rw [hpc]; rfl)
  | semCreated hpc _ => exact h.semCreate.goto_frame ht (by rw [hpc]; rfl)
  | acquired hp _ _ =>
    exact (h.wait th.sem).goto ht (acquires_flags hp).2.2.2
  | released hp =>
    exact (h.post th.sem).goto ht (releases_flags hp).2.2.2
  | attached hpc =>
    exact (h.modifyRegistry _ _).goto ht (by rw [hpc]; rfl)
  | constructed hpc =>
    have hcall : th.pc.calling = false := by rw [hpc]; rfl
    refine ((h.post th.sem).finish t).modifyManager ?_ ?_ ?_ ?_
    · rfl
    · exact (h.thread t th ht).2
    · intro m hm
      have hnone := h.pending t th ht hcall
      exact absurd (hnone.symm.trans hm) nofun
    · intro t' th' ht' hc he
      rcases update_some ht' with ⟨_, hx⟩ | ⟨hne, ht'⟩
      · exact nomatch hx
      · exact hne (h.sole t th t' th' ht ht' hcall he)
  | full hpc _ => exact h.goto ht (by rw [hpc]; rfl)
  | scanned hpc _ => exact h.goto ht (by rw [hpc]; rfl)
  | written hpc _ => exact (h.modifyRegistry _ _).goto ht (by rw [hpc]; rfl)
  | rejected _ => exact (h.post th.sem).finish t
  | registered _ hm =>
    refine (h.finish t).changeManager hm ?_
    rfl
  | read hpc => exact h.goto ht (by rw [hpc]; rfl)
  | refreshed _ hm =>
    refine (h.finish t).changeManager hm ?_
    rfl
  | detached hpc _ => exact (h.modifyRegistry _ _).goto ht (by rw [hpc]; rfl)
  | closed _ => exact h.finish t
  | shmUnlinked hpc =>
    have hf : Identified { s with shmName := none } := h.frame
    exact hf.goto ht (by rw [hpc]; rfl)
  | semUnlinked _ =>
    have hf : Identified { s with semName := none } := h.frame
    exact hf.finish t

lemma idle_threads (h : Named s) {pid : ℕ} (hi : s.idle pid = true) (ht : s.threads t = some th) :
    th.identity.pid ≠ pid := by
  intro he
  have hany := anyThread_of_mem (p := fun th => decide (th.identity.pid = pid)) h.fresh ht
    (decide_eq_true he)
  simp [idle, hany] at hi

lemma step_identified (hn : Named s) (h : Identified s) (hq : undisturbed s e = true)
    (hs : step s e = some (o, u)) : Identified u := by
  cases step_cases hs with
  | @started pid hpos hlt =>
    refine ⟨?_, h.manager, ?_, h.calling, h.pending, h.sole⟩
    · intro p hp
      rcases List.mem_cons.mp hp with rfl | hp
      · exact hlt
      · exact h.alive p hp
    · intro t th ht
      exact ⟨List.mem_cons_of_mem _ (h.thread t th ht).1, (h.thread t th ht).2⟩
  | @exited pid =>
    have hmanagers : ∀ {p}, p ≠ pid → Function.update s.managers pid none p = s.managers p :=
      fun hp => Function.update_of_ne hp _ _
    refine ⟨?_, ?_, ?_, ?_, ?_, ?_⟩
    · intro p hp
      exact h.alive p (List.mem_of_mem_filter hp)
    · intro p m hm
      exact h.manager p m (removed_manager hm).2
    · intro t th ht
      obtain ⟨ht, hne⟩ := exited_thread ht
      refine ⟨List.mem_filter.mpr ⟨(h.thread t th ht).1, by simpa using hne⟩, (h.thread t th ht).2⟩
    · intro t th ht hc
      obtain ⟨ht, hne⟩ := exited_thread ht
      obtain ⟨m, hm, hid⟩ := h.calling t th ht hc
      exact ⟨m, (hmanagers hne).trans hm, hid⟩
    · intro t th ht hc
      obtain ⟨ht, hne⟩ := exited_thread ht
      exact (hmanagers hne).trans (h.pending t th ht hc)
    · intro t th t' th' ht ht' hc hp
      exact h.sole t th t' th' (exited_thread ht).1 (exited_thread ht').1 hc hp
  | @constructing pid k uid deviceId hmem hnone =>
    have hk : k < 2 ^ 32 := of_decide_eq_true hq
    have hidle : s.idle pid = true := by
      simp only [step] at hs
      split_ifs at hs with hg
      exact hg.2.2
    apply h.spawn hmem ⟨h.alive pid hmem, k, hk, rfl⟩
    · intro hc
      cases hc
    · intro _
      exact ⟨hnone, fun t th' ht => idle_threads hn hidle ht⟩
  | flagged hm => exact h.changeManager hm rfl
  | @called _ pid m pc hm hpc =>
    obtain ⟨hpid, hg⟩ := h.manager pid m hm
    apply h.spawn (hpid ▸ hn.alive pid m hm) hg
    · intro _
      exact ⟨m, by rw [hpid, hm], rfl⟩
    · intro hc
      rcases hpc with ⟨_, _, rfl⟩ | rfl <;> cases hc
  | @destroying pid m hidle hm =>
    obtain ⟨hpid, hg⟩ := h.manager pid m hm
    have hother : ∀ {t th}, s.threads t = some th → th.identity.pid ≠ pid :=
      fun ht => idle_threads hn hidle ht
    have hmanagers : ∀ {p}, p ≠ pid → Function.update s.managers pid none p = s.managers p :=
      fun hp => Function.update_of_ne hp _ _
    refine ⟨h.alive, ?_, ?_, ?_, ?_, ?_⟩
    · intro p m' hm'
      exact h.manager p m' (removed_manager hm').2
    · intro t th ht
      rcases update_some ht with ⟨_, hx⟩ | ⟨_, ht⟩
      · obtain rfl := Option.some.inj hx
        exact ⟨hpid ▸ hn.alive pid m hm, hg⟩
      · exact h.thread t th ht
    · intro t th ht hc
      rcases update_some ht with ⟨_, hx⟩ | ⟨_, ht⟩
      · obtain rfl := Option.some.inj hx
        cases hc
      · obtain ⟨m', hm', hid⟩ := h.calling t th ht hc
        exact ⟨m', (hmanagers (hother ht)).trans hm', hid⟩
    · intro t th ht hc
      rcases update_some ht with ⟨_, hx⟩ | ⟨_, ht⟩
      · obtain rfl := Option.some.inj hx
        simp [Host.modifyManager, hpid]
      · exact (hmanagers (hother ht)).trans (h.pending t th ht hc)
    · intro t₁ th₁ t₂ th₂ h₁ h₂ hc hp
      rcases update_some h₁ with ⟨rfl, hx₁⟩ | ⟨_, h₁⟩ <;>
        rcases update_some h₂ with ⟨rfl, hx₂⟩ | ⟨_, h₂⟩
      · rfl
      · obtain rfl := Option.some.inj hx₁
        exact absurd (hp.trans hpid) (hother h₂)
      · obtain rfl := Option.some.inj hx₂
        exact absurd (hp.symm.trans hpid) (hother h₁)
      · exact h.sole t₁ th₁ t₂ th₂ h₁ h₂ hc hp
  | advanced ht ha => exact advance_identified h ht ha

lemma step_named (h : Named s) (hid : Identified s) (hq : undisturbed s e = true)
    (hs : step s e = some (o, u)) : Named u := by
  cases step_cases hs with
  | started _ _ =>
    exact ⟨h.manager, h.mapped, h.opened, h.fresh,
      fun p m hm => List.mem_cons_of_mem _ (h.alive p m hm)⟩
  | @exited pid =>
    refine ⟨?_, ?_, ?_, ?_, ?_⟩
    · intro p m hm
      exact h.manager p m (removed_manager hm).2
    · intro t th ht hmap
      exact h.mapped t th (exited_thread ht).1 hmap
    · intro t th ht hop
      exact h.opened t th (exited_thread ht).1 hop
    · intro t hle
      simp [h.fresh t hle]
    · intro p m hm
      obtain ⟨hp, hm⟩ := removed_manager hm
      exact List.mem_filter.mpr ⟨h.alive p m hm, by simpa using hp⟩
  | constructing _ _ => exact h.spawn nofun nofun
  | flagged hm => exact h.changeManager hm rfl rfl
  | called hm hpc => exact h.spawn (fun _ => (h.manager _ _ hm).1) (fun _ => (h.manager _ _ hm).2)
  | destroying _ hm =>
    apply (h.spawn (fun _ => (h.manager _ _ hm).1) (fun _ => (h.manager _ _ hm).2)).modifyManager
    exact nofun
  | advanced ht ha => exact advance_named h ht hq (hid.thread _ _ ht).1 ha

end Identified

end RosidlBufferBackends.Registry
