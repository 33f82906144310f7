import RosidlBufferBackends.Registry.Host
import Mathlib.Data.List.Count

/-! One registry segment under the operations of any number of managers, each of
which holds the semaphore throughout. -/

namespace RosidlBufferBackends.Registry

open Runs

inductive Operation
  | attach (alive : ℕ → Bool)
  | registerEndpoint (m : HostEndpointManager) (gid : ℕ) (type : EntityType)
  | detach (alive : ℕ → Bool) (instanceId : ℕ)

namespace EndpointRegistry

-- a manager registers and detaches after its constructor has attached it
def step (r : EndpointRegistry) : Operation → Option (Bool × EndpointRegistry)
  | .attach alive => some (true, r.attach alive)
  | .registerEndpoint m gid type =>
      if r.version = 0 then none
      else
        match r.findSlot gid with
        | none => some (false, r)
        | some slot => some (true, r.writeSlot slot (Host.entryOf m gid type))
  | .detach alive instanceId =>
      if r.version = 0 then none else some (true, r.detach alive instanceId)

def activeCount (r : EndpointRegistry) : ℕ :=
  (List.range r.numEntries).countP (fun i => (r.entries i).active)

/-- By the operation the entry may change or become inactive. -/
def Affects (o : Operation) (e : EndpointEntry) : Prop :=
  match o with
  | .attach alive => isDead alive e = true
  | .registerEndpoint _ gid _ => e.gid = gid
  | .detach alive instanceId => e.instanceId = instanceId ∨ isDead alive e = true

structure Sound (r : EndpointRegistry) : Prop where
  fits : r.numEntries ≤ r.maxEntries
  sized : r.version ≠ 0 → r.maxEntries = maxEndpoints
  fresh : r.version = 0 → r.numEntries = 0
  distinct : r.Distinct

variable {r r' : EndpointRegistry} {o : Operation} {ok : Bool} {gid i : ℕ} {e : EndpointEntry}
  {slot : ℕ × Bool}

lemma findSlot_none (h : r.findSlot gid = none) : r.maxEntries ≤ r.numEntries ∧
    ∀ j < r.numEntries, (r.entries j).active = true ∧ (r.entries j).gid ≠ gid := by
  unfold findSlot at h
  split at h
  · exact nomatch h
  · rename_i hgid
    split at h
    · exact nomatch h
    · rename_i hactive
      split_ifs at h with hfull
      refine ⟨hfull, ?_⟩
      intro j hj
      have ha := List.find?_eq_none.mp hactive j (List.mem_range.mpr hj)
      have hg := List.find?_eq_none.mp hgid j (List.mem_range.mpr hj)
      exact ⟨by simpa using ha, by simpa using hg⟩

/-- An entry is appended when all others are active. -/
lemma findSlot_append (h : r.findSlot gid = some (i, true)) : i = r.numEntries ∧
    r.numEntries < r.maxEntries ∧ ∀ j < r.numEntries, (r.entries j).active = true := by
  unfold findSlot at h
  split at h
  · simp at h
  · split at h
    · simp at h
    · rename_i hactive
      split_ifs at h with hfull
      obtain ⟨rfl, _⟩ := Prod.mk.inj (Option.some.inj h)
      refine ⟨rfl, not_le.mp hfull, ?_⟩
      intro j hj
      have ha := List.find?_eq_none.mp hactive j (List.mem_range.mpr hj)
      simpa using ha

lemma slot_lt (h : r.findSlot gid = some slot) (e : EndpointEntry) :
    slot.1 < (r.writeSlot slot e).numEntries := by
  obtain ⟨i, grown⟩ := slot
  cases grown with
  | false =>
    rcases findSlot_some h with ⟨_, hlt, _⟩ | ⟨_, ⟨_, hlt, _⟩ | ⟨hs, _⟩⟩
    · exact hlt
    · exact hlt
    · exact nomatch hs
  | true =>
    obtain ⟨rfl, _⟩ := findSlot_append h
    exact Nat.lt_succ_self _

lemma writeSlot_other (h : i ≠ slot.1) : (r.writeSlot slot e).entries i = r.entries i :=
  Function.update_of_ne h _ _

lemma writeSlot_self : (r.writeSlot slot e).entries slot.1 = e := Function.update_self ..

lemma writeSlot_sound (hr : r.Sound) (h : r.findSlot gid = some slot) (he : e.gid = gid)
    (hv : r.version ≠ 0) : (r.writeSlot slot e).Sound := by
  refine ⟨?_, hr.sized, fun hzero => absurd hzero hv, writeSlot_distinct hr.distinct h he⟩
  obtain ⟨i, grown⟩ := slot
  cases grown with
  | false => exact hr.fits
  | true => exact (findSlot_append h).2.1

lemma mapEntries_sound {f : EndpointEntry → EndpointEntry} (hf : ∀ e, (f e).gid = e.gid)
    (hr : r.Sound) : (r.mapEntries f).Sound :=
  ⟨hr.fits, hr.sized, hr.fresh, mapEntries_distinct hf hr.distinct⟩

lemma purge_sound (alive : ℕ → Bool) (hr : r.Sound) : (r.purgeDeadEntries alive).Sound := by
  apply mapEntries_sound _ hr
  intro e
  split <;> rfl

lemma deactivate_sound (instanceId : ℕ) (hr : r.Sound) : (r.deactivate instanceId).Sound := by
  apply mapEntries_sound _ hr
  intro e
  split <;> rfl

lemma attach_sound (alive : ℕ → Bool) (hr : r.Sound) : (r.attach alive).Sound := by
  unfold attach
  split_ifs
  · exact ⟨Nat.zero_le _, fun _ => rfl, nofun, nofun⟩
  · exact purge_sound alive hr

lemma step_sound (hr : r.Sound) (hs : r.step o = some (ok, r')) : r'.Sound := by
  cases o with
  | attach alive =>
    obtain ⟨_, rfl⟩ := Prod.mk.inj (Option.some.inj hs)
    exact attach_sound alive hr
  | registerEndpoint m gid type =>
    simp only [step] at hs
    split_ifs at hs with hv
    split at hs
    · obtain ⟨_, rfl⟩ := Prod.mk.inj (Option.some.inj hs)
      exact hr
    · obtain ⟨_, rfl⟩ := Prod.mk.inj (Option.some.inj hs)
      exact writeSlot_sound hr ‹_› rfl hv
  | detach alive instanceId =>
    simp only [step] at hs
    split_ifs at hs
    obtain ⟨_, rfl⟩ := Prod.mk.inj (Option.some.inj hs)
    exact purge_sound alive (deactivate_sound instanceId hr)

lemma activeCount_full (h : ∀ j < r.numEntries, (r.entries j).active = true) :
    r.activeCount = r.numEntries := by
  have hall : ∀ j ∈ List.range r.numEntries, (r.entries j).active = true :=
    fun j hj => h j (List.mem_range.mp hj)
  rw [activeCount, List.countP_eq_length.mpr hall, List.length_range]

/-- The table grows only to hold one more entry than it has active ones. -/
lemma step_grows (hs : r.step o = some (ok, r')) :
    r'.numEntries ≤ r.numEntries ∨ r'.numEntries ≤ r'.activeCount := by
  cases o with
  | attach alive =>
    obtain ⟨_, rfl⟩ := Prod.mk.inj (Option.some.inj hs)
    left
    unfold attach
    split_ifs
    · exact Nat.zero_le _
    · exact le_rfl
  | registerEndpoint m gid type =>
    simp only [step] at hs
    split_ifs at hs
    split at hs
    · obtain ⟨_, rfl⟩ := Prod.mk.inj (Option.some.inj hs)
      exact .inl le_rfl
    · rename_i slot hslot
      obtain ⟨_, rfl⟩ := Prod.mk.inj (Option.some.inj hs)
      obtain ⟨i, grown⟩ := slot
      cases grown with
      | false => exact .inl le_rfl
      | true =>
        obtain ⟨rfl, _, hactive⟩ := findSlot_append hslot
        right
        refine (activeCount_full ?_).ge
        intro j hj
        by_cases hx : j = r.numEntries
        · subst hx
          have hself : (r.writeSlot (r.numEntries, true) (Host.entryOf m gid type)).entries
            r.numEntries = Host.entryOf m gid type := writeSlot_self
          rw [hself]
          rfl
        · have hother : (r.writeSlot (r.numEntries, true) (Host.entryOf m gid type)).entries j =
            r.entries j := writeSlot_other hx
          rw [hother]
          exact hactive j (lt_of_le_of_ne (Nat.lt_succ_iff.mp hj) hx)
  | detach alive instanceId =>
    simp only [step] at hs
    split_ifs at hs
    obtain ⟨_, rfl⟩ := Prod.mk.inj (Option.some.inj hs)
    exact .inl le_rfl

lemma purge_keeps {alive : ℕ → Bool} (hdead : isDead alive (r.entries i) = false) :
    (r.purgeDeadEntries alive).entries i = r.entries i := by
  simp [purgeDeadEntries, mapEntries, hdead]

lemma deactivate_keeps {instanceId : ℕ} (hne : (r.entries i).instanceId ≠ instanceId) :
    (r.deactivate instanceId).entries i = r.entries i := by
  simp [deactivate, mapEntries, hne]

/-- An active entry stays as it is, unless the operation affects it. -/
lemma step_keeps (hr : r.Sound) (hs : r.step o = some (ok, r')) (hi : i < r.numEntries)
    (ha : (r.entries i).active = true) (ho : ¬ Affects o (r.entries i)) :
    i < r'.numEntries ∧ r'.entries i = r.entries i := by
  cases o with
  | attach alive =>
    obtain ⟨_, rfl⟩ := Prod.mk.inj (Option.some.inj hs)
    have hv : r.version ≠ 0 := by
      intro hzero
      rw [hr.fresh hzero] at hi
      exact absurd hi i.not_lt_zero
    rw [attach, if_neg hv]
    exact ⟨hi, purge_keeps (by simpa [Affects] using ho)⟩
  | registerEndpoint m gid type =>
    simp only [step] at hs
    split_ifs at hs
    split at hs
    · obtain ⟨_, rfl⟩ := Prod.mk.inj (Option.some.inj hs)
      exact ⟨hi, rfl⟩
    · rename_i slot hslot
      obtain ⟨_, rfl⟩ := Prod.mk.inj (Option.some.inj hs)
      have hne : i ≠ slot.1 := by
        rintro rfl
        rcases findSlot_some hslot with ⟨_, _, hg⟩ | ⟨_, ⟨_, _, hfree⟩ | ⟨_, hn⟩⟩
        · exact ho hg
        · rw [hfree] at ha
          exact nomatch ha
        · omega
      refine ⟨?_, writeSlot_other hne⟩
      simp only [writeSlot]
      split <;> omega
  | detach alive instanceId =>
    simp only [step] at hs
    split_ifs at hs
    obtain ⟨_, rfl⟩ := Prod.mk.inj (Option.some.inj hs)
    obtain ⟨hown, hdead⟩ := not_or.mp ho
    have hkept := deactivate_keeps (r := r) hown
    refine ⟨hi, ?_⟩
    rw [detach, purge_keeps, hkept]
    rw [hkept]
    simpa using hdead

variable {tr : List (Operation × Bool)}

lemma run_sound (hr : Run step {} tr r) : r.Sound := by
  apply hr.invariant
  · exact ⟨le_rfl, fun hv => absurd rfl hv, fun _ => rfl, nofun⟩
  · exact fun _ _ _ _ h hs => step_sound h hs

/-- At some moment of the run as many entries were active as the table has now. -/
lemma run_peak (hr : Run step {} tr r) : ∃ pre post t, tr = pre ++ post ∧
    Run step {} pre t ∧ r.numEntries ≤ t.activeCount := by
  induction hr with
  | nil => exact ⟨[], [], {}, rfl, .nil, le_rfl⟩
  | @snoc t u tr o ok hr hs ih =>
    rcases step_grows hs with hle | hfull
    · obtain ⟨pre, post, v, rfl, hv, hpeak⟩ := ih
      exact ⟨pre, post ++ [(o, ok)], v, by simp, hv, hle.trans hpeak⟩
    · exact ⟨tr ++ [(o, ok)], [], u, by simp, .snoc hr hs, hfull⟩

end EndpointRegistry

open EndpointRegistry

/-- The table of entries after any operations, what a registration does to it, and
what may change an active entry. -/
theorem registry_representation {tr : List (Operation × Bool)} {r : EndpointRegistry}
    (hr : Run step {} tr r) :
    (r.numEntries ≤ r.maxEntries ∧
      ∃ pre post t, tr = pre ++ post ∧ Run step {} pre t ∧ r.numEntries ≤ t.activeCount) ∧
    (∀ i < r.numEntries, ∀ j < r.numEntries, (r.entries i).gid = (r.entries j).gid → i = j) ∧
    (∀ m gid type r', r.step (.registerEndpoint m gid type) = some (true, r') →
      ∃ i < r'.numEntries, r'.entries i = Host.entryOf m gid type ∧
        (∀ j < r'.numEntries, (r'.entries j).gid = gid → j = i) ∧
        ∀ j, j ≠ i → r'.entries j = r.entries j) ∧
    (∀ m gid type r', r.step (.registerEndpoint m gid type) = some (false, r') →
      r' = r ∧ r.numEntries = maxEndpoints ∧
        ∀ j < maxEndpoints, (r.entries j).active = true ∧ (r.entries j).gid ≠ gid) ∧
    ∀ o ok r' i, r.step o = some (ok, r') → i < r.numEntries → (r.entries i).active = true →
      ¬ Affects o (r.entries i) → i < r'.numEntries ∧ r'.entries i = r.entries i := by
  have hsound := run_sound hr
  refine ⟨⟨hsound.fits, run_peak hr⟩, hsound.distinct, ?_, ?_, ?_⟩
  · intro m gid type r' hs
    have hdistinct := (step_sound hsound hs).distinct
    simp only [step] at hs
    split_ifs at hs
    split at hs
    · simp at hs
    · rename_i slot hslot
      obtain ⟨_, rfl⟩ := Prod.mk.inj (Option.some.inj hs)
      have hlt := slot_lt hslot (Host.entryOf m gid type)
      refine ⟨slot.1, hlt, writeSlot_self, ?_, fun j hj => writeSlot_other hj⟩
      intro j hj hg
      exact hdistinct j hj slot.1 hlt (by rw [hg, writeSlot_self]; rfl)
  · intro m gid type r' hs
    simp only [step] at hs
    split_ifs at hs with hv
    split at hs
    · obtain ⟨hfull, hall⟩ := findSlot_none ‹_›
      obtain ⟨_, rfl⟩ := Prod.mk.inj (Option.some.inj hs)
      have hn : r.numEntries = maxEndpoints :=
        (le_antisymm hsound.fits hfull).trans (hsound.sized hv)
      exact ⟨rfl, hn, fun j hj => hall j (hn ▸ hj)⟩
    · simp at hs
  · intro o ok r' i hs hi ha ho
    exact step_keeps hsound hs hi ha ho

theorem registry_representation_once : ∃ tr r, Run step {} tr r ∧ r.numEntries = 2 ∧
    (r.entries 1).gid ≠ (r.entries 0).gid := by
  let m : HostEndpointManager :=
    { identity := ⟨7, makeInstanceId 7 1, 0, 1000⟩, seg := 0, sem := 0 }
  let ops : List Operation := [.attach (fun _ => true), .registerEndpoint m 5 .publisher,
    .registerEndpoint m 6 .subscription, .registerEndpoint m 5 .publisher]
  have hlast : (exec step {} ops).any (fun x => decide (x.2.numEntries = 2)) = true := by
    decide +kernel
  obtain ⟨⟨tr, r⟩, hx, hn⟩ := Option.any_eq_true _ _ |>.mp hlast
  have hr := exec_run hx
  have hn : r.numEntries = 2 := of_decide_eq_true hn
  refine ⟨tr, r, hr, hn, ?_⟩
  intro hg
  have hsame := (registry_representation hr).2.1 1 (by omega) 0 (by omega) hg
  exact nomatch hsame

end RosidlBufferBackends.Registry
