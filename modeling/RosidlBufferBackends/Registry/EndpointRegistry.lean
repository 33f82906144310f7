import Mathlib.Data.List.Range
import Mathlib.Data.Nat.Bitwise
import Mathlib.Logic.Function.Basic

/-! The contents of one registry segment, the operations on them between
`sem_wait` and `sem_post`, and a manager's cache of them. -/

namespace RosidlBufferBackends.Registry

inductive EntityType
  | publisher
  | subscription
  | serviceClient
  | serviceServer
  deriving DecidableEq, Repr

inductive EndpointLocality
  | undefined
  | intraProcess
  | interProcessSameHost
  | interHost
  deriving DecidableEq, Repr

-- a gid is the number that its bytes spell
structure EndpointEntry where
  instanceId : ℕ := 0
  gid : ℕ := 0
  entityType : EntityType := .publisher
  deviceId : ℤ := 0
  uid : ℕ := 0
  active : Bool := false
  ipcCapable : Bool := false
  deriving DecidableEq, Repr

structure EndpointRegistry where
  version : ℕ := 0
  maxEntries : ℕ := 0
  numEntries : ℕ := 0
  entries : ℕ → EndpointEntry := fun _ => {}

structure CachedEndpointInfo where
  locality : EndpointLocality
  instanceId : ℕ
  entityType : EntityType
  deviceId : ℤ
  uid : ℕ
  ipcCapable : Bool
  deriving DecidableEq, Repr

structure LocalityInfo where
  locality : EndpointLocality
  entityType : EntityType
  remoteInstanceId : ℕ
  deviceId : ℤ
  uid : ℕ
  ipcCapable : Bool
  found : Bool
  deriving DecidableEq, Repr

abbrev Cache := ℕ → Option CachedEndpointInfo

def maxEndpoints : ℕ := 512

/-- The constructor's `next_id` is `k`. -/
def makeInstanceId (pid k : ℕ) : ℕ := (pid <<< 32) % 2 ^ 64 ||| k

def pidOf (instanceId : ℕ) : ℕ := (instanceId >>> 32) % 2 ^ 32

/-- The test of `kill`, made for positive process ids. -/
def isDead (alive : ℕ → Bool) (e : EndpointEntry) : Bool :=
  decide (0 < pidOf e.instanceId ∧ pidOf e.instanceId < 2 ^ 31) && !alive (pidOf e.instanceId)

namespace EndpointRegistry

def mapEntries (f : EndpointEntry → EndpointEntry) (r : EndpointRegistry) : EndpointRegistry :=
  { r with entries := fun i => if i < r.numEntries then f (r.entries i) else r.entries i }

def purgeDeadEntries (alive : ℕ → Bool) (r : EndpointRegistry) : EndpointRegistry :=
  r.mapEntries (fun e => if e.active && isDead alive e then { e with active := false } else e)

def deactivate (instanceId : ℕ) (r : EndpointRegistry) : EndpointRegistry :=
  r.mapEntries (fun e =>
    if e.active && decide (e.instanceId = instanceId) then { e with active := false } else e)

def hasActiveEntries (r : EndpointRegistry) : Bool :=
  (List.range r.numEntries).any (fun i => (r.entries i).active)

/-- The critical section of the constructor. -/
def attach (alive : ℕ → Bool) (r : EndpointRegistry) : EndpointRegistry :=
  if r.version = 0 then
    { version := 1
      maxEntries := maxEndpoints
      numEntries := 0
      entries := fun i =>
        if i < maxEndpoints then { r.entries i with active := false } else r.entries i }
  else r.purgeDeadEntries alive

/-- The critical section of the destructor. -/
def detach (alive : ℕ → Bool) (instanceId : ℕ) (r : EndpointRegistry) : EndpointRegistry :=
  (r.deactivate instanceId).purgeDeadEntries alive

/-- The slot for a gid, and whether it is appended. -/
def findSlot (r : EndpointRegistry) (gid : ℕ) : Option (ℕ × Bool) :=
  match (List.range r.numEntries).find? (fun i => decide ((r.entries i).gid = gid)) with
  | some i => some (i, false)
  | none =>
      match (List.range r.numEntries).find? (fun i => !(r.entries i).active) with
      | some i => some (i, false)
      | none => if r.maxEntries ≤ r.numEntries then none else some (r.numEntries, true)

def writeSlot (r : EndpointRegistry) (slot : ℕ × Bool) (e : EndpointEntry) : EndpointRegistry :=
  { r with
    numEntries := if slot.2 then r.numEntries + 1 else r.numEntries
    entries := Function.update r.entries slot.1 e }

end EndpointRegistry

def EndpointEntry.cached (instanceId : ℕ) (e : EndpointEntry) : CachedEndpointInfo :=
  { locality := if e.instanceId = instanceId then .intraProcess else .interProcessSameHost
    instanceId := e.instanceId
    entityType := e.entityType
    deviceId := e.deviceId
    uid := e.uid
    ipcCapable := e.ipcCapable }

/-- The map that `refresh_from_remote` fills between `sem_wait` and `sem_post`. -/
def EndpointRegistry.updates (r : EndpointRegistry) (instanceId : ℕ) : Cache :=
  (List.range r.numEntries).foldl
    (fun u i => if (r.entries i).active then
      Function.update u (r.entries i).gid (some ((r.entries i).cached instanceId)) else u)
    (fun _ => none)

def Cache.merge (cache updates : Cache) : Cache := fun gid =>
  match updates gid with
  | some info => some info
  | none => cache gid

def Cache.query (cache : Cache) (gid : ℕ) : LocalityInfo :=
  match cache gid with
  | none =>
      { locality := .undefined, entityType := .publisher, remoteInstanceId := 0, deviceId := -1,
        uid := 0, ipcCapable := false, found := false }
  | some info =>
      { locality := info.locality, entityType := info.entityType,
        remoteInstanceId := info.instanceId, deviceId := info.deviceId, uid := info.uid,
        ipcCapable := info.ipcCapable, found := true }

lemma query_found (cache : Cache) (gid : ℕ) : (cache.query gid).found = (cache gid).isSome := by
  unfold Cache.query
  split <;> simp_all

lemma Cache.merge_isSome {cache updates : Cache} {gid : ℕ} (h : (cache gid).isSome) :
    ((cache.merge updates) gid).isSome := by
  unfold Cache.merge
  split
  · rfl
  · exact h

lemma Cache.merge_of_some {cache updates : Cache} {gid : ℕ} {info : CachedEndpointInfo}
    (h : updates gid = some info) : cache.merge updates gid = some info := by
  simp [Cache.merge, h]

namespace EndpointRegistry

variable {r : EndpointRegistry} {gid i : ℕ} {e : EndpointEntry} {alive : ℕ → Bool}

def Lists (r : EndpointRegistry) (e : EndpointEntry) : Prop := ∃ i < r.numEntries, r.entries i = e

def Distinct (r : EndpointRegistry) : Prop :=
  ∀ i < r.numEntries, ∀ j < r.numEntries, (r.entries i).gid = (r.entries j).gid → i = j

lemma findSlot_some {slot : ℕ × Bool} (h : r.findSlot gid = some slot) :
    (slot.2 = false ∧ slot.1 < r.numEntries ∧ (r.entries slot.1).gid = gid) ∨
    ((∀ j < r.numEntries, (r.entries j).gid ≠ gid) ∧
      (slot.2 = false ∧ slot.1 < r.numEntries ∧ (r.entries slot.1).active = false ∨
        slot.2 = true ∧ slot.1 = r.numEntries)) := by
  unfold findSlot at h
  split at h
  · rename_i i hi
    obtain rfl := Option.some.inj h
    have hg := List.find?_some hi
    have hm := List.mem_of_find?_eq_some hi
    exact .inl ⟨rfl, List.mem_range.mp hm, of_decide_eq_true hg⟩
  · rename_i hnone
    have hne : ∀ j < r.numEntries, (r.entries j).gid ≠ gid := by
      intro j hj hg
      have hx := List.find?_eq_none.mp hnone j (List.mem_range.mpr hj)
      exact hx (decide_eq_true hg)
    split at h
    · rename_i i hi
      obtain rfl := Option.some.inj h
      have ha := List.find?_some hi
      have hm := List.mem_of_find?_eq_some hi
      exact .inr ⟨hne, .inl ⟨rfl, List.mem_range.mp hm, by simpa using ha⟩⟩
    · split_ifs at h
      obtain rfl := Option.some.inj h
      exact .inr ⟨hne, .inr ⟨rfl, rfl⟩⟩

lemma writeSlot_cases {slot : ℕ × Bool} (h : r.findSlot gid = some slot) (e : EndpointEntry)
    (hi : i < (r.writeSlot slot e).numEntries) :
    i = slot.1 ∨ (i ≠ slot.1 ∧ i < r.numEntries) := by
  by_cases hx : i = slot.1
  · exact .inl hx
  · refine .inr ⟨hx, ?_⟩
    simp only [writeSlot] at hi
    rcases findSlot_some h with ⟨hs, _⟩ | ⟨_, ⟨hs, _⟩ | ⟨hs, hn⟩⟩
    · simpa [hs] using hi
    · simpa [hs] using hi
    · simp only [hs, if_true] at hi
      omega

lemma writeSlot_lists {slot : ℕ × Bool} (h : r.findSlot gid = some slot) (e : EndpointEntry) :
    (r.writeSlot slot e).Lists e := by
  refine ⟨slot.1, ?_, by simp [writeSlot]⟩
  simp only [writeSlot]
  rcases findSlot_some h with ⟨hs, hlt, _⟩ | ⟨_, ⟨hs, hlt, _⟩ | ⟨hs, hn⟩⟩
  · simpa [hs] using hlt
  · simpa [hs] using hlt
  · simp [hs, hn]

lemma writeSlot_distinct {slot : ℕ × Bool} (hd : r.Distinct) (h : r.findSlot gid = some slot)
    (he : e.gid = gid) : (r.writeSlot slot e).Distinct := by
  have hother : ∀ j, j ≠ slot.1 → (r.writeSlot slot e).entries j = r.entries j := by
    intro j hj
    simp [writeSlot, Function.update_of_ne hj]
  have hself : (r.writeSlot slot e).entries slot.1 = e := by simp [writeSlot]
  have hne : ∀ j, j ≠ slot.1 → j < r.numEntries → (r.entries j).gid ≠ gid := by
    intro j hj hlt hg
    rcases findSlot_some h with ⟨_, hlt', hg'⟩ | ⟨hall, _⟩
    · exact hj (hd j hlt slot.1 hlt' (hg.trans hg'.symm))
    · exact hall j hlt hg
  intro i hi j hj hg
  rcases writeSlot_cases h e hi with rfl | ⟨hi', hi⟩ <;>
    rcases writeSlot_cases h e hj with rfl | ⟨hj', hj⟩
  · rfl
  · rw [hself, hother j hj', he] at hg
    exact absurd hg.symm (hne j hj' hj)
  · rw [hself, hother i hi', he] at hg
    exact absurd hg (hne i hi' hi)
  · rw [hother i hi', hother j hj'] at hg
    exact hd i hi j hj hg

lemma writeSlot_keeps {slot : ℕ × Bool} {e' : EndpointEntry} (h : r.findSlot gid = some slot)
    (hl : r.Lists e) (ha : e.active = true) (hg : e.gid ≠ gid) :
    (r.writeSlot slot e').Lists e := by
  obtain ⟨i, hi, rfl⟩ := hl
  have hx : i ≠ slot.1 := by
    rintro rfl
    rcases findSlot_some h with ⟨_, _, hg'⟩ | ⟨_, ⟨_, _, hf⟩ | ⟨_, hn⟩⟩
    · exact hg hg'
    · rw [hf] at ha
      exact nomatch ha
    · omega
  refine ⟨i, ?_, by simp [writeSlot, Function.update_of_ne hx]⟩
  simp only [writeSlot]
  split <;> omega

lemma mapEntries_distinct {f : EndpointEntry → EndpointEntry} (hf : ∀ e, (f e).gid = e.gid)
    (hd : r.Distinct) : (r.mapEntries f).Distinct := by
  intro i hi j hj hg
  simp only [mapEntries] at hi hj hg
  rw [if_pos hi, if_pos hj, hf, hf] at hg
  exact hd i hi j hj hg

lemma mapEntries_lists {f : EndpointEntry → EndpointEntry} (hl : r.Lists e) (hf : f e = e) :
    (r.mapEntries f).Lists e := by
  obtain ⟨i, hi, rfl⟩ := hl
  refine ⟨i, hi, ?_⟩
  simp [mapEntries, hi, hf]

lemma purge_distinct (hd : r.Distinct) : (r.purgeDeadEntries alive).Distinct := by
  apply mapEntries_distinct _ hd
  intro e
  split <;> rfl

lemma purge_lists (hl : r.Lists e) (hdead : isDead alive e = false) :
    (r.purgeDeadEntries alive).Lists e := by
  apply mapEntries_lists hl
  simp [hdead]

lemma attach_version (r : EndpointRegistry) (alive : ℕ → Bool) : (r.attach alive).version ≠ 0 := by
  unfold attach
  split_ifs with hv
  · exact Nat.one_ne_zero
  · exact hv

lemma attach_distinct (hd : r.Distinct) : (r.attach alive).Distinct := by
  unfold attach
  split_ifs
  · intro i hi
    exact absurd hi i.not_lt_zero
  · exact purge_distinct hd

lemma attach_lists (hv : r.version ≠ 0) (hl : r.Lists e) (hdead : isDead alive e = false) :
    (r.attach alive).Lists e := by
  unfold attach
  rw [if_neg hv]
  exact purge_lists hl hdead

lemma detach_distinct {instanceId : ℕ} (hd : r.Distinct) :
    (r.detach alive instanceId).Distinct := by
  apply purge_distinct
  apply mapEntries_distinct _ hd
  intro e
  split <;> rfl

lemma detach_lists {instanceId : ℕ} (hl : r.Lists e) (hne : e.instanceId ≠ instanceId)
    (hdead : isDead alive e = false) : (r.detach alive instanceId).Lists e := by
  apply purge_lists _ hdead
  apply mapEntries_lists hl
  simp [hne]

/-- With distinct gids the map holds every active entry. -/
lemma updates_of_lists {instanceId : ℕ} (hd : r.Distinct) (hl : r.Lists e) (ha : e.active = true) :
    r.updates instanceId e.gid = some (e.cached instanceId) := by
  obtain ⟨i, hi, rfl⟩ := hl
  have hfold : ∀ n ≤ r.numEntries, i < n →
      (List.range n).foldl (fun u j => if (r.entries j).active then
        Function.update u (r.entries j).gid (some ((r.entries j).cached instanceId)) else u)
        (fun _ => none) (r.entries i).gid = some ((r.entries i).cached instanceId) := by
    intro n
    induction n with
    | zero => intro _ h; exact absurd h i.not_lt_zero
    | succ n ih =>
      intro hn hlt
      rw [List.range_succ, List.foldl_append]
      simp only [List.foldl_cons, List.foldl_nil]
      by_cases hx : i = n
      · subst hx
        simp [ha]
      · have hgid : (r.entries i).gid ≠ (r.entries n).gid := fun hg => hx (hd i hi n hn hg)
        have hold := ih (Nat.le_of_succ_le hn) (by omega)
        split
        · rwa [Function.update_of_ne hgid]
        · exact hold
  exact hfold r.numEntries le_rfl hi

/-- The map holds some entry of every gid that has an active one. -/
lemma updates_isSome {instanceId : ℕ} (hl : r.Lists e) (ha : e.active = true) :
    (r.updates instanceId e.gid).isSome := by
  obtain ⟨i, hi, rfl⟩ := hl
  have hfold : ∀ n, i < n →
      ((List.range n).foldl (fun u j => if (r.entries j).active then
        Function.update u (r.entries j).gid (some ((r.entries j).cached instanceId)) else u)
        (fun _ => none) (r.entries i).gid).isSome := by
    intro n
    induction n with
    | zero => exact fun h => absurd h i.not_lt_zero
    | succ n ih =>
      intro hlt
      rw [List.range_succ, List.foldl_append]
      simp only [List.foldl_cons, List.foldl_nil]
      by_cases hg : (r.entries i).gid = (r.entries n).gid
      · split
        · rw [hg, Function.update_self]
          rfl
        · rename_i hactive
          have hne : i ≠ n := by
            rintro rfl
            exact hactive ha
          exact ih (by omega)
      · have hne : i ≠ n := by
          rintro rfl
          exact hg rfl
        have hold := ih (by omega)
        split
        · rwa [Function.update_of_ne hg]
        · exact hold
  exact hfold r.numEntries hi

end EndpointRegistry

lemma pidOf_makeInstanceId {pid k : ℕ} (hp : pid < 2 ^ 31) (hk : k < 2 ^ 32) :
    pidOf (makeInstanceId pid k) = pid := by
  have hshift : (pid <<< 32) % 2 ^ 64 = pid <<< 32 := by
    rw [Nat.shiftLeft_eq]
    omega
  have hor : (pid <<< 32 ||| k) >>> 32 = pid := by
    rw [Nat.shiftRight_or_distrib, Nat.shiftLeft_shiftRight, Nat.shiftRight_eq_div_pow,
      Nat.div_eq_of_lt hk, Nat.or_zero]
  rw [pidOf, makeInstanceId, hshift, hor]
  omega

end RosidlBufferBackends.Registry
