import RosidlBufferBackends.Registry.Lookup

/-! What an instance finds after a refresh, against the registry that it has read. -/

namespace RosidlBufferBackends.Registry.Refresh

open EndpointRegistry Host Runs

/-- `refresh_from_remote`, with the result of `sem_wait_timed`. -/
def refreshFromRemote (acquired : Bool) (r : EndpointRegistry) (instanceId : ℕ) (cache : Cache) :
    Cache :=
  if acquired then cache.merge (r.updates instanceId) else cache

def Active (r : EndpointRegistry) (gid : ℕ) (e : EndpointEntry) : Prop :=
  r.Lists e ∧ e.active = true ∧ e.gid = gid

/-- A query finds the active entry of a gid, and nothing where there is none. -/
structure Reflects (r : EndpointRegistry) (instanceId : ℕ) (cache : Cache) : Prop where
  finds : ∀ gid, (cache.query gid).found = true ↔ ∃ e, Active r gid e
  reports : ∀ gid, (cache.query gid).found = true →
    ∃ e, Active r gid e ∧ cache.query gid = found instanceId e
  intraProcess : ∀ gid, (cache.query gid).found = true →
    ((cache.query gid).locality = .intraProcess ↔ (cache.query gid).remoteInstanceId = instanceId)

variable {r : EndpointRegistry} {instanceId gid : ℕ} {cache : Cache}

lemma updates_some {info : CachedEndpointInfo} (h : r.updates instanceId gid = some info) :
    ∃ e, Active r gid e ∧ info = e.cached instanceId := by
  have hfold : ∀ n ≤ r.numEntries, ∀ info,
      (List.range n).foldl (fun u j => if (r.entries j).active then
        Function.update u (r.entries j).gid (some ((r.entries j).cached instanceId)) else u)
        (fun _ => none) gid = some info → ∃ e, Active r gid e ∧ info = e.cached instanceId := by
    intro n
    induction n with
    | zero => exact fun _ _ h => nomatch h
    | succ n ih =>
      intro hn info h
      rw [List.range_succ, List.foldl_append] at h
      simp only [List.foldl_cons, List.foldl_nil] at h
      split at h
      · rename_i hactive
        by_cases hg : gid = (r.entries n).gid
        · rw [hg, Function.update_self] at h
          exact ⟨_, ⟨⟨n, hn, rfl⟩, hactive, hg.symm⟩, (Option.some.inj h).symm⟩
        · rw [Function.update_of_ne hg] at h
          exact ih (Nat.le_of_succ_le hn) info h
      · exact ih (Nat.le_of_succ_le hn) info h
  exact hfold r.numEntries le_rfl info h

lemma query_updated {e : EndpointEntry} (h : cache gid = some (e.cached instanceId)) :
    cache.query gid = found instanceId e := by
  simp [Cache.query, h, EndpointEntry.cached, found]

/-- What the map of a refresh holds is an active entry. -/
lemma query_merge (instanceId : ℕ) (cache : Cache) (h : ∃ e, Active r gid e) :
    ∃ e, Active r gid e ∧
      (cache.merge (r.updates instanceId)).query gid = found instanceId e := by
  obtain ⟨e, hlists, hactive, rfl⟩ := h
  have hset : (r.updates instanceId e.gid).isSome := updates_isSome hlists hactive
  obtain ⟨info, hinfo⟩ := Option.isSome_iff_exists.mp hset
  obtain ⟨e', he', rfl⟩ := updates_some hinfo
  exact ⟨e', he', query_updated (Cache.merge_of_some hinfo)⟩

lemma query_merge_missing (h : ¬ ∃ e, Active r gid e) :
    (cache.merge (r.updates instanceId)).query gid = cache.query gid := by
  have hnone : r.updates instanceId gid = none := by
    cases hu : r.updates instanceId gid with
    | none => rfl
    | some info =>
      obtain ⟨e, he, -⟩ := updates_some hu
      exact absurd ⟨e, he⟩ h
  simp only [Cache.query, Cache.merge, hnone]

lemma found_intraProcess (instanceId : ℕ) (e : EndpointEntry) :
    (found instanceId e).locality = .intraProcess ↔
      (found instanceId e).remoteInstanceId = instanceId := by
  simp only [found]
  split_ifs with h <;> simp [h]

theorem refresh_agrees_iff (r : EndpointRegistry) (instanceId : ℕ) (cache : Cache) :
    Reflects r instanceId (refreshFromRemote true r instanceId cache) ∧
        refreshFromRemote false r instanceId cache = cache ↔
      ∀ gid, (cache gid).isSome → ∃ e, Active r gid e := by
  have hrefreshed : refreshFromRemote true r instanceId cache =
      cache.merge (r.updates instanceId) := rfl
  rw [hrefreshed]
  constructor
  · rintro ⟨hreflects, -⟩ gid hcached
    by_contra hnone
    apply hnone
    apply (hreflects.finds gid).mp
    rw [query_merge_missing hnone, query_found]
    exact hcached
  · intro hlisted
    have hfinds : ∀ gid, ((cache.merge (r.updates instanceId)).query gid).found = true ↔
        ∃ e, Active r gid e := by
      intro gid
      constructor
      · intro hfound
        by_contra hnone
        rw [query_merge_missing hnone, query_found] at hfound
        exact hnone (hlisted gid hfound)
      · intro hactive
        obtain ⟨e, -, hquery⟩ := query_merge instanceId cache hactive
        rw [hquery]
        rfl
    refine ⟨⟨hfinds, fun gid hfound => query_merge instanceId cache ((hfinds gid).mp hfound), ?_⟩,
      rfl⟩
    intro gid hfound
    obtain ⟨e, -, hquery⟩ := query_merge instanceId cache ((hfinds gid).mp hfound)
    rw [hquery]
    exact found_intraProcess instanceId e

/-- The steps of a refresh that nothing interrupts. -/
lemma refresh_alone {s : Host} {t : ℕ} {th : Thread} {m : HostEndpointManager}
    (hth : s.threads t = some th) (hpc : th.pc = .refreshWait) (hfree : s.semValue th.sem ≠ 0)
    (hm : s.managers th.identity.pid = some m) : ∃ tr u,
      Run Host.step s tr u ∧ tr.map Prod.fst = List.replicate 4 (.advance t) ∧
      u.managers th.identity.pid = some { m with
        cache := refreshFromRemote true (s.registries th.seg) th.identity.instanceId m.cache } := by
  obtain ⟨identity, seg, sem, pc⟩ := th
  dsimp only at hpc hfree hm ⊢
  subst hpc
  have hx : ∃ x, exec Host.step s (List.replicate 4 (.advance t)) = some x ∧
      x.1.map Prod.fst = List.replicate 4 (.advance t) ∧
      x.2.managers identity.pid = some { m with
        cache := refreshFromRemote true (s.registries seg) identity.instanceId m.cache } := by
    simp [exec, Host.step, hth, advance, acquire, hfree, goto, wait, put, post, hm, modifyManager,
      refreshFromRemote]
  obtain ⟨x, hx, hfst, hcache⟩ := hx
  exact ⟨x.1, x.2, exec_run hx, hfst, hcache⟩

/-- A registry with the endpoint of process 7, and an instance of process 8. -/
def listing : EndpointRegistry where
  version := 1
  maxEntries := maxEndpoints
  numEntries := 1
  entries := fun i => if i = 0 then
    { instanceId := makeInstanceId 7 1, gid := 5, active := true, ipcCapable := true } else {}

/-- Process 7 dies without its destructor, and its entry is purged. -/
theorem purged_endpoint_still_found :
    let cache := refreshFromRemote true listing (makeInstanceId 8 1) (fun _ => none)
    let purged := listing.purgeDeadEntries (fun pid => pid = 8)
    (∀ e, ¬ Active purged 5 e) ∧
      ((refreshFromRemote true purged (makeInstanceId 8 1) cache).query 5).found = true ∧
      ¬ Reflects purged (makeInstanceId 8 1)
        (refreshFromRemote true purged (makeInstanceId 8 1) cache) := by
  intro cache purged
  have hnone : ∀ e, ¬ Active purged 5 e := by
    rintro e ⟨⟨i, hi, rfl⟩, hactive, -⟩
    obtain rfl : i = 0 := Nat.lt_one_iff.mp hi
    exact absurd hactive (by decide)
  have hfound : ((refreshFromRemote true purged (makeInstanceId 8 1) cache).query 5).found =
      true := by
    decide
  refine ⟨hnone, hfound, ?_⟩
  intro h
  obtain ⟨e, he⟩ := (h.finds 5).mp hfound
  exact hnone e he

end RosidlBufferBackends.Registry.Refresh
