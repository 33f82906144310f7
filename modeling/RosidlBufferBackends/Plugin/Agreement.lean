import RosidlBufferBackends.Plugin.Decisions

/-! The decisions of a backend over whole runs, with what it has found out about an
endpoint last. -/

namespace RosidlBufferBackends.Plugin

open Registry Runs CudaBufferBackend

variable {s s₀ t u : CudaBufferBackend} {e : Event} {o : Output} {gid gid' : ℕ}
  {tr : List (Event × Output)} {info : LocalityInfo} {args : Publication}

/-- Found, IPC capable, and in this process or on this host with the same device and
user. -/
structure Importable (identity : Identity) (info : LocalityInfo) : Prop where
  found : info.found = true
  capable : info.ipcCapable = true
  locality : info.locality = .intraProcess ∨ info.locality = .interProcessSameHost ∧
    info.deviceId = identity.deviceId ∧ info.uid = identity.uid

def Event.endpoint : Event → Option ℕ
  | .onDiscoveringEndpoint gid _ _ _ | .createDescriptorWithEndpoint gid _ _ => some gid
  | .registerEndpoint _ _ _ | .refreshFromRemote _ | .registryChange _ => none

def Event.discovers (gid : ℕ) : Event → Prop
  | .onDiscoveringEndpoint g _ _ _ => g = gid
  | _ => False

def Event.registers (gid : ℕ) : Event → Prop
  | .registerEndpoint g _ _ => g = gid
  | _ => False

/-- A publication to the endpoint whose refresh, if it makes one, fails. -/
def Event.misses (gid : ℕ) : Event → Prop
  | .createDescriptorWithEndpoint g acquired _ => g = gid ∧ acquired = false
  | _ => False

def Output.classified : Output → Option LocalityInfo
  | .discovered _ classified | .created _ classified => classified
  | .quiet => none

def classifiedBy (gid : ℕ) (x : Event × Output) : Option LocalityInfo :=
  if x.1.endpoint = some gid then x.2.classified else none

/-- The latest classification of the endpoint. -/
def lastClassified (gid : ℕ) (tr : List (Event × Output)) : Option LocalityInfo :=
  tr.reverse.findSome? (classifiedBy gid)

/-- The decision that `create_descriptor_with_endpoint` takes on the endpoint. -/
def CudaBufferBackend.decision (s : CudaBufferBackend) (acquired : Bool) (gid : ℕ) : Bool :=
  (s.ipcDecisionCache gid).getD (s.canImport acquired gid)

/-- The decision is that the endpoint cannot import, by the refreshed view, and where refreshes
may fail by the cached one alone too. -/
def CudaBufferBackend.TurnsDown (s : CudaBufferBackend) (failing : Prop) (gid : ℕ) : Prop :=
  ∀ acquired, acquired = true ∨ failing → s.decision acquired gid = false

/-- An endpoint that does not list the backend is discovered while the decision on it
is that it cannot import, by both views. -/
def ListsBackend (s : CudaBufferBackend) (e : Event) (_ : Output) : Prop :=
  match e with
  | .onDiscoveringEndpoint gid supportsCuda _ _ => supportsCuda = false → s.TurnsDown True gid
  | _ => True

/-- The step does not change what the registry says about the endpoint. -/
def KeepsEntry (gid : ℕ) (s : CudaBufferBackend) (e : Event) (_ : Output) : Prop :=
  ∀ o u, s.step e = some (o, u) → u.entry gid = s.entry gid

/-- Where this process registers the endpoint, the registry has one entry for a gid. -/
def Unambiguous (gid : ℕ) (s : CudaBufferBackend) (e : Event) (_ : Output) : Prop :=
  e.registers gid → s.registry.Distinct

lemma canImportDescriptor_iff {manager : HostEndpointManager} :
    canImportDescriptor info manager = true ↔ Importable manager.identity info := by
  unfold canImportDescriptor
  constructor
  · intro h
    split_ifs at h with hno
    obtain ⟨hfound, hcapable⟩ : info.found = true ∧ info.ipcCapable = true := by
      simpa using hno
    refine ⟨hfound, hcapable, ?_⟩
    cases hl : info.locality with
    | intraProcess => exact .inl rfl
    | interProcessSameHost => exact .inr ⟨rfl, by simpa [hl] using h⟩
    | undefined => simp [hl] at h
    | interHost => simp [hl] at h
  · rintro ⟨hfound, hcapable, hl | ⟨hl, hdevice, huid⟩⟩
    · simp [hfound, hcapable, hl]
    · simp [hfound, hcapable, hl, hdevice, huid]

lemma lastClassified_snoc (x : Event × Output) :
    lastClassified gid (tr ++ [x]) = (classifiedBy gid x).or (lastClassified gid tr) := by
  simp only [lastClassified, List.reverse_append, List.reverse_cons, List.reverse_nil,
    List.nil_append, List.singleton_append, List.findSome?_cons]
  cases classifiedBy gid x <;> rfl

section Queries

lemma query_congr {cache cache' : Cache} (h : cache gid = cache' gid) :
    cache.query gid = cache'.query gid := by
  simp [Cache.query, h]

/-- The peer is what its registry entry says, or what was found out before. -/
lemma peer_congr (he : u.entry gid = s.entry gid)
    (hc : s.entry gid = none → u.endpointManager.cache gid = s.endpointManager.cache gid) :
    u.peer true gid = s.peer true gid := by
  apply query_congr
  have hu : u.entry gid = u.registry.updates u.endpointManager.identity.instanceId gid := rfl
  have hs : s.entry gid = s.registry.updates s.endpointManager.identity.instanceId gid := rfl
  simp only [refreshFromRemote, Refresh.refreshFromRemote, if_true, Cache.merge, ← hu, ← hs, he]
  cases hentry : s.entry gid with
  | none => exact hc hentry
  | some info => rfl

lemma peer_written {written : CachedEndpointInfo} (he : s.entry gid = some written)
    (hc : u.endpointManager.cache gid = some written) : u.peer false gid = s.peer true gid :=
  query_congr (hc.trans (Cache.merge_of_some he).symm)

/-- Both views of an endpoint are kept with its entries in the registry and in the cache. -/
lemma peer_kept (acquired : Bool) (he : u.entry gid = s.entry gid)
    (hc : u.endpointManager.cache gid = s.endpointManager.cache gid) :
    u.peer acquired gid = s.peer acquired gid := by
  cases acquired with
  | false => exact query_congr hc
  | true => exact peer_congr he fun _ => hc

lemma canImport_congr {a b : Bool} (hp : u.peer a gid = s.peer b gid)
    (hi : u.endpointManager.identity = s.endpointManager.identity) :
    u.canImport a gid = s.canImport b gid := by
  simp only [canImport, canImportDescriptor, hp, hi]

lemma canImport_missed {acquired : Bool} (hf : (s.peer acquired gid).found = false) :
    s.canImport acquired gid = false := by
  simp [canImport, canImportDescriptor, hf]

/-- A refresh finds out what the registry says. -/
lemma refreshed_cache (he : s.entry gid = none) (acquired : Bool) :
    (s.refreshFromRemote acquired).endpointManager.cache gid = s.endpointManager.cache gid := by
  have hs : s.registry.updates s.endpointManager.identity.instanceId gid = none := he
  cases acquired with
  | false => rfl
  | true => simp [refreshFromRemote, Refresh.refreshFromRemote, Cache.merge, hs]

lemma refreshed_isSome (acquired : Bool) (h : (s.endpointManager.cache gid).isSome) :
    ((s.refreshFromRemote acquired).endpointManager.cache gid).isSome := by
  cases acquired with
  | false => exact h
  | true => exact Cache.merge_isSome h

/-- After a refresh each view is the same one from before it or the refreshed one. -/
lemma peer_refreshed (s : CudaBufferBackend) (gid : ℕ) (acquired a : Bool) :
    ∃ b, (b = true ∨ b = a) ∧ (s.refreshFromRemote acquired).peer a gid = s.peer b gid := by
  cases a with
  | false =>
    refine ⟨acquired, ?_, rfl⟩
    cases acquired <;> simp
  | true => exact ⟨true, .inl rfl, peer_congr rfl fun he => refreshed_cache he acquired⟩

/-- What a refresh does not find is not in the cache either. -/
lemma peer_missed (hf : (s.peer true gid).found = false) (acquired : Bool) :
    (s.peer acquired gid).found = false := by
  cases acquired with
  | true => exact hf
  | false =>
    by_contra hfound
    have hcached : (s.peer false gid).found = true := by simpa using hfound
    rw [peer, queryEndpointLocality, query_found] at hf hcached
    exact nomatch hf.symm.trans (refreshed_isSome true hcached)

end Queries

section Decisions

variable {failing : Prop}

lemma classify_manager (s : CudaBufferBackend) (acquired : Bool) (gid : ℕ) :
    (s.classify acquired gid).endpointManager = (s.refreshFromRemote acquired).endpointManager ∧
      (s.classify acquired gid).registry = s.registry := by
  unfold classify
  split <;> exact ⟨rfl, rfl⟩

lemma classify_decided {acquired : Bool} (hf : (s.peer acquired gid).found = true) :
    (s.classify acquired gid).ipcDecisionCache gid = some (s.canImport acquired gid) := by
  rw [classify, if_pos hf]
  exact Function.update_self ..

lemma classify_missed {acquired : Bool} (hf : (s.peer acquired gid).found = false) :
    s.classify acquired gid = s.refreshFromRemote acquired := by
  simp [classify, hf]

lemma classify_other (acquired : Bool) (hne : gid ≠ gid') :
    (s.classify acquired gid').ipcDecisionCache gid = s.ipcDecisionCache gid := by
  unfold classify
  split
  · exact Function.update_of_ne hne _ _
  · rfl

lemma turnsDown_mono (h : s.TurnsDown True gid) (failing : Prop) : s.TurnsDown failing gid :=
  fun a _ => h a (.inr trivial)

lemma turnsDown_congr (h : s.TurnsDown failing gid)
    (hd : u.ipcDecisionCache gid = s.ipcDecisionCache gid)
    (hp : ∀ a, a = true ∨ failing → ∃ b, (b = true ∨ b = a) ∧ u.peer a gid = s.peer b gid)
    (hi : u.endpointManager.identity = s.endpointManager.identity) : u.TurnsDown failing gid := by
  intro a ha
  obtain ⟨b, hb, hpeer⟩ := hp a ha
  have hdown : s.decision b gid = false := by
    rcases hb with rfl | rfl
    · exact h true (.inl rfl)
    · exact h b ha
  rw [decision] at hdown ⊢
  rw [hd, canImport_congr hpeer hi]
  exact hdown

lemma refresh_turnsDown (h : s.TurnsDown failing gid) (acquired : Bool) :
    (s.refreshFromRemote acquired).TurnsDown failing gid :=
  turnsDown_congr h rfl (fun a _ => peer_refreshed s gid acquired a) rfl

lemma classify_other_turnsDown (h : s.TurnsDown failing gid) (acquired : Bool)
    (hne : gid ≠ gid') : (s.classify acquired gid').TurnsDown failing gid := by
  obtain ⟨hmanager, hregistry⟩ := classify_manager s acquired gid'
  refine turnsDown_congr (refresh_turnsDown h acquired) (classify_other acquired hne) ?_ ?_
  · refine fun a _ => ⟨a, .inr rfl, peer_kept a ?_ ?_⟩
    · rw [entry, entry, hmanager, hregistry]
      rfl
    · rw [hmanager]
  · rw [hmanager]

lemma turnsDown_undecided (hd : s.ipcDecisionCache gid = none) :
    s.TurnsDown failing gid ↔
      ∀ acquired, acquired = true ∨ failing → s.canImport acquired gid = false := by
  simp only [TurnsDown, decision, hd, Option.getD_none]

lemma classify_turnsDown {acquired : Bool} (h : s.canImport acquired gid = false)
    (hmissed : (s.peer acquired gid).found = false → s.TurnsDown failing gid) :
    (s.classify acquired gid).TurnsDown failing gid := by
  cases hf : (s.peer acquired gid).found with
  | true =>
    intro a _
    rw [decision, classify_decided hf]
    exact h
  | false =>
    rw [classify_missed hf]
    exact refresh_turnsDown (hmissed hf) acquired

lemma registered_ne_none {slot : ℕ × Bool} {type : EntityType}
    (hslot : s.registry.findSlot gid = some slot) :
    (s.registry.writeSlot slot (Host.entryOf s.endpointManager gid type)).updates
      s.endpointManager.identity.instanceId gid ≠ none := by
  have hlists := EndpointRegistry.writeSlot_lists hslot (Host.entryOf s.endpointManager gid type)
  exact Option.isSome_iff_ne_none.mp (EndpointRegistry.updates_isSome hlists rfl)

/-- What the registry says about an endpoint that this process has registered. -/
lemma registered_entry {slot : ℕ × Bool} {type : EntityType} (hd : s.registry.Distinct)
    (hslot : s.registry.findSlot gid = some slot) :
    (s.registry.writeSlot slot (Host.entryOf s.endpointManager gid type)).updates
      s.endpointManager.identity.instanceId gid =
        some (Host.localInfo s.endpointManager type) := by
  have hlists := EndpointRegistry.writeSlot_lists hslot (Host.entryOf s.endpointManager gid type)
  have hdistinct := EndpointRegistry.writeSlot_distinct hd hslot
    (rfl : (Host.entryOf s.endpointManager gid type).gid = gid)
  refine (EndpointRegistry.updates_of_lists hdistinct hlists rfl).trans ?_
  simp [EndpointEntry.cached, Host.entryOf, Host.localInfo]

/-- The decision on an endpoint that cannot import stays, unless it is discovered
again or its registry entry changes. -/
lemma step_turnsDown (h : s.TurnsDown failing gid) (hk : KeepsEntry gid s e o)
    (hw : failing → Unambiguous gid s e o) (hm : e.misses gid → failing)
    (hne : ¬ e.discovers gid) (hs : s.step e = some (o, u)) : u.TurnsDown failing gid := by
  have hentry := hk o u hs
  cases step_cases hs with
  | dismissed _ => exact h
  | @discovered gid' acquired => exact classify_other_turnsDown h acquired fun he => hne he.symm
  | decided _ => exact h
  | @undecided gid' acquired args hnone =>
    by_cases hx : gid = gid'
    · subst hx
      refine classify_turnsDown ((turnsDown_undecided hnone).mp h acquired ?_) fun _ => h
      cases acquired with
      | true => exact .inl rfl
      | false => exact .inr (hm ⟨rfl, rfl⟩)
    · exact classify_other_turnsDown h acquired hx
  | @registered gid' type slot hslot =>
    refine turnsDown_congr h ?_ ?_ ?_
    · rfl
    · intro a ha
      by_cases hx : gid = gid'
      · subst hx
        cases a with
        | true =>
          refine ⟨true, .inl rfl, peer_congr hentry fun hnone => ?_⟩
          exact absurd (hentry.trans hnone) (registered_ne_none hslot)
        | false =>
          -- the entry is the one that was written, and so is the cached view
          have hwritten : s.entry gid = some (Host.localInfo s.endpointManager type) :=
            hentry.symm.trans (registered_entry (hw (ha.resolve_left nofun) rfl) hslot)
          exact ⟨true, .inl rfl, peer_written hwritten (Function.update_self ..)⟩
      · exact ⟨a, .inr rfl, peer_kept a hentry (Function.update_of_ne hx _ _)⟩
    · rfl
  | unregistered => exact h
  | @refreshed acquired => exact refresh_turnsDown h acquired
  | changed =>
    refine turnsDown_congr h ?_ ?_ ?_
    · rfl
    · exact fun a _ => ⟨a, .inr rfl, peer_kept a hentry rfl⟩
    · rfl

lemma run_turnsDown (hr : Run step s tr u) (h : s.TurnsDown failing gid)
    (hk : Every step (KeepsEntry gid) s tr) (hw : failing → Every step (Unambiguous gid) s tr)
    (hm : ∀ x ∈ tr, x.1.misses gid → failing) (hne : ∀ x ∈ tr, ¬ x.1.discovers gid) :
    u.TurnsDown failing gid := by
  have hboth : Every step (fun s e o => KeepsEntry gid s e o ∧
      (failing → Unambiguous gid s e o)) s tr :=
    fun pre e o post t heq hpre => ⟨hk pre e o post t heq hpre,
      fun hf => hw hf pre e o post t heq hpre⟩
  refine hr.induction_every (P := fun _ u => u.TurnsDown failing gid)
    (hboth.with_mem fun x hx => And.intro (hm x hx) (hne x hx)) h ?_
  rintro _ _ _ _ _ _ h ⟨⟨hk, hw⟩, hm, hne⟩ hs
  exact step_turnsDown h hk hw hm hne hs

end Decisions

section Classifications

lemma canImportDescriptor_congr {manager manager' : HostEndpointManager}
    (h : manager'.identity = manager.identity) :
    canImportDescriptor info manager' = canImportDescriptor info manager := by
  rw [canImportDescriptor, canImportDescriptor, h]

/-- A cached decision is the latest classification, of an endpoint that has been found. -/
structure Decided (tr : List (Event × Output)) (s : CudaBufferBackend) : Prop where
  found : ∀ gid d, s.ipcDecisionCache gid = some d → (s.endpointManager.cache gid).isSome
  latest : ∀ gid d, s.ipcDecisionCache gid = some d → ∃ info, lastClassified gid tr = some info ∧
    canImportDescriptor info s.endpointManager = d

lemma Decided.missed (h : Decided tr s) {acquired : Bool}
    (hf : (s.peer acquired gid).found = false) : s.ipcDecisionCache gid = none := by
  cases hd : s.ipcDecisionCache gid with
  | none => rfl
  | some d =>
    rw [peer, queryEndpointLocality, query_found] at hf
    exact nomatch hf.symm.trans (refreshed_isSome acquired (h.found gid d hd))

lemma Decided.quiet (h : Decided tr s) (he : ∀ gid, classifiedBy gid (e, o) = none)
    (hd : u.ipcDecisionCache = s.ipcDecisionCache)
    (hi : u.endpointManager.identity = s.endpointManager.identity)
    (hc : ∀ gid, (s.endpointManager.cache gid).isSome → (u.endpointManager.cache gid).isSome) :
    Decided (tr ++ [(e, o)]) u := by
  refine ⟨fun gid d hx => hc gid (h.found gid d (hd ▸ hx)), ?_⟩
  intro gid d hx
  obtain ⟨info, hlast, hinfo⟩ := h.latest gid d (hd ▸ hx)
  refine ⟨info, ?_, (canImportDescriptor_congr hi).trans hinfo⟩
  rw [lastClassified_snoc, he]
  exact hlast

lemma Decided.classify (h : Decided tr s) {acquired : Bool} (he : e.endpoint = some gid)
    (ho : o.classified = some (s.peer acquired gid)) :
    Decided (tr ++ [(e, o)]) (s.classify acquired gid) := by
  obtain ⟨hmanager, -⟩ := classify_manager s acquired gid
  have hi : (s.classify acquired gid).endpointManager.identity = s.endpointManager.identity := by
    rw [hmanager]
    rfl
  have hcache : ∀ gid', (s.endpointManager.cache gid').isSome →
      ((s.classify acquired gid).endpointManager.cache gid').isSome := by
    intro gid' hsome
    rw [hmanager]
    exact refreshed_isSome acquired hsome
  have hself : lastClassified gid (tr ++ [(e, o)]) = some (s.peer acquired gid) := by
    rw [lastClassified_snoc, classifiedBy, if_pos he, ho]
    rfl
  have hother : ∀ gid', gid' ≠ gid →
      lastClassified gid' (tr ++ [(e, o)]) = lastClassified gid' tr := by
    intro gid' hne
    rw [lastClassified_snoc, classifiedBy,
      if_neg fun hx => hne (Option.some.inj (hx.symm.trans he))]
    rfl
  constructor
  · intro gid' d hd
    by_cases hx : gid' = gid
    · subst hx
      cases hf : (s.peer acquired gid').found with
      | true =>
        rw [peer, queryEndpointLocality, query_found] at hf
        rw [hmanager]
        exact hf
      | false =>
        rw [classify_missed hf] at hd
        exact hcache gid' (h.found gid' d hd)
    · rw [classify_other acquired hx] at hd
      exact hcache gid' (h.found gid' d hd)
  · intro gid' d hd
    by_cases hx : gid' = gid
    · subst hx
      refine ⟨_, hself, ?_⟩
      cases hf : (s.peer acquired gid').found with
      | true =>
        rw [classify_decided hf] at hd
        obtain rfl := Option.some.inj hd
        exact canImportDescriptor_congr hi
      | false =>
        rw [classify_missed hf] at hd
        exact nomatch (h.missed hf).symm.trans hd
    · rw [classify_other acquired hx] at hd
      obtain ⟨info, hlast, hinfo⟩ := h.latest gid' d hd
      exact ⟨info, (hother gid' hx).trans hlast, (canImportDescriptor_congr hi).trans hinfo⟩

lemma step_decided (h : Decided tr s) (hs : s.step e = some (o, u)) :
    Decided (tr ++ [(e, o)]) u := by
  cases step_cases hs with
  | dismissed _ => exact h.quiet (fun _ => ite_self _) rfl rfl fun _ hx => hx
  | discovered => exact h.classify rfl rfl
  | decided _ => exact h.quiet (fun _ => ite_self _) rfl rfl fun _ hx => hx
  | undecided _ => exact h.classify rfl rfl
  | @registered gid' type slot _ =>
    refine h.quiet (fun _ => ite_self _) rfl rfl fun gid hx => ?_
    by_cases hg : gid = gid'
    · subst hg
      simp
    · simpa [Function.update_of_ne hg] using hx
  | unregistered => exact h.quiet (fun _ => ite_self _) rfl rfl fun _ hx => hx
  | @refreshed acquired =>
    exact h.quiet (fun _ => ite_self _) rfl rfl fun _ hx => refreshed_isSome acquired hx
  | changed => exact h.quiet (fun _ => ite_self _) rfl rfl fun _ hx => hx

lemma run_decided (hinit : ∀ gid, s₀.ipcDecisionCache gid = none) (hr : Run step s₀ tr s) :
    Decided tr s := by
  induction hr with
  | nil =>
    exact ⟨fun gid d hd => absurd ((hinit gid).symm.trans hd) nofun,
      fun gid d hd => absurd ((hinit gid).symm.trans hd) nofun⟩
  | snoc _ hs ih => exact step_decided ih hs

end Classifications

section Calls

variable {result : Except Cuda.CudaError (Option Cuda.CudaBufferDescriptor)}
  {classified : Option LocalityInfo} {acquired : Bool} {failing : Prop}

lemma created_of_turnsDown (h : s.TurnsDown failing gid) (hm : acquired = true ∨ failing)
    (hs : s.step (.createDescriptorWithEndpoint gid acquired args) =
      some (.created result classified, u)) : result = .ok none := by
  cases step_cases hs with
  | @decided _ _ _ d hd =>
    obtain rfl : d = false := by simpa [decision, hd] using h acquired hm
    rfl
  | undecided hnone =>
    rw [(turnsDown_undecided hnone).mp h acquired hm]
    rfl

/-- The decision after an endpoint has been discovered and turned down. -/
lemma discovered_turnsDown {supportsCuda poolIpcCapable : Bool} (hd : Decided tr s)
    (hc : ListsBackend s (.onDiscoveringEndpoint gid supportsCuda poolIpcCapable acquired) o)
    (hwhy : supportsCuda = false ∨ poolIpcCapable = true ∧
      (acquired = false → s.canImport true gid = false))
    (hs : s.step (.onDiscoveringEndpoint gid supportsCuda poolIpcCapable acquired) =
      some (.discovered false classified, u)) : u.TurnsDown True gid := by
  generalize ho : Output.discovered false classified = o at hs
  cases step_cases hs with
  | dismissed hno =>
    apply hc
    rcases hwhy with hlists | ⟨rfl, -⟩
    · exact hlists
    · exact hno.resolve_right nofun
  | discovered =>
    have hrefused : s.canImport acquired gid = false := (Output.discovered.inj ho).1.symm
    refine classify_turnsDown hrefused fun hf => ?_
    apply (turnsDown_undecided (hd.missed hf)).mpr
    cases acquired with
    | true => exact fun a _ => canImport_missed (peer_missed hf a)
    | false =>
      obtain ⟨-, hentry⟩ := hwhy.resolve_left nofun
      intro a _
      cases a with
      | true => exact hentry rfl
      | false => exact hrefused

lemma created_importable (hd : Decided tr s) {d : Cuda.CudaBufferDescriptor}
    (hs : s.step (.createDescriptorWithEndpoint gid acquired args) =
      some (.created (.ok (some d)) classified, u)) :
    ∃ info, lastClassified gid (tr ++ [(.createDescriptorWithEndpoint gid acquired args,
      .created (.ok (some d)) classified)]) = some info ∧
      Importable u.endpointManager.identity info := by
  have hsnoc : ∀ o,
      lastClassified gid (tr ++ [(.createDescriptorWithEndpoint gid acquired args, o)]) =
        o.classified.or (lastClassified gid tr) := by
    intro o
    have hself :
        classifiedBy gid (.createDescriptorWithEndpoint gid acquired args, o) = o.classified :=
      if_pos rfl
    rw [lastClassified_snoc, hself]
  rw [hsnoc]
  generalize ho : Output.created (.ok (some d)) classified = o at hs ⊢
  cases step_cases hs with
  | @decided _ _ _ b hb =>
    obtain ⟨hresult, -⟩ := Output.created.inj ho
    cases b with
    | false => exact nomatch hresult
    | true =>
      obtain ⟨info, hlast, hinfo⟩ := hd.latest gid true hb
      exact ⟨info, hlast, canImportDescriptor_iff.mp hinfo⟩
  | undecided _ =>
    obtain ⟨hresult, -⟩ := Output.created.inj ho
    refine ⟨_, rfl, ?_⟩
    obtain ⟨hmanager, -⟩ := classify_manager s acquired gid
    rw [hmanager]
    apply canImportDescriptor_iff.mp
    by_contra hno
    have hno : s.canImport acquired gid = false := Bool.not_eq_true _ ▸ hno
    rw [hno] at hresult
    exact nomatch hresult

/-- An endpoint that was turned down gets no descriptor while its registry entry stays
as it was, and one that gets a descriptor was last found to be importable. Where the refresh of
the discovery failed, the registry itself must have turned the endpoint down; where that of a
publication fails, an own registration must not leave a second entry. -/
theorem capability_agreement (hinit : ∀ gid, s₀.ipcDecisionCache gid = none)
    (hc : Every step ListsBackend s₀ tr)
    (hr : Run step s₀ (tr ++ [(.createDescriptorWithEndpoint gid acquired args,
      .created result classified)]) s) :
    (∀ pre mid supportsCuda poolIpcCapable refreshed classified t₀ t,
      tr = pre ++ (.onDiscoveringEndpoint gid supportsCuda poolIpcCapable refreshed,
        .discovered false classified) :: mid →
      Run step s₀ pre t₀ →
      supportsCuda = false ∨
        poolIpcCapable = true ∧ (refreshed = false → t₀.canImport true gid = false) →
      (∀ x ∈ mid, ¬ x.1.discovers gid) →
      Run step s₀ (pre ++ [(.onDiscoveringEndpoint gid supportsCuda poolIpcCapable refreshed,
        .discovered false classified)]) t → Every step (KeepsEntry gid) t mid →
      ((∃ x ∈ mid, x.1.misses gid) ∨ acquired = false → Every step (Unambiguous gid) t mid) →
      result = .ok none) ∧
    ∀ d, result = .ok (some d) → ∃ info,
      lastClassified gid (tr ++ [(.createDescriptorWithEndpoint gid acquired args,
        .created result classified)]) = some info ∧ Importable s.endpointManager.identity info := by
  obtain ⟨w, hrun, hcreate⟩ := run_snoc_iff.mp hr
  constructor
  · rintro pre mid supportsCuda poolIpcCapable refreshed cl t₀ t rfl ht₀ hwhy hne ht hk hw
    obtain ⟨v, hpre, hdiscover⟩ := run_snoc_iff.mp ht
    obtain rfl := hpre.unique ht₀
    obtain ⟨v', hpre', hrest⟩ := run_append_iff.mp hrun
    obtain rfl := hpre.unique hpre'
    obtain ⟨t', hdiscover', hmid⟩ := run_cons_iff.mp hrest
    obtain ⟨-, rfl⟩ := Prod.mk.inj (Option.some.inj (hdiscover.symm.trans hdiscover'))
    have hlists := hc pre _ _ mid v rfl hpre
    have hdown := discovered_turnsDown (run_decided hinit hpre) hlists hwhy hdiscover
    have hkept := run_turnsDown hmid (turnsDown_mono hdown _) hk hw
      (fun x hx hmiss => .inl ⟨x, hx, hmiss⟩) hne
    refine created_of_turnsDown hkept ?_ hcreate
    cases acquired with
    | true => exact .inl rfl
    | false => exact .inr (.inr rfl)
  · rintro d rfl
    exact created_importable (run_decided hinit hrun) hcreate

end Calls

section Cases

/-- A process of user 1000, and in the registry the endpoint 5 of another process of
that user. -/
def beside : CudaBufferBackend :=
  { endpointManager :=
      { identity := ⟨7, makeInstanceId 7 0, 0, 1000⟩, seg := 0, sem := 0, ipcCapable := true }
    registry :=
      { version := 1, maxEntries := maxEndpoints, numEntries := 1
        entries := fun _ =>
          { instanceId := makeInstanceId 9 0, gid := 5, entityType := .subscription, uid := 1000,
            active := true, ipcCapable := true } } }

/-- The endpoint 5 cannot use the IPC. -/
def apart : CudaBufferBackend :=
  { beside with
    registry := { beside.registry with
      entries := fun _ => { beside.registry.entries 0 with ipcCapable := false } } }

/-- A buffer in the only block of the pool. -/
def publishing : Publication :=
  { impl := some (Cuda.Exchange.bufferAt 8192)
    os := {}
    pid := 7
    pool := .ok
      { granularity := 4096, granularity_pos := by decide, deviceId := 0, ipcCapable := true
        nextBlockId := 1
        allBlocks := [{ handle := 1, va := 8192, size := 4096, exportedFd := 3 }] }
    now := 0
    drawn := 77
    register := Cuda.Exchange.registering
    cudaIpcGetEventHandle := none }

lemma publishing_publishes : ∃ d, publish publishing = .ok (some d) := by
  have h : (publish publishing).toOption.any Option.isSome = true := by decide +kernel
  cases hp : publish publishing with
  | error e => simp [hp, Except.toOption] at h
  | ok d =>
    obtain ⟨d, rfl⟩ : ∃ d', d = some d' :=
      Option.isSome_iff_exists.mp (by simpa [hp, Except.toOption] using h)
    exact ⟨d, rfl⟩

lemma beside_canImport : beside.canImport true 5 = true := by decide

lemma single_lists (s : CudaBufferBackend) (gid : ℕ) (poolIpcCapable acquired : Bool) (o : Output) :
    Every step ListsBackend s [(.onDiscoveringEndpoint gid true poolIpcCapable acquired, o)] := by
  have hnil : Run step s [] s := .nil
  refine hnil.every_snoc.mpr ⟨fun _ _ _ _ _ heq => absurd heq (by simp), ?_⟩
  intro h
  cases h

theorem capability_agreement_once :
    (∃ classified result s,
      Run step apart [(.onDiscoveringEndpoint 5 true true true, .discovered false classified),
        (.createDescriptorWithEndpoint 5 false publishing, .created result none)] s ∧
      result = .ok none) ∧
    ∃ tr classified d info s,
      Run step beside (tr ++ [(.createDescriptorWithEndpoint 5 true publishing,
        .created (.ok (some d)) classified)]) s ∧
      lastClassified 5 (tr ++ [(.createDescriptorWithEndpoint 5 true publishing,
        .created (.ok (some d)) classified)]) = some info ∧
      Importable s.endpointManager.identity info := by
  constructor
  · have hno : apart.canImport true 5 = false := by decide
    have hdiscover : apart.step (.onDiscoveringEndpoint 5 true true true) =
        some (.discovered (apart.canImport true 5) (some (apart.peer true 5)),
          apart.classify true 5) := rfl
    rw [hno] at hdiscover
    have hcached : (apart.classify true 5).ipcDecisionCache 5 = some (apart.canImport true 5) :=
      classify_decided (by decide)
    rw [hno] at hcached
    have hcreate : (apart.classify true 5).step
        (.createDescriptorWithEndpoint 5 false publishing) =
          some (.created (.ok none) none, apart.classify true 5) := by
      simp only [step, createDescriptorWithEndpoint, hcached]
    have hr := (Run.single hdiscover).snoc hcreate
    have hnil : Run step apart [] apart := .nil
    obtain ⟨hdown, -⟩ := capability_agreement (fun _ => rfl) (single_lists _ _ _ _ _) hr
    refine ⟨_, _, _, hr, hdown [] [] true true true (some (apart.peer true 5)) apart
      (apart.classify true 5) rfl hnil (.inr ⟨rfl, by decide⟩) ?_
        (Run.single hdiscover) ?_ ?_⟩
    · exact fun _ hx => absurd hx List.not_mem_nil
    · exact fun _ _ _ _ _ heq => absurd heq (by simp)
    · exact fun _ _ _ _ _ _ heq => absurd heq (by simp)
  · obtain ⟨d, hd⟩ := publishing_publishes
    have hdiscover : beside.step (.onDiscoveringEndpoint 5 true true true) =
        some (.discovered (beside.canImport true 5) (some (beside.peer true 5)),
          beside.classify true 5) := rfl
    have hcached : (beside.classify true 5).ipcDecisionCache 5 = some (beside.canImport true 5) :=
      classify_decided (by decide)
    rw [beside_canImport] at hcached
    have hcreate : (beside.classify true 5).step
        (.createDescriptorWithEndpoint 5 true publishing) =
          some (.created (.ok (some d)) none, beside.classify true 5) := by
      simp only [step, createDescriptorWithEndpoint, hcached, hd]
    have hr := (Run.single hdiscover).snoc hcreate
    obtain ⟨info, hinfo⟩ :=
      (capability_agreement (fun _ => rfl) (single_lists _ _ _ _ _) hr).2 d rfl
    exact ⟨_, none, d, info, _, hr, hinfo⟩

/-- The endpoint does not list the backend, and gets a descriptor all the same. -/
theorem unlisted_endpoint_gets_descriptor : ∃ classified d s,
    (∀ gid, beside.ipcDecisionCache gid = none) ∧
    Run step beside [(.onDiscoveringEndpoint 5 false true true, .discovered false none),
      (.createDescriptorWithEndpoint 5 true publishing, .created (.ok (some d)) classified)] s := by
  obtain ⟨d, hd⟩ := publishing_publishes
  have hcreate : beside.step (.createDescriptorWithEndpoint 5 true publishing) =
      some (.created (.ok (some d)) (some (beside.peer true 5)), beside.classify true 5) := by
    have hnone : beside.ipcDecisionCache 5 = none := rfl
    simp only [step, createDescriptorWithEndpoint, hnone, beside_canImport, if_true, hd]
  have hdiscover : beside.step (.onDiscoveringEndpoint 5 false true true) =
      some (.discovered false none, beside) := rfl
  exact ⟨_, d, _, fun _ => rfl, (Run.single hdiscover).snoc hcreate⟩

end Cases

end RosidlBufferBackends.Plugin
