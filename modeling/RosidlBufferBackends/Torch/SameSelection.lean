import RosidlBufferBackends.Torch.PythonRegistration
import RosidlBufferBackends.Torch.Registration

/-! A C++ and a Python process with the same plugins select the same ones, in whatever order each
of them finds the plugins. -/

namespace RosidlBufferBackends.Torch.Python

open ConversionRegistry

/-- The two plugins for one backend and one device. -/
structure Counterpart (c : DeclaredClass) (q : Candidate) : Prop where
  usable : c.usable = q.available
  typed : c.typed = true
  named : c.plugin.backend ≠ ""
  backends : q.plugin.backends = [c.plugin.backend]
  deviceTypes : q.plugin.deviceTypes = [c.plugin.deviceType]
  priority : q.plugin.priority = c.plugin.priority

/-- The pairs of an installation, and the orders in which the two registries meet them. -/
structure Installation (pairs : List (DeclaredClass × Candidate)) (classes : List DeclaredClass)
    (calls : List Candidate) : Prop where
  classes : (pairs.map Prod.fst).Perm classes
  calls : (pairs.map Prod.snd).Perm calls
  counterpart : ∀ p ∈ pairs, Counterpart p.1 p.2
  backends : (pairs.map fun p => p.1.plugin.backend).Nodup
  deviceTypes : (pairs.map fun p => p.1.plugin.deviceType).Nodup

/-- The plugins of one pair, or no plugin on either side. -/
def Same (pairs : List (DeclaredClass × Candidate)) (x : Except Exception Torch.ConversionPlugin)
    (y : Except PythonError ConversionPlugin) : Prop :=
  (∃ p ∈ pairs, x = .ok p.1.plugin ∧ y = .ok p.2.plugin) ∨
    (∀ plugin, x ≠ .ok plugin) ∧ ∀ plugin, y ≠ .ok plugin

structure SameSelection (pairs : List (DeclaredClass × Candidate)) (registry : Registry)
    (python : ConversionRegistry) : Prop where
  names : registry.backends.map Prod.fst = python.backends
  forBackend : ∀ backend, Same pairs (registry.forBackend backend) (python.forBackend backend)
  forDevice : ∀ type, Same pairs (registry.forDevice type) (python.forDevice type)
  defaultName : ∀ name, registry.defaultName = .ok name ↔ python.defaultBackend = .ok name

variable {pairs : List (DeclaredClass × Candidate)} {classes : List DeclaredClass}
  {calls : List Candidate} {p : DeclaredClass × Candidate}

lemma find_of_nodup {α κ : Type*} [DecidableEq κ] {f : α → κ} {l : List α} {a : α} {k : κ}
    (hl : (l.map f).Nodup) :
    l.find? (fun x => decide (f x = k)) = some a ↔ a ∈ l ∧ f a = k := by
  induction l with
  | nil => simp
  | cons x l ih =>
    obtain ⟨hx, hl⟩ := List.nodup_cons.mp hl
    rw [List.find?_cons]
    by_cases hk : f x = k
    · rw [decide_eq_true hk]
      constructor
      · intro h
        obtain rfl := Option.some.inj h
        exact ⟨List.mem_cons_self, hk⟩
      · rintro ⟨ha, hka⟩
        obtain rfl | ha := List.mem_cons.mp ha
        · rfl
        · exact absurd (List.mem_map.mpr ⟨a, ha, hka.trans hk.symm⟩) hx
    · rw [decide_eq_false hk]
      change l.find? _ = some a ↔ _
      rw [ih hl, List.mem_cons]
      refine and_congr_left fun hka => (or_iff_right ?_).symm
      rintro rfl
      exact hk hka

lemma accepted_of_nodup (hnodup : (classes.map fun c => c.plugin.backend).Nodup) :
    accepted classes = classes.filter DeclaredClass.usable := by
  induction classes using List.reverseRecOn with
  | nil => rfl
  | append_singleton classes c ih =>
    rw [List.map_append, List.nodup_append] at hnodup
    rw [accepted_concat, ih hnodup.1, List.filter_append, List.filter_singleton, accept]
    by_cases hu : c.usable = true
    · have hnew : ∀ a ∈ classes.filter DeclaredClass.usable,
          a.plugin.backend ≠ c.plugin.backend := by
        intro a ha
        exact hnodup.2.2 _ (List.mem_map_of_mem (List.mem_of_mem_filter ha)) _
          (List.mem_singleton.mpr rfl)
      rw [if_pos ⟨hu, hnew⟩, hu]
      rfl
    · rw [if_neg fun h => hu h.1]
      simp [hu]

/-- A plugin with one backend is entered or refused as a whole. -/
lemma atomic_of_single {registry : ConversionRegistry} {q : Candidate} {b : String}
    (hq : q.plugin.backends = [b]) : Atomic registry q := by
  rw [atomic_iff]
  cases hb : registry.byBackend.lookup b with
  | none =>
    refine .inr (.inl ⟨by rw [hq]; exact List.nodup_singleton b, fun x hx => ?_⟩)
    rw [hq, List.mem_singleton] at hx
    rw [hx, hb]
  | some owner =>
    refine .inr (.inr ?_)
    rw [backend_of_cons hq, hb]
    rfl

lemma clean_of_single (h : ∀ q ∈ calls, ∃ b, q.plugin.backends = [b]) :
    Clean (History.after calls) := by
  refine clean_after calls fun pre q post hcalls => ?_
  obtain ⟨b, hb⟩ := h q (by rw [hcalls]; exact List.mem_append_right _ List.mem_cons_self)
  exact atomic_of_single hb

lemma registered_of_nodup (h : ∀ q ∈ calls, ∃ b, q.plugin.backends = [b])
    (hnodup : (calls.map fun q => q.plugin.backends).Nodup) :
    (History.after calls).registered =
      (calls.filter Candidate.available).map Candidate.plugin := by
  induction calls using List.reverseRecOn with
  | nil => rfl
  | append_singleton calls q ih =>
    rw [List.map_append, List.nodup_append] at hnodup
    have hpre : ∀ q ∈ calls, ∃ b, q.plugin.backends = [b] :=
      fun q hq => h q (List.mem_append_left _ hq)
    have hregistered := ih hpre hnodup.1
    have hafter : History.after (calls ++ [q]) = (History.after calls).call q := by
      rw [History.after, List.foldl_append]
      rfl
    rw [hafter, List.filter_append, List.map_append, List.filter_singleton]
    cases register_cases (History.after calls).registry q with
    | unavailable hun hregister =>
      rw [call_unavailable hun hregister, hregistered]
      simp [hun]
    | completed hav _ _ hregister =>
      rw [call_completed hav hregister, hregistered, hav]
      rfl
    | @raised entered rest b e hav hsplit hentered hfresh hb hregister =>
      -- its backend would be the backend of an earlier plugin
      obtain ⟨b', hq⟩ := h q (List.mem_append_right _ List.mem_cons_self)
      obtain ⟨rfl, rfl, rfl⟩ : entered = [] ∧ b = b' ∧ rest = [] := by
        rw [hq] at hsplit
        cases entered with
        | nil => simpa [eq_comm] using hsplit
        | cons x entered => simp at hsplit
      obtain ⟨owner, howner⟩ := Option.isSome_iff_exists.mp (hb.resolve_left List.not_mem_nil)
      have hmem := clean_of_single hpre b owner howner
      have hlisted := (tables_after calls).listed b owner howner
      rw [hregistered] at hmem
      obtain ⟨q', hq', rfl⟩ := List.mem_map.mp hmem
      have hq'mem := List.mem_of_mem_filter hq'
      obtain ⟨b', hb'⟩ := hpre q' hq'mem
      rw [hb', List.mem_singleton] at hlisted
      have hne : q'.plugin.backends ≠ q.plugin.backends :=
        hnodup.2.2 _ (List.mem_map_of_mem hq'mem) _ (List.mem_singleton.mpr rfl)
      rw [hb', hq, hlisted] at hne
      exact absurd rfl hne

/-- The keys of a `dict` are all different. -/
lemma keys_after (calls : List Candidate) :
    ((History.after calls).registry.byBackend.map Prod.fst).Nodup := by
  induction calls using List.reverseRecOn with
  | nil => exact .nil
  | append_singleton calls q ih =>
    have hafter : History.after (calls ++ [q]) = (History.after calls).call q := by
      rw [History.after, List.foldl_append]
      rfl
    have henter : ∀ entered : List String, entered.Nodup →
        (∀ b ∈ entered, (History.after calls).registry.byBackend.lookup b = none) →
        (((History.after calls).registry.byBackend ++ entered.map fun b => (b, q.plugin)).map
          Prod.fst).Nodup := by
      intro entered hentered hfresh
      have hkeys : (entered.map fun b => (b, q.plugin)).map Prod.fst = entered := by
        rw [List.map_map]
        exact List.map_id entered
      rw [List.map_append, hkeys, List.nodup_append]
      refine ⟨ih, hentered, ?_⟩
      rintro a ha b hb rfl
      have hsome := (lookup_isSome _ a).mpr ha
      rw [hfresh a hb] at hsome
      cases hsome
    rw [hafter]
    cases register_cases (History.after calls).registry q with
    | unavailable hun hregister => rwa [call_unavailable hun hregister]
    | completed hav hnodup hfresh hregister =>
      rw [call_completed hav hregister]
      exact henter _ hnodup hfresh
    | raised hav hsplit hentered hfresh hb hregister =>
      rw [call_raised hregister]
      exact henter _ hentered hfresh

namespace Installation

lemma mem_classes (h : Installation pairs classes calls) {c : DeclaredClass} :
    c ∈ classes ↔ ∃ p ∈ pairs, p.1 = c := by
  rw [← h.classes.mem_iff, List.mem_map]

lemma mem_calls (h : Installation pairs classes calls) {q : Candidate} :
    q ∈ calls ↔ ∃ p ∈ pairs, p.2 = q := by
  rw [← h.calls.mem_iff, List.mem_map]

lemma nodup_classes {κ : Type*} {f : DeclaredClass → κ} (h : Installation pairs classes calls)
    (hnodup : (pairs.map fun p => f p.1).Nodup) : (classes.map f).Nodup := by
  have hperm := h.classes.map f
  rw [List.map_map] at hperm
  exact hperm.nodup_iff.mp hnodup

lemma accepted_eq (h : Installation pairs classes calls) :
    accepted classes = classes.filter DeclaredClass.usable :=
  accepted_of_nodup (h.nodup_classes h.backends)

lemma single (h : Installation pairs classes calls) :
    ∀ q ∈ calls, ∃ b, q.plugin.backends = [b] := by
  intro q hq
  obtain ⟨p, hp, rfl⟩ := h.mem_calls.mp hq
  exact ⟨_, (h.counterpart p hp).backends⟩

lemma registered_eq (h : Installation pairs classes calls) :
    (History.after calls).registered =
      (calls.filter Candidate.available).map Candidate.plugin := by
  refine registered_of_nodup h.single ?_
  have hperm := h.calls.map fun q => q.plugin.backends
  rw [List.map_map] at hperm
  rw [← hperm.nodup_iff]
  have hsame : pairs.map ((fun q : Candidate => q.plugin.backends) ∘ Prod.snd) =
      (pairs.map fun p => p.1.plugin.backend).map fun b => [b] := by
    rw [List.map_map]
    exact List.map_congr_left fun p hp => (h.counterpart p hp).backends
  rw [hsame]
  exact h.backends.map fun a b hab => by simpa using hab

lemma mem_registered (h : Installation pairs classes calls) {plugin : ConversionPlugin} :
    plugin ∈ (History.after calls).registered ↔
      ∃ p ∈ pairs, p.1.usable = true ∧ p.2.plugin = plugin := by
  rw [h.registered_eq, List.mem_map]
  constructor
  · rintro ⟨q, hq, rfl⟩
    obtain ⟨hq, hav⟩ := List.mem_filter.mp hq
    obtain ⟨p, hp, rfl⟩ := h.mem_calls.mp hq
    exact ⟨p, hp, (h.counterpart p hp).usable.trans hav, rfl⟩
  · rintro ⟨p, hp, hu, rfl⟩
    exact ⟨p.2, List.mem_filter.mpr ⟨h.mem_calls.mpr ⟨p, hp, rfl⟩,
      (h.counterpart p hp).usable.symm.trans hu⟩, rfl⟩

/-- A find of a key that the plugins of no two pairs share. -/
lemma find_class {κ : Type*} [DecidableEq κ] {f : DeclaredClass → κ}
    (h : Installation pairs classes calls) (hnodup : (pairs.map fun p => f p.1).Nodup)
    {k : κ} {plugin : Torch.ConversionPlugin} :
    ((accepted classes).find? fun c => decide (f c = k)).map DeclaredClass.plugin = some plugin ↔
      ∃ p ∈ pairs, p.1.usable = true ∧ f p.1 = k ∧ p.1.plugin = plugin := by
  have hfiltered : ((classes.filter DeclaredClass.usable).map f).Nodup :=
    (h.nodup_classes hnodup).sublist ((List.filter_sublist).map f)
  rw [h.accepted_eq, Option.map_eq_some_iff]
  constructor
  · rintro ⟨c, hc, rfl⟩
    obtain ⟨hmem, hk⟩ := (find_of_nodup hfiltered).mp hc
    obtain ⟨hmem, hu⟩ := List.mem_filter.mp hmem
    obtain ⟨p, hp, rfl⟩ := h.mem_classes.mp hmem
    exact ⟨p, hp, hu, hk, rfl⟩
  · rintro ⟨p, hp, hu, hk, rfl⟩
    exact ⟨p.1, (find_of_nodup hfiltered).mpr
      ⟨List.mem_filter.mpr ⟨h.mem_classes.mpr ⟨p, hp, rfl⟩, hu⟩, hk⟩, rfl⟩

lemma forBackend (h : Installation pairs classes calls) {backend : String}
    {plugin : Torch.ConversionPlugin} :
    (Registry.construct classes).forBackend backend = .ok plugin ↔
      ∃ p ∈ pairs, p.1.usable = true ∧ p.1.plugin.backend = backend ∧ p.1.plugin = plugin := by
  rw [Registry.forBackend_ok, (Registry.built_construct classes).lookup]
  exact h.find_class h.backends

lemma forDevice (h : Installation pairs classes calls) {type : DeviceType}
    {plugin : Torch.ConversionPlugin} :
    (Registry.construct classes).forDevice type = .ok plugin ↔
      ∃ p ∈ pairs, p.1.usable = true ∧ p.1.plugin.deviceType = type ∧ p.1.plugin = plugin := by
  have htyped : ∀ c ∈ accepted classes, c.typed = true := by
    intro c hc
    rw [h.accepted_eq] at hc
    obtain ⟨p, hp, rfl⟩ := h.mem_classes.mp (List.mem_of_mem_filter hc)
    exact (h.counterpart p hp).typed
  have hfind : ((accepted classes).find? fun c => c.typed && decide (c.plugin.deviceType = type)) =
      (accepted classes).find? fun c => decide (c.plugin.deviceType = type) := by
    conv_rhs => rw [← List.filter_eq_self.mpr htyped, List.find?_filter]
    simp
  rw [Registry.forDevice_ok, (Registry.built_construct classes).devices, hfind]
  exact h.find_class h.deviceTypes

lemma python_lookup (h : Installation pairs classes calls) {backend : String}
    {plugin : ConversionPlugin} :
    (History.after calls).registry.byBackend.lookup backend = some plugin ↔
      ∃ p ∈ pairs, p.1.usable = true ∧ p.1.plugin.backend = backend ∧ p.2.plugin = plugin := by
  have htables := tables_after calls
  constructor
  · intro hlookup
    obtain ⟨p, hp, hu, rfl⟩ := h.mem_registered.mp (clean_of_single h.single _ _ hlookup)
    have hlisted := htables.listed _ _ hlookup
    rw [(h.counterpart p hp).backends, List.mem_singleton] at hlisted
    exact ⟨p, hp, hu, hlisted.symm, rfl⟩
  · rintro ⟨p, hp, hu, rfl, rfl⟩
    refine htables.entered _ (h.mem_registered.mpr ⟨p, hp, hu, rfl⟩) _ ?_
    rw [(h.counterpart p hp).backends]
    exact List.mem_cons_self

lemma python_forDevice (h : Installation pairs classes calls) {type : DeviceType}
    {plugin : ConversionPlugin} :
    (History.after calls).registry.forDevice type = .ok plugin ↔
      ∃ p ∈ pairs, p.1.usable = true ∧ p.1.plugin.deviceType = type ∧ p.2.plugin = plugin := by
  rw [(tables_after calls).forDevice]
  constructor
  · intro hfind
    obtain ⟨p, hp, hu, rfl⟩ := h.mem_registered.mp (List.mem_of_find?_eq_some hfind)
    have htype := List.find?_some hfind
    rw [(h.counterpart p hp).deviceTypes, decide_eq_true_eq, List.mem_singleton] at htype
    exact ⟨p, hp, hu, htype.symm, rfl⟩
  · rintro ⟨p, hp, hu, rfl, rfl⟩
    have hmem := h.mem_registered.mpr ⟨p, hp, hu, rfl⟩
    have hsome : ((History.after calls).registered.find? fun q =>
        decide (p.1.plugin.deviceType ∈ q.deviceTypes)).isSome := by
      rw [List.find?_isSome]
      refine ⟨_, hmem, ?_⟩
      rw [(h.counterpart p hp).deviceTypes, decide_eq_true_eq]
      exact List.mem_cons_self
    obtain ⟨found, hfound⟩ := Option.isSome_iff_exists.mp hsome
    obtain ⟨p', hp', -, rfl⟩ := h.mem_registered.mp (List.mem_of_find?_eq_some hfound)
    have htype := List.find?_some hfound
    rw [(h.counterpart p' hp').deviceTypes, decide_eq_true_eq, List.mem_singleton] at htype
    obtain rfl : p' = p := List.inj_on_of_nodup_map h.deviceTypes hp' hp htype.symm
    exact hfound

lemma mem_python_backends (h : Installation pairs classes calls) {b : String} :
    b ∈ (History.after calls).registry.backends ↔
      ∃ p ∈ pairs, p.1.usable = true ∧ p.1.plugin.backend = b := by
  rw [mem_backends, Option.isSome_iff_exists]
  constructor
  · rintro ⟨plugin, hplugin⟩
    obtain ⟨p, hp, hu, hb, -⟩ := h.python_lookup.mp hplugin
    exact ⟨p, hp, hu, hb⟩
  · rintro ⟨p, hp, hu, hb⟩
    exact ⟨p.2.plugin, h.python_lookup.mpr ⟨p, hp, hu, hb, rfl⟩⟩

/-- Two sorted lists with the same members. -/
lemma names (h : Installation pairs classes calls) :
    (Registry.construct classes).backends.map Prod.fst =
      (History.after calls).registry.backends := by
  have hbuilt := Registry.built_construct classes
  have hleft : ((Registry.construct classes).backends.map Prod.fst).Pairwise (· < ·) := by
    rw [List.pairwise_map]
    exact hbuilt.names
  have hright : (History.after calls).registry.backends.Pairwise (· ≤ ·) :=
    List.pairwise_insertionSort _ _
  have hnodup : (History.after calls).registry.backends.Nodup :=
    (List.perm_insertionSort _ _).nodup_iff.mpr (keys_after calls)
  have hmem : ∀ b, b ∈ (Registry.construct classes).backends.map Prod.fst ↔
      b ∈ (History.after calls).registry.backends := by
    intro b
    rw [h.mem_python_backends, List.mem_map]
    constructor
    · rintro ⟨⟨b, plugin⟩, hentry, rfl⟩
      obtain ⟨p, hp, hu, hb, -⟩ := h.forBackend.mp (hbuilt.forBackend.mpr hentry)
      exact ⟨p, hp, hu, hb⟩
    · rintro ⟨p, hp, hu, hb⟩
      exact ⟨(b, p.1.plugin), hbuilt.forBackend.mp (h.forBackend.mpr ⟨p, hp, hu, hb, rfl⟩), rfl⟩
  have hperm := (List.perm_ext_iff_of_nodup (hleft.imp ne_of_lt) hnodup).mpr hmem
  exact hperm.eq_of_pairwise (fun a b _ _ => le_antisymm) (hleft.imp le_of_lt) hright

/-- The name of the plugin that is the default on either side. -/
def Default (pairs : List (DeclaredClass × Candidate)) (name : String) : Prop :=
  ∃ p ∈ pairs, p.1.usable = true ∧ p.1.plugin.backend = name ∧ ∀ p' ∈ pairs, p'.1.usable = true →
    p'.1.plugin.priority < p.1.plugin.priority ∨
      (p'.1.plugin.priority = p.1.plugin.priority ∧ name ≤ p'.1.plugin.backend)

lemma default_unique {a b : String} (ha : Default pairs a) (hb : Default pairs b) : a = b := by
  obtain ⟨p, hp, hpu, rfl, ha⟩ := ha
  obtain ⟨q, hq, hqu, rfl, hb⟩ := hb
  obtain hlt | ⟨heq, hpq⟩ := ha q hq hqu
  · obtain hgt | ⟨heq, -⟩ := hb p hp hpu
    · exact absurd hlt hgt.asymm
    · exact absurd heq hlt.ne'
  · obtain hgt | ⟨-, hqp⟩ := hb p hp hpu
    · exact absurd heq.symm hgt.ne
    · exact le_antisymm hpq hqp

lemma defaultName (h : Installation pairs classes calls) {name : String} :
    (Registry.construct classes).defaultName = .ok name ↔ Default pairs name := by
  rw [(Registry.built_construct classes).defaultName]
  constructor
  · rintro ⟨hname, plugin, hplugin, hbest⟩
    obtain ⟨p, hp, hu, hb, rfl⟩ := h.forBackend.mp hplugin
    refine ⟨p, hp, hu, hb, fun p' hp' hu' => ?_⟩
    exact hbest _ _ (h.counterpart p' hp').named (h.forBackend.mpr ⟨p', hp', hu', rfl, rfl⟩)
  · rintro ⟨p, hp, hu, rfl, hbest⟩
    refine ⟨(h.counterpart p hp).named, _, h.forBackend.mpr ⟨p, hp, hu, rfl, rfl⟩,
      fun other plugin' _ hplugin' => ?_⟩
    obtain ⟨p', hp', hu', rfl, rfl⟩ := h.forBackend.mp hplugin'
    exact hbest p' hp' hu'

lemma python_defaultBackend (h : Installation pairs classes calls) {name : String} :
    (History.after calls).registry.defaultBackend = .ok name ↔ Default pairs name := by
  have hpriority : ∀ p ∈ pairs, p.1.usable = true →
      (History.after calls).registry.priority p.1.plugin.backend = p.1.plugin.priority := by
    intro p hp hu
    rw [priority_of_lookup (h.python_lookup.mpr ⟨p, hp, hu, rfl, rfl⟩)]
    exact (h.counterpart p hp).priority
  -- any backend at all makes a default, which is the one of the pairs
  have hselected : ∀ b, b ∈ (History.after calls).registry.backends → ∃ selected,
      (History.after calls).registry.defaultBackend = .ok selected ∧ Default pairs selected := by
    intro b hb
    obtain ⟨selected, hdefault, hin, hgreatest⟩ := defaultBackend_greatest hb
    obtain ⟨p, hp, hu, rfl⟩ := h.mem_python_backends.mp hin
    refine ⟨_, hdefault, p, hp, hu, rfl, fun p' hp' hu' => ?_⟩
    have hother := hgreatest _ (h.mem_python_backends.mpr ⟨p', hp', hu', rfl⟩)
    rwa [hpriority p' hp' hu', hpriority p hp hu] at hother
  constructor
  · intro hdefault
    cases hnames : (History.after calls).registry.backends with
    | nil =>
      unfold ConversionRegistry.defaultBackend at hdefault
      rw [hnames] at hdefault
      nomatch hdefault
    | cons b rest =>
      obtain ⟨selected, hselect, hin⟩ := hselected b (by rw [hnames]; exact List.mem_cons_self)
      rw [hselect, Except.ok.injEq] at hdefault
      exact hdefault ▸ hin
  · intro hdefault
    obtain ⟨p, hp, hu, hb, -⟩ := id hdefault
    obtain ⟨selected, hselect, hin⟩ := hselected name (h.mem_python_backends.mpr ⟨p, hp, hu, hb⟩)
    rw [hselect, default_unique hin hdefault]

end Installation

theorem same_plugins_are_selected (h : Installation pairs classes calls) :
    SameSelection pairs (Registry.construct classes) (History.after calls).registry := by
  refine ⟨h.names, fun backend => ?_, fun type => ?_, fun name => ?_⟩
  · by_cases hex : ∃ p ∈ pairs, p.1.usable = true ∧ p.1.plugin.backend = backend
    · obtain ⟨p, hp, hu, hb⟩ := hex
      exact .inl ⟨p, hp, h.forBackend.mpr ⟨p, hp, hu, hb, rfl⟩,
        forBackend_iff.mpr (h.python_lookup.mpr ⟨p, hp, hu, hb, rfl⟩)⟩
    · refine .inr ⟨fun plugin hplugin => hex ?_, fun plugin hplugin => hex ?_⟩
      · obtain ⟨p, hp, hu, hb, -⟩ := h.forBackend.mp hplugin
        exact ⟨p, hp, hu, hb⟩
      · obtain ⟨p, hp, hu, hb, -⟩ := h.python_lookup.mp (forBackend_iff.mp hplugin)
        exact ⟨p, hp, hu, hb⟩
  · by_cases hex : ∃ p ∈ pairs, p.1.usable = true ∧ p.1.plugin.deviceType = type
    · obtain ⟨p, hp, hu, ht⟩ := hex
      exact .inl ⟨p, hp, h.forDevice.mpr ⟨p, hp, hu, ht, rfl⟩,
        h.python_forDevice.mpr ⟨p, hp, hu, ht, rfl⟩⟩
    · refine .inr ⟨fun plugin hplugin => hex ?_, fun plugin hplugin => hex ?_⟩
      · obtain ⟨p, hp, hu, ht, -⟩ := h.forDevice.mp hplugin
        exact ⟨p, hp, hu, ht⟩
      · obtain ⟨p, hp, hu, ht, -⟩ := h.python_forDevice.mp hplugin
        exact ⟨p, hp, hu, ht⟩
  · rw [h.defaultName, h.python_defaultBackend]

/-- A C++ plugin for CUDA that allocates nothing. -/
def idleCuda : DeclaredClass where
  plugin :=
    { backend := "cuda"
      deviceType := .cuda
      priority := 100
      allocate := fun _ _ => .error (.runtimeError "")
      copyTo := fun _ _ => .rejected (.runtimeError "")
      fromInput := fun _ => .error (.runtimeError "") }

def cpuCandidate : Candidate := { plugin := cpuConversionPlugin, isFallback := true }

def bothInstalled : List (DeclaredClass × Candidate) :=
  [({ plugin := Torch.cpuConversionPlugin }, cpuCandidate),
    (idleCuda, cudaOnly)]

theorem same_plugins_are_selected_of_two :
    SameSelection bothInstalled
      (Registry.construct [idleCuda, { plugin := Torch.cpuConversionPlugin }])
      (History.after [cpuCandidate, cudaOnly]).registry := by
  refine same_plugins_are_selected ⟨.swap _ _ _, .refl _, fun p hp => ?_, by decide, by decide⟩
  obtain rfl | hp := List.mem_cons.mp hp
  · exact ⟨rfl, rfl, by decide, rfl, rfl, rfl⟩
  · obtain rfl := List.mem_singleton.mp hp
    exact ⟨rfl, rfl, by decide, rfl, rfl, rfl⟩

end RosidlBufferBackends.Torch.Python
