import Mathlib.Data.List.Induction
import RosidlBufferBackends.Torch.PythonConversions

/-! Registration of the plugins in the Python registry, and the tables that it leaves. -/

namespace RosidlBufferBackends.Torch.Python

/-- A plugin as `register` sees it. -/
structure Candidate where
  plugin : ConversionPlugin
  available : Bool := true
  isFallback : Bool := false

namespace ConversionRegistry

def empty : ConversionRegistry := ⟨[], [], []⟩

/-- The loop over the plugin's backends. It raises at the first that is taken. -/
def enterBackends (plugin : ConversionPlugin) :
    List String → List (String × ConversionPlugin) →
      List (String × ConversionPlugin) × Except PythonError Unit
  | [], table => (table, .ok ())
  | backend :: backends, table =>
    if (table.lookup backend).isSome then
      (table, .error (.valueError ("Torch backend '" ++ backend ++ "' is already registered")))
    else enterBackends plugin backends (table ++ [(backend, plugin)])

/-- `setdefault` -/
def setDefault (backend : String) (table : List (DeviceType × String)) (type : DeviceType) :
    List (DeviceType × String) :=
  if (table.lookup type).isSome then table else table ++ [(type, backend)]

def register (registry : ConversionRegistry) (c : Candidate) :
    ConversionRegistry × Except PythonError Unit :=
  if c.available = false then (registry, .ok ())
  else
    match enterBackends c.plugin c.plugin.backends registry.byBackend with
    | (byBackend, .error e) => ({ registry with byBackend := byBackend }, .error e)
    | (byBackend, .ok ()) =>
      ({ byBackend := byBackend
         byDevice := c.plugin.deviceTypes.foldl (setDefault c.plugin.backend) registry.byDevice
         fallbacks :=
          if c.isFallback then registry.fallbacks ++ [c.plugin] else registry.fallbacks }, .ok ())

end ConversionRegistry

/-- The registry, and the plugins that were registered without an exception, in order. -/
structure History where
  registry : ConversionRegistry := .empty
  registered : List ConversionPlugin := []

def History.call (h : History) (c : Candidate) : History :=
  match h.registry.register c with
  | (registry, .error _) => { h with registry := registry }
  | (registry, .ok ()) =>
    { registry := registry
      registered := if c.available then h.registered ++ [c.plugin] else h.registered }

def History.after (calls : List Candidate) : History := calls.foldl History.call {}

open ConversionRegistry

/-- A call that raises leaves the tables alone. -/
def Atomic (registry : ConversionRegistry) (c : Candidate) : Prop :=
  ∀ e, (registry.register c).2 = .error e → (registry.register c).1 = registry

/-- What the lookups answer, against the plugins that were registered. -/
structure Coherent (h : History) : Prop where
  forBackend : ∀ backend plugin, h.registry.forBackend backend = .ok plugin →
    backend ∈ plugin.backends
  forDevice : ∀ type plugin, h.registry.forDevice type = .ok plugin ↔
    h.registered.find? (fun p => decide (type ∈ p.deviceTypes)) = some plugin
  defaultBackend : h.registered ≠ [] → ∃ backend plugin,
    h.registry.defaultBackend = .ok backend ∧ plugin ∈ h.registered ∧
      backend ∈ plugin.backends ∧ ∀ other ∈ h.registered, ∀ name ∈ other.backends,
        other.priority < plugin.priority ∨ (other.priority = plugin.priority ∧ backend ≤ name)

/-- The plugin is not available, its backends are new and all different, or the first of them
is taken. -/
def Admissible (registry : ConversionRegistry) (c : Candidate) : Prop :=
  c.available = false ∨
    (c.plugin.backends.Nodup ∧ ∀ b ∈ c.plugin.backends, registry.byBackend.lookup b = none) ∨
      (registry.byBackend.lookup c.plugin.backend).isSome

variable {plugin : ConversionPlugin} {backends : List String} {registry : ConversionRegistry}
  {table : List (String × ConversionPlugin)} {c : Candidate} {h : History}

section Lookups

variable {κ υ : Type*} [DecidableEq κ]

lemma lookup_concat (table : List (κ × υ)) (k k' : κ) (v : υ) :
    (table ++ [(k', v)]).lookup k = (table.lookup k).or (if k = k' then some v else none) := by
  rw [List.lookup_append]
  by_cases hk : k = k'
  · simp [hk]
  · simp [List.lookup_cons, beq_eq_false_iff_ne.mpr hk, hk]

lemma lookup_map (keys : List κ) (v : υ) (k : κ) :
    (keys.map fun k => (k, v)).lookup k = if k ∈ keys then some v else none := by
  induction keys with
  | nil => rfl
  | cons k' keys ih =>
    rw [List.map_cons, List.lookup_cons, ih]
    by_cases hk : k = k'
    · simp [hk]
    · simp [beq_eq_false_iff_ne.mpr hk, hk]

lemma lookup_isSome (table : List (κ × υ)) (k : κ) :
    (table.lookup k).isSome ↔ k ∈ table.map Prod.fst := by
  induction table with
  | nil => simp
  | cons entry table ih =>
    rw [List.lookup_cons, List.map_cons, List.mem_cons]
    by_cases hk : k = entry.1
    · simp [hk]
    · simp [beq_eq_false_iff_ne.mpr hk, hk, ih]

end Lookups

section Entering

/-- The backends that were entered, and those that were not because the first of them is taken. -/
structure Entered (plugin : ConversionPlugin) (backends : List String)
    (table : List (String × ConversionPlugin)) (entered rest : List String) : Prop where
  split : backends = entered ++ rest
  left : (enterBackends plugin backends table).1 = table ++ entered.map fun b => (b, plugin)
  nodup : entered.Nodup
  fresh : ∀ b ∈ entered, table.lookup b = none
  result : ((enterBackends plugin backends table).2 = .ok () ∧ rest = []) ∨
    ∃ b tail e, rest = b :: tail ∧ (enterBackends plugin backends table).2 = .error e ∧
      (b ∈ entered ∨ (table.lookup b).isSome)

lemma Entered.cons {b : String} {entered rest : List String} (hnone : table.lookup b = none)
    (h : Entered plugin backends (table ++ [(b, plugin)]) entered rest) :
    Entered plugin (b :: backends) table (b :: entered) rest := by
  have htable : enterBackends plugin (b :: backends) table =
      enterBackends plugin backends (table ++ [(b, plugin)]) :=
    if_neg (by rw [hnone]; exact Bool.false_ne_true)
  have hfresh : ∀ x ∈ entered, x ≠ b ∧ table.lookup x = none := by
    intro x hx
    have hx' := h.fresh x hx
    rw [lookup_concat, Option.or_eq_none_iff] at hx'
    exact ⟨fun he => by simp [he] at hx', hx'.1⟩
  refine ⟨?_, ?_, ?_, ?_, ?_⟩
  · rw [h.split, List.cons_append]
  · rw [htable, h.left, List.append_assoc]
    rfl
  · exact List.nodup_cons.mpr ⟨fun hb => (hfresh b hb).1 rfl, h.nodup⟩
  · intro x hx
    obtain rfl | hx := List.mem_cons.mp hx
    · exact hnone
    · exact (hfresh x hx).2
  · rw [htable]
    refine h.result.imp_right ?_
    rintro ⟨x, tail, e, hrest, he, hx⟩
    refine ⟨x, tail, e, hrest, he, ?_⟩
    rw [lookup_concat] at hx
    obtain hx | hx := hx
    · exact .inl (List.mem_cons_of_mem _ hx)
    · by_cases hxb : x = b
      · exact .inl (hxb ▸ List.mem_cons_self)
      · rw [if_neg hxb, Option.or_none] at hx
        exact .inr hx

lemma enterBackends_entered (plugin : ConversionPlugin) (backends : List String)
    (table : List (String × ConversionPlugin)) :
    ∃ entered rest, Entered plugin backends table entered rest := by
  induction backends generalizing table with
  | nil =>
    exact ⟨[], [], rfl, (List.append_nil _).symm, .nil, List.forall_mem_nil _, .inl ⟨rfl, rfl⟩⟩
  | cons b backends ih =>
    cases hlookup : table.lookup b with
    | some owner =>
      have htaken : (table.lookup b).isSome := by rw [hlookup]; rfl
      have htable : enterBackends plugin (b :: backends) table = (table, .error (.valueError
          ("Torch backend '" ++ b ++ "' is already registered"))) := if_pos htaken
      refine ⟨[], b :: backends, rfl, ?_, .nil, List.forall_mem_nil _, .inr ⟨b, backends,
        .valueError ("Torch backend '" ++ b ++ "' is already registered"), rfl, ?_, .inr htaken⟩⟩
      · rw [htable]
        exact (List.append_nil _).symm
      · rw [htable]
    | none =>
      obtain ⟨entered, rest, hentered⟩ := ih (table ++ [(b, plugin)])
      exact ⟨b :: entered, rest, hentered.cons hlookup⟩

end Entering

section Registration

/-- The three ways that a call of `register` ends. -/
inductive Registered (registry : ConversionRegistry) (c : Candidate) : Prop
  | unavailable : c.available = false → registry.register c = (registry, .ok ()) →
      Registered registry c
  | completed : c.available = true → c.plugin.backends.Nodup →
      (∀ b ∈ c.plugin.backends, registry.byBackend.lookup b = none) →
      registry.register c =
        ({ byBackend := registry.byBackend ++ c.plugin.backends.map fun b => (b, c.plugin)
           byDevice := c.plugin.deviceTypes.foldl (setDefault c.plugin.backend) registry.byDevice
           fallbacks := if c.isFallback then registry.fallbacks ++ [c.plugin]
            else registry.fallbacks }, .ok ()) → Registered registry c
  | raised {entered rest : List String} {b : String} {e : PythonError} : c.available = true →
      c.plugin.backends = entered ++ b :: rest → entered.Nodup →
      (∀ x ∈ entered, registry.byBackend.lookup x = none) →
      (b ∈ entered ∨ (registry.byBackend.lookup b).isSome) →
      registry.register c =
        ({ registry with
           byBackend := registry.byBackend ++ entered.map fun b => (b, c.plugin) }, .error e) →
      Registered registry c

lemma register_cases (registry : ConversionRegistry) (c : Candidate) : Registered registry c := by
  cases havailable : c.available with
  | false => exact .unavailable havailable (if_pos havailable)
  | true =>
    obtain ⟨entered, rest, h⟩ :=
      enterBackends_entered c.plugin c.plugin.backends registry.byBackend
    have hregister : registry.register c =
        match enterBackends c.plugin c.plugin.backends registry.byBackend with
        | (byBackend, .error e) => ({ registry with byBackend := byBackend }, .error e)
        | (byBackend, .ok ()) =>
          ({ byBackend := byBackend
             byDevice :=
              c.plugin.deviceTypes.foldl (setDefault c.plugin.backend) registry.byDevice
             fallbacks := if c.isFallback then registry.fallbacks ++ [c.plugin]
              else registry.fallbacks }, .ok ()) :=
      if_neg (by rw [havailable]; exact Bool.noConfusion)
    obtain ⟨hok, rfl⟩ | ⟨b, tail, e, rfl, he, hb⟩ := h.result
    · have hall : c.plugin.backends = entered := h.split.trans (List.append_nil _)
      have hpair : enterBackends c.plugin c.plugin.backends registry.byBackend =
          (registry.byBackend ++ entered.map fun b => (b, c.plugin), .ok ()) :=
        Prod.ext h.left hok
      refine .completed havailable (hall ▸ h.nodup) (hall ▸ h.fresh) ?_
      rw [hregister, hpair, hall]
    · have hpair : enterBackends c.plugin c.plugin.backends registry.byBackend =
          (registry.byBackend ++ entered.map fun b => (b, c.plugin), .error e) :=
        Prod.ext h.left he
      refine .raised (e := e) havailable h.split h.nodup h.fresh hb ?_
      rw [hregister, hpair]

lemma backend_of_cons {b : String} (hb : c.plugin.backends = b :: backends) :
    c.plugin.backend = b := by
  rw [ConversionPlugin.backend]
  simp only [hb, List.head_cons]

theorem atomic_iff (registry : ConversionRegistry) (c : Candidate) :
    Atomic registry c ↔ Admissible registry c := by
  cases register_cases registry c with
  | unavailable havailable hregister =>
    refine iff_of_true (fun e he => ?_) (.inl havailable)
    rw [hregister]
  | completed _ hnodup hfresh hregister =>
    refine iff_of_true (fun e he => ?_) (.inr (.inl ⟨hnodup, hfresh⟩))
    rw [hregister] at he
    nomatch he
  | @raised entered rest b e havailable hsplit hnodup hfresh hb hregister =>
    cases entered with
    | nil =>
      refine iff_of_true (fun e' he => ?_) (.inr (.inr ?_))
      · rw [hregister, List.map_nil, List.append_nil]
      · rw [backend_of_cons hsplit]
        exact hb.resolve_left (List.not_mem_nil)
    | cons first entered =>
      have hfirst := hfresh first List.mem_cons_self
      refine iff_of_false (fun h => ?_) ?_
      · have hsame := congrArg byBackend (h e (by rw [hregister]))
        rw [hregister] at hsame
        exact List.cons_ne_nil _ _ (List.append_right_eq_self.mp hsame)
      · rintro (hun | ⟨hall, hnone⟩ | htaken)
        · rw [havailable] at hun
          nomatch hun
        · rw [hsplit] at hall hnone
          obtain hb | hb := hb
          · exact (List.nodup_append.mp hall).2.2 b hb b List.mem_cons_self rfl
          · rw [hnone b (List.mem_append_right _ List.mem_cons_self)] at hb
            nomatch hb
        · rw [backend_of_cons hsplit, hfirst] at htaken
          nomatch htaken

end Registration

section Invariants

/-- The tables against the plugins that were registered. -/
structure Tables (h : History) : Prop where
  listed : ∀ b p, h.registry.byBackend.lookup b = some p → b ∈ p.backends
  entered : ∀ p ∈ h.registered, ∀ b ∈ p.backends, h.registry.byBackend.lookup b = some p
  devices : ∀ type, h.registry.byDevice.lookup type =
    (h.registered.find? fun p => decide (type ∈ p.deviceTypes)).map ConversionPlugin.backend

/-- No backend belongs to a plugin whose registration raised. -/
def Clean (h : History) : Prop :=
  ∀ b p, h.registry.byBackend.lookup b = some p → p ∈ h.registered

lemma lookup_setDefault (backend : String) (table : List (DeviceType × String))
    (type type' : DeviceType) : (setDefault backend table type').lookup type =
      (table.lookup type).or (if type = type' then some backend else none) := by
  unfold setDefault
  split
  · rename_i hset
    by_cases htype : type = type'
    · rw [htype, Option.or_of_isSome hset]
    · rw [if_neg htype, Option.or_none]
  · rw [lookup_concat]

lemma lookup_setDefaults (backend : String) (types : List DeviceType)
    (table : List (DeviceType × String)) (type : DeviceType) :
    (types.foldl (setDefault backend) table).lookup type =
      (table.lookup type).or (if type ∈ types then some backend else none) := by
  induction types generalizing table with
  | nil => simp
  | cons type' types ih =>
    rw [List.foldl_cons, ih, lookup_setDefault, Option.or_assoc]
    by_cases htype : type = type'
    · simp [htype]
    · simp [htype]

lemma lookup_enter {entered : List String} {b : String} {p : ConversionPlugin} :
    (table ++ entered.map fun b => (b, plugin)).lookup b = some p →
      table.lookup b = some p ∨ (b ∈ entered ∧ p = plugin) := by
  intro hp
  rw [List.lookup_append, lookup_map, Option.or_eq_some_iff] at hp
  obtain hp | ⟨-, hp⟩ := hp
  · exact .inl hp
  · split at hp
    · exact .inr ⟨‹_›, (Option.some.inj hp).symm⟩
    · nomatch hp

lemma lookup_entered {entered : List String} {b : String} {p : ConversionPlugin}
    (hp : table.lookup b = some p) :
    (table ++ entered.map fun b => (b, plugin)).lookup b = some p := by
  rw [List.lookup_append, hp, Option.some_or]

lemma call_unavailable (havailable : c.available = false)
    (hregister : h.registry.register c = (h.registry, .ok ())) : h.call c = h := by
  rw [History.call, hregister, havailable]
  rfl

lemma call_completed (havailable : c.available = true)
    (hregister : h.registry.register c = (registry, .ok ())) :
    h.call c = ⟨registry, h.registered ++ [c.plugin]⟩ := by
  rw [History.call, hregister, havailable]
  rfl

lemma call_raised {e : PythonError} (hregister : h.registry.register c = (registry, .error e)) :
    h.call c = ⟨registry, h.registered⟩ := by
  rw [History.call, hregister]

lemma tables_call (ht : Tables h) (c : Candidate) : Tables (h.call c) := by
  cases register_cases h.registry c with
  | unavailable havailable hregister => rwa [call_unavailable havailable hregister]
  | completed havailable _ hfresh hregister =>
    rw [call_completed havailable hregister]
    refine ⟨fun b p hp => ?_, fun p hp b hb => ?_, fun type => ?_⟩
    · obtain hp | ⟨hb, rfl⟩ := lookup_enter hp
      · exact ht.listed b p hp
      · exact hb
    · obtain hp | hp := List.mem_append.mp hp
      · exact lookup_entered (ht.entered p hp b hb)
      · obtain rfl := List.mem_singleton.mp hp
        rw [List.lookup_append, hfresh b hb, lookup_map, if_pos hb, Option.none_or]
    · rw [lookup_setDefaults, ht.devices, List.find?_append, Option.map_or]
      congr 1
      by_cases htype : type ∈ c.plugin.deviceTypes
      · simp [htype]
      · simp [htype]
  | raised _ hsplit _ _ _ hregister =>
    rw [call_raised hregister]
    refine ⟨fun b p hp => ?_, fun p hp b hb => lookup_entered (ht.entered p hp b hb), ht.devices⟩
    obtain hp | ⟨hb, rfl⟩ := lookup_enter hp
    · exact ht.listed b p hp
    · exact hsplit ▸ List.mem_append_left _ hb

lemma clean_call (hc : Clean h) (hatomic : Atomic h.registry c) : Clean (h.call c) := by
  cases register_cases h.registry c with
  | unavailable havailable hregister => rwa [call_unavailable havailable hregister]
  | completed havailable _ _ hregister =>
    rw [call_completed havailable hregister]
    intro b p hp
    obtain hp | ⟨-, rfl⟩ := lookup_enter hp
    · exact List.mem_append_left _ (hc b p hp)
    · exact List.mem_append_right _ List.mem_cons_self
  | @raised _ _ _ e _ _ _ _ _ hregister =>
    have hsame := hatomic e (by rw [hregister])
    rw [call_raised hregister]
    rw [hregister] at hsame
    intro b p hp
    exact hc b p (hsame ▸ hp)

lemma tables_after (calls : List Candidate) : Tables (History.after calls) := by
  induction calls using List.reverseRecOn with
  | nil => exact ⟨nofun, nofun, fun _ => rfl⟩
  | append_singleton calls c ih =>
    rw [History.after, List.foldl_append]
    exact tables_call ih c

end Invariants

section Coherence

/-- The fold of `defaultBackend` keeps the first name of the greatest priority. -/
lemma selected_greatest (priority : String → ℤ) (first : String) (rest : List String)
    (hsorted : (first :: rest).Pairwise (· ≤ ·)) :
    let selected := rest.foldl (fun selected name =>
      if priority name > priority selected then name else selected) first
    selected ∈ first :: rest ∧ ∀ name ∈ first :: rest,
      priority name < priority selected ∨
        (priority name = priority selected ∧ selected ≤ name) := by
  induction rest generalizing first with
  | nil => simp
  | cons second rest ih =>
    rw [List.pairwise_cons] at hsorted
    rw [List.foldl_cons]
    split
    · rename_i hgreater
      obtain ⟨hmem, hall⟩ := ih second hsorted.2
      refine ⟨List.mem_cons_of_mem _ hmem, fun name hname => ?_⟩
      obtain rfl | hname := List.mem_cons.mp hname
      · have hsecond := hall second List.mem_cons_self
        exact .inl (by omega)
      · exact hall name hname
    · rename_i hgreater
      have hsorted' : (first :: rest).Pairwise (· ≤ ·) :=
        List.pairwise_cons.mpr ⟨fun name hname => hsorted.1 name (List.mem_cons_of_mem _ hname),
          (List.pairwise_cons.mp hsorted.2).2⟩
      obtain ⟨hmem, hall⟩ := ih first hsorted'
      refine ⟨?_, fun name hname => ?_⟩
      · obtain hmem | hmem := List.mem_cons.mp hmem
        · exact List.mem_cons.mpr (.inl hmem)
        · exact List.mem_cons_of_mem _ (List.mem_cons_of_mem _ hmem)
      · have hfirst := hall first List.mem_cons_self
        obtain hname | hname := List.mem_cons.mp hname
        · exact hall name (List.mem_cons.mpr (.inl hname))
        · obtain rfl | hname := List.mem_cons.mp hname
          · have hle := hsorted.1 name List.mem_cons_self
            obtain hlt | ⟨heq, hselected⟩ := hfirst
            · exact .inl (by omega)
            · by_cases hequal : priority name = priority first
              · exact .inr ⟨hequal.trans heq, String.le_trans hselected hle⟩
              · exact .inl (by omega)
          · exact hall name (List.mem_cons_of_mem _ hname)

lemma mem_backends {b : String} :
    b ∈ registry.backends ↔ (registry.byBackend.lookup b).isSome := by
  rw [ConversionRegistry.backends, List.mem_insertionSort, lookup_isSome]

lemma defaultBackend_greatest {b : String} (hb : b ∈ registry.backends) :
    ∃ selected, registry.defaultBackend = .ok selected ∧ selected ∈ registry.backends ∧
      ∀ name ∈ registry.backends, registry.priority name < registry.priority selected ∨
        (registry.priority name = registry.priority selected ∧ selected ≤ name) := by
  have hsorted : registry.backends.Pairwise (· ≤ ·) := List.pairwise_insertionSort _ _
  unfold defaultBackend
  cases hnames : registry.backends with
  | nil =>
    rw [hnames] at hb
    nomatch hb
  | cons first rest => exact ⟨_, rfl, selected_greatest _ first rest (hnames ▸ hsorted)⟩

lemma priority_of_lookup {b : String} (hp : registry.byBackend.lookup b = some plugin) :
    registry.priority b = plugin.priority := by
  rw [priority, hp]

lemma forBackend_iff {b : String} :
    registry.forBackend b = .ok plugin ↔ registry.byBackend.lookup b = some plugin := by
  rw [forBackend]
  cases registry.byBackend.lookup b with
  | none => simp
  | some owner => simp

lemma Tables.forDevice (ht : Tables h) (type : DeviceType) :
    h.registry.forDevice type = .ok plugin ↔
      h.registered.find? (fun p => decide (type ∈ p.deviceTypes)) = some plugin := by
  rw [ConversionRegistry.forDevice, ht.devices]
  cases hfound : h.registered.find? fun p => decide (type ∈ p.deviceTypes) with
  | none => simp
  | some owner =>
    have hlookup := ht.entered owner (List.mem_of_find?_eq_some hfound) owner.backend
      (List.head_mem owner.backends_ne)
    rw [Option.map_some]
    change h.registry.forBackend owner.backend = .ok plugin ↔ _
    rw [forBackend_iff, hlookup]

lemma Tables.defaultBackend (ht : Tables h) (hc : Clean h) (hne : h.registered ≠ []) :
    ∃ backend plugin, h.registry.defaultBackend = .ok backend ∧ plugin ∈ h.registered ∧
      backend ∈ plugin.backends ∧ ∀ other ∈ h.registered, ∀ name ∈ other.backends,
        other.priority < plugin.priority ∨
          (other.priority = plugin.priority ∧ backend ≤ name) := by
  have hmem : ∀ p ∈ h.registered, ∀ b ∈ p.backends, b ∈ h.registry.backends := by
    intro p hp b hb
    rw [mem_backends, ht.entered p hp b hb]
    rfl
  obtain ⟨p, hp⟩ := List.exists_mem_of_ne_nil _ hne
  obtain ⟨backend, hdefault, hbackend, hgreatest⟩ :=
    defaultBackend_greatest (hmem p hp p.backend (List.head_mem p.backends_ne))
  obtain ⟨plugin, hplugin⟩ := Option.isSome_iff_exists.mp (mem_backends.mp hbackend)
  refine ⟨backend, plugin, hdefault, hc backend plugin hplugin, ht.listed backend plugin hplugin,
    fun other hother name hname => ?_⟩
  have hname' := hgreatest name (hmem other hother name hname)
  rwa [priority_of_lookup hplugin, priority_of_lookup (ht.entered other hother name hname)]
    at hname'

lemma coherent_of_clean (ht : Tables h) (hc : Clean h) : Coherent h :=
  ⟨fun backend plugin hp => ht.listed backend plugin (forBackend_iff.mp hp),
    fun type _ => ht.forDevice type, ht.defaultBackend hc⟩

lemma clean_after (calls : List Candidate)
    (hatomic : ∀ pre c post, calls = pre ++ c :: post → Atomic (History.after pre).registry c) :
    Clean (History.after calls) := by
  induction calls using List.reverseRecOn with
  | nil => exact nofun
  | append_singleton calls c ih =>
    rw [History.after, List.foldl_append]
    refine clean_call (ih fun pre c' post hpre => ?_) (hatomic calls c [] rfl)
    exact hatomic pre c' (post ++ [c]) (by rw [hpre, List.append_assoc, List.cons_append])

theorem registration_coherent_iff (calls : List Candidate) :
    ((∀ pre c post, calls = pre ++ c :: post → Atomic (History.after pre).registry c) ∧
      ∀ pre, pre <+: calls → Coherent (History.after pre)) ↔
    ∀ pre c post, calls = pre ++ c :: post → Admissible (History.after pre).registry c := by
  constructor
  · intro h pre c post hcalls
    exact (atomic_iff _ c).mp (h.1 pre c post hcalls)
  · intro h
    have hatomic : ∀ pre c post, calls = pre ++ c :: post →
        Atomic (History.after pre).registry c :=
      fun pre c post hcalls => (atomic_iff _ c).mpr (h pre c post hcalls)
    refine ⟨hatomic, ?_⟩
    rintro pre ⟨post, rfl⟩
    refine coherent_of_clean (tables_after pre) (clean_after pre fun pre' c post' hpre => ?_)
    exact hatomic pre' c (post' ++ post) (by rw [hpre, List.append_assoc, List.cons_append])

/-- What holds also after calls that raised. -/
theorem lookups_after (calls : List Candidate) (plugin : ConversionPlugin) :
    (∀ backend, (History.after calls).registry.forBackend backend = .ok plugin →
      backend ∈ plugin.backends) ∧
    ∀ type, (History.after calls).registry.forDevice type = .ok plugin ↔
      (History.after calls).registered.find? (fun p => decide (type ∈ p.deviceTypes)) =
        some plugin :=
  ⟨fun backend hp => (tables_after calls).listed backend plugin (forBackend_iff.mp hp),
    fun type => (tables_after calls).forDevice type⟩

/-- A plugin for the given backends that allocates nothing. -/
def idle (backends : List String) (hne : backends ≠ []) (priority : ℤ) : Candidate where
  plugin :=
    { backends := backends
      backends_ne := hne
      deviceTypes := [.cuda]
      priority := priority
      allocate := fun _ _ _ => .error (.runtimeError "")
      fromInput := fun _ _ => .error (.runtimeError "")
      copyTo := fun _ _ _ => .rejected (.runtimeError "") }

def cudaOnly : Candidate := idle ["cuda"] (List.cons_ne_nil _ _) 100

def clashing : Candidate := idle ["xpu", "cuda"] (List.cons_ne_nil _ _) 200

/-- The second plugin is refused, and it is the default. -/
theorem refused_plugin_is_default :
    (History.after [cudaOnly, clashing]).registered = [cudaOnly.plugin] ∧
      (History.after [cudaOnly, clashing]).registry.defaultBackend = .ok "xpu" ∧
      ¬ Atomic (History.after [cudaOnly]).registry clashing ∧
      ¬ Coherent (History.after [cudaOnly, clashing]) := by
  have hdefault : (History.after [cudaOnly, clashing]).registry.defaultBackend = .ok "xpu" := by rfl
  have hregistered : (History.after [cudaOnly, clashing]).registered = [cudaOnly.plugin] := by rfl
  refine ⟨hregistered, hdefault, ?_, ?_⟩
  · rw [atomic_iff]
    rintro (hun | ⟨-, hnone⟩ | htaken)
    · nomatch hun
    · exact nomatch hnone "cuda" (List.mem_cons_of_mem _ List.mem_cons_self)
    · exact nomatch htaken
  · intro h
    obtain ⟨backend, plugin, hb, hp, hlisted, -⟩ :=
      h.defaultBackend (by rw [hregistered]; exact List.cons_ne_nil _ _)
    rw [hdefault] at hb
    rw [hregistered] at hp
    obtain rfl := List.mem_singleton.mp hp
    obtain rfl := Except.ok.inj hb
    exact nomatch List.mem_singleton.mp hlisted

end Coherence

end RosidlBufferBackends.Torch.Python
