import Mathlib.Data.List.Induction
import Mathlib.Data.List.Sort
import Mathlib.Data.String.Basic
import RosidlBufferBackends.Torch.Tensor

/-! The constructor of the C++ registry, and the lookups in the tables that it fills. -/

namespace RosidlBufferBackends.Torch

/-- A class that pluginlib declares. `loads` says that its instance is created and pinned and
answers `available()` and `backend()`, `typed` that `device_type()` returns. -/
structure DeclaredClass where
  plugin : ConversionPlugin
  loads : Bool := true
  available : Bool := true
  typed : Bool := true

def DeclaredClass.usable (c : DeclaredClass) : Bool := c.loads && c.available

namespace Registry

/-- `emplace` on `devices_` -/
def emplaceDevice (devices : DeviceType → Option ConversionPlugin) (plugin : ConversionPlugin) :
    DeviceType → Option ConversionPlugin :=
  if (devices plugin.deviceType).isSome then devices
  else Function.update devices plugin.deviceType (some plugin)

/-- A class that fails in `device_type()` has its backend entered already. -/
def enter (registry : Registry) (c : DeclaredClass) : Registry :=
  if c.usable = false then registry
  else if (registry.backends.lookup c.plugin.backend).isSome then registry
  else
    { backends :=
        registry.backends.orderedInsert (fun a b => a.1 ≤ b.1) (c.plugin.backend, c.plugin)
      devices :=
        if c.typed then emplaceDevice registry.devices c.plugin else registry.devices }

def construct (classes : List DeclaredClass) : Registry :=
  classes.foldl enter { backends := [], devices := fun _ => none }

end Registry

def accept (entered : List DeclaredClass) (c : DeclaredClass) : List DeclaredClass :=
  if c.usable = true ∧ ∀ a ∈ entered, a.plugin.backend ≠ c.plugin.backend then entered ++ [c]
  else entered

/-- The usable classes, without those whose backend an earlier one has. -/
def accepted (classes : List DeclaredClass) : List DeclaredClass := classes.foldl accept []

/-- What the lookups answer, against the classes in the order of their declaration. -/
structure Registry.Serves (classes : List DeclaredClass) (registry : Registry) : Prop where
  names : registry.backends.Pairwise (fun a b => a.1 < b.1)
  forBackend : ∀ backend plugin, registry.forBackend backend = .ok plugin ↔
    ((classes.filter DeclaredClass.usable).find? fun c =>
      decide (c.plugin.backend = backend)).map DeclaredClass.plugin = some plugin
  forDevice : ∀ type plugin, registry.forDevice type = .ok plugin ↔
    ((accepted classes).find? fun c => c.typed && decide (c.plugin.deviceType = type)).map
      DeclaredClass.plugin = some plugin
  defaultName : ∀ name, registry.defaultName = .ok name ↔ name ≠ "" ∧ ∃ plugin,
    registry.forBackend name = .ok plugin ∧ ∀ other plugin', other ≠ "" →
      registry.forBackend other = .ok plugin' → plugin'.priority < plugin.priority ∨
        (plugin'.priority = plugin.priority ∧ name ≤ other)

variable {classes : List DeclaredClass} {c : DeclaredClass} {registry : Registry}
  {plugin : ConversionPlugin} {backend : String}

lemma accepted_concat (classes : List DeclaredClass) (c : DeclaredClass) :
    accepted (classes ++ [c]) = accept (accepted classes) c := by
  rw [accepted, List.foldl_append]
  rfl

/-- The first usable class with a backend is the accepted one. -/
lemma find_accepted (classes : List DeclaredClass) (backend : String) :
    (classes.filter DeclaredClass.usable).find? (fun c => decide (c.plugin.backend = backend)) =
      (accepted classes).find? fun c => decide (c.plugin.backend = backend) := by
  induction classes using List.reverseRecOn with
  | nil => rfl
  | append_singleton classes c ih =>
    rw [accepted_concat, List.filter_append, List.find?_append, ih, accept]
    by_cases hu : c.usable = true
    · rw [List.filter_singleton, hu]
      split_ifs with hc
      · rw [List.find?_append]
        rfl
      · -- an earlier class has its backend
        obtain ⟨a, ha, hbackend⟩ : ∃ a ∈ accepted classes, a.plugin.backend = c.plugin.backend := by
          by_contra hno
          exact hc ⟨rfl, fun a ha hbackend => hno ⟨a, ha, hbackend⟩⟩
        by_cases hb : c.plugin.backend = backend
        · have hsome : ((accepted classes).find? fun c =>
              decide (c.plugin.backend = backend)).isSome := by
            rw [List.find?_isSome]
            exact ⟨a, ha, decide_eq_true (hbackend.trans hb)⟩
          rw [Option.or_of_isSome hsome]
        · simp [hb]
    · rw [if_neg fun hc => hu hc.1, List.filter_singleton]
      simp [hu]

lemma orderedInsert_strict {x : String × ConversionPlugin} {l : List (String × ConversionPlugin)}
    (hl : l.Pairwise (fun a b => a.1 < b.1)) (hx : ∀ e ∈ l, e.1 ≠ x.1) :
    (l.orderedInsert (fun a b => a.1 ≤ b.1) x).Pairwise (fun a b => a.1 < b.1) := by
  induction l with
  | nil => simp
  | cons e l ih =>
    obtain ⟨he, hl⟩ := List.pairwise_cons.mp hl
    have hne := hx e List.mem_cons_self
    rw [List.orderedInsert_cons]
    split_ifs with hle
    · have hlt := lt_of_le_of_ne hle hne.symm
      refine List.pairwise_cons.mpr ⟨fun y hy => ?_, List.pairwise_cons.mpr ⟨he, hl⟩⟩
      obtain rfl | hy := List.mem_cons.mp hy
      · exact hlt
      · exact hlt.trans (he y hy)
    · refine List.pairwise_cons.mpr
        ⟨fun y hy => ?_, ih hl fun y hy => hx y (List.mem_cons_of_mem e hy)⟩
      obtain rfl | hy := List.mem_orderedInsert _ |>.mp hy
      · exact not_le.mp hle
      · exact he y hy

lemma lookup_of_sorted {l : List (String × ConversionPlugin)}
    (hl : l.Pairwise (fun a b => a.1 < b.1)) :
    l.lookup backend = some plugin ↔ (backend, plugin) ∈ l := by
  rw [List.lookup_eq_some_iff]
  constructor
  · rintro ⟨l₁, l₂, rfl, -⟩
    simp
  · intro h
    obtain ⟨l₁, l₂, rfl⟩ := List.append_of_mem h
    refine ⟨l₁, l₂, rfl, fun e he => ?_⟩
    have hlt := (List.pairwise_append.mp hl).2.2 e he _ List.mem_cons_self
    simpa using hlt.ne'

structure Registry.Built (classes : List DeclaredClass) (registry : Registry) : Prop where
  names : registry.backends.Pairwise (fun a b => a.1 < b.1)
  entries : ∀ b p, (b, p) ∈ registry.backends ↔
    ((accepted classes).find? fun c => decide (c.plugin.backend = b)).map DeclaredClass.plugin =
      some p
  devices : ∀ t, registry.devices t = ((accepted classes).find? fun c =>
    c.typed && decide (c.plugin.deviceType = t)).map DeclaredClass.plugin

namespace Registry

lemma Built.lookup (h : Built classes registry) (backend : String) :
    registry.backends.lookup backend = ((accepted classes).find? fun c =>
      decide (c.plugin.backend = backend)).map DeclaredClass.plugin := by
  apply Option.ext
  intro p
  rw [lookup_of_sorted h.names, h.entries]

lemma emplaceDevice_apply (devices : DeviceType → Option ConversionPlugin)
    (plugin : ConversionPlugin) (t : DeviceType) :
    emplaceDevice devices plugin t =
      (devices t).or (if plugin.deviceType = t then some plugin else none) := by
  unfold emplaceDevice
  by_cases ht : plugin.deviceType = t
  · subst ht
    cases hd : devices plugin.deviceType with
    | none => simp
    | some p => simp [hd]
  · rw [if_neg ht, Option.or_none]
    split_ifs
    · rfl
    · exact Function.update_of_ne (Ne.symm ht) _ _

lemma Built.enter (h : Built classes registry) (c : DeclaredClass) :
    Built (classes ++ [c]) (registry.enter c) := by
  have hlookup := h.lookup c.plugin.backend
  unfold Registry.enter
  by_cases hu : c.usable = true
  swap
  · have hsame : accepted (classes ++ [c]) = accepted classes := by
      rw [accepted_concat, accept, if_neg fun hc => hu hc.1]
    rw [if_pos (by simpa using hu)]
    exact ⟨h.names, hsame ▸ h.entries, hsame ▸ h.devices⟩
  rw [if_neg (by simp [hu])]
  cases hfound : (accepted classes).find?
    (fun a => decide (a.plugin.backend = c.plugin.backend)) with
  | some a =>
    have hsame : accepted (classes ++ [c]) = accepted classes := by
      rw [accepted_concat, accept, if_neg]
      rintro ⟨-, hnew⟩
      exact hnew a (List.mem_of_find?_eq_some hfound) (by simpa using List.find?_some hfound)
    rw [if_pos (by rw [hlookup, hfound]; rfl)]
    exact ⟨h.names, hsame ▸ h.entries, hsame ▸ h.devices⟩
  | none =>
    have hnew : ∀ a ∈ accepted classes, a.plugin.backend ≠ c.plugin.backend := by
      simpa using List.find?_eq_none.mp hfound
    have hadd : accepted (classes ++ [c]) = accepted classes ++ [c] := by
      rw [accepted_concat, accept, if_pos ⟨hu, hnew⟩]
    rw [if_neg (by rw [hlookup, hfound]; simp)]
    have habsent : ∀ p, (c.plugin.backend, p) ∉ registry.backends := by
      intro p hp
      rw [h.entries, hfound] at hp
      exact nomatch hp
    refine ⟨orderedInsert_strict h.names ?_, fun b p => ?_, fun t => ?_⟩
    · rintro ⟨b, p⟩ he rfl
      exact habsent p he
    · rw [hadd, List.find?_append, List.mem_orderedInsert]
      by_cases hb : c.plugin.backend = b
      · subst hb
        rw [hfound]
        simp [habsent, eq_comm]
      · have hne : (b, p) ≠ (c.plugin.backend, c.plugin) := fun he => hb (Prod.mk.inj he).1.symm
        simp [hb, hne, h.entries]
    · rw [hadd, List.find?_append]
      cases ht : c.typed with
      | false => simp [ht, h.devices]
      | true =>
        change emplaceDevice registry.devices c.plugin t = _
        rw [emplaceDevice_apply, h.devices]
        by_cases hd : c.plugin.deviceType = t <;>
          cases (accepted classes).find? (fun a => a.typed && decide (a.plugin.deviceType = t)) <;>
          simp [ht, hd]

lemma built_construct (classes : List DeclaredClass) : Built classes (construct classes) := by
  induction classes using List.reverseRecOn with
  | nil => exact ⟨.nil, by simp [construct, accepted], fun _ => rfl⟩
  | append_singleton classes c ih =>
    rw [construct, List.foldl_append]
    exact ih.enter c

lemma forBackend_ok : registry.forBackend backend = .ok plugin ↔
    registry.backends.lookup backend = some plugin := by
  unfold Registry.forBackend
  cases registry.backends.lookup backend <;> simp

lemma forDevice_ok {t : DeviceType} : registry.forDevice t = .ok plugin ↔
    registry.devices t = some plugin := by
  unfold Registry.forDevice
  cases registry.devices t <;> simp

/-- The step of the loop in `default_name`. -/
def selectNext (selected : String × ℤ) (entry : String × ConversionPlugin) : String × ℤ :=
  if selected.1 = "" ∨ entry.2.priority > selected.2 then (entry.1, entry.2.priority) else selected

/-- Of the highest priority, and the smallest name with it. -/
def Best (selected : String × ℤ) (candidates : List (String × ℤ)) : Prop :=
  selected ∈ candidates ∧ ∀ e ∈ candidates,
    e.2 < selected.2 ∨ (e.2 = selected.2 ∧ selected.1 ≤ e.1)

def rank (entry : String × ConversionPlugin) : String × ℤ := (entry.1, entry.2.priority)

lemma ne_empty_of_lt {a b : String} (h : a < b) : b ≠ "" := by
  rintro rfl
  have hnil := String.lt_iff_toList_lt.mp h
  simp at hnil

lemma best_selectNext {l : List (String × ConversionPlugin)} {first : String × ℤ}
    (hfirst : first.1 ≠ "") (hlt : ∀ e ∈ l, first.1 < e.1)
    (hl : l.Pairwise (fun a b => a.1 < b.1)) :
    Best (l.foldl selectNext first) (first :: l.map rank) := by
  induction l generalizing first with
  | nil =>
    refine ⟨List.mem_cons_self, fun e he => ?_⟩
    obtain rfl := List.mem_singleton.mp he
    exact .inr ⟨rfl, le_rfl⟩
  | cons e l ih =>
    obtain ⟨he, hl⟩ := List.pairwise_cons.mp hl
    have hbehind := hlt e List.mem_cons_self
    rw [List.foldl_cons, selectNext]
    by_cases hgt : e.2.priority > first.2
    · rw [if_pos (.inr hgt)]
      have hrest : Best (l.foldl selectNext (rank e)) (rank e :: l.map rank) :=
        ih (ne_empty_of_lt hbehind) he hl
      obtain ⟨hmem, hbest⟩ := hrest
      refine ⟨List.mem_cons_of_mem _ hmem, fun x hx => ?_⟩
      obtain rfl | hx := List.mem_cons.mp hx
      · obtain hlt' | ⟨heq, -⟩ := hbest (rank e) List.mem_cons_self
        · exact .inl (lt_trans hgt hlt')
        · exact .inl (heq ▸ hgt)
      · exact hbest x hx
    · rw [if_neg (not_or.mpr ⟨hfirst, hgt⟩)]
      obtain ⟨hmem, hbest⟩ := ih hfirst (fun x hx => hlt x (List.mem_cons_of_mem e hx)) hl
      refine ⟨?_, fun x hx => ?_⟩
      · obtain hmem | hmem := List.mem_cons.mp hmem
        · rw [hmem]
          exact List.mem_cons_self
        · exact List.mem_cons_of_mem _ (List.mem_cons_of_mem _ hmem)
      · obtain rfl | hx := List.mem_cons.mp hx
        · exact hbest x List.mem_cons_self
        · obtain rfl | hx := List.mem_cons.mp hx
          · have hle : (rank e).2 ≤ first.2 := not_lt.mp hgt
            obtain hlt' | ⟨heq, hname⟩ := hbest first List.mem_cons_self
            · exact .inl (hle.trans_lt hlt')
            · obtain hle | heq' := hle.lt_or_eq
              · exact .inl (heq ▸ hle)
              · exact .inr ⟨heq'.trans heq, hname.trans hbehind.le⟩
          · exact hbest x (List.mem_cons_of_mem _ hx)

lemma Best.unique {a b : String × ℤ} {candidates : List (String × ℤ)} (ha : Best a candidates)
    (hb : Best b candidates) : a.1 = b.1 := by
  obtain hlt | ⟨heq, hab⟩ := ha.2 b hb.1
  · obtain hgt | ⟨heq, -⟩ := hb.2 a ha.1
    · exact absurd hlt hgt.asymm
    · exact absurd heq hlt.ne'
  · obtain hgt | ⟨-, hba⟩ := hb.2 a ha.1
    · exact absurd heq.symm hgt.ne
    · exact le_antisymm hab hba

def named (l : List (String × ConversionPlugin)) : List (String × ConversionPlugin) :=
  l.filter fun e => decide (e.1 ≠ "")

/-- The loop starts anew at the first name that is not empty. -/
lemma foldl_selectNext {l : List (String × ConversionPlugin)}
    (hl : l.Pairwise (fun a b => a.1 < b.1)) (priority : ℤ) :
    ((l.foldl selectNext ("", priority)).1 = "" ∧ named l = []) ∨
      ∃ e rest, named l = e :: rest ∧ e.1 ≠ "" ∧ (∀ x ∈ rest, e.1 < x.1) ∧
        rest.Pairwise (fun a b => a.1 < b.1) ∧
        l.foldl selectNext ("", priority) = rest.foldl selectNext (rank e) := by
  induction l generalizing priority with
  | nil => exact .inl ⟨rfl, rfl⟩
  | cons e l ih =>
    obtain ⟨he, hl⟩ := List.pairwise_cons.mp hl
    have hstep : selectNext ("", priority) e = rank e := if_pos (.inl rfl)
    rw [List.foldl_cons, hstep]
    by_cases hname : e.1 = ""
    · have hrank : rank e = ("", e.2.priority) := by rw [rank, hname]
      have hskip : named (e :: l) = named l := by simp [named, hname]
      rw [hrank, hskip]
      exact ih hl e.2.priority
    · have hrest : named l = l := by
        refine List.filter_eq_self.mpr fun x hx => decide_eq_true ?_
        exact ne_empty_of_lt (he x hx)
      refine .inr ⟨e, l, ?_, hname, he, hl, rfl⟩
      rw [named, List.filter_cons_of_pos (by simpa using hname)]
      exact congrArg _ hrest

lemma defaultName_ok (hl : registry.backends.Pairwise (fun a b => a.1 < b.1)) {name : String} :
    registry.defaultName = .ok name ↔
      ∃ priority, Best (name, priority) ((named registry.backends).map rank) := by
  obtain ⟨hempty, hnone⟩ | ⟨e, rest, hnamed, hname, hlt, hrest, hfold⟩ :=
    foldl_selectNext hl (-2 ^ 31)
  · have herror : registry.defaultName =
        .error (.runtimeError "torch_conversions: no conversion plugin is installed") := by
      unfold Registry.defaultName
      dsimp only
      split
      · rfl
      · exact absurd hempty ‹_›
    rw [herror, hnone]
    simp [Best]
  · have hbest : Best (rest.foldl selectNext (rank e)) (rank e :: rest.map rank) :=
      best_selectNext hname hlt hrest
    rw [← List.map_cons, ← hnamed, ← hfold] at hbest
    have hselected : (registry.backends.foldl selectNext ("", -2 ^ 31)).1 ≠ "" := by
      obtain ⟨x, hx, heq⟩ := List.mem_map.mp hbest.1
      have hname := (List.mem_filter.mp hx).2
      rw [← heq]
      exact of_decide_eq_true hname
    have hok : registry.defaultName = .ok (registry.backends.foldl selectNext ("", -2 ^ 31)).1 := by
      unfold Registry.defaultName
      dsimp only
      split
      · exact absurd ‹_› hselected
      · rfl
    rw [hok, Except.ok.injEq]
    constructor
    · rintro rfl
      exact ⟨_, hbest⟩
    · rintro ⟨priority, hother⟩
      exact hbest.unique hother

lemma Built.forBackend (h : Built classes registry) :
    registry.forBackend backend = .ok plugin ↔ (backend, plugin) ∈ registry.backends := by
  rw [forBackend_ok, lookup_of_sorted h.names]

lemma Built.defaultName (h : Built classes registry) {name : String} :
    registry.defaultName = .ok name ↔ name ≠ "" ∧ ∃ plugin,
      registry.forBackend name = .ok plugin ∧ ∀ other plugin', other ≠ "" →
        registry.forBackend other = .ok plugin' → plugin'.priority < plugin.priority ∨
          (plugin'.priority = plugin.priority ∧ name ≤ other) := by
  rw [defaultName_ok h.names]
  constructor
  · rintro ⟨priority, hmem, hbest⟩
    obtain ⟨⟨b, p⟩, hx, heq⟩ := List.mem_map.mp hmem
    obtain ⟨hin, hname⟩ := List.mem_filter.mp hx
    cases heq
    refine ⟨by simpa using hname, p, h.forBackend.mpr hin, fun other p' hother hp' => ?_⟩
    exact hbest (other, p'.priority) (List.mem_map.mpr ⟨(other, p'),
      List.mem_filter.mpr ⟨h.forBackend.mp hp', by simpa using hother⟩, rfl⟩)
  · rintro ⟨hname, plugin, hplugin, hbest⟩
    refine ⟨plugin.priority, List.mem_map.mpr ⟨(name, plugin), List.mem_filter.mpr
      ⟨h.forBackend.mp hplugin, by simpa using hname⟩, rfl⟩, fun e he => ?_⟩
    obtain ⟨⟨b, p⟩, hx, rfl⟩ := List.mem_map.mp he
    obtain ⟨hin, hb⟩ := List.mem_filter.mp hx
    exact hbest b p (by simpa using hb) (h.forBackend.mpr hin)

end Registry

/-- Which plugins serve is decided by the order of the declarations, which of them is the default
is not. -/
theorem constructed_registry_serves (classes : List DeclaredClass) :
    Registry.Serves classes (Registry.construct classes) := by
  have hbuilt := Registry.built_construct classes
  refine ⟨hbuilt.names, fun backend plugin => ?_, fun type plugin => ?_, fun name => ?_⟩
  · rw [Registry.forBackend_ok, hbuilt.lookup, find_accepted]
  · rw [Registry.forDevice_ok, hbuilt.devices]
  · exact hbuilt.defaultName

end RosidlBufferBackends.Torch
