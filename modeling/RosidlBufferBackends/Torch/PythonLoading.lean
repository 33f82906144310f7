import RosidlBufferBackends.Torch.PythonRegistration

/-! Loading the installed plugins into the Python registry. -/

namespace RosidlBufferBackends.Torch.Python

/-- `str.isspace` -/
def isSpace (c : Char) : Bool :=
  (0x09 ≤ c.toNat && c.toNat ≤ 0x0d) || (0x1c ≤ c.toNat && c.toNat ≤ 0x20) ||
    [0x85, 0xa0, 0x1680, 0x2028, 0x2029, 0x202f, 0x205f, 0x3000].contains c.toNat ||
    (0x2000 ≤ c.toNat && c.toNat ≤ 0x200a)

def strip (text : List Char) : List Char :=
  ((text.dropWhile isSpace).reverse.dropWhile isSpace).reverse

/-- The module and the function that a resource names. -/
def entryPoint (content : String) : Option (String × String) :=
  let text := strip content.toList
  let moduleName := text.takeWhile (· ≠ ':')
  let functionName := (text.dropWhile (· ≠ ':')).drop 1
  if moduleName = [] ∨ functionName = [] then none
  else some (String.ofList moduleName, String.ofList functionName)

/-- The modules that can be loaded, and the plugins that their functions register. -/
abbrev Modules := String → Option (String → Except PythonError (List Candidate))

namespace ConversionRegistry

def registerAll : List Candidate → ConversionRegistry →
    ConversionRegistry × Except PythonError Unit
  | [], registry => (registry, .ok ())
  | c :: calls, registry =>
    match registry.register c with
    | (registry, .error e) => (registry, .error e)
    | (registry, .ok ()) => registerAll calls registry

def loadResources (modules : Modules) : List (String × String) → ConversionRegistry →
    ConversionRegistry × Except PythonError Unit
  | [], registry => (registry, .ok ())
  | (packageName, content) :: resources, registry =>
    match entryPoint content with
    | none => (registry, .error (.runtimeError
        ("Invalid Torch conversion plugin resource from " ++ packageName)))
    | some (moduleName, functionName) =>
      match modules moduleName with
      | none => loadResources modules resources registry
      | some functions =>
        match functions functionName with
        | .error e => (registry, .error e)
        | .ok calls =>
          match registerAll calls registry with
          | (registry, .error e) => (registry, .error e)
          | (registry, .ok ()) => loadResources modules resources registry

/-- The packages in the order of their names. -/
def loadExternalPlugins (modules : Modules) (resources : List (String × String))
    (registry : ConversionRegistry) : ConversionRegistry × Except PythonError Unit :=
  loadResources modules (resources.insertionSort fun a b => a.1 ≤ b.1) registry

end ConversionRegistry

open ConversionRegistry

/-- What registrations without an exception lead to. -/
def Loaded (registry : ConversionRegistry) : Prop :=
  ∃ calls, (History.after calls).registry = registry ∧ Clean (History.after calls)

variable {registry : ConversionRegistry} {modules : Modules}

lemma loaded_register {c : Candidate} (h : Loaded registry)
    (hok : (registry.register c).2 = .ok ()) : Loaded (registry.register c).1 := by
  obtain ⟨calls, rfl, hclean⟩ := h
  have hatomic : Atomic (History.after calls).registry c := by
    intro e he
    rw [hok] at he
    nomatch he
  have hcall := clean_call hclean hatomic
  have hsnoc : History.after (calls ++ [c]) = (History.after calls).call c := by
    rw [History.after, List.foldl_append]
    rfl
  refine ⟨calls ++ [c], ?_, by rwa [hsnoc]⟩
  rw [hsnoc, History.call]
  have hpair : (History.after calls).registry.register c =
      (((History.after calls).registry.register c).1, .ok ()) := Prod.ext rfl hok
  rw [hpair]

lemma loaded_registerAll (calls : List Candidate) (h : Loaded registry)
    (hok : (registerAll calls registry).2 = .ok ()) :
    Loaded (registerAll calls registry).1 := by
  induction calls generalizing registry with
  | nil => exact h
  | cons c calls ih =>
    rw [registerAll] at hok ⊢
    have hstep := loaded_register (c := c) h
    cases hregister : registry.register c with
    | mk after result =>
      rw [hregister] at hok hstep
      cases result with
      | error e => nomatch hok
      | ok => exact ih (hstep rfl) hok

lemma loaded_loadResources (resources : List (String × String)) (h : Loaded registry)
    (hok : (loadResources modules resources registry).2 = .ok ()) :
    Loaded (loadResources modules resources registry).1 := by
  induction resources generalizing registry with
  | nil => exact h
  | cons resource resources ih =>
    rw [loadResources] at hok ⊢
    cases hentry : entryPoint resource.2 with
    | none =>
      rw [hentry] at hok
      nomatch hok
    | some entry =>
      rw [hentry] at hok
      dsimp only at hok ⊢
      cases hmodule : modules entry.1 with
      | none =>
        rw [hmodule] at hok
        exact ih h hok
      | some functions =>
        rw [hmodule] at hok
        dsimp only at hok ⊢
        cases hfunction : functions entry.2 with
        | error e =>
          rw [hfunction] at hok
          nomatch hok
        | ok calls =>
          rw [hfunction] at hok
          dsimp only at hok ⊢
          have hstep := loaded_registerAll calls h
          cases hall : registerAll calls registry with
          | mk after result =>
            rw [hall] at hok hstep
            cases result with
            | error e => nomatch hok
            | ok => exact ih (hstep rfl) hok

theorem load_coherent (modules : Modules) (resources : List (String × String))
    (hok : (loadExternalPlugins modules resources .empty).2 = .ok ()) :
    ∃ calls, (History.after calls).registry =
      (loadExternalPlugins modules resources .empty).1 ∧ Coherent (History.after calls) := by
  obtain ⟨calls, hregistry, hclean⟩ :=
    loaded_loadResources _ ⟨[], rfl, (nofun : Clean {})⟩ hok
  exact ⟨calls, hregistry, coherent_of_clean (tables_after calls) hclean⟩

end RosidlBufferBackends.Torch.Python
