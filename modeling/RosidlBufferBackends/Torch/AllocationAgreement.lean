import RosidlBufferBackends.Torch.Allocation
import RosidlBufferBackends.Torch.PythonConversions

/-! The shapes that only one of the two languages allocates. -/

namespace RosidlBufferBackends.Torch

open Checked RowMajor

variable {registry : Registry} {python : Python.ConversionRegistry} {shape : List Int64}
  {dtype : ScalarType} {device : Option Device} {bytes : ℕ}

/-- The same plugin is selected in both languages, and it allocates this many bytes. -/
structure SamePlugin (registry : Registry) (python : Python.ConversionRegistry)
    (device : Option Device) (bytes : ℕ) : Prop where
  selected : ∃ plugin device' plugin' device'', registry.select device = .ok (plugin, device') ∧
    python.select device = .ok (plugin', device'') ∧ plugin.backend = plugin'.backend ∧
    (∀ n : UInt64, n.toNat = bytes → ∃ data, plugin.allocate n device' = .ok data) ∧
    ∃ data, plugin'.allocate bytes plugin'.backend device'' = .ok data

/-- Python can store the strides of the shape in its message. -/
def Storable (shape : List Int64) : Prop :=
  Nonneg shape ∧ trailing (dims shape).tail < 2 ^ 63

section Python

lemma toArray_cast {l : List ℕ} (h : ∀ n ∈ l, n < 2 ^ 63) :
    Python.toArray (l.map Nat.cast) = .ok (l.map Int64.ofNat) := by
  rw [Python.toArray, if_pos, List.map_map]
  · rfl
  · intro v hv
    obtain ⟨n, hn, rfl⟩ := List.mem_map.mp hv
    have hlt := h n hn
    omega

lemma toArray_error {l : List ℕ} (h : ¬ ∀ n ∈ l, n < 2 ^ 63) :
    ∃ e, Python.toArray (l.map Nat.cast) = .error e := by
  refine ⟨_, if_neg fun hall => h fun n hn => ?_⟩
  exact_mod_cast (hall n (List.mem_map.mpr ⟨n, hn, rfl⟩)).2

lemma describe_eq {d : DtypeDescription} (h : (describeDtype dtype).Returns d) :
    Python.describe dtype = some (d.code, d.bits, d.lanes) := by
  cases dtype with
  | other name size => exact absurd h (Throws.not_returns (throws_raise _) d)
  | _ =>
    obtain rfl := Checked.Returns.eq h rfl
    rfl

lemma storable_iff : Storable shape ↔
    Nonneg shape ∧ ∀ n ∈ strides (dims shape), n < 2 ^ 63 := by
  rw [Storable, strides_lt_iff (by decide)]

lemma byteCount_cast (h : Nonneg shape) :
    Python.byteCount shape dtype = ((dtype.elementSize.toNat * (dims shape).prod : ℕ) : ℤ) := by
  have hprod : ((dims shape).map (Nat.cast : ℕ → ℤ)).prod = (dims shape).prod :=
    (map_list_prod (Nat.castRingHom ℤ) (dims shape)).symm
  rw [Python.byteCount, Python.map_toInt h, hprod, mul_comm]
  push_cast
  rfl

lemma python_allocates {d : DtypeDescription} {plugin : Python.ConversionPlugin}
    {selected : Device} {data : Storage} (hd : (describeDtype dtype).Returns d)
    (hs : python.select device = .ok (plugin, selected)) (h : Storable shape)
    (ha : plugin.allocate (Python.byteCount shape dtype) plugin.backend selected = .ok data) :
    Python.allocateTensorMsg python shape dtype device = .ok (allocated shape d data) := by
  obtain ⟨hn, hlt⟩ := storable_iff.mp h
  have hneg : ¬ (shape.any (· < 0)) = true := by
    intro hany
    obtain ⟨v, hv, hlt⟩ := List.any_eq_true.mp hany
    exact Int64.not_lt.mpr (hn v hv) (of_decide_eq_true hlt)
  rw [Python.allocateTensorMsg, describe_eq hd]
  dsimp only
  rw [if_neg hneg, hs, Python.map_toInt hn, Python.contiguousStrides_cast, toArray_cast hlt]
  change (plugin.allocate _ _ _ >>= _) = _
  rw [ha]
  rfl

lemma python_rejects (python : Python.ConversionRegistry) (dtype : ScalarType)
    (device : Option Device) (h : ¬ Storable shape) :
    ∃ e, Python.allocateTensorMsg python shape dtype device = .error e := by
  rw [Python.allocateTensorMsg]
  split
  · exact ⟨_, rfl⟩
  · split_ifs with hneg
    · exact ⟨_, rfl⟩
    · have hn : Nonneg shape := fun v hv => Int64.not_lt.mp fun hlt =>
        hneg (List.any_eq_true.mpr ⟨v, hv, decide_eq_true hlt⟩)
      obtain ⟨e, he⟩ := toArray_error fun hlt => h (storable_iff.mpr ⟨hn, hlt⟩)
      rw [Python.map_toInt hn, Python.contiguousStrides_cast, he]
      cases python.select device with
      | error e' => exact ⟨e', rfl⟩
      | ok _ => exact ⟨e, rfl⟩

end Python

section Acceptance

lemma cpp_accepts_iff (hd : Supported dtype)
    (hp : SamePlugin registry python device (dtype.elementSize.toNat * (dims shape).prod)) :
    (∃ msg, (allocateTensorMsg registry shape dtype device).result = .ok msg) ↔
      Countable shape dtype := by
  constructor
  · rintro ⟨msg, h⟩
    obtain ⟨_, _, _, _, hc, _⟩ := allocate_ok h
    exact hc
  · intro hc
    obtain ⟨plugin, selected, _, _, hs, _, _, ha, _⟩ := hp.selected
    obtain ⟨n, hn, he⟩ := byteCount_returns hc.representable.1 hc.leading_lt hc.bytes_lt
    obtain ⟨data, hdata⟩ := ha n he
    obtain ⟨_, d, hd⟩ | ⟨hns, _⟩ := describeDtype_cases dtype
    · exact ⟨_, (allocate_returns hs hc.representable hd hn hdata).result⟩
    · exact absurd hd hns

lemma python_accepts_iff (hd : Supported dtype)
    (hp : SamePlugin registry python device (dtype.elementSize.toNat * (dims shape).prod)) :
    (∃ msg, Python.allocateTensorMsg python shape dtype device = .ok msg) ↔ Storable shape := by
  constructor
  · rintro ⟨msg, h⟩
    by_contra hn
    obtain ⟨e, he⟩ := python_rejects python dtype device hn
    exact nomatch he.symm.trans h
  · intro h
    obtain ⟨_, _, plugin, selected, _, hs, _, _, data, ha⟩ := hp.selected
    obtain ⟨_, d, hd⟩ | ⟨hns, _⟩ := describeDtype_cases dtype
    · rw [← byteCount_cast h.1] at ha
      exact ⟨_, python_allocates hd hs h ha⟩
    · exact absurd hd hns

end Acceptance

section Agreement

/-- Both reject the shape, or both return a message with the same description over
storage of the same requested size. -/
def SameAllocation (registry : Registry) (python : Python.ConversionRegistry)
    (shape : List Int64) (dtype : ScalarType) (device : Option Device) : Prop :=
  ((∃ m, (allocateTensorMsg registry shape dtype device).result = .ok m) ↔
    ∃ m, Python.allocateTensorMsg python shape dtype device = .ok m) ∧
  ∀ m m' n, (allocateTensorMsg registry shape dtype device).result = .ok m →
    Python.allocateTensorMsg python shape dtype device = .ok m' →
    (byteCount shape dtype).result = .ok n →
    m.shape = m'.shape ∧ m.strides = m'.strides ∧ Python.key m = Python.key m' ∧
      m.byteOffset = m'.byteOffset ∧ (n.toNat : ℤ) = Python.byteCount shape dtype

/-- A zero dimension of the shape may stand anywhere. -/
def ZeroAnywhere (registry : Registry) (python : Python.ConversionRegistry)
    (shape : List Int64) (dtype : ScalarType) (device : Option Device) : Prop :=
  ∀ a b a' b', shape = a ++ 0 :: b → a' ++ b' = a ++ b →
    ((∃ m, (allocateTensorMsg registry (a' ++ 0 :: b') dtype device).result = .ok m) ↔
      ∃ m, (allocateTensorMsg registry shape dtype device).result = .ok m) ∧
    ((∃ m, Python.allocateTensorMsg python (a' ++ 0 :: b') dtype device = .ok m) ↔
      ∃ m, Python.allocateTensorMsg python shape dtype device = .ok m)

/-- Without a zero dimension the sizes fit, or Python rejects the shape as well; around
every zero dimension the other ones fit. -/
def Allocatable (shape : List Int64) (dtype : ScalarType) : Prop :=
  Nonneg shape →
    (0 ∉ shape → (dims shape).tail.prod < 2 ^ 63 →
      (dims shape).prod < 2 ^ 63 ∧ dtype.elementSize.toNat * (dims shape).prod < 2 ^ 64) ∧
    ∀ a b, shape = a ++ 0 :: b →
      leading (dims (a ++ b)) < 2 ^ 64 ∧ trailing (dims (a ++ b)) < 2 ^ 63

lemma Countable.storable (h : Countable shape dtype) : Storable shape :=
  storable_iff.mpr ⟨h.representable.1, h.representable.strides_lt⟩

lemma dims_append (a b : List Int64) : dims (a ++ b) = dims a ++ dims b := List.map_append

lemma dims_insert (a b : List Int64) : dims (a ++ 0 :: b) = dims a ++ 0 :: dims b := by
  rw [dims_append]
  rfl

lemma nonneg_insert {a b : List Int64} : Nonneg (a ++ 0 :: b) ↔ Nonneg (a ++ b) := by
  simp [Nonneg, or_imp, forall_and]

lemma prod_insert (a b : List Int64) : (dims (a ++ 0 :: b)).prod = 0 := by
  rw [dims_insert]
  exact List.prod_eq_zero (by simp)

lemma countable_insert {a b : List Int64} : Countable (a ++ 0 :: b) dtype ↔
    Nonneg (a ++ b) ∧ trailing (dims b) < 2 ^ 63 ∧ leading (dims a) < 2 ^ 64 := by
  constructor
  · rintro ⟨⟨hn, ht⟩, hl, _⟩
    rw [dims_insert, trailing_insert] at ht
    rw [dims_insert, leading_insert] at hl
    exact ⟨nonneg_insert.mp hn, ht, hl⟩
  · rintro ⟨hn, ht, hl⟩
    refine ⟨⟨nonneg_insert.mpr hn, ?_⟩, ?_, ?_⟩
    · rwa [dims_insert, trailing_insert]
    · rwa [dims_insert, leading_insert]
    · rw [prod_insert]
      exact Nat.two_pow_pos 64

lemma storable_insert {a b : List Int64} : Storable (a ++ 0 :: b) ↔
    Nonneg (a ++ b) ∧ trailing (dims b) < 2 ^ 63 := by
  have hmem : 0 ∈ dims (a ++ 0 :: b) := by simp [dims_insert]
  rw [Storable, nonneg_insert, trailing_tail hmem, dims_insert, trailing_insert]

lemma countable_of_notMem (hn : Nonneg shape) (h0 : 0 ∉ shape) : Countable shape dtype ↔
    (dims shape).prod < 2 ^ 63 ∧ dtype.elementSize.toNat * (dims shape).prod < 2 ^ 64 := by
  have hd : 0 ∉ dims shape := mt (zero_mem_dims hn).mp h0
  constructor
  · rintro ⟨⟨_, ht⟩, _, hb⟩
    exact ⟨trailing_of_notMem hd ▸ ht, hb⟩
  · rintro ⟨hp, hb⟩
    refine ⟨⟨hn, ?_⟩, ?_, hb⟩
    · rwa [trailing_of_notMem hd]
    · rw [leading_of_notMem hd]
      omega

lemma storable_of_notMem (hn : Nonneg shape) (h0 : 0 ∉ shape) :
    Storable shape ↔ (dims shape).tail.prod < 2 ^ 63 := by
  have hd : 0 ∉ dims shape := mt (zero_mem_dims hn).mp h0
  rw [Storable, trailing_of_notMem fun hm => hd (List.mem_of_mem_tail hm)]
  exact and_iff_right hn

/-- Wherever the zero stands, the dimensions around it fit. -/
lemma countable_around {a b : List Int64} (hn : Nonneg (a ++ b))
    (h : leading (dims (a ++ b)) < 2 ^ 64 ∧ trailing (dims (a ++ b)) < 2 ^ 63) :
    Countable (a ++ 0 :: b) dtype := by
  rw [dims_append] at h
  exact countable_insert.mpr
    ⟨hn, trailing_append_le.trans_lt h.2, leading_append_le.trans_lt h.1⟩

variable (hd : Supported dtype)
  (hp : SamePlugin registry python device (dtype.elementSize.toNat * (dims shape).prod))

section

include hp

/-- The requested storage stays empty wherever the zero stands. -/
lemma samePlugin_insert {a b : List Int64} (a' b' : List Int64) (he : shape = a ++ 0 :: b) :
    SamePlugin registry python device
      (dtype.elementSize.toNat * (dims (a' ++ 0 :: b')).prod) := by
  rwa [prod_insert, ← prod_insert a b, ← he]

end

include hd hp

/-- Where both accept the shape they describe it alike. -/
lemma sameAllocation_iff : SameAllocation registry python shape dtype device ↔
    (Storable shape → Countable shape dtype) := by
  rw [SameAllocation, cpp_accepts_iff hd hp, python_accepts_iff hd hp]
  constructor
  · exact fun h => h.1.mpr
  · intro h
    refine ⟨⟨Countable.storable, h⟩, ?_⟩
    intro m m' n hm hm' hb
    obtain ⟨d, _, data, _, hc, hdesc, _, rfl⟩ := allocate_ok hm
    obtain ⟨_, _, plugin, selected, _, hs, _, _, data', ha⟩ := hp.selected
    rw [← byteCount_cast hc.representable.1] at ha
    obtain rfl := Except.ok.inj ((python_allocates hdesc hs hc.storable ha).symm.trans hm')
    refine ⟨rfl, rfl, rfl, rfl, ?_⟩
    rw [byteCount_cast hc.representable.1, (byteCount_ok hb).2.2]

lemma zeroAnywhere_iff : ZeroAnywhere registry python shape dtype device ↔
    ∀ a b a' b', shape = a ++ 0 :: b → a' ++ b' = a ++ b →
      (Countable (a' ++ 0 :: b') dtype ↔ Countable shape dtype) ∧
      (Storable (a' ++ 0 :: b') ↔ Storable shape) := by
  constructor
  · intro h a b a' b' he hab
    have hp' := samePlugin_insert hp a' b' he
    rw [← cpp_accepts_iff hd hp, ← python_accepts_iff hd hp, ← cpp_accepts_iff hd hp',
      ← python_accepts_iff hd hp']
    exact h a b a' b' he hab
  · intro h a b a' b' he hab
    have hp' := samePlugin_insert hp a' b' he
    rw [cpp_accepts_iff hd hp, python_accepts_iff hd hp, cpp_accepts_iff hd hp',
      python_accepts_iff hd hp']
    exact h a b a' b' he hab

theorem same_allocation_iff :
    SameAllocation registry python shape dtype device ∧
      ZeroAnywhere registry python shape dtype device ↔ Allocatable shape dtype := by
  rw [sameAllocation_iff hd hp, zeroAnywhere_iff hd hp]
  constructor
  · rintro ⟨hsame, hzero⟩ hn
    refine ⟨fun h0 ht => ?_, ?_⟩
    · exact (countable_of_notMem hn h0).mp (hsame ((storable_of_notMem hn h0).mpr ht))
    · rintro a b rfl
      have hab := nonneg_insert.mp hn
      -- The zero is moved to either end.
      obtain ⟨hcfirst, hsfirst⟩ := hzero a b [] (a ++ b) rfl rfl
      obtain ⟨hclast, hslast⟩ := hzero a b (a ++ b) [] rfl (List.append_nil _)
      have hstored : Storable ((a ++ b) ++ 0 :: []) := by
        rw [storable_insert, List.append_nil]
        exact ⟨hab, by decide⟩
      have ht := (storable_insert.mp (hsfirst.mpr (hslast.mp hstored))).2
      have hcounted : Countable ([] ++ 0 :: (a ++ b)) dtype :=
        countable_insert.mpr ⟨hab, ht, by decide⟩
      exact ⟨(countable_insert.mp (hclast.mpr (hcfirst.mp hcounted))).2.2, ht⟩
  · intro h
    refine ⟨fun hst => ?_, ?_⟩
    · by_cases h0 : 0 ∈ shape
      · obtain ⟨a, b, rfl⟩ := List.append_of_mem h0
        exact countable_around (nonneg_insert.mp hst.1) ((h hst.1).2 a b rfl)
      · exact (countable_of_notMem hst.1 h0).mpr
          ((h hst.1).1 h0 ((storable_of_notMem hst.1 h0).mp hst))
    · rintro a b a' b' rfl hab
      by_cases hn : Nonneg (a ++ b)
      · have hfit := (h (nonneg_insert.mpr hn)).2 a b rfl
        have hc : Countable (a ++ 0 :: b) dtype := countable_around hn hfit
        rw [← hab] at hfit hn
        have hc' : Countable (a' ++ 0 :: b') dtype := countable_around hn hfit
        exact ⟨iff_of_true hc' hc, iff_of_true hc'.storable hc.storable⟩
      · have hs : ¬ Storable (a ++ 0 :: b) := fun hs => hn (storable_insert.mp hs).1
        rw [← hab] at hn
        have hs' : ¬ Storable (a' ++ 0 :: b') := fun hs' => hn (storable_insert.mp hs').1
        exact ⟨iff_of_false (fun hc => hs' hc.storable) fun hc => hs hc.storable,
          iff_of_false hs' hs⟩

end Agreement

section Examples

lemma samePlugin_cpuOnly (h : bytes < 2 ^ 63) :
    SamePlugin cpuOnly Python.cpuOnly none bytes := by
  have hlt : (bytes : ℤ) < 2 ^ 63 := by exact_mod_cast h
  have hn : ¬ ((none : Option ℕ) ≠ none ∧ (none : Option ℕ) ≠ some 0) := fun h => h.1 rfl
  refine ⟨cpuConversionPlugin, { type := .cpu }, Python.cpuConversionPlugin, { type := .cpu },
    rfl, rfl, rfl, ?_, ?_⟩
  · intro n hn
    rw [cpuConversionPlugin]
    dsimp only
    rw [CpuConversionPlugin.allocate, if_neg (not_not.mpr rfl), if_pos (hn ▸ h)]
    exact ⟨_, rfl⟩
  · rw [Python.cpuConversionPlugin]
    dsimp only
    rw [Python.CpuConversionPlugin.allocate, if_neg hn, dif_pos hlt]
    exact ⟨_, rfl⟩

theorem same_allocation_once : SameAllocation cpuOnly Python.cpuOnly [2, 3] .float none := by
  have hd : Supported .float := nofun
  refine ((same_allocation_iff hd (samePlugin_cpuOnly (by decide))).mpr ?_).1
  intro _
  refine ⟨fun _ _ => by decide, ?_⟩
  intro a b he
  have hm : (0 : Int64) ∈ a ++ 0 :: b := by simp
  rw [← he] at hm
  exact absurd hm (by decide)

/-- An empty shape whose leading dimensions overflow `size_t`. -/
theorem empty_shape_rejected :
    SamePlugin cpuOnly Python.cpuOnly none 0 ∧
      (allocateTensorMsg cpuOnly [4611686018427387904, 4, 0] .byte none).result =
        .error sizeOverflow ∧
      (∃ m, Python.allocateTensorMsg Python.cpuOnly [4611686018427387904, 4, 0] .byte none =
        .ok m) ∧
      ¬ SameAllocation cpuOnly Python.cpuOnly [4611686018427387904, 4, 0] .byte none := by
  have hcpp : (allocateTensorMsg cpuOnly [4611686018427387904, 4, 0] .byte none).result =
      .error sizeOverflow := rfl
  have hpython :
      ∃ m, Python.allocateTensorMsg Python.cpuOnly [4611686018427387904, 4, 0] .byte none = .ok m :=
    ⟨_, rfl⟩
  refine ⟨samePlugin_cpuOnly (by decide), hcpp, hpython, ?_⟩
  rintro ⟨hboth, -⟩
  obtain ⟨m, hm⟩ := hboth.mpr hpython
  exact nomatch hcpp.symm.trans hm

end Examples

end RosidlBufferBackends.Torch
