import RosidlBufferBackends.Torch.PythonViews

/-! Which views the C++ and the Python conversions accept. -/

namespace RosidlBufferBackends.Torch

open Checked RowMajor

/-- Both accept the message, with one view, or both reject it. -/
def SameView (msg : TensorMsg) : Prop :=
  ((validateView msg).result = .ok () ↔ ∃ m, Python.metadata msg = .ok m) ∧
  ∀ m, (validateView msg).result = .ok () → Python.metadata msg = .ok m →
    ∃ strides dtype span, (normalizedStrides msg).Returns strides ∧
      (scalarType msg).Returns dtype ∧ (viewSpan msg).Returns span ∧
      m.strides = strides.map Int64.toInt ∧ m.byteOffset = msg.byteOffset.toNat ∧
      m.itemSize = dtype.elementSize.toNat ∧ m.span = span.toNat

/-- The place of the first zero dimension. -/
def firstZero (shape : List Int64) : ℕ := shape.idxOf 0

/-- The shape and the strides are such that the two languages see the same. -/
def Fair (msg : TensorMsg) (dtype : ScalarType) : Prop :=
  if msg.strides = [] then
    Nonneg msg.shape →
    msg.byteOffset.toNat + dtype.elementSize.toNat * (dims msg.shape).prod ≤
      msg.data.bytes.length →
    trailing (dims msg.shape) < 2 ^ 63
  else
    msg.strides.length = msg.shape.length → 0 ∈ msg.shape →
    msg.byteOffset.toNat ≤ msg.data.bytes.length →
    Nonneg (msg.shape.take (firstZero msg.shape)) →
    Nonneg (msg.strides.take (firstZero msg.shape + 1)) →
    (1 + reach (dims (msg.shape.take (firstZero msg.shape)))
        (dims (msg.strides.take (firstZero msg.shape))) < 2 ^ 64 ↔
      Nonneg (msg.shape.drop (firstZero msg.shape)) ∧
        Nonneg (msg.strides.drop (firstZero msg.shape + 1)))

variable {msg : TensorMsg} {dtype : ScalarType} {shape strides : List Int64}

section Loop

lemma admits_of_lt (hs : Nonneg shape) (ht : Nonneg strides) {n : ℕ}
    (h : n + reach (dims shape) (dims strides) < 2 ^ 64) : Admits n shape strides := by
  induction shape generalizing strides n with
  | nil => trivial
  | cons d shape ih =>
    cases strides with
    | nil => trivial
    | cons s strides =>
      obtain ⟨hd, hs⟩ := nonneg_cons.mp hs
      obtain ⟨hst, ht⟩ := nonneg_cons.mp ht
      rw [dims_cons, dims_cons, reach_cons] at h
      refine ⟨hd, hst, .inr ⟨by omega, ih hs ht ?_⟩⟩
      omega

lemma Representable.admits (h : Representable shape) :
    Admits 1 shape ((RowMajor.strides (dims shape)).map Int64.ofNat) := by
  apply admits_of_lt h.1 (nonneg_ofNat h.strides_lt)
  rw [dims_ofNat h.strides_lt]
  have hle := reach_strides_lt (dims shape)
  have hlt := h.2
  omega

lemma admits_iff (hl : shape.length = strides.length) {n : ℕ} (hn : n < 2 ^ 64) :
    Admits n shape strides ↔ Nonneg (shape.take (firstZero shape)) ∧
      Nonneg (strides.take (firstZero shape + 1)) ∧
      n + reach (dims (shape.take (firstZero shape)))
        (dims (strides.take (firstZero shape))) < 2 ^ 64 := by
  induction shape generalizing strides n with
  | nil =>
    obtain rfl := List.length_eq_zero_iff.mp hl.symm
    simpa [Admits, Nonneg] using hn
  | cons d shape ih =>
    cases strides with
    | nil => exact nomatch hl
    | cons s strides =>
      by_cases hz : d = 0
      · subst hz
        simpa [Admits, firstZero, Nonneg] using fun _ => hn
      · have hfirst : firstZero (d :: shape) = firstZero shape + 1 := List.idxOf_cons_ne _ hz
        rw [hfirst, List.take_succ_cons, List.take_succ_cons, List.take_succ_cons, nonneg_cons,
          nonneg_cons, dims_cons, dims_cons, reach_cons]
        constructor
        · rintro ⟨hd, hs, h⟩
          obtain ⟨hb, h⟩ := h.resolve_left hz
          obtain ⟨h₁, h₂, h₃⟩ := (ih (Nat.succ.inj hl) hb).mp h
          exact ⟨⟨hd, h₁⟩, ⟨hs, h₂⟩, by omega⟩
        · rintro ⟨⟨hd, h₁⟩, ⟨hs, h₂⟩, h₃⟩
          have hb : n + (d.toNatClampNeg - 1) * s.toNatClampNeg < 2 ^ 64 := by omega
          exact ⟨hd, hs, .inr ⟨hb, (ih (Nat.succ.inj hl) hb).mpr ⟨h₁, h₂, by omega⟩⟩⟩

end Loop

section Acceptance

lemma typed_iff : (scalarType msg).Returns dtype ↔
    Python.messageToDtype (Python.key msg) = some dtype := by
  constructor
  · intro h
    rcases hm : Python.messageToDtype (Python.key msg) with _ | t
    · exact absurd h ((scalarType_of_none hm).not_returns dtype)
    · rw [(scalarType_of_some hm).eq h.result]
  · exact scalarType_of_some

lemma nonneg_toInt : (∀ v ∈ shape.map Int64.toInt, 0 ≤ v) ↔ Nonneg shape := by
  simp only [List.forall_mem_map, Nonneg, Int64.le_iff_toInt_le]
  rfl

lemma viewed_eq (h : Nonneg msg.shape) :
    viewed msg = span (dims msg.shape) (dims (normal msg)) := by
  rw [viewed, span, Nat.add_comm]
  simp only [zero_mem_dims h]

lemma normal_of_nil (he : msg.strides = []) :
    normal msg = (RowMajor.strides (dims msg.shape)).map Int64.ofNat := if_pos he

lemma normal_of_ne (he : msg.strides ≠ []) : normal msg = msg.strides := if_neg he

/-- Without strides C++ asks that the row-major ones be representable. -/
lemma viewable_of_nil (he : msg.strides = []) : Viewable msg dtype ↔
    (scalarType msg).Returns dtype ∧ Representable msg.shape ∧
      msg.byteOffset.toNat + dtype.elementSize.toNat * (dims msg.shape).prod ≤
        msg.data.bytes.length := by
  have hspan (h : Representable msg.shape) : viewed msg = (dims msg.shape).prod := by
    rw [viewed_eq h.1, normal_of_nil he, dims_ofNat h.strides_lt, span_strides]
  constructor
  · intro h
    have hr : Representable msg.shape := by
      have hn := h.normalized
      rwa [Normal, if_pos he] at hn
    exact ⟨h.typed, hr, hspan hr ▸ h.fits⟩
  · rintro ⟨ht, hr, hf⟩
    refine ⟨?_, ?_, ht, (hspan hr).symm ▸ hf⟩
    · rwa [Normal, if_pos he]
    · rw [normal_of_nil he]
      exact hr.admits

lemma accepts_of_nil (he : msg.strides = []) : Python.Accepts msg dtype ↔
    (scalarType msg).Returns dtype ∧ Nonneg msg.shape ∧
      msg.byteOffset.toNat + dtype.elementSize.toNat * (dims msg.shape).prod ≤
        msg.data.bytes.length := by
  have hn : Python.normalizedStrides msg = Python.contiguousStrides (msg.shape.map Int64.toInt) :=
    if_pos he
  have hspan (h : Nonneg msg.shape) : Python.viewSpan (msg.shape.map Int64.toInt)
      (Python.normalizedStrides msg) = ((dims msg.shape).prod : ℤ) := by
    rw [hn, Python.map_toInt h, Python.contiguousStrides_cast, Python.viewSpan_cast, span_strides]
  constructor
  · intro h
    have hs : Nonneg msg.shape :=
      nonneg_toInt.mp fun v hv => h.nonneg v (List.mem_append_left _ hv)
    refine ⟨typed_iff.mpr h.typed, hs, ?_⟩
    have hf := h.fits
    rw [hspan hs, mul_comm] at hf
    exact_mod_cast hf
  · rintro ⟨ht, hs, hf⟩
    refine ⟨typed_iff.mp ht, ?_, ?_, ?_⟩
    · rw [hn, Python.length_contiguousStrides, List.length_map]
    · intro v hv
      rcases List.mem_append.mp hv with hv | hv
      · exact nonneg_toInt.mpr hs v hv
      · rw [hn, Python.map_toInt hs, Python.contiguousStrides_cast] at hv
        obtain ⟨n, _, rfl⟩ := List.mem_map.mp hv
        exact Int.natCast_nonneg n
    · rw [hspan hs, mul_comm]
      exact_mod_cast hf

/-- With strides C++ looks no further than the first zero dimension. -/
lemma viewable_of_ne (he : msg.strides ≠ []) : Viewable msg dtype ↔
    (scalarType msg).Returns dtype ∧ msg.strides.length = msg.shape.length ∧
      Admits 1 msg.shape msg.strides ∧
      msg.byteOffset.toNat + dtype.elementSize.toNat * (if 0 ∈ msg.shape then 0 else
        1 + reach (dims msg.shape) (dims msg.strides)) ≤ msg.data.bytes.length := by
  have hview : viewed msg = if 0 ∈ msg.shape then 0 else
      1 + reach (dims msg.shape) (dims msg.strides) := by rw [viewed, normal_of_ne he]
  constructor
  · intro h
    have hn := h.normalized
    have ha := h.admitted
    rw [Normal, if_neg he] at hn
    rw [normal_of_ne he] at ha
    exact ⟨h.typed, hn, ha, hview ▸ h.fits⟩
  · rintro ⟨ht, hn, ha, hf⟩
    refine ⟨?_, ?_, ht, hview.symm ▸ hf⟩
    · rwa [Normal, if_neg he]
    · rwa [normal_of_ne he]

lemma accepts_of_ne (he : msg.strides ≠ []) : Python.Accepts msg dtype ↔
    (scalarType msg).Returns dtype ∧ msg.strides.length = msg.shape.length ∧
      Nonneg msg.shape ∧ Nonneg msg.strides ∧
      msg.byteOffset.toNat + dtype.elementSize.toNat * (if 0 ∈ msg.shape then 0 else
        1 + reach (dims msg.shape) (dims msg.strides)) ≤ msg.data.bytes.length := by
  have hn : Python.normalizedStrides msg = msg.strides.map Int64.toInt := if_neg he
  have hspan (hs : Nonneg msg.shape) (ht : Nonneg msg.strides) :
      Python.viewSpan (msg.shape.map Int64.toInt) (Python.normalizedStrides msg) =
        ((if 0 ∈ msg.shape then 0 else 1 + reach (dims msg.shape) (dims msg.strides) : ℕ) : ℤ) := by
    rw [hn, Python.map_toInt hs, Python.map_toInt ht, Python.viewSpan_cast, span, Nat.add_comm]
    simp only [zero_mem_dims hs]
  constructor
  · intro h
    have hs : Nonneg msg.shape :=
      nonneg_toInt.mp fun v hv => h.nonneg v (List.mem_append_left _ hv)
    have ht : Nonneg msg.strides :=
      nonneg_toInt.mp fun v hv => h.nonneg v (List.mem_append_right _ (hn ▸ hv))
    refine ⟨typed_iff.mpr h.typed, ?_, hs, ht, ?_⟩
    · rw [h.ranked, hn, List.length_map]
    · have hf := h.fits
      rw [hspan hs ht, mul_comm] at hf
      exact_mod_cast hf
  · rintro ⟨htyped, hl, hs, ht, hf⟩
    refine ⟨typed_iff.mp htyped, ?_, ?_, ?_⟩
    · rw [hn, List.length_map, hl]
    · intro v hv
      rcases List.mem_append.mp hv with hv | hv
      · exact nonneg_toInt.mpr hs v hv
      · exact nonneg_toInt.mpr ht v (hn ▸ hv)
    · rw [hspan hs ht, mul_comm]
      exact_mod_cast hf

end Acceptance

section Agreement

lemma elementSize_pos (h : (scalarType msg).Returns dtype) : 0 < dtype.elementSize.toNat := by
  have hall : ∀ e ∈ Python.dtypeToMessage, 0 < e.1.elementSize.toNat := by decide
  exact hall _ (mem_of_messageToDtype (typed_iff.mp h))

lemma nonneg_take_drop (l : List Int64) (k : ℕ) :
    Nonneg l ↔ Nonneg (l.take k) ∧ Nonneg (l.drop k) := by
  rw [Nonneg, Nonneg, Nonneg, ← List.forall_mem_append, List.take_append_drop]

lemma viewable_iff_accepts (ht : (scalarType msg).Returns dtype) :
    (Viewable msg dtype ↔ Python.Accepts msg dtype) ↔ Fair msg dtype := by
  by_cases he : msg.strides = []
  · rw [viewable_of_nil he, accepts_of_nil he, Fair, if_pos he, Representable]
    tauto
  · rw [viewable_of_ne he, accepts_of_ne he, Fair, if_neg he]
    by_cases hl : msg.shape.length = msg.strides.length
    · by_cases h0 : 0 ∈ msg.shape
      · rw [if_pos h0, admits_iff hl (by decide), nonneg_take_drop msg.shape (firstZero msg.shape),
          nonneg_take_drop msg.strides (firstZero msg.shape + 1), Nat.mul_zero, Nat.add_zero]
        tauto
      · refine iff_of_true ?_ (fun _ hm => absurd hm h0)
        rw [if_neg h0]
        constructor
        · rintro ⟨_, hr, ha, hf⟩
          obtain ⟨hs, hn⟩ := ha.nonneg hl h0
          exact ⟨ht, hr, hs, hn, hf⟩
        · rintro ⟨_, hr, hs, hn, hf⟩
          refine ⟨ht, hr, admits_of_lt hs hn ?_, hf⟩
          have hlt := msg.data.size_lt
          have hle : 1 + reach (dims msg.shape) (dims msg.strides) ≤
              dtype.elementSize.toNat * (1 + reach (dims msg.shape) (dims msg.strides)) :=
            Nat.le_mul_of_pos_left _ (elementSize_pos ht)
          omega
    · have hr : ¬ msg.strides.length = msg.shape.length := fun h => hl h.symm
      tauto

/-- Where both accept the message they compute one view. -/
lemma described_eq (hv : Viewable msg dtype) (ha : Python.Accepts msg dtype) :
    (Python.described msg dtype).strides = (normal msg).map Int64.toInt ∧
      (Python.described msg dtype).span = viewed msg := by
  have hs : Nonneg msg.shape :=
    nonneg_toInt.mp fun v hv => ha.nonneg v (List.mem_append_left _ hv)
  have hstrides : Python.normalizedStrides msg = (normal msg).map Int64.toInt := by
    by_cases he : msg.strides = []
    · have hr := ((viewable_of_nil he).mp hv).2.1
      rw [Python.normalizedStrides, if_pos he, normal_of_nil he, Python.map_toInt hs,
        Python.contiguousStrides_cast, Python.map_toInt (nonneg_ofNat hr.strides_lt),
        dims_ofNat hr.strides_lt]
    · rw [Python.normalizedStrides, if_neg he, normal_of_ne he]
  have hn : Nonneg (normal msg) :=
    nonneg_toInt.mp fun v hv => ha.nonneg v (List.mem_append_right _ (hstrides ▸ hv))
  refine ⟨hstrides, ?_⟩
  rw [Python.described, hstrides, Python.map_toInt hs, Python.map_toInt hn, Python.viewSpan_cast,
    viewed_eq hs]

lemma validateView_ok_iff : (validateView msg).result = .ok () ↔ ∃ dtype, Viewable msg dtype := by
  constructor
  · exact viewable_of_ok
  · rintro ⟨_, h⟩
    exact (validateView_returns h).result

lemma typed_unique {t : ScalarType} (h : (scalarType msg).Returns dtype)
    (ht : (scalarType msg).Returns t) : t = dtype := h.eq ht.result

theorem same_view_iff (msg : TensorMsg) :
    SameView msg ↔ ∀ dtype, (scalarType msg).Returns dtype → Fair msg dtype := by
  constructor
  · rintro ⟨hboth, -⟩ dtype ht
    rw [← viewable_iff_accepts ht]
    rw [validateView_ok_iff] at hboth
    constructor
    · intro hv
      obtain ⟨m, hm⟩ := hboth.mp ⟨dtype, hv⟩
      obtain ⟨t, ha, -⟩ := Python.metadata_ok_iff.mp hm
      rwa [typed_unique ht (typed_iff.mpr ha.typed)] at ha
    · intro ha
      obtain ⟨t, hv⟩ := hboth.mpr ⟨_, Python.metadata_ok_iff.mpr ⟨dtype, ha, rfl⟩⟩
      rwa [typed_unique ht hv.typed] at hv
  · intro h
    refine ⟨?_, ?_⟩
    · rw [validateView_ok_iff]
      constructor
      · rintro ⟨dtype, hv⟩
        have ha := (viewable_iff_accepts hv.typed).mpr (h dtype hv.typed)
        exact ⟨_, Python.metadata_ok_iff.mpr ⟨dtype, ha.mp hv, rfl⟩⟩
      · rintro ⟨m, hm⟩
        obtain ⟨dtype, ha, -⟩ := Python.metadata_ok_iff.mp hm
        have ht := typed_iff.mpr ha.typed
        exact ⟨dtype, ((viewable_iff_accepts ht).mpr (h dtype ht)).mpr ha⟩
    · intro m hok hm
      obtain ⟨dtype, hv⟩ := validateView_ok_iff.mp hok
      obtain ⟨t, ha, rfl⟩ := Python.metadata_ok_iff.mp hm
      obtain rfl := typed_unique hv.typed (typed_iff.mpr ha.typed)
      obtain ⟨hstrides, hspan⟩ := described_eq hv ha
      obtain ⟨span, hreturns, he⟩ := viewSpan_returns hv.normalized hv.admitted
      refine ⟨normal msg, t, span, normalizedStrides_returns hv.normalized, hv.typed, hreturns,
        hstrides, rfl, rfl, ?_⟩
      rw [hspan, he]

/-- A negative dimension after a zero one, with strides. -/
def hidden : TensorMsg where
  dtypeCode := kDLUInt
  dtypeBits := 8
  dtypeLanes := 1
  shape := [0, -1]
  strides := [1, 1]
  data := ⟨"cpu", [0], by decide⟩

theorem hidden_dimension_accepted :
    hidden.data.bytes ≠ [] ∧ (validateView hidden).result = .ok () ∧
      Python.metadata hidden =
        .error (.valueError "Negative shape dimensions and strides are invalid") ∧
      ¬ SameView hidden := by
  have hok : (validateView hidden).result = .ok () := rfl
  have herror : Python.metadata hidden =
      .error (.valueError "Negative shape dimensions and strides are invalid") := by decide +kernel
  refine ⟨nofun, hok, herror, ?_⟩
  rintro ⟨hboth, -⟩
  obtain ⟨m, hm⟩ := hboth.mp hok
  exact nomatch herror.symm.trans hm

end Agreement

end RosidlBufferBackends.Torch
