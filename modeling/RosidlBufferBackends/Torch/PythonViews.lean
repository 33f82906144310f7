import RosidlBufferBackends.Torch.ValidatedViews

/-! The Python conversions' view of a message, over unbounded integers. -/

namespace RosidlBufferBackends.Torch.Python

inductive PythonError
  | typeError (text : String)
  | valueError (text : String)
  | overflowError (text : String)
  | runtimeError (text : String)
  | indexError (text : String)
  deriving DecidableEq, Repr

abbrev DtypeKey := UInt8 × UInt8 × UInt16

def dtypeToMessage : List (ScalarType × DtypeKey) := [
  (.byte, 1, 8, 1),
  (.char, 0, 8, 1),
  (.short, 0, 16, 1),
  (.int, 0, 32, 1),
  (.long, 0, 64, 1),
  (.half, 2, 16, 1),
  (.bfloat16, 4, 16, 1),
  (.float, 2, 32, 1),
  (.double, 2, 64, 1),
  (.bool, 6, 8, 1)]

def messageToDtype (key : DtypeKey) : Option ScalarType :=
  (dtypeToMessage.find? fun entry => decide (entry.2 = key)).map Prod.fst

def key (msg : TensorMsg) : DtypeKey := (msg.dtypeCode, msg.dtypeBits, msg.dtypeLanes)

structure TensorMetadata where
  shape : List ℤ
  strides : List ℤ
  dtype : ScalarType
  dtypeKey : DtypeKey
  span : ℤ
  byteOffset : ℤ
  itemSize : ℤ
  deriving DecidableEq, Repr

/-- The loop from the last dimension: the strides and the stride reached so far. -/
def contiguousStridesFrom : List ℤ → List ℤ × ℤ
  | [] => ([], 1)
  | size :: shape =>
    let (result, stride) := contiguousStridesFrom shape
    (stride :: result, stride * size)

def contiguousStrides (shape : List ℤ) : List ℤ := (contiguousStridesFrom shape).1

def unsupportedMessage (key : DtypeKey) : PythonError :=
  let (code, bits, lanes) := key
  .typeError s!"Unsupported tensor message dtype ({code}, {bits}, {lanes})"

def normalizedStrides (msg : TensorMsg) : List ℤ :=
  if msg.strides = [] then contiguousStrides (msg.shape.map Int64.toInt)
  else msg.strides.map Int64.toInt

def viewSpan (shape strides : List ℤ) : ℤ :=
  if 0 ∈ shape then 0
  else 1 + (List.zipWith (fun size stride => (size - 1) * stride) shape strides).sum

def metadata (msg : TensorMsg) : Except PythonError TensorMetadata :=
  match messageToDtype (key msg) with
  | none => .error (unsupportedMessage (key msg))
  | some dtype =>
    let shape := msg.shape.map Int64.toInt
    let strides := normalizedStrides msg
    if shape.length ≠ strides.length then
      .error (.valueError "Strides must match shape rank")
    else if ∃ value ∈ shape ++ strides, value < 0 then
      .error (.valueError "Negative shape dimensions and strides are invalid")
    else
      let span := viewSpan shape strides
      let itemSize : ℤ := dtype.elementSize.toNat
      if msg.byteOffset.toNat + span * itemSize > msg.data.bytes.length then
        .error (.valueError "Tensor view exceeds message storage")
      else
        .ok {
          shape := shape
          strides := strides
          dtype := dtype
          dtypeKey := key msg
          span := span
          byteOffset := msg.byteOffset.toNat
          itemSize := itemSize }

end RosidlBufferBackends.Torch.Python

namespace RosidlBufferBackends.Torch

open Checked RowMajor

namespace Python

variable {msg : TensorMsg} {m : TensorMetadata} {dtype : ScalarType} {shape strides : List Int64}

section Arithmetic

lemma map_toInt (h : Nonneg shape) : shape.map Int64.toInt = (dims shape).map Nat.cast := by
  rw [dims, List.map_map]
  exact List.map_congr_left fun d hd => toInt_of_nonneg (h d hd)

lemma contiguousStridesFrom_cast (shape : List ℕ) :
    contiguousStridesFrom (shape.map Nat.cast) =
      ((RowMajor.strides shape).map Nat.cast, (shape.prod : ℤ)) := by
  induction shape with
  | nil => rfl
  | cons d shape ih =>
    rw [List.map_cons, contiguousStridesFrom, ih, RowMajor.strides, List.prod_cons, Nat.cast_mul,
      mul_comm]
    rfl

lemma contiguousStrides_cast (shape : List ℕ) :
    contiguousStrides (shape.map Nat.cast) = (RowMajor.strides shape).map Nat.cast := by
  rw [contiguousStrides, contiguousStridesFrom_cast]

lemma length_contiguousStrides (shape : List ℤ) :
    (contiguousStrides shape).length = shape.length := by
  rw [contiguousStrides]
  induction shape with
  | nil => rfl
  | cons d shape ih => simp [contiguousStridesFrom, ih]

lemma sum_cast {shape strides : List ℕ} (h : 0 ∉ shape) :
    (List.zipWith (fun (size stride : ℤ) => (size - 1) * stride) (shape.map Nat.cast)
      (strides.map Nat.cast)).sum = (reach shape strides : ℤ) := by
  induction shape generalizing strides with
  | nil => rfl
  | cons d shape ih =>
    cases strides with
    | nil => rfl
    | cons s strides =>
      have hd : d ≠ 0 := fun he => h (he ▸ List.mem_cons_self)
      have hih := @ih strides fun hm => h (List.mem_cons_of_mem _ hm)
      rw [List.map_cons, List.map_cons, List.zipWith_cons_cons, List.sum_cons, hih, reach_cons]
      push_cast [Nat.one_le_iff_ne_zero.mpr hd]
      rfl

lemma viewSpan_cast (shape strides : List ℕ) :
    viewSpan (shape.map Nat.cast) (strides.map Nat.cast) = (span shape strides : ℤ) := by
  have hmem : (0 : ℤ) ∈ shape.map Nat.cast ↔ 0 ∈ shape := by simp
  by_cases h : 0 ∈ shape
  · rw [viewSpan, span, if_pos (hmem.mpr h), if_pos h, Nat.cast_zero]
  · rw [viewSpan, span, if_neg (mt hmem.mp h), if_neg h, sum_cast h, Nat.cast_succ, add_comm]

end Arithmetic

/-- What `_metadata` asks of a message. -/
structure Accepts (msg : TensorMsg) (dtype : ScalarType) : Prop where
  typed : messageToDtype (key msg) = some dtype
  ranked : msg.shape.length = (normalizedStrides msg).length
  nonneg : ∀ value ∈ msg.shape.map Int64.toInt ++ normalizedStrides msg, 0 ≤ value
  fits : msg.byteOffset.toNat + viewSpan (msg.shape.map Int64.toInt) (normalizedStrides msg) *
    dtype.elementSize.toNat ≤ msg.data.bytes.length

def described (msg : TensorMsg) (dtype : ScalarType) : TensorMetadata where
  shape := msg.shape.map Int64.toInt
  strides := normalizedStrides msg
  dtype := dtype
  dtypeKey := key msg
  span := viewSpan (msg.shape.map Int64.toInt) (normalizedStrides msg)
  byteOffset := msg.byteOffset.toNat
  itemSize := dtype.elementSize.toNat

theorem metadata_ok_iff :
    metadata msg = .ok m ↔ ∃ dtype, Accepts msg dtype ∧ m = described msg dtype := by
  constructor
  · intro h
    rw [metadata] at h
    split at h
    · exact nomatch h
    · rename_i dtype hd
      dsimp only at h
      split_ifs at h with hrank hneg hfits
      refine ⟨dtype, ⟨hd, ?_, ?_, not_lt.mp hfits⟩, (Except.ok.inj h).symm⟩
      · simpa using hrank
      · exact fun v hv => not_lt.mp fun hlt => hneg ⟨v, hv, hlt⟩
  · rintro ⟨dtype, h, rfl⟩
    rw [metadata, h.typed]
    dsimp only
    rw [if_neg, if_neg, if_neg]
    · rfl
    · exact not_lt.mpr h.fits
    · rintro ⟨v, hv, hlt⟩
      exact absurd (h.nonneg v hv) (not_le.mpr hlt)
    · simpa using h.ranked

end Python

open Python

variable {msg : TensorMsg} {dtype : ScalarType}

lemma mem_of_messageToDtype {k : DtypeKey} (h : messageToDtype k = some dtype) :
    (dtype, k) ∈ dtypeToMessage := by
  obtain ⟨⟨t, k'⟩, hf, rfl⟩ := Option.map_eq_some_iff.mp h
  have hk := List.find?_some hf
  obtain rfl : k' = k := of_decide_eq_true hk
  exact List.mem_of_find?_eq_some hf

lemma notMem_of_messageToDtype {k : DtypeKey} (h : messageToDtype k = none) (t : ScalarType) :
    (t, k) ∉ dtypeToMessage := by
  have hf := List.find?_eq_none.mp (Option.map_eq_none_iff.mp h)
  exact fun hm => hf _ hm (decide_eq_true rfl)

/-- The two tables of scalar types are one. -/
lemma scalarType_of_some (h : messageToDtype (key msg) = some dtype) :
    (scalarType msg).Returns dtype := by
  have hm := mem_of_messageToDtype h
  obtain ⟨code, bits, lanes, _, _, _, _⟩ := msg
  simp only [dtypeToMessage, key, List.mem_cons, Prod.mk.injEq, List.not_mem_nil, or_false] at hm
  rcases hm with ⟨rfl, rfl, rfl, rfl⟩ | ⟨rfl, rfl, rfl, rfl⟩ | ⟨rfl, rfl, rfl, rfl⟩ |
    ⟨rfl, rfl, rfl, rfl⟩ | ⟨rfl, rfl, rfl, rfl⟩ | ⟨rfl, rfl, rfl, rfl⟩ | ⟨rfl, rfl, rfl, rfl⟩ |
    ⟨rfl, rfl, rfl, rfl⟩ | ⟨rfl, rfl, rfl, rfl⟩ | ⟨rfl, rfl, rfl, rfl⟩ <;> rfl

lemma scalarType_of_none (h : messageToDtype (key msg) = none) : (scalarType msg).Throws := by
  have hm := notMem_of_messageToDtype h
  by_cases hl : msg.dtypeLanes = 1
  · have hne : ∀ {code bits : UInt8} {t : ScalarType}, (t, code, bits, 1) ∈ dtypeToMessage →
        ¬ (msg.dtypeCode = code ∧ msg.dtypeBits = bits) := by
      rintro code bits t ht ⟨rfl, rfl⟩
      exact hm t (by rwa [key, hl])
    rw [scalarType, if_neg (not_not.mpr hl)]
    rw [if_neg (hne (t := .byte) (by decide)), if_neg (hne (t := .char) (by decide)),
      if_neg (hne (t := .short) (by decide)), if_neg (hne (t := .int) (by decide)),
      if_neg (hne (t := .long) (by decide)), if_neg (hne (t := .half) (by decide)),
      if_neg (hne (t := .float) (by decide)), if_neg (hne (t := .double) (by decide)),
      if_neg (hne (t := .bfloat16) (by decide)), if_neg (hne (t := .bool) (by decide))]
    exact throws_raise _
  · rw [scalarType, if_pos hl]
    exact throws_raise _

end RosidlBufferBackends.Torch
