import RosidlBufferBackends.Torch.ViewArithmetic

/-! A message that `validate_view` accepts describes a view inside its storage. -/

namespace RosidlBufferBackends.Torch

open Checked RowMajor

/-- A multi-index of the shape. -/
def Indexes (i : List ℤ) (shape : List Int64) : Prop :=
  List.Forall₂ (fun k d => 0 ≤ k ∧ k < d.toInt) i shape

def elementOffset (i : List ℤ) (strides : List Int64) : ℤ :=
  (List.zipWith (fun k s => k * s.toInt) i strides).sum

variable {msg : TensorMsg} {shape strides : List Int64} {dtype : ScalarType} {i : List ℤ}

section Indexes

lemma Indexes.exists_within (h : Indexes i shape) :
    ∃ j : List ℕ, i = j.map Nat.cast ∧ Within j (dims shape) := by
  induction h with
  | nil => exact ⟨[], rfl, .nil⟩
  | @cons k d i shape hk _ ih =>
    obtain ⟨j, rfl, hj⟩ := ih
    obtain ⟨n, rfl⟩ := Int.eq_ofNat_of_zero_le hk.1
    refine ⟨n :: j, rfl, .cons ?_ hj⟩
    rw [← Int64.toNat_toInt]
    omega

lemma Indexes.zero_notMem (h : Indexes i shape) : 0 ∉ shape := by
  induction h with
  | nil => simp
  | @cons k d i shape hk _ ih =>
    intro hm
    rcases List.mem_cons.mp hm with rfl | hm
    · exact absurd (hk.1.trans_lt hk.2) (by decide)
    · exact ih hm

lemma elementOffset_cast (j : List ℕ) (hs : Nonneg strides) :
    elementOffset (j.map Nat.cast) strides = offset j (dims strides) := by
  induction j generalizing strides with
  | nil => rfl
  | cons k j ih =>
    cases strides with
    | nil => rfl
    | cons s strides =>
      obtain ⟨hs, hn⟩ := nonneg_cons.mp hs
      have hih := ih hn
      rw [elementOffset] at hih ⊢
      rw [List.map_cons, List.zipWith_cons_cons, List.sum_cons, hih, dims_cons, offset_cons,
        toInt_of_nonneg hs]
      push_cast
      rfl

end Indexes

section Exactness

lemma contiguousStrides_exact (shape : List Int64) : (contiguousStrides shape).exact = true := by
  by_cases h : Representable shape
  · exact (contiguousStrides_returns h).exact
  · exact (contiguousStrides_throws h).exact

theorem validateView_exact (msg : TensorMsg) : (validateView msg).exact = true := by
  by_cases h : ∃ dtype, Viewable msg dtype
  · obtain ⟨_, h⟩ := h
    exact (validateView_returns h).exact
  · exact (validateView_throws (not_exists.mp h)).exact

end Exactness

lemma Viewable.nonneg (h : Viewable msg dtype) (h0 : 0 ∉ msg.shape) :
    Nonneg msg.shape ∧ Nonneg (normal msg) :=
  h.admitted.nonneg (length_normal h.normalized) h0

theorem validated_view_in_bounds (msg : TensorMsg) (h : (validateView msg).result = .ok ()) :
    (validateView msg).exact = true ∧ (contiguousStrides msg.shape).exact = true ∧
      ∃ strides dtype, (normalizedStrides msg).Returns strides ∧ (scalarType msg).Returns dtype ∧
        ∀ i, Indexes i msg.shape →
          0 ≤ msg.byteOffset.toNat + dtype.elementSize.toNat * elementOffset i strides ∧
          msg.byteOffset.toNat + dtype.elementSize.toNat * elementOffset i strides +
            dtype.elementSize.toNat ≤ msg.data.bytes.length := by
  obtain ⟨dtype, hv⟩ := viewable_of_ok h
  refine ⟨validateView_exact msg, contiguousStrides_exact msg.shape, normal msg, dtype,
    normalizedStrides_returns hv.normalized, hv.typed, ?_⟩
  intro i hi
  obtain ⟨hshape, hstrides⟩ := hv.nonneg hi.zero_notMem
  have hspan : viewed msg = 1 + reach (dims msg.shape) (dims (normal msg)) :=
    if_neg hi.zero_notMem
  obtain ⟨j, rfl, hj⟩ := hi.exists_within
  rw [elementOffset_cast j hstrides]
  have hle : offset j (dims (normal msg)) + 1 ≤ viewed msg := by
    have hoffset : offset j (dims (normal msg)) ≤ _ := hj.offset_le
    omega
  have hbytes : msg.byteOffset.toNat + dtype.elementSize.toNat *
      offset j (dims (normal msg)) + dtype.elementSize.toNat ≤ msg.data.bytes.length := by
    calc
      _ = msg.byteOffset.toNat + dtype.elementSize.toNat *
          (offset j (dims (normal msg)) + 1) := by ring
      _ ≤ msg.byteOffset.toNat + dtype.elementSize.toNat * viewed msg :=
        Nat.add_le_add_left (Nat.mul_le_mul_left _ hle) _
      _ ≤ msg.data.bytes.length := hv.fits
  constructor
  · exact_mod_cast Nat.zero_le _
  · exact_mod_cast hbytes

/-- A transposed view of six floats after one float of padding. -/
def transposed : TensorMsg where
  dtypeCode := kDLFloat
  dtypeBits := 32
  dtypeLanes := 1
  shape := [3, 2]
  strides := [1, 3]
  byteOffset := 4
  data := ⟨"cpu", List.replicate 28 0, by decide⟩

theorem validated_view_in_bounds_once :
    ∃ strides dtype, (normalizedStrides transposed).Returns strides ∧
      (scalarType transposed).Returns dtype ∧
      4 + dtype.elementSize.toNat * elementOffset [2, 1] strides +
        dtype.elementSize.toNat ≤ (28 : ℤ) := by
  obtain ⟨_, _, strides, dtype, hs, hd, h⟩ := validated_view_in_bounds transposed rfl
  refine ⟨strides, dtype, hs, hd, (h [2, 1] ?_).2⟩
  exact .cons (by decide) (.cons (by decide) .nil)

end RosidlBufferBackends.Torch
