import Mathlib.Algebra.BigOperators.Group.List.Basic
import Mathlib.Algebra.Order.BigOperators.GroupWithZero.List
import Mathlib.Algebra.BigOperators.Ring.List
import Mathlib.Data.List.Forall2
import Mathlib.Data.List.TakeWhile
import Mathlib.Tactic.Linarith
import Mathlib.Tactic.Ring

/-! Multi-indices of a box, strided offsets, and the row-major strides of a box.
Everything is over the natural numbers; a shape is the list of its dimensions. -/

namespace RosidlBufferBackends.RowMajor

def Within (i shape : List ℕ) : Prop := List.Forall₂ (· < ·) i shape

def offset (i strides : List ℕ) : ℕ := (List.zipWith (· * ·) i strides).sum

/-- The offset of the last multi-index. -/
def reach (shape strides : List ℕ) : ℕ := (List.zipWith (fun d s => (d - 1) * s) shape strides).sum

/-- The elements from the first to the last addressed one. -/
def span (shape strides : List ℕ) : ℕ := if 0 ∈ shape then 0 else reach shape strides + 1

def strides : List ℕ → List ℕ
  | [] => []
  | _ :: shape => shape.prod :: strides shape

/-- The multi-indices, the last dimension running fastest. -/
def indices : List ℕ → List (List ℕ)
  | [] => [[]]
  | d :: shape => (List.range d).flatMap fun k => (indices shape).map (k :: ·)

/-- The product of the dimensions before the first zero. -/
def leading (shape : List ℕ) : ℕ := (shape.takeWhile (· ≠ 0)).prod

/-- The product of the dimensions after the last zero. -/
def trailing (shape : List ℕ) : ℕ := leading shape.reverse

variable {i j shape ss a b t : List ℕ} {d s n : ℕ}

section Offsets

@[simp] lemma within_nil : Within i [] ↔ i = [] := by
  cases i <;> simp [Within]

lemma within_cons : Within i (d :: shape) ↔ ∃ k r, i = k :: r ∧ k < d ∧ Within r shape := by
  cases i with
  | nil => simp [Within]
  | cons k r => simp [Within]

lemma Within.length_eq (h : Within i shape) : i.length = shape.length := List.Forall₂.length_eq h

lemma Within.zero_notMem (h : Within i shape) : 0 ∉ shape := by
  induction h with
  | nil => simp
  | cons hk _ ih =>
    intro hm
    rcases List.mem_cons.mp hm with he | hm
    · omega
    · exact ih hm

@[simp] lemma offset_nil_left : offset [] ss = 0 := rfl

@[simp] lemma offset_cons (k : ℕ) : offset (k :: i) (s :: ss) = k * s + offset i ss := by
  simp [offset]

@[simp] lemma reach_nil_left : reach [] ss = 0 := rfl

@[simp] lemma reach_nil_right : reach shape [] = 0 := by
  cases shape <;> rfl

@[simp] lemma reach_cons : reach (d :: shape) (s :: ss) = (d - 1) * s + reach shape ss := by
  simp [reach]

lemma Within.offset_le (h : Within i shape) : offset i ss ≤ reach shape ss := by
  induction h generalizing ss with
  | nil => simp
  | @cons k d i shape hk _ ih =>
    cases ss with
    | nil => simp [offset]
    | cons s ss =>
      rw [offset_cons, reach_cons]
      apply Nat.add_le_add _ ih
      exact Nat.mul_le_mul_right s (by omega)

theorem Within.offset_lt_span (h : Within i shape) : offset i ss < span shape ss := by
  rw [span, if_neg h.zero_notMem]
  exact Nat.lt_succ_of_le h.offset_le

end Offsets

section Strides

@[simp] lemma length_strides : (strides shape).length = shape.length := by
  induction shape with
  | nil => rfl
  | cons d shape ih => simp [strides, ih]

lemma prod_pos_of (h : 0 ∉ shape) : 0 < shape.prod :=
  Nat.pos_of_ne_zero fun he => h (List.prod_eq_zero_iff.mp he)

lemma Within.offset_lt_prod (h : Within i shape) : offset i (strides shape) < shape.prod := by
  induction h with
  | nil => simp [strides]
  | @cons k d i shape hk _ ih =>
    rw [strides, offset_cons, List.prod_cons]
    calc
      k * shape.prod + offset i (strides shape) < k * shape.prod + shape.prod := by omega
      _ = (k + 1) * shape.prod := (Nat.succ_mul k shape.prod).symm
      _ ≤ d * shape.prod := Nat.mul_le_mul_right _ hk

/-- Row-major strides leave no gap. -/
theorem reach_strides (h : 0 ∉ shape) : reach shape (strides shape) + 1 = shape.prod := by
  induction shape with
  | nil => rfl
  | cons d shape ih =>
    have hd : d ≠ 0 := fun he => h (he ▸ List.mem_cons_self)
    have hs := ih fun hm => h (List.mem_cons_of_mem _ hm)
    rw [strides, reach_cons, List.prod_cons, Nat.add_assoc, hs]
    obtain ⟨d, rfl⟩ := Nat.exists_eq_succ_of_ne_zero hd
    simp [Nat.succ_mul]

theorem span_strides : span shape (strides shape) = shape.prod := by
  by_cases h : 0 ∈ shape
  · rw [span, if_pos h, List.prod_eq_zero h]
  · rw [span, if_neg h, reach_strides h]

theorem Within.offset_inj (hi : Within i shape) (hj : Within j shape)
    (he : offset i (strides shape) = offset j (strides shape)) : i = j := by
  induction hi generalizing j with
  | nil => exact (within_nil.mp hj).symm
  | @cons k d i shape _ hi ih =>
    obtain ⟨l, r, rfl, _, hr⟩ := within_cons.mp hj
    rw [strides, offset_cons, offset_cons] at he
    have hw : Within i shape := hi
    have hpos : 0 < shape.prod := prod_pos_of hw.zero_notMem
    have hlt := hw.offset_lt_prod
    have hlt' := hr.offset_lt_prod
    obtain rfl : k = l := by
      have hdiv : ∀ q m, m < shape.prod → (q * shape.prod + m) / shape.prod = q := by
        intro q m hm
        rw [Nat.add_comm, Nat.add_mul_div_right _ _ hpos, Nat.div_eq_of_lt hm, Nat.zero_add]
      rw [← hdiv k _ hlt, he, hdiv l _ hlt']
    rw [ih hr (by omega)]

lemma length_indices : (indices shape).length = shape.prod := by
  induction shape with
  | nil => rfl
  | cons d shape ih => simp [indices, List.length_flatMap, ih]

lemma mem_indices : i ∈ indices shape ↔ Within i shape := by
  induction shape generalizing i with
  | nil => simp [indices]
  | cons d shape ih =>
    rw [within_cons]
    simp only [indices, List.mem_flatMap, List.mem_range, List.mem_map]
    constructor
    · rintro ⟨k, hk, r, hr, rfl⟩
      exact ⟨k, r, rfl, hk, ih.mp hr⟩
    · rintro ⟨k, r, rfl, hk, hr⟩
      exact ⟨k, hk, r, ih.mpr hr, rfl⟩

lemma getElem?_flatMap_range {α : Type*} (f : ℕ → List α) (hn : ∀ k, (f k).length = n)
    {k d m : ℕ} (hk : k < d) (hm : m < n) :
    ((List.range d).flatMap f)[k * n + m]? = (f k)[m]? := by
  induction d with
  | zero => omega
  | succ d ih =>
    have hlen : ((List.range d).flatMap f).length = d * n := by
      simp [List.length_flatMap, hn]
    rw [List.range_succ, List.flatMap_append]
    rcases Nat.lt_succ_iff_lt_or_eq.mp hk with hk | rfl
    · have hle : (k + 1) * n ≤ d * n := Nat.mul_le_mul_right n hk
      rw [List.getElem?_append_left, ih hk]
      rw [hlen]
      linarith [Nat.succ_mul k n]
    · rw [List.getElem?_append_right (by omega), hlen, Nat.add_sub_cancel_left]
      simp

/-- The row-major offset of a multi-index is its place in the enumeration. -/
theorem Within.indices_getElem? (h : Within i shape) :
    (indices shape)[offset i (strides shape)]? = some i := by
  induction h with
  | nil => rfl
  | @cons k d i shape hk hi ih =>
    rw [indices, strides, offset_cons]
    have hw : Within i shape := hi
    have hlen : ∀ k, ((indices shape).map (k :: ·)).length = shape.prod := by
      simp [length_indices]
    rw [getElem?_flatMap_range _ hlen hk hw.offset_lt_prod]
    simp [ih]

end Strides

section Zeros

lemma leading_pos : 0 < leading shape :=
  prod_pos_of fun hm => by simpa using (List.mem_takeWhile_imp hm)

lemma prefix_prod_le (h : t <+: shape) : t.prod ≤ leading shape := by
  induction shape generalizing t with
  | nil => simp [List.prefix_nil.mp h, leading]
  | cons d shape ih =>
    rcases List.prefix_cons_iff.mp h with rfl | ⟨r, rfl, hr⟩
    · exact leading_pos
    · rcases Nat.eq_zero_or_pos d with rfl | hd
      · simp
      · have hne : d ≠ 0 := by omega
        simpa [leading, hne] using Nat.mul_le_mul_left d (ih hr)

lemma leading_mem (shape : List ℕ) : ∃ t, t <+: shape ∧ t.prod = leading shape :=
  ⟨_, List.takeWhile_prefix _, rfl⟩

lemma suffix_prod_le (h : t <:+ shape) : t.prod ≤ trailing shape := by
  rw [← List.prod_reverse t]
  exact prefix_prod_le (List.reverse_prefix.mpr h)

lemma suffixes_lt_iff : (∀ t, t <:+ shape → t.prod < n) ↔ trailing shape < n := by
  constructor
  · intro h
    obtain ⟨t, ht, he⟩ := leading_mem shape.reverse
    have hlt := h t.reverse (List.reverse_prefix.mp (by simpa using ht))
    rwa [List.prod_reverse, he] at hlt
  · intro h t ht
    exact (suffix_prod_le ht).trans_lt h

lemma leading_cons : leading (d :: shape) = if d = 0 then 1 else d * leading shape := by
  split_ifs with hd
  · subst hd
    rfl
  · simp [leading, hd]

lemma prod_le_trailing : shape.prod ≤ trailing shape := suffix_prod_le List.suffix_rfl

lemma trailing_cons_lt :
    trailing (d :: shape) < n ↔ d * shape.prod < n ∧ trailing shape < n := by
  rw [← suffixes_lt_iff, ← suffixes_lt_iff]
  constructor
  · intro h
    refine ⟨?_, fun t ht => h t (ht.trans (List.suffix_cons d shape))⟩
    simpa using h (d :: shape) List.suffix_rfl
  · rintro ⟨hd, h⟩ t ht
    rcases List.suffix_cons_iff.mp ht with rfl | ht
    · simpa using hd
    · exact h t ht

lemma strides_lt_iff (hn : 1 < n) : (∀ m ∈ strides shape, m < n) ↔ trailing shape.tail < n := by
  induction shape with
  | nil => simpa [strides, trailing, leading] using hn
  | cons d shape ih =>
    rw [strides, List.forall_mem_cons, ih, List.tail_cons]
    cases shape with
    | nil => simp [trailing, leading, hn]
    | cons k shape => rw [List.prod_cons, List.tail_cons, trailing_cons_lt]

lemma leading_of_notMem (h : 0 ∉ shape) : leading shape = shape.prod := by
  rw [leading, List.takeWhile_eq_self_iff.mpr]
  intro d hd
  simpa using fun he : d = 0 => h (he ▸ hd)

lemma trailing_of_notMem (h : 0 ∉ shape) : trailing shape = shape.prod := by
  rw [trailing, leading_of_notMem (by simpa using h), List.prod_reverse]

lemma reach_strides_lt (shape : List ℕ) : reach shape (strides shape) + 1 ≤ trailing shape := by
  induction shape with
  | nil => exact Nat.le_refl 1
  | cons d shape ih =>
    by_cases h : 0 ∈ shape
    · have hle : trailing shape ≤ trailing (d :: shape) := by
        obtain ⟨t, ht, he⟩ := leading_mem shape.reverse
        rw [trailing, ← he, ← List.prod_reverse]
        apply suffix_prod_le
        exact (List.reverse_prefix.mp (by simpa using ht)).trans (List.suffix_cons d shape)
      rw [strides, reach_cons, List.prod_eq_zero h]
      omega
    · have hs := reach_strides h
      rcases Nat.eq_zero_or_pos d with rfl | hd
      · have hle : shape.prod ≤ trailing (0 :: shape) := suffix_prod_le (List.suffix_cons 0 shape)
        rw [strides, reach_cons]
        omega
      · have hd0 : 0 ∉ d :: shape := by
          simp only [List.mem_cons, not_or]
          exact ⟨by omega, h⟩
        rw [reach_strides hd0]
        exact prod_le_trailing

lemma leading_insert : leading (a ++ 0 :: b) = leading a := by
  induction a with
  | nil => rfl
  | cons d a ih =>
    rcases Nat.eq_zero_or_pos d with rfl | hd
    · rfl
    · have hne : d ≠ 0 := by omega
      rw [List.cons_append, leading_cons, leading_cons, if_neg hne, if_neg hne, ih]

lemma trailing_insert : trailing (a ++ 0 :: b) = trailing b := by
  rw [trailing, trailing, List.reverse_append, List.reverse_cons, List.append_assoc]
  exact leading_insert

lemma trailing_tail (h : 0 ∈ shape) : trailing shape.tail = trailing shape := by
  cases shape with
  | nil => exact absurd h (List.not_mem_nil)
  | cons d shape =>
    rw [List.tail_cons]
    by_cases h0 : 0 ∈ shape
    · obtain ⟨a, b, rfl⟩ := List.append_of_mem h0
      rw [← List.cons_append, trailing_insert, trailing_insert]
    · obtain rfl : 0 = d := (List.mem_cons.mp h).resolve_right h0
      exact (trailing_insert (a := [])).symm

lemma leading_append_le : leading a ≤ leading (a ++ b) := by
  obtain ⟨t, ht, he⟩ := leading_mem a
  exact he ▸ prefix_prod_le (ht.trans (List.prefix_append a b))

lemma trailing_append_le : trailing b ≤ trailing (a ++ b) := by
  rw [trailing, trailing, List.reverse_append]
  exact leading_append_le

end Zeros

end RosidlBufferBackends.RowMajor
