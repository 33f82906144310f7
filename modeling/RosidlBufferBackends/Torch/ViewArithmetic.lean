import RosidlBufferBackends.Lib.RowMajor
import RosidlBufferBackends.Torch.TensorMsg

/-! What the guarded loops over shapes and strides compute, and when they throw. -/

namespace RosidlBufferBackends.Torch

open Checked RowMajor

def dims (shape : List Int64) : List ℕ := shape.map Int64.toNatClampNeg

def Nonneg (l : List Int64) : Prop := ∀ d ∈ l, 0 ≤ d

instance (l : List Int64) : Decidable (Nonneg l) := List.decidableBAll _ _

/-- The row-major strides of the shape are representable. -/
def Representable (shape : List Int64) : Prop := Nonneg shape ∧ trailing (dims shape) < 2 ^ 63

/-- What the loop over the dimensions checks before it ends. -/
def Admits (span : ℕ) : List Int64 → List Int64 → Prop
  | dimension :: shape, stride :: strides =>
    0 ≤ dimension ∧ 0 ≤ stride ∧ (dimension = 0 ∨
      span + (dimension.toNatClampNeg - 1) * stride.toNatClampNeg < 2 ^ 64 ∧
      Admits (span + (dimension.toNatClampNeg - 1) * stride.toNatClampNeg) shape strides)
  | _, _ => True

variable {msg : TensorMsg} {shape strides : List Int64} {d s : Int64} {m u : UInt64}
  {dtype : ScalarType}

section Integers

@[simp] lemma dims_nil : dims [] = [] := rfl

@[simp] lemma dims_cons : dims (d :: shape) = d.toNatClampNeg :: dims shape := rfl

@[simp] lemma length_dims : (dims shape).length = shape.length := List.length_map _

lemma nonneg_cons : Nonneg (d :: shape) ↔ 0 ≤ d ∧ Nonneg shape := by
  simp [Nonneg]

lemma toInt_of_nonneg (h : 0 ≤ d) : d.toInt = d.toNatClampNeg := (Int64.cast_toNatClampNeg d h).symm

lemma toNat_eq_zero_iff (h : 0 ≤ d) : d.toNatClampNeg = 0 ↔ d = 0 := by
  rw [← Int64.toInt_inj, toInt_of_nonneg h]
  exact Int.natCast_eq_zero.symm

lemma zero_mem_dims (h : Nonneg shape) : 0 ∈ dims shape ↔ 0 ∈ shape := by
  rw [dims, List.mem_map]
  constructor
  · rintro ⟨d, hd, he⟩
    exact (toNat_eq_zero_iff (h d hd)).mp he ▸ hd
  · exact fun hd => ⟨0, hd, rfl⟩

lemma dims_ofNat {l : List ℕ} (h : ∀ n ∈ l, n < 2 ^ 63) : dims (l.map Int64.ofNat) = l := by
  rw [dims, List.map_map]
  conv_rhs => rw [← List.map_id l]
  exact List.map_congr_left fun n hn => Int64.toNatClampNeg_ofNat_of_lt (h n hn)

lemma nonneg_ofNat {l : List ℕ} (h : ∀ n ∈ l, n < 2 ^ 63) : Nonneg (l.map Int64.ofNat) := by
  intro d hd
  obtain ⟨n, hn, rfl⟩ := List.mem_map.mp hd
  rw [Int64.le_iff_toInt_le, Int64.toInt_ofNat_of_lt (h n hn)]
  exact Int.natCast_nonneg n

end Integers

section Strides

lemma representable_cons : Representable (d :: shape) ↔
    0 ≤ d ∧ d.toNatClampNeg * (dims shape).prod < 2 ^ 63 ∧ Representable shape := by
  rw [Representable, Representable, nonneg_cons, dims_cons, trailing_cons_lt]
  tauto

lemma Representable.prod_lt (h : Representable shape) : (dims shape).prod < 2 ^ 63 :=
  prod_le_trailing.trans_lt h.2

lemma Representable.strides_lt (h : Representable shape) :
    ∀ n ∈ RowMajor.strides (dims shape), n < 2 ^ 63 := by
  induction shape with
  | nil => simp [RowMajor.strides]
  | cons d shape ih =>
    obtain ⟨_, _, hs⟩ := representable_cons.mp h
    intro n hn
    rcases List.mem_cons.mp hn with rfl | hn
    · exact hs.prod_lt
    · exact ih hs n hn

lemma contiguousStridesFrom_returns (h : Representable shape) :
    (contiguousStridesFrom shape).Returns
      ((RowMajor.strides (dims shape)).map Int64.ofNat, Int64.ofNat (dims shape).prod) := by
  induction shape with
  | nil => rfl
  | cons d shape ih =>
    obtain ⟨hd, hlt, hs⟩ := representable_cons.mp h
    have hprod : (Int64.ofNat (dims shape).prod).toInt = (dims shape).prod :=
      Int64.toInt_ofNat_of_lt hs.prod_lt
    have hmul : (Int64.ofNat (dims shape).prod).toInt * d.toInt =
        ((d.toNatClampNeg * (dims shape).prod : ℕ) : ℤ) := by
      rw [hprod, toInt_of_nonneg hd, Nat.cast_mul, mul_comm]
    have hnext : Int64.ofNat (dims shape).prod * d =
        Int64.ofNat (d.toNatClampNeg * (dims shape).prod) := by
      apply Int64.toInt_inj.mp
      rw [Int64.toInt_mul, hmul, Int64.toInt_ofNat_of_lt hlt]
      apply Int.bmod_eq_of_le <;> omega
    apply (ih hs).bind
    dsimp only
    rw [if_neg (Int64.not_lt.mpr hd), dims_cons, List.prod_cons, ← hnext]
    refine (imulOr_returns _ ?_ hd ?_).bind rfl
    · rw [Int64.le_iff_toInt_le, hprod]
      exact Int.natCast_nonneg _
    · rw [hmul]
      exact_mod_cast hlt

lemma contiguousStridesFrom_throws (h : ¬ Representable shape) :
    (contiguousStridesFrom shape).Throws := by
  induction shape with
  | nil => exact absurd ⟨nofun, by decide⟩ h
  | cons d shape ih =>
    by_cases hs : Representable shape
    · apply (contiguousStridesFrom_returns hs).bind_throws
      dsimp only
      by_cases hd : d < 0
      · rw [if_pos hd]
        exact throws_raise _
      · rw [if_neg hd]
        have hd := Int64.not_lt.mp hd
        refine (imulOr_throws _ hd ?_).bind
        rw [Int64.toInt_ofNat_of_lt hs.prod_lt, toInt_of_nonneg hd, mul_comm]
        by_contra hlt
        exact h (representable_cons.mpr ⟨hd, by exact_mod_cast Int.not_le.mp hlt, hs⟩)
    · exact (ih hs).bind

theorem contiguousStrides_returns (h : Representable shape) :
    (contiguousStrides shape).Returns ((RowMajor.strides (dims shape)).map Int64.ofNat) :=
  (contiguousStridesFrom_returns h).bind rfl

theorem contiguousStrides_throws (h : ¬ Representable shape) : (contiguousStrides shape).Throws :=
  (contiguousStridesFrom_throws h).bind

end Strides

section Counts

lemma elementCountFrom_returns (hn : Nonneg shape)
    (hb : m.toNat * leading (dims shape) < 2 ^ 64) :
    ∃ c, (elementCountFrom m shape).Returns c ∧
      c.toNat = m.toNat * (dims shape).prod := by
  induction shape generalizing m with
  | nil => exact ⟨m, rfl, by simp⟩
  | cons d shape ih =>
    obtain ⟨hd, hn⟩ := nonneg_cons.mp hn
    have hcast : d.toUInt64.toNat = d.toNatClampNeg := Int64.toNat_toUInt64_of_le hd
    rw [dims_cons, leading_cons] at hb
    have hlt : m.toNat * d.toNatClampNeg < 2 ^ 64 := by
      split_ifs at hb with hz
      · simp [hz]
      · apply lt_of_le_of_lt _ hb
        exact Nat.mul_le_mul_left _ (Nat.le_mul_of_pos_right _ leading_pos)
    have hnext : (m * d.toUInt64).toNat = m.toNat * d.toNatClampNeg := by
      rw [UInt64.toNat_mul, hcast, Nat.mod_eq_of_lt hlt]
    obtain ⟨c, hc, he⟩ := ih (m := m * d.toUInt64) hn <| by
      rw [hnext]
      split_ifs at hb with hz
      · simp [hz]
      · rwa [Nat.mul_assoc]
    refine ⟨c, ?_, by rw [he, hnext, dims_cons, List.prod_cons, Nat.mul_assoc]⟩
    rw [elementCountFrom, if_neg (Int64.not_lt.mpr hd)]
    apply (cast_returns hd).bind
    exact (mulOr_returns _ (hcast ▸ hlt)).bind hc

lemma elementCountFrom_throws
    (h : ¬ (Nonneg shape ∧ m.toNat * leading (dims shape) < 2 ^ 64)) :
    (elementCountFrom m shape).Throws := by
  induction shape generalizing m with
  | nil => exact absurd ⟨nofun, by simpa [leading] using m.toNat_lt⟩ h
  | cons d shape ih =>
    rw [elementCountFrom]
    split_ifs with hd
    · exact throws_raise _
    · have hd := Int64.not_lt.mp hd
      have hcast : d.toUInt64.toNat = d.toNatClampNeg := Int64.toNat_toUInt64_of_le hd
      apply (cast_returns hd).bind_throws
      by_cases hlt : m.toNat * d.toUInt64.toNat < 2 ^ 64
      · apply (mulOr_returns _ hlt).bind_throws
        apply ih
        rintro ⟨hn, hb⟩
        apply h
        rw [nonneg_cons, dims_cons, leading_cons]
        refine ⟨⟨hd, hn⟩, ?_⟩
        split_ifs with hz
        · simpa using m.toNat_lt
        · rwa [UInt64.toNat_mul, Nat.mod_eq_of_lt hlt, hcast, Nat.mul_assoc] at hb
      · exact (mulOr_throws _ (Nat.not_lt.mp hlt)).bind

theorem elementCount_returns (hn : Nonneg shape) (hb : leading (dims shape) < 2 ^ 64) :
    ∃ c, (elementCount shape).Returns c ∧ c.toNat = (dims shape).prod := by
  have h := elementCountFrom_returns (m := 1) hn (by simpa using hb)
  simpa [elementCount] using h

theorem elementCount_throws (h : ¬ (Nonneg shape ∧ leading (dims shape) < 2 ^ 64)) :
    (elementCount shape).Throws :=
  elementCountFrom_throws (by simpa using h)

theorem byteCount_returns (hn : Nonneg shape) (hl : leading (dims shape) < 2 ^ 64)
    (hb : dtype.elementSize.toNat * (dims shape).prod < 2 ^ 64) :
    ∃ n, (byteCount shape dtype).Returns n ∧
      n.toNat = dtype.elementSize.toNat * (dims shape).prod := by
  obtain ⟨c, hc, he⟩ := elementCount_returns hn hl
  rw [← he] at hb ⊢
  refine ⟨_, hc.bind (mulOr_returns _ hb), ?_⟩
  rw [UInt64.toNat_mul, Nat.mod_eq_of_lt hb]

theorem byteCount_throws (h : ¬ (Nonneg shape ∧ leading (dims shape) < 2 ^ 64 ∧
      dtype.elementSize.toNat * (dims shape).prod < 2 ^ 64)) :
    (byteCount shape dtype).Throws := by
  by_cases hc : Nonneg shape ∧ leading (dims shape) < 2 ^ 64
  · obtain ⟨c, hr, he⟩ := elementCount_returns hc.1 hc.2
    apply hr.bind_throws
    apply mulOr_throws
    rw [he]
    exact Nat.not_lt.mp fun hlt => h ⟨hc.1, hc.2, hlt⟩
  · exact (elementCount_throws hc).bind

end Counts

section Spans

lemma Admits.nonneg (hl : shape.length = strides.length) (h0 : 0 ∉ shape) {n : ℕ}
    (h : Admits n shape strides) : Nonneg shape ∧ Nonneg strides := by
  induction shape generalizing strides n with
  | nil =>
    obtain rfl := List.length_eq_zero_iff.mp hl.symm
    exact ⟨nofun, nofun⟩
  | cons d shape ih =>
    cases strides with
    | nil => exact nomatch hl
    | cons s strides =>
      obtain ⟨hd, hs, h⟩ := h
      have hz : d ≠ 0 := fun he => h0 (he ▸ List.mem_cons_self)
      obtain ⟨hn, hm⟩ := ih (Nat.succ.inj hl) (fun hm => h0 (List.mem_cons_of_mem _ hm))
        (h.resolve_left hz).2
      exact ⟨nonneg_cons.mpr ⟨hd, hn⟩, nonneg_cons.mpr ⟨hs, hm⟩⟩

lemma extent_returns (hd : 0 ≤ d) (hz : d ≠ 0) :
    (isub d 1 : Checked Exception Int64).Returns (d - 1) ∧ 0 ≤ d - 1 ∧
      (d - 1).toUInt64.toNat = d.toNatClampNeg - 1 := by
  have hi := toInt_of_nonneg hd
  have hpos : 0 < d.toNatClampNeg := Nat.pos_of_ne_zero fun he => hz ((toNat_eq_zero_iff hd).mp he)
  have hlt := d.toNatClampNeg_lt
  have hone : (1 : Int64).toInt = 1 := rfl
  have hsub : (d - 1).toInt = d.toNatClampNeg - 1 := by
    rw [Int64.toInt_sub, hi, hone]
    apply Int.bmod_eq_of_le <;> omega
  have hle : 0 ≤ d - 1 := by
    rw [Int64.le_iff_toInt_le, hsub]
    change (0 : ℤ) ≤ _
    omega
  refine ⟨isub_returns ?_ ?_, hle, ?_⟩
  · rw [hi, hone]
    omega
  · rw [hi, hone]
    omega
  · rw [Int64.toNat_toUInt64_of_le hle, ← Int64.toNat_toInt, hsub]
    omega

lemma contribute_returns (hd : 0 ≤ d) (hz : d ≠ 0) (hs : 0 ≤ s)
    (hb : u.toNat + (d.toNatClampNeg - 1) * s.toNatClampNeg < 2 ^ 64) :
    ∃ t, (contribute u d s).Returns t ∧
      t.toNat = u.toNat + (d.toNatClampNeg - 1) * s.toNatClampNeg := by
  obtain ⟨hsub, hle, hext⟩ := extent_returns hd hz
  have hstep := Int64.toNat_toUInt64_of_le hs
  have hmul : (d - 1).toUInt64.toNat * s.toUInt64.toNat < 2 ^ 64 := by
    rw [hext, hstep]
    omega
  have hcon : ((d - 1).toUInt64 * s.toUInt64).toNat =
      (d.toNatClampNeg - 1) * s.toNatClampNeg := by
    rw [UInt64.toNat_mul, Nat.mod_eq_of_lt hmul, hext, hstep]
  rw [← hcon] at hb ⊢
  refine ⟨u + (d - 1).toUInt64 * s.toUInt64, ?_, ?_⟩
  · apply hsub.bind
    apply (cast_returns hle).bind
    apply (cast_returns hs).bind
    exact (mulOr_returns _ hmul).bind (addOr_returns _ hb)
  · rw [UInt64.toNat_add, Nat.mod_eq_of_lt hb]

lemma contribute_throws (hd : 0 ≤ d) (hz : d ≠ 0) (hs : 0 ≤ s)
    (hb : 2 ^ 64 ≤ u.toNat + (d.toNatClampNeg - 1) * s.toNatClampNeg) :
    (contribute u d s).Throws := by
  obtain ⟨hsub, hle, hext⟩ := extent_returns hd hz
  have hstep := Int64.toNat_toUInt64_of_le hs
  apply hsub.bind_throws
  apply (cast_returns hle).bind_throws
  apply (cast_returns hs).bind_throws
  by_cases hmul : (d - 1).toUInt64.toNat * s.toUInt64.toNat < 2 ^ 64
  · apply (mulOr_returns _ hmul).bind_throws
    apply addOr_throws
    rwa [UInt64.toNat_mul, Nat.mod_eq_of_lt hmul, hext, hstep]
  · exact (mulOr_throws _ (Nat.not_lt.mp hmul)).bind

lemma spanFrom_returns (hl : shape.length = strides.length)
    (h : Admits u.toNat shape strides) :
    ∃ t, (spanFrom u shape strides).Returns t ∧
      t.toNat = if 0 ∈ shape then 0 else u.toNat + reach (dims shape) (dims strides) := by
  induction shape generalizing strides u with
  | nil => exact ⟨u, by cases strides <;> rfl, by simp⟩
  | cons d shape ih =>
    cases strides with
    | nil => exact nomatch hl
    | cons s strides =>
      obtain ⟨hd, hs, h⟩ := h
      rw [spanFrom, if_neg (not_or.mpr ⟨Int64.not_lt.mpr hd, Int64.not_lt.mpr hs⟩)]
      by_cases hz : d = 0
      · subst hz
        exact ⟨0, rfl, by simp⟩
      · obtain ⟨hb, h⟩ := h.resolve_left hz
        obtain ⟨t, ht, he⟩ := contribute_returns hd hz hs hb
        obtain ⟨v, hv, he'⟩ := ih (Nat.succ.inj hl) (he ▸ h)
        refine ⟨v, ?_, ?_⟩
        · rw [if_neg hz]
          exact ht.bind hv
        · rw [he', he, dims_cons, dims_cons, reach_cons, Nat.add_assoc]
          simp [List.mem_cons, Ne.symm hz]

lemma spanFrom_throws (h : ¬ Admits u.toNat shape strides) :
    (spanFrom u shape strides).Throws := by
  induction shape generalizing strides u with
  | nil => exact absurd trivial h
  | cons d shape ih =>
    cases strides with
    | nil => exact absurd trivial h
    | cons s strides =>
      rw [spanFrom]
      split_ifs with hneg hz
      · exact throws_raise _
      · subst hz
        obtain ⟨hd, hs⟩ := not_or.mp hneg
        exact absurd ⟨Int64.not_lt.mp hd, Int64.not_lt.mp hs, .inl rfl⟩ h
      · obtain ⟨hd, hs⟩ := not_or.mp hneg
        have hd := Int64.not_lt.mp hd
        have hs := Int64.not_lt.mp hs
        by_cases hb : u.toNat + (d.toNatClampNeg - 1) * s.toNatClampNeg < 2 ^ 64
        · obtain ⟨t, ht, he⟩ := contribute_returns hd hz hs hb
          apply ht.bind_throws
          apply ih
          rw [he]
          exact fun hcon => h ⟨hd, hs, .inr ⟨hb, hcon⟩⟩
        · exact (contribute_throws hd hz hs (Nat.not_lt.mp hb)).bind

end Spans

section Views

/-- `normalized_strides` finds strides. -/
def Normal (msg : TensorMsg) : Prop :=
  if msg.strides = [] then Representable msg.shape else msg.strides.length = msg.shape.length

def normal (msg : TensorMsg) : List Int64 :=
  if msg.strides = [] then (RowMajor.strides (dims msg.shape)).map Int64.ofNat else msg.strides

/-- The elements between the first and the last one of the view. -/
def viewed (msg : TensorMsg) : ℕ :=
  if 0 ∈ msg.shape then 0 else 1 + reach (dims msg.shape) (dims (normal msg))

/-- What `validate_view` asks of a message. -/
structure Viewable (msg : TensorMsg) (dtype : ScalarType) : Prop where
  normalized : Normal msg
  admitted : Admits 1 msg.shape (normal msg)
  typed : (scalarType msg).Returns dtype
  fits : msg.byteOffset.toNat + dtype.elementSize.toNat * viewed msg ≤ msg.data.bytes.length

lemma Storage.toNat_size (data : Storage) : data.size.toNat = data.bytes.length :=
  UInt64.toNat_ofNat_of_lt' data.size_lt

lemma normalizedStrides_returns (h : Normal msg) :
    (normalizedStrides msg).Returns (normal msg) := by
  rw [Normal] at h
  rw [normalizedStrides, Torch.normal]
  split_ifs at h ⊢ with he
  · exact contiguousStrides_returns h
  · exact absurd h ‹_›
  · rfl

lemma normalizedStrides_throws (h : ¬ Normal msg) : (normalizedStrides msg).Throws := by
  rw [Normal] at h
  rw [normalizedStrides]
  split_ifs at h ⊢ with he
  · exact contiguousStrides_throws h
  · exact throws_raise _
  · exact absurd h ‹_›

lemma length_normal (h : Normal msg) : msg.shape.length = (normal msg).length := by
  rw [Normal] at h
  rw [Torch.normal]
  split_ifs at h ⊢ with he
  · simp
  · exact h.symm

lemma scalarType_cases (msg : TensorMsg) :
    (∃ dtype, (scalarType msg).Returns dtype) ∨ (scalarType msg).Throws := by
  rw [scalarType]
  repeat' apply ite_cases
  all_goals first | exact .inl ⟨_, returns_pure _⟩ | exact .inr (throws_raise _)

lemma viewSpan_returns (h : Normal msg) (ha : Admits 1 msg.shape (normal msg)) :
    ∃ t, (viewSpan msg).Returns t ∧ t.toNat = viewed msg := by
  obtain ⟨t, ht, he⟩ := spanFrom_returns (u := 1) (length_normal h) ha
  exact ⟨t, (normalizedStrides_returns h).bind ht, he⟩

theorem validateView_returns (h : Viewable msg dtype) : (validateView msg).Returns () := by
  obtain ⟨t, ht, he⟩ := viewSpan_returns h.normalized h.admitted
  have hlt := msg.data.size_lt
  have hfits := h.fits
  rw [← he] at hfits
  have hmul : dtype.elementSize.toNat * t.toNat < 2 ^ 64 := by omega
  have hbytes : (dtype.elementSize * t).toNat = dtype.elementSize.toNat * t.toNat := by
    rw [UInt64.toNat_mul, Nat.mod_eq_of_lt hmul]
  have hadd : msg.byteOffset.toNat + (dtype.elementSize * t).toNat < 2 ^ 64 := by omega
  apply ht.bind
  apply h.typed.bind
  apply (mulOr_returns _ hmul).bind
  apply (addOr_returns _ hadd).bind
  rw [if_neg]
  · rfl
  · rw [UInt64.lt_iff_toNat_lt, Storage.toNat_size, UInt64.toNat_add, Nat.mod_eq_of_lt hadd, hbytes]
    omega

theorem validateView_throws (h : ∀ dtype, ¬ Viewable msg dtype) : (validateView msg).Throws := by
  rw [validateView]
  by_cases hn : Normal msg
  · by_cases ha : Admits 1 msg.shape (normal msg)
    · obtain ⟨t, ht, he⟩ := viewSpan_returns hn ha
      apply ht.bind_throws
      rcases scalarType_cases msg with ⟨dtype, hd⟩ | hd
      · have hlt := msg.data.size_lt
        have hexceeds : msg.data.bytes.length <
            msg.byteOffset.toNat + dtype.elementSize.toNat * t.toNat := by
          rw [he]
          exact Nat.not_le.mp fun hle => h dtype ⟨hn, ha, hd, hle⟩
        apply hd.bind_throws
        by_cases hmul : dtype.elementSize.toNat * t.toNat < 2 ^ 64
        · have hbytes : (dtype.elementSize * t).toNat = dtype.elementSize.toNat * t.toNat := by
            rw [UInt64.toNat_mul, Nat.mod_eq_of_lt hmul]
          apply (mulOr_returns _ hmul).bind_throws
          by_cases hadd : msg.byteOffset.toNat + (dtype.elementSize * t).toNat < 2 ^ 64
          · apply (addOr_returns _ hadd).bind_throws
            rw [if_pos]
            · exact throws_raise _
            · rwa [UInt64.lt_iff_toNat_lt, Storage.toNat_size, UInt64.toNat_add,
                Nat.mod_eq_of_lt hadd, hbytes]
          · exact (addOr_throws _ (Nat.not_lt.mp hadd)).bind
        · exact (mulOr_throws _ (Nat.not_lt.mp hmul)).bind
      · exact hd.bind
    · exact ((normalizedStrides_returns hn).bind_throws (spanFrom_throws (u := 1) ha)).bind
  · exact (normalizedStrides_throws hn).bind.bind

theorem viewable_of_ok (h : (validateView msg).result = .ok ()) : ∃ dtype, Viewable msg dtype := by
  by_contra hcon
  exact (validateView_throws (not_exists.mp hcon)).not_ok () h

end Views

end RosidlBufferBackends.Torch
