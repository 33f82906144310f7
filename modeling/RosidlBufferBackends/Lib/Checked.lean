import Mathlib.Algebra.Order.Ring.Int
import Mathlib.Tactic.Common

/-! Computations over 64-bit machine integers that may throw, and that record
whether every operation they performed gave the exact mathematical result. -/

namespace RosidlBufferBackends

structure Checked (ε α : Type) where
  result : Except ε α
  exact : Bool
  deriving Repr

namespace Checked

variable {ε α β : Type} {c : Checked ε α} {a b : UInt64} {x y : Int64}

protected def pure (a : α) : Checked ε α := ⟨.ok a, true⟩

def raise (e : ε) : Checked ε α := ⟨.error e, true⟩

/-- A call that performs no arithmetic of its own. -/
def ofExcept (result : Except ε α) : Checked ε α := ⟨result, true⟩

/-- The exactness of a computation is that of all its parts. -/
protected def bind : Checked ε α → (α → Checked ε β) → Checked ε β
  | ⟨.error e, x⟩, _ => ⟨.error e, x⟩
  | ⟨.ok a, x⟩, f => ⟨(f a).result, x && (f a).exact⟩

instance : Monad (Checked ε) where
  pure := Checked.pure
  bind := Checked.bind

/-- An operation with its machine result, exact when that is the right one. -/
def operation (result : α) (exact : Bool) : Checked ε α := ⟨.ok result, exact⟩

section Unsigned

def mul (a b : UInt64) : Checked ε UInt64 :=
  operation (a * b) (decide ((a * b).toNat = a.toNat * b.toNat))

def add (a b : UInt64) : Checked ε UInt64 :=
  operation (a + b) (decide ((a + b).toNat = a.toNat + b.toNat))

def sub (a b : UInt64) : Checked ε UInt64 :=
  operation (a - b) (decide ((a - b).toNat + b.toNat = a.toNat))

def div (a b : UInt64) : Checked ε UInt64 :=
  operation (a / b) (decide (b ≠ 0))

end Unsigned

section Signed

def imul (x y : Int64) : Checked ε Int64 :=
  operation (x * y) (decide ((x * y).toInt = x.toInt * y.toInt))

def isub (x y : Int64) : Checked ε Int64 :=
  operation (x - y) (decide ((x - y).toInt = x.toInt - y.toInt))

def idiv (x y : Int64) : Checked ε Int64 :=
  operation (x / y) (decide (y ≠ 0 ∧ (x / y).toInt = x.toInt.tdiv y.toInt))

/-- The conversion to an unsigned integer. -/
def cast (x : Int64) : Checked ε UInt64 :=
  operation x.toUInt64 (decide ((x.toUInt64.toNat : ℤ) = x.toInt))

end Signed

section Guarded

def maxSize : UInt64 := UInt64.ofNat (2 ^ 64 - 1)

/-- A multiplication after the comparison with the largest value over the divisor. -/
def mulOr (e : ε) (a b : UInt64) : Checked ε UInt64 :=
  if b ≠ 0 then do
    let limit ← div maxSize b
    if limit < a then raise e else mul a b
  else mul a b

/-- An addition after the comparison with what is left below the largest value. -/
def addOr (e : ε) (a b : UInt64) : Checked ε UInt64 := do
  let room ← sub maxSize b
  if room < a then raise e else add a b

def imulOr (e : ε) (x y : Int64) : Checked ε Int64 :=
  if y ≠ 0 then do
    let limit ← idiv Int64.maxValue y
    if limit < x then raise e else imul x y
  else imul x y

end Guarded

/-- It returned this value and every operation was exact. -/
def Returns (c : Checked ε α) (a : α) : Prop := c = ⟨.ok a, true⟩

/-- It threw and every operation was exact. -/
def Throws (c : Checked ε α) : Prop := ∃ e, c = ⟨.error e, true⟩

lemma returns_pure (a : α) : (Pure.pure a : Checked ε α).Returns a := rfl

lemma throws_raise (e : ε) : (raise e : Checked ε α).Throws := ⟨e, rfl⟩

lemma Returns.bind {f : α → Checked ε β} {a : α} {b : β} (h : c.Returns a)
    (hf : (f a).Returns b) : (c >>= f).Returns b := by
  subst h
  change (⟨(f a).result, true && (f a).exact⟩ : Checked ε β) = _
  rw [hf, Bool.true_and]

lemma Returns.bind_throws {f : α → Checked ε β} {a : α} (h : c.Returns a)
    (hf : (f a).Throws) : (c >>= f).Throws := by
  obtain ⟨e, he⟩ := hf
  refine ⟨e, ?_⟩
  subst h
  change (⟨(f a).result, true && (f a).exact⟩ : Checked ε β) = _
  rw [he, Bool.true_and]

lemma Throws.bind {f : α → Checked ε β} (h : c.Throws) : (c >>= f).Throws := by
  obtain ⟨e, rfl⟩ := h
  exact ⟨e, rfl⟩

lemma bind_ok {f : α → Checked ε β} {b : β} (h : (c >>= f).result = .ok b) :
    ∃ a, c.result = .ok a ∧ (f a).result = .ok b := by
  obtain ⟨e | a, x⟩ := c
  · exact nomatch h
  · exact ⟨a, rfl, h⟩

lemma ofExcept_returns {r : Except ε α} {a : α} (h : r = .ok a) :
    (ofExcept r : Checked ε α).Returns a := by
  rw [h]
  rfl

lemma Returns.result {a : α} (h : c.Returns a) : c.result = .ok a := congrArg Checked.result h

lemma Returns.exact {a : α} (h : c.Returns a) : c.exact = true := congrArg Checked.exact h

lemma Throws.exact (h : c.Throws) : c.exact = true := by
  obtain ⟨e, rfl⟩ := h
  rfl

lemma Throws.not_ok (h : c.Throws) (a : α) : c.result ≠ .ok a := by
  obtain ⟨e, rfl⟩ := h
  exact nofun

lemma Returns.eq {a b : α} (h : c.Returns a) (hb : c.result = .ok b) : b = a :=
  Except.ok.inj (hb.symm.trans h.result)

lemma Throws.not_returns (h : c.Throws) (a : α) : ¬ c.Returns a :=
  fun hr => h.not_ok a hr.result

lemma ite_cases {p : Prop} [Decidable p] {d : Checked ε α}
    (hc : (∃ a, c.Returns a) ∨ c.Throws) (hd : (∃ a, d.Returns a) ∨ d.Throws) :
    (∃ a, (if p then c else d).Returns a) ∨ (if p then c else d).Throws := by
  split_ifs
  · exact hc
  · exact hd

section Operations

lemma mul_returns (h : a.toNat * b.toNat < 2 ^ 64) :
    (mul a b : Checked ε UInt64).Returns (a * b) := by
  simp only [Returns, mul, operation, UInt64.toNat_mul, Nat.mod_eq_of_lt h, decide_true]

lemma add_returns (h : a.toNat + b.toNat < 2 ^ 64) :
    (add a b : Checked ε UInt64).Returns (a + b) := by
  simp only [Returns, add, operation, UInt64.toNat_add, Nat.mod_eq_of_lt h, decide_true]

lemma sub_returns (h : b ≤ a) : (sub a b : Checked ε UInt64).Returns (a - b) := by
  have hle : b.toNat ≤ a.toNat := UInt64.le_iff_toNat_le.mp h
  simp [Returns, sub, operation, UInt64.toNat_sub_of_le _ _ h, Nat.sub_add_cancel hle]

lemma div_returns (h : b ≠ 0) : (div a b : Checked ε UInt64).Returns (a / b) := by
  simp [Returns, div, operation, h]

lemma imul_returns (hl : -2 ^ 63 ≤ x.toInt * y.toInt) (hu : x.toInt * y.toInt < 2 ^ 63) :
    (imul x y : Checked ε Int64).Returns (x * y) := by
  have he : (x.toInt * y.toInt).bmod (2 ^ 64) = x.toInt * y.toInt := by
    apply Int.bmod_eq_of_le <;> omega
  simp only [Returns, imul, operation, Int64.toInt_mul, he, decide_true]

lemma isub_returns (hl : -2 ^ 63 ≤ x.toInt - y.toInt) (hu : x.toInt - y.toInt < 2 ^ 63) :
    (isub x y : Checked ε Int64).Returns (x - y) := by
  have he : (x.toInt - y.toInt).bmod (2 ^ 64) = x.toInt - y.toInt := by
    apply Int.bmod_eq_of_le <;> omega
  simp only [Returns, isub, operation, Int64.toInt_sub, he, decide_true]

lemma idiv_returns (hy : 0 < y.toInt) : (idiv x y : Checked ε Int64).Returns (x / y) := by
  have hne : y ≠ -1 := by
    rintro rfl
    exact absurd hy (by decide)
  have hz : y ≠ 0 := by
    rintro rfl
    exact absurd hy (by decide)
  simp only [Returns, idiv, operation, Int64.toInt_div_of_ne_right x y hne, hz, ne_eq,
    not_false_eq_true, and_self, decide_true]

lemma cast_returns (hx : 0 ≤ x) : (cast x : Checked ε UInt64).Returns x.toUInt64 := by
  simp [Returns, cast, operation, Int64.toNat_toUInt64_of_le hx, Int64.cast_toNatClampNeg x hx]

end Operations

section GuardedOperations

variable (e : ε)

@[simp] lemma toNat_maxSize : maxSize.toNat = 2 ^ 64 - 1 := rfl

lemma limit_lt_iff (hb : b ≠ 0) : maxSize / b < a ↔ 2 ^ 64 ≤ a.toNat * b.toNat := by
  have hpos : 0 < b.toNat := Nat.pos_of_ne_zero fun h => hb (UInt64.toNat_inj.mp h)
  rw [UInt64.lt_iff_toNat_lt, UInt64.toNat_div, toNat_maxSize, Nat.div_lt_iff_lt_mul hpos]
  omega

lemma mulOr_returns (h : a.toNat * b.toNat < 2 ^ 64) : (mulOr e a b).Returns (a * b) := by
  rw [mulOr]
  split_ifs with hb
  · apply (div_returns hb).bind
    rw [if_neg fun hlt => absurd ((limit_lt_iff hb).mp hlt) (Nat.not_le.mpr h)]
    exact mul_returns h
  · exact mul_returns h

lemma mulOr_throws (h : 2 ^ 64 ≤ a.toNat * b.toNat) : (mulOr e a b).Throws := by
  have hb : b ≠ 0 := by
    rintro rfl
    simp at h
  rw [mulOr, if_pos hb]
  apply (div_returns hb).bind_throws
  rw [if_pos ((limit_lt_iff hb).mpr h)]
  exact throws_raise e

lemma le_maxSize (b : UInt64) : b ≤ maxSize := by
  have h := b.toNat_lt
  rw [UInt64.le_iff_toNat_le, toNat_maxSize]
  omega

lemma room_lt_iff : maxSize - b < a ↔ 2 ^ 64 ≤ a.toNat + b.toNat := by
  have hb := b.toNat_lt
  rw [UInt64.lt_iff_toNat_lt, UInt64.toNat_sub_of_le _ _ (le_maxSize b), toNat_maxSize]
  omega

lemma addOr_returns (h : a.toNat + b.toNat < 2 ^ 64) : (addOr e a b).Returns (a + b) := by
  apply (sub_returns (le_maxSize b)).bind
  rw [if_neg fun hlt => absurd (room_lt_iff.mp hlt) (Nat.not_le.mpr h)]
  exact add_returns h

lemma addOr_throws (h : 2 ^ 64 ≤ a.toNat + b.toNat) : (addOr e a b).Throws := by
  apply (sub_returns (le_maxSize b)).bind_throws
  rw [if_pos (room_lt_iff.mpr h)]
  exact throws_raise e

lemma ilimit_lt_iff (hy : 0 < y.toInt) :
    Int64.maxValue / y < x ↔ 2 ^ 63 ≤ x.toInt * y.toInt := by
  have hne : y ≠ -1 := by
    rintro rfl
    exact absurd hy (by decide)
  have hmax : Int64.maxValue.toInt = 2 ^ 63 - 1 := rfl
  rw [Int64.lt_iff_toInt_lt, Int64.toInt_div_of_ne_right _ _ hne, hmax,
    Int.tdiv_eq_ediv_of_nonneg (by decide), Int.ediv_lt_iff_lt_mul hy]
  omega

lemma imulOr_returns (hx : 0 ≤ x) (hy : 0 ≤ y) (h : x.toInt * y.toInt < 2 ^ 63) :
    (imulOr e x y).Returns (x * y) := by
  have hmul : (imul x y : Checked ε Int64).Returns (x * y) := by
    apply imul_returns _ h
    have hpos := Int.mul_nonneg (Int64.le_iff_toInt_le.mp hx) (Int64.le_iff_toInt_le.mp hy)
    exact Int.le_trans (by decide) hpos
  rw [imulOr]
  split_ifs with hz
  · have hlt : 0 < y.toInt :=
      Int.lt_iff_le_and_ne.mpr
      ⟨Int64.le_iff_toInt_le.mp hy, fun he => hz (Int64.toInt_inj.mp he.symm)⟩
    apply (idiv_returns hlt).bind
    rw [if_neg fun hcon => absurd ((ilimit_lt_iff hlt).mp hcon) (Int.not_le.mpr h)]
    exact hmul
  · exact hmul

lemma imulOr_throws (hy : 0 ≤ y) (h : 2 ^ 63 ≤ x.toInt * y.toInt) : (imulOr e x y).Throws := by
  have hz : y ≠ 0 := by
    rintro rfl
    exact absurd h (by simp)
  have hlt : 0 < y.toInt :=
    Int.lt_iff_le_and_ne.mpr
      ⟨Int64.le_iff_toInt_le.mp hy, fun he => hz (Int64.toInt_inj.mp he.symm)⟩
  rw [imulOr, if_pos hz]
  apply (idiv_returns hlt).bind_throws
  rw [if_pos ((ilimit_lt_iff hlt).mpr h)]
  exact throws_raise e

end GuardedOperations

end Checked

end RosidlBufferBackends
