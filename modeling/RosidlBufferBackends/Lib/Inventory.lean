import Mathlib.Algebra.BigOperators.Group.List.Basic
import Mathlib.Algebra.Order.Ring.Int
import Mathlib.Logic.Function.Basic

/-! How many slots of a table are occupied, and what they hold in total. -/

namespace RosidlBufferBackends.Inventory

variable {β : Type*}

def total (n : ℕ) (f : ℕ → Option β) (w : β → ℕ) : ℕ :=
  ((List.range n).map (fun i => (f i).elim 0 w)).sum

variable {n i j : ℕ} {f : ℕ → Option β} {w : β → ℕ}

lemma update_some {ι : Type*} [DecidableEq ι] {f : ι → Option β} {i j : ι} {x : Option β} {y : β}
    (h : Function.update f i x j = some y) : (j = i ∧ x = some y) ∨ (j ≠ i ∧ f j = some y) := by
  by_cases hj : j = i
  · subst hj
    exact .inl ⟨rfl, by simpa using h⟩
  · exact .inr ⟨hj, by rwa [Function.update_of_ne hj] at h⟩

@[simp] lemma total_zero (f : ℕ → Option β) (w : β → ℕ) : total 0 f w = 0 := rfl

lemma total_succ (n : ℕ) (f : ℕ → Option β) (w : β → ℕ) :
    total (n + 1) f w = total n f w + (f n).elim 0 w := by
  simp [total, List.range_succ]

lemma total_congr {f' : ℕ → Option β} (h : ∀ i < n, f i = f' i) : total n f w = total n f' w := by
  induction n with
  | zero => rfl
  | succ n ih =>
    rw [total_succ, total_succ, ih (fun i hi => h i (Nat.lt_succ_of_lt hi)), h n n.lt_succ_self]

lemma total_update_of_le (h : n ≤ i) (x : Option β) :
    total n (Function.update f i x) w = total n f w := by
  apply total_congr
  intro j hj
  exact Function.update_of_ne (hj.trans_le h).ne _ _

lemma total_update (h : i < n) (x : Option β) :
    total n (Function.update f i x) w + (f i).elim 0 w = total n f w + x.elim 0 w := by
  induction n with
  | zero => exact absurd h i.not_lt_zero
  | succ n ih =>
    rw [total_succ, total_succ]
    rcases Nat.lt_succ_iff_lt_or_eq.mp h with hlt | rfl
    · rw [Function.update_of_ne hlt.ne']
      have hi := ih hlt
      omega
    · rw [Function.update_self, total_update_of_le le_rfl]
      omega

lemma total_insert (n : ℕ) (f : ℕ → Option β) (w : β → ℕ) (x : β) :
    total (n + 1) (Function.update f n (some x)) w = total n f w + w x := by
  rw [total_succ, Function.update_self, total_update_of_le le_rfl]
  rfl

lemma le_total (h : i < n) : (f i).elim 0 w ≤ total n f w := by
  have hu := total_update (f := f) (w := w) h none
  simp only [Option.elim_none] at hu
  omega

/-- What there is one of is in one slot. -/
lemma unique_of_total_le_one (h : total n f w ≤ 1) (hi : i < n) (hj : j < n)
    (hwi : 0 < (f i).elim 0 w) (hwj : 0 < (f j).elim 0 w) : i = j := by
  by_contra hne
  have hu := total_update (f := f) (w := w) hi none
  have hle := le_total (f := Function.update f i none) (w := w) hj
  rw [Function.update_of_ne (Ne.symm hne)] at hle
  simp only [Option.elim_none] at hu
  omega

/-- There are `n` occupied slots. -/
def Counted (f : ℕ → Option β) (n : ℕ) : Prop :=
  ∃ l : List ℕ, l.Nodup ∧ (∀ i, i ∈ l ↔ (f i).isSome) ∧ l.length = n

lemma counted_empty : Counted (fun _ => (none : Option β)) 0 :=
  ⟨[], List.nodup_nil, fun _ => ⟨nofun, nofun⟩, rfl⟩

lemma Counted.eq_none (h : Counted f 0) (i : ℕ) : f i = none := by
  obtain ⟨l, -, hl, hn⟩ := h
  rw [List.length_eq_zero_iff] at hn
  subst hn
  rw [← Option.not_isSome_iff_eq_none, ← hl i]
  exact List.not_mem_nil

lemma Counted.insert (h : Counted f n) (hi : f i = none) (x : β) :
    Counted (Function.update f i (some x)) (n + 1) := by
  obtain ⟨l, hnodup, hl, hn⟩ := h
  have hnot : i ∉ l := by
    rw [hl i, hi]
    exact nofun
  refine ⟨i :: l, List.nodup_cons.mpr ⟨hnot, hnodup⟩, ?_, congrArg _ hn⟩
  intro j
  rw [List.mem_cons, hl j]
  by_cases hj : j = i
  · subst hj
    simp
  · rw [Function.update_of_ne hj]
    exact or_iff_right hj

lemma Counted.replace (h : Counted f n) (hi : (f i).isSome) (x : β) :
    Counted (Function.update f i (some x)) n := by
  obtain ⟨l, hnodup, hl, hn⟩ := h
  refine ⟨l, hnodup, ?_, hn⟩
  intro j
  rw [hl j]
  by_cases hj : j = i
  · subst hj
    simp [hi]
  · rw [Function.update_of_ne hj]

lemma Counted.remove (h : Counted f n) (hi : (f i).isSome) :
    Counted (Function.update f i none) (n - 1) := by
  obtain ⟨l, hnodup, hl, rfl⟩ := h
  refine ⟨l.erase i, hnodup.erase i, ?_, List.length_erase_of_mem ((hl i).mpr hi)⟩
  intro j
  rw [hnodup.mem_erase_iff, hl j]
  by_cases hj : j = i
  · subst hj
    simp
  · rw [Function.update_of_ne hj]
    exact and_iff_right hj

end RosidlBufferBackends.Inventory
