import Mathlib.Algebra.Order.BigOperators.Group.List
import Mathlib.Algebra.Order.Group.Nat
import Mathlib.Algebra.Order.Ring.Int
import Mathlib.Data.List.Nodup
import Mathlib.Data.List.Perm.Basic
import Mathlib.Order.Defs.LinearOrder

/-! Ordered maps as sorted association lists, with the lookup of the least key
that is not below a bound, and the constant-time removal from a vector that
moves the last element into the hole. -/

namespace RosidlBufferBackends

structure OrderedMap (κ ν : Type*) [LinearOrder κ] where
  entries : List (κ × ν)
  sorted : entries.Pairwise (fun a b => a.1 < b.1)

namespace OrderedMap

variable {κ ν : Type*} [LinearOrder κ]

def empty : OrderedMap κ ν := ⟨[], .nil⟩

def get? (m : OrderedMap κ ν) (k : κ) : Option ν :=
  (m.entries.find? (fun e => decide (e.1 = k))).map Prod.snd

def lowerBound (m : OrderedMap κ ν) (k : κ) : Option (κ × ν) :=
  m.entries.find? (fun e => decide (k ≤ e.1))

def cell (k : κ) (v : Option ν) : List (κ × ν) := v.toList.map (fun v => (k, v))

def alterEntries (k : κ) (f : Option ν → Option ν) : List (κ × ν) → List (κ × ν)
  | [] => cell k (f none)
  | e :: es =>
      if k < e.1 then cell k (f none) ++ e :: es
      else if e.1 < k then e :: alterEntries k f es
      else cell k (f (some e.2)) ++ es

omit [LinearOrder κ] in
lemma mem_cell {k k' : κ} {v : Option ν} {v' : ν} :
    (k', v') ∈ cell k v ↔ k' = k ∧ v = some v' := by
  cases v with
  | none => simp [cell]
  | some v => simp [cell, eq_comm]

lemma mem_alterEntries_key {k : κ} {f : Option ν → Option ν} {es : List (κ × ν)} {e : κ × ν}
    (h : e ∈ alterEntries k f es) : e.1 = k ∨ e ∈ es := by
  induction es with
  | nil => exact .inl (mem_cell.mp h).1
  | cons x es ih =>
    simp only [alterEntries] at h
    split_ifs at h with h₁ h₂
    · rcases List.mem_append.mp h with h | h
      · exact .inl (mem_cell.mp h).1
      · exact .inr h
    · rcases List.mem_cons.mp h with rfl | h
      · exact .inr (by simp)
      · exact (ih h).imp_right (List.mem_cons_of_mem x)
    · rcases List.mem_append.mp h with h | h
      · exact .inl (mem_cell.mp h).1
      · exact .inr (List.mem_cons_of_mem x h)

lemma cell_append_sorted {k : κ} {v : Option ν} {es : List (κ × ν)}
    (hs : es.Pairwise (fun a b => a.1 < b.1)) (hk : ∀ e ∈ es, k < e.1) :
    (cell k v ++ es).Pairwise (fun a b => a.1 < b.1) := by
  cases v with
  | none => simpa [cell] using hs
  | some v => simpa [cell] using ⟨fun a b h => hk (a, b) h, hs⟩

lemma alterEntries_sorted (k : κ) (f : Option ν → Option ν) {es : List (κ × ν)}
    (hs : es.Pairwise (fun a b => a.1 < b.1)) :
    (alterEntries k f es).Pairwise (fun a b => a.1 < b.1) := by
  induction es with
  | nil => simpa [alterEntries] using cell_append_sorted (v := f none) (k := k) .nil (by simp)
  | cons x es ih =>
    have hx := List.pairwise_cons.mp hs
    simp only [alterEntries]
    split_ifs with h₁ h₂
    · refine cell_append_sorted hs ?_
      intro e he
      rcases List.mem_cons.mp he with rfl | he
      · exact h₁
      · exact h₁.trans (hx.1 e he)
    · refine List.pairwise_cons.mpr ⟨?_, ih hx.2⟩
      intro e he
      rcases mem_alterEntries_key he with rfl | he
      · exact h₂
      · exact hx.1 e he
    · have hk : k = x.1 := le_antisymm (not_lt.mp h₂) (not_lt.mp h₁)
      exact cell_append_sorted hx.2 (fun e he => hk ▸ hx.1 e he)

/-- Replaces the value at `k`, found or not, by what `f` returns for it. -/
def alter (m : OrderedMap κ ν) (k : κ) (f : Option ν → Option ν) : OrderedMap κ ν :=
  ⟨alterEntries k f m.entries, alterEntries_sorted k f m.sorted⟩

lemma keys_nodup (m : OrderedMap κ ν) : (m.entries.map Prod.fst).Nodup :=
  (List.pairwise_map.mpr m.sorted).imp (fun h => ne_of_lt h)

lemma get?_eq_some_iff {m : OrderedMap κ ν} {k : κ} {v : ν} :
    m.get? k = some v ↔ (k, v) ∈ m.entries := by
  constructor
  · intro h
    obtain ⟨⟨k', v'⟩, hf, rfl⟩ := Option.map_eq_some_iff.mp h
    have hk : k' = k := by simpa using List.find?_some hf
    exact hk ▸ List.mem_of_find?_eq_some hf
  · intro h
    cases hf : m.entries.find? (fun e => decide (e.1 = k)) with
    | none => simpa using List.find?_eq_none.mp hf (k, v) h
    | some e =>
      have hk : e.1 = k := by simpa using List.find?_some hf
      have he := List.inj_on_of_nodup_map m.keys_nodup (List.mem_of_find?_eq_some hf) h hk
      simp [get?, hf, he]

lemma lowerBound_mem {m : OrderedMap κ ν} {k : κ} {e : κ × ν} (h : m.lowerBound k = some e) :
    e ∈ m.entries :=
  List.mem_of_find?_eq_some h

lemma lowerBound_le {m : OrderedMap κ ν} {k : κ} {e : κ × ν} (h : m.lowerBound k = some e) :
    k ≤ e.1 := by
  simpa using List.find?_some h

lemma lowerBound_least {m : OrderedMap κ ν} {k : κ} {e e' : κ × ν}
    (h : m.lowerBound k = some e) (he : e' ∈ m.entries) (hk : k ≤ e'.1) : e.1 ≤ e'.1 := by
  obtain ⟨_, as, bs, heq, hlt⟩ := List.find?_eq_some_iff_append.mp h
  rw [heq] at he
  have hs := m.sorted
  rw [heq] at hs
  rcases List.mem_append.mp he with he | he
  · simpa [hk] using hlt e' he
  · rcases List.mem_cons.mp he with rfl | he
    · exact le_rfl
    · exact ((List.pairwise_cons.mp (List.pairwise_append.mp hs).2.1).1 e' he).le

lemma lowerBound_eq_none_iff {m : OrderedMap κ ν} {k : κ} :
    m.lowerBound k = none ↔ ∀ e ∈ m.entries, e.1 < k := by
  simp [lowerBound]

@[simp] lemma entries_empty : (empty : OrderedMap κ ν).entries = [] := rfl

/-- A measure of the values, summed over the entries. -/
def total (μ : ν → ℕ) (m : OrderedMap κ ν) : ℕ := (m.entries.map (fun e => μ e.2)).sum

@[simp] lemma total_empty (μ : ν → ℕ) : (empty : OrderedMap κ ν).total μ = 0 := rfl

lemma le_total {μ : ν → ℕ} {m : OrderedMap κ ν} {k : κ} {v : ν} (h : (k, v) ∈ m.entries) :
    μ v ≤ m.total μ :=
  List.le_sum_of_mem (List.mem_map.mpr ⟨(k, v), h, rfl⟩)

omit [LinearOrder κ] in
lemma sum_cell (μ : ν → ℕ) (k : κ) (v : Option ν) :
    ((cell k v).map (fun e => μ e.2)).sum = v.elim 0 μ := by
  cases v <;> simp [cell]

lemma alterEntries_total (μ : ν → ℕ) (k : κ) (f : Option ν → Option ν) {es : List (κ × ν)}
    (hs : es.Pairwise (fun a b => a.1 < b.1)) :
    ((alterEntries k f es).map (fun e => μ e.2)).sum +
        ((es.find? (fun e => decide (e.1 = k))).map Prod.snd).elim 0 μ =
      (es.map (fun e => μ e.2)).sum +
        (f ((es.find? (fun e => decide (e.1 = k))).map Prod.snd)).elim 0 μ := by
  induction es with
  | nil => simp [alterEntries, sum_cell]
  | cons x es ih =>
    have hx := List.pairwise_cons.mp hs
    simp only [alterEntries]
    split_ifs with h₁ h₂
    · have hf : (x :: es).find? (fun e => decide (e.1 = k)) = none := by
        rw [List.find?_eq_none]
        intro e he
        rcases List.mem_cons.mp he with rfl | he
        · simpa using h₁.ne'
        · simpa using (h₁.trans (hx.1 e he)).ne'
      rw [hf]
      simp [sum_cell, Nat.add_comm]
    · have h := ih hx.2
      rw [List.find?_cons_of_neg (by simpa using h₂.ne)]
      simp only [List.map_cons, List.sum_cons]
      omega
    · have hk : x.1 = k := le_antisymm (not_lt.mp h₁) (not_lt.mp h₂)
      rw [List.find?_cons_of_pos (by simpa using hk)]
      simp [sum_cell]
      omega

lemma alter_total (μ : ν → ℕ) (m : OrderedMap κ ν) (k : κ) (f : Option ν → Option ν) :
    (m.alter k f).total μ + (m.get? k).elim 0 μ = m.total μ + (f (m.get? k)).elim 0 μ :=
  alterEntries_total μ k f m.sorted

lemma mem_alterEntries {k k' : κ} {f : Option ν → Option ν} {es : List (κ × ν)} {v : ν}
    (hs : es.Pairwise (fun a b => a.1 < b.1)) :
    (k', v) ∈ alterEntries k f es ↔
      (k' = k ∧ f ((es.find? (fun e => decide (e.1 = k))).map Prod.snd) = some v) ∨
        (k' ≠ k ∧ (k', v) ∈ es) := by
  induction es with
  | nil => simp [alterEntries, mem_cell]
  | cons x es ih =>
    have hx := List.pairwise_cons.mp hs
    have hgt : ∀ w, x.1 ≠ k → (x.1 < k → False) → ¬ (k, w) ∈ x :: es := by
      intro w hne hnl hw
      have hk : k < x.1 := lt_of_le_of_ne (not_lt.mp hnl) hne.symm
      rcases List.mem_cons.mp hw with rfl | hw
      · exact hk.ne rfl
      · exact (hk.trans (hx.1 _ hw)).ne rfl
    simp only [alterEntries]
    split_ifs with h₁ h₂
    · have hf : (x :: es).find? (fun e => decide (e.1 = k)) = none := by
        rw [List.find?_eq_none]
        rintro ⟨a, w⟩ he heq
        obtain rfl : a = k := by simpa using heq
        exact hgt w h₁.ne' (fun h => (h.trans h₁).ne rfl) he
      rw [List.mem_append, mem_cell, hf]
      by_cases hk : k' = k
      · subst hk
        simp [hgt v h₁.ne' (fun h => (h.trans h₁).ne rfl)]
      · simp [hk]
    · rw [List.find?_cons_of_neg (by simpa using h₂.ne), List.mem_cons, ih hx.2]
      by_cases hk : k' = k
      · subst hk
        simpa using fun h : (k', v) = x => absurd (congrArg Prod.fst h) h₂.ne'
      · simp [hk]
    · have hk : x.1 = k := le_antisymm (not_lt.mp h₁) (not_lt.mp h₂)
      rw [List.find?_cons_of_pos (by simpa using hk), List.mem_append, mem_cell]
      by_cases hk' : k' = k
      · subst hk'
        simpa using fun h => absurd hk (hx.1 _ h).ne
      · have hne : (k', v) ≠ x := fun h => hk' ((congrArg Prod.fst h).trans hk)
        simp [hk', hne]

lemma mem_alter {m : OrderedMap κ ν} {k k' : κ} {f : Option ν → Option ν} {v : ν} :
    (k', v) ∈ (m.alter k f).entries ↔
      (k' = k ∧ f (m.get? k) = some v) ∨ (k' ≠ k ∧ (k', v) ∈ m.entries) :=
  mem_alterEntries m.sorted

end OrderedMap

/-- Removal by moving the last element into the hole. -/
def swapPop {α : Type*} (xs : List α) (i : ℕ) : List α :=
  match xs.getLast? with
  | none => []
  | some b => (xs.set i b).dropLast

lemma swapPop_perm {α : Type*} {xs : List α} {i : ℕ} (h : i < xs.length) :
    (swapPop xs i).Perm (xs.eraseIdx i) := by
  rcases List.eq_nil_or_concat xs with rfl | ⟨ys, b, rfl⟩
  · simp at h
  · simp only [List.concat_eq_append, List.length_append, List.length_singleton] at h
    simp only [swapPop, List.concat_eq_append, List.getLast?_append_of_ne_nil, ne_eq,
      List.cons_ne_self, not_false_eq_true, List.getLast?_singleton]
    rcases Nat.lt_succ_iff_lt_or_eq.mp h with hi | rfl
    · rw [List.set_append_left _ _ hi, List.dropLast_concat,
        List.eraseIdx_append_of_lt_length hi]
      exact (List.set_perm_cons_eraseIdx hi b).trans
        (List.perm_append_singleton b (ys.eraseIdx i)).symm
    · simp [List.eraseIdx_append_of_length_le]

lemma cons_swapPop_perm {α : Type*} {xs : List α} {i : ℕ} (h : i < xs.length) :
    (xs[i] :: swapPop xs i).Perm xs :=
  ((swapPop_perm h).cons _).trans (List.getElem_cons_eraseIdx_perm h)

end RosidlBufferBackends
