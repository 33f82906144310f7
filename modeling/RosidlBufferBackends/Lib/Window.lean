import Mathlib.Data.List.Nodup

/-! A window of the last items of a queue: a push drops the oldest ones that are
too many. -/

namespace RosidlBufferBackends.Window

variable {α : Type*} {cap : ℕ} {l l' : List α} {x : α}

def excess (cap : ℕ) (l : List α) : List α := l.take (l.length - cap)

def recent (cap : ℕ) (l : List α) : List α := l.drop (l.length - cap)

lemma excess_append_recent (cap : ℕ) (l : List α) : excess cap l ++ recent cap l = l :=
  List.take_append_drop _ _

lemma recent_length_le (cap : ℕ) (l : List α) : (recent cap l).length ≤ cap := by
  simp only [recent, List.length_drop]
  omega

lemma recent_of_le (h : l.length ≤ cap) : recent cap l = l := by
  simp [recent, Nat.sub_eq_zero_of_le h]

lemma excess_of_le (h : l.length ≤ cap) : excess cap l = [] := by
  simp [excess, Nat.sub_eq_zero_of_le h]

lemma recent_cons (h : cap ≤ l.length) : recent cap (x :: l) = recent cap l := by
  simp [recent, Nat.succ_sub h]

lemma excess_cons (h : cap ≤ l.length) : excess cap (x :: l) = x :: excess cap l := by
  simp [excess, Nat.succ_sub h]

lemma nodup_recent (h : l.Nodup) : (recent cap l).Nodup := h.sublist (List.drop_sublist _ _)

lemma mem_recent (h : l.Nodup) : x ∈ recent cap l ↔ x ∈ l ∧ x ∉ excess cap l := by
  have hl := excess_append_recent cap l
  rw [← hl] at h
  have hdisjoint := List.disjoint_of_nodup_append h
  constructor
  · intro hx
    exact ⟨hl ▸ List.mem_append_right _ hx, fun he => hdisjoint he hx⟩
  · rintro ⟨hx, he⟩
    rw [← hl] at hx
    exact (List.mem_append.mp hx).resolve_left he

lemma recent_map {β : Type*} (f : α → β) : recent cap (l.map f) = (recent cap l).map f := by
  rw [recent, recent, List.length_map, List.map_drop]

lemma excess_map {β : Type*} (f : α → β) : excess cap (l.map f) = (excess cap l).map f := by
  rw [excess, excess, List.length_map, List.map_take]

lemma recent_append (h : cap ≤ l.length) : recent cap (l' ++ l) = recent cap l := by
  induction l' with
  | nil => rfl
  | cons a l' ih =>
    rw [List.cons_append, recent_cons, ih]
    rw [List.length_append]
    omega

/-- A push on the window is a push on the whole queue. -/
lemma recent_push : recent cap (recent cap l ++ [x]) = recent cap (l ++ [x]) := by
  rcases Nat.le_total l.length cap with h | h
  · rw [recent_of_le h]
  · have hlong : cap ≤ (recent cap l ++ [x]).length := by
      rw [List.length_append, recent, List.length_drop]
      omega
    conv_rhs => rw [← excess_append_recent cap l, List.append_assoc]
    exact (recent_append hlong).symm

lemma excess_push : excess cap l ++ excess cap (recent cap l ++ [x]) = excess cap (l ++ [x]) := by
  have happend : excess cap l ++ excess cap (recent cap l ++ [x]) ++ recent cap (l ++ [x]) =
      excess cap (l ++ [x]) ++ recent cap (l ++ [x]) := by
    rw [excess_append_recent, List.append_assoc, ← recent_push, excess_append_recent,
      ← List.append_assoc, excess_append_recent]
  exact List.append_cancel_right happend

/-- What is within the capacity at the end of the queue stays. -/
lemma suffix_recent (h : l' <:+ l) (hc : l'.length ≤ cap) : l' <:+ recent cap l := by
  apply List.suffix_of_suffix_length_le h (List.drop_suffix _ _)
  have hle := h.length_le
  rw [List.length_drop]
  omega

lemma suffix_append (h : l' <:+ l) : l' ++ [x] <:+ l ++ [x] := by
  obtain ⟨k, rfl⟩ := h
  exact ⟨k, by simp⟩

end RosidlBufferBackends.Window
