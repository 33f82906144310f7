import Mathlib.Data.List.Induction
import RosidlBufferBackends.Torch.Tensor

/-! Reading back the bytes that were written into a storage. -/

namespace RosidlBufferBackends.Torch

open RowMajor

namespace Storage

def read (data : Storage) (start count : ℕ) : List UInt8 := (data.bytes.drop start).take count

variable {data : Storage} {p q n : ℕ} {e : List UInt8}

lemma write_bytes (h : p + e.length ≤ data.bytes.length) :
    (data.write p e).bytes = data.bytes.take p ++ e ++ data.bytes.drop (p + e.length) := by
  apply List.take_of_length_le
  simp only [List.length_append, List.length_take, List.length_drop]
  omega

lemma length_write (h : p + e.length ≤ data.bytes.length) :
    (data.write p e).bytes.length = data.bytes.length := by
  rw [write_bytes h]
  simp only [List.length_append, List.length_take, List.length_drop]
  omega

lemma getElem?_write (h : p + e.length ≤ data.bytes.length) (k : ℕ) :
    (data.write p e).bytes[k]? =
      if p ≤ k ∧ k < p + e.length then e[k - p]? else data.bytes[k]? := by
  have hp : (data.bytes.take p).length = p := by
    rw [List.length_take]
    omega
  rw [write_bytes h, List.append_assoc]
  rcases Nat.lt_or_ge k p with hk | hk
  · rw [List.getElem?_append_left (by omega), if_neg (by omega), List.getElem?_take, if_pos hk]
  · rw [List.getElem?_append_right (by omega), hp]
    rcases Nat.lt_or_ge k (p + e.length) with hlt | hle
    · rw [List.getElem?_append_left (by omega), if_pos ⟨hk, hlt⟩]
    · rw [List.getElem?_append_right (by omega), if_neg (by omega), List.getElem?_drop]
      congr 1
      omega

lemma getElem?_read (k : ℕ) :
    (data.read p n)[k]? = if k < n then data.bytes[p + k]? else none := by
  rw [read, List.getElem?_take, List.getElem?_drop]

lemma read_write_self (h : p + e.length ≤ data.bytes.length) :
    (data.write p e).read p e.length = e := by
  apply List.ext_getElem?
  intro k
  rw [getElem?_read]
  split_ifs with hk
  · rw [getElem?_write h, if_pos (by omega), Nat.add_sub_cancel_left]
  · exact (List.getElem?_eq_none (by omega)).symm

lemma read_write_of_disjoint (h : p + e.length ≤ data.bytes.length)
    (hd : q + n ≤ p ∨ p + e.length ≤ q) : (data.write p e).read q n = data.read q n := by
  apply List.ext_getElem?
  intro k
  rw [getElem?_read, getElem?_read]
  split_ifs with hk
  · rw [getElem?_write h, if_neg (by omega)]
  · rfl

/-- Writes at different multiples of the item size leave each other's bytes alone. -/
lemma read_foldl_write {ι : Type} (data : Storage) (n : ℕ) (l : List ι) (place : ι → ℕ)
    (item : ι → List UInt8)
    (hlen : ∀ i ∈ l, (item i).length = n)
    (hin : ∀ i ∈ l, n * place i + n ≤ data.bytes.length)
    (hinj : ∀ i ∈ l, ∀ j ∈ l, place i = place j → i = j) :
    (l.foldl (fun data i => data.write (n * place i) (item i)) data).bytes.length =
        data.bytes.length ∧
      ∀ i ∈ l, (l.foldl (fun data i => data.write (n * place i) (item i)) data).read
        (n * place i) n = item i := by
  induction l using List.reverseRecOn with
  | nil => exact ⟨rfl, nofun⟩
  | append_singleton l a ih =>
    have hmem : ∀ i ∈ l, i ∈ l ++ [a] := fun i hi => List.mem_append_left _ hi
    have ha : a ∈ l ++ [a] := by simp
    obtain ⟨hlength, hread⟩ := ih (fun i hi => hlen i (hmem i hi)) (fun i hi => hin i (hmem i hi))
      (fun i hi j hj => hinj i (hmem i hi) j (hmem j hj))
    rw [List.foldl_append, List.foldl_cons, List.foldl_nil]
    have hfits : n * place a + (item a).length ≤
        (l.foldl (fun data i => data.write (n * place i) (item i)) data).bytes.length := by
      rw [hlength, hlen a ha]
      exact hin a ha
    refine ⟨(length_write hfits).trans hlength, ?_⟩
    intro i hi
    by_cases he : place i = place a
    · obtain rfl := hinj i hi a ha he
      have hself := read_write_self hfits
      rwa [hlen i ha] at hself
    · have hil : i ∈ l := by
        rcases List.mem_append.mp hi with hi | hi
        · exact hi
        · exact absurd (congrArg place (List.mem_singleton.mp hi)) he
      rw [read_write_of_disjoint hfits, hread i hil]
      rw [hlen a ha]
      rcases Nat.lt_or_gt_of_ne he with hlt | hlt
      · exact .inl (by nlinarith [Nat.mul_le_mul_left n (Nat.succ_le_of_lt hlt)])
      · exact .inr (by nlinarith [Nat.mul_le_mul_left n (Nat.succ_le_of_lt hlt)])

lemma foldl_write_backend {ι : Type} (l : List ι) (place : ι → ℕ) (item : ι → List UInt8) :
    (l.foldl (fun data i => data.write (place i) (item i)) data).backend = data.backend := by
  induction l generalizing data with
  | nil => rfl
  | cons a l ih => exact ih

lemma take_drop_flatten {l : List (List UInt8)} {r : List UInt8} {k : ℕ}
    (h : ∀ x ∈ l, x.length = n) (hk : l[k]? = some e) :
    ((l.flatten ++ r).drop (n * k)).take n = e := by
  induction l generalizing k with
  | nil => exact nomatch hk
  | cons x l ih =>
    have hx := h x List.mem_cons_self
    cases k with
    | zero =>
      obtain rfl : x = e := Option.some.inj hk
      rw [List.flatten_cons, List.append_assoc, Nat.mul_zero, List.drop_zero, List.take_left' hx]
    | succ k =>
      rw [List.flatten_cons, List.append_assoc, Nat.mul_succ, Nat.add_comm, ← hx,
        List.drop_length_add_append, hx]
      exact ih (fun y hy => h y (List.mem_cons_of_mem _ hy)) hk

end Storage

end RosidlBufferBackends.Torch
