import Mathlib.Data.List.Count

/-! Ledgers of acquired and released resources. Reading a ledger keeps the
resources held so far and fails on the release of one that is not held. -/

namespace RosidlBufferBackends

inductive Action (ρ : Type*)
  | acquire (r : ρ)
  | release (r : ρ)
  deriving DecidableEq, Repr

namespace Ledger

variable {ρ : Type*} [DecidableEq ρ]

def holds (held : List ρ) : List (Action ρ) → Option (List ρ)
  | [] => some held
  | .acquire r :: log => holds (r :: held) log
  | .release r :: log => if r ∈ held then holds (held.erase r) log else none

/-- Every resource acquired in the log is released in it exactly once, after
its acquisition. -/
def Settled (log : List (Action ρ)) : Prop := holds [] log = some []

instance (log : List (Action ρ)) : Decidable (Settled log) :=
  inferInstanceAs (Decidable (holds [] log = some []))

lemma holds_append (held : List ρ) (log log' : List (Action ρ)) :
    holds held (log ++ log') = (holds held log).bind (fun held => holds held log') := by
  induction log generalizing held with
  | nil => rfl
  | cons a log ih =>
    cases a with
    | acquire r => exact ih (r :: held)
    | release r =>
      by_cases hr : r ∈ held
      · simpa [holds, hr] using ih (held.erase r)
      · simp [holds, hr]

lemma holds_frame {held held' : List ρ} {log : List (Action ρ)} (h : holds held log = some held')
    (rest : List ρ) : holds (held ++ rest) log = some (held' ++ rest) := by
  induction log generalizing held with
  | nil => exact congrArg (fun l => some (l ++ rest)) (Option.some.inj h)
  | cons a log ih =>
    cases a with
    | acquire r => exact ih h
    | release r =>
      simp only [holds] at h ⊢
      split_ifs at h with hr
      rw [if_pos (List.mem_append_left rest hr), List.erase_append_left rest hr]
      exact ih h

lemma holds_release_all (held : List ρ) : holds held (held.map .release) = some [] := by
  induction held with
  | nil => rfl
  | cons r held ih => simpa [holds] using ih

lemma holds_acquire_all (held l : List ρ) :
    holds held (l.map .acquire) = some (l.reverse ++ held) := by
  induction l generalizing held with
  | nil => rfl
  | cons r l ih =>
    rw [List.reverse_cons, List.append_assoc]
    exact ih (r :: held)

lemma holds_release_some {held l l' : List ρ} (h : held.Perm (l ++ l')) :
    ∃ rest, holds held (l.map .release) = some rest ∧ rest.Perm l' := by
  induction l generalizing held with
  | nil => exact ⟨held, rfl, h⟩
  | cons r l ih =>
    have hmem : r ∈ held := h.mem_iff.mpr List.mem_cons_self
    have hrest : (held.erase r).Perm (l ++ l') :=
      List.cons_perm_iff_perm_erase.mp h.symm |>.2.symm
    obtain ⟨rest, hrel, hperm⟩ := ih hrest
    refine ⟨rest, ?_, hperm⟩
    rw [List.map_cons, holds, if_pos hmem]
    exact hrel

lemma count_of_holds {held held' : List ρ} {log : List (Action ρ)}
    (h : holds held log = some held') (r : ρ) :
    held.count r + log.count (.acquire r) = held'.count r + log.count (.release r) := by
  induction log generalizing held with
  | nil =>
    obtain rfl : held = held' := by simpa [holds] using h
    rfl
  | cons a log ih =>
    cases a with
    | acquire x =>
      have hc := ih h
      rw [List.count_cons] at hc
      simp only [List.count_cons, beq_iff_eq, reduceCtorEq, if_false, Action.acquire.injEq] at hc ⊢
      omega
    | release x =>
      by_cases hx : x ∈ held
      · simp only [holds, hx, if_true] at h
        have hc := ih h
        rw [List.count_erase] at hc
        simp only [List.count_cons, beq_iff_eq, reduceCtorEq, if_false,
          Action.release.injEq] at hc ⊢
        by_cases he : x = r
        · subst he
          have hp := List.count_pos_iff.mpr hx
          simp only [if_true] at hc ⊢
          omega
        · simp only [he, if_false] at hc ⊢
          omega
      · simp [holds, hx] at h

lemma Settled.count_eq {log : List (Action ρ)} (h : Settled log) (r : ρ) :
    log.count (.acquire r) = log.count (.release r) := by
  simpa using count_of_holds h r

end Ledger

end RosidlBufferBackends
