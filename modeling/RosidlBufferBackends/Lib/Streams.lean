import Mathlib.Data.List.Infix
import Mathlib.Data.Nat.Basic
import Mathlib.Logic.Function.Basic

/-! FIFO queues of work with events. An event is a point of a queue, and a wait on
it lets nothing behind it start before the point has been passed. -/

namespace RosidlBufferBackends.Streams

variable {κ ω : Type*}

structure Point (κ : Type*) where
  stream : κ
  position : ℕ
  deriving DecidableEq, Repr

inductive Op (κ ω : Type*)
  | work (w : ω)
  | wait (p : Point κ)
  deriving DecidableEq, Repr

/-- `queue` is all that has been enqueued; the first `finished` of it is done. -/
structure Gpu (κ ω : Type*) where
  queue : κ → List (Op κ ω) := fun _ => []
  finished : κ → ℕ := fun _ => 0

namespace Gpu

variable {g g' : Gpu κ ω} {k : κ} {p : Point κ} {op : Op κ ω} {i : ℕ}

def here (g : Gpu κ ω) (k : κ) : Point κ := ⟨k, (g.queue k).length⟩

def passed (g : Gpu κ ω) (p : Point κ) : Bool := decide (p.position ≤ g.finished p.stream)

structure Orderly (g : Gpu κ ω) : Prop where
  bounded : ∀ k, g.finished k ≤ (g.queue k).length
  waited : ∀ k i p, i < g.finished k → (g.queue k)[i]? = some (.wait p) → g.passed p = true

/-- What is done behind a wait is done after the point that was waited for. -/
lemma Orderly.passed_of_finished (h : Orderly g) {n : ℕ} (hw : (g.queue k)[i]? = some (.wait p))
    (hi : i ≤ n) (hn : n < g.finished k) : g.passed p = true :=
  h.waited k i p (by omega) hw

/-- The queues have only grown, and so has what is done of them. -/
structure Extends (g g' : Gpu κ ω) : Prop where
  queue : ∀ k, g.queue k <+: g'.queue k
  finished : ∀ k, g.finished k ≤ g'.finished k

lemma Extends.refl (g : Gpu κ ω) : Extends g g := ⟨fun _ => List.prefix_rfl, fun _ => le_rfl⟩

lemma Extends.trans {g₁ g₂ g₃ : Gpu κ ω} (h : Extends g₁ g₂) (h' : Extends g₂ g₃) :
    Extends g₁ g₃ :=
  ⟨fun k => (h.queue k).trans (h'.queue k), fun k => (h.finished k).trans (h'.finished k)⟩

lemma Extends.getElem (h : Extends g g') (hi : (g.queue k)[i]? = some op) :
    (g'.queue k)[i]? = some op := by
  obtain ⟨rest, hrest⟩ := h.queue k
  rw [← hrest, List.getElem?_append_left (List.getElem?_eq_some_iff.mp hi).1]
  exact hi

lemma Extends.passed (h : Extends g g') (hp : g.passed p = true) : g'.passed p = true := by
  have hle := h.finished p.stream
  simp only [Gpu.passed, decide_eq_true_eq] at hp ⊢
  omega

lemma Extends.length_le (h : Extends g g') (k : κ) :
    (g.queue k).length ≤ (g'.queue k).length :=
  (h.queue k).length_le

variable [DecidableEq κ]

def enqueue (g : Gpu κ ω) (k : κ) (op : Op κ ω) : Gpu κ ω :=
  { g with queue := Function.update g.queue k (g.queue k ++ [op]) }

def bump (g : Gpu κ ω) (k : κ) : Gpu κ ω :=
  { g with finished := Function.update g.finished k (g.finished k + 1) }

/-- The first operation of the queue that is not done yet finishes. -/
def finish (g : Gpu κ ω) (k : κ) : Option (Gpu κ ω) :=
  match (g.queue k)[g.finished k]? with
  | none => none
  | some (.work _) => some (g.bump k)
  | some (.wait p) => if g.passed p then some (g.bump k) else none

def idle (g : Gpu κ ω) (k : κ) : Bool := g.passed (g.here k)

lemma enqueue_extends (g : Gpu κ ω) (k : κ) (op : Op κ ω) : Extends g (g.enqueue k op) := by
  refine ⟨?_, fun _ => le_rfl⟩
  intro k'
  by_cases hk : k' = k
  · subst hk
    simp [enqueue]
  · simp [enqueue, Function.update_of_ne hk]

@[simp] lemma enqueue_length (g : Gpu κ ω) (k : κ) (op : Op κ ω) :
    ((g.enqueue k op).queue k).length = (g.queue k).length + 1 := by
  simp [enqueue]

/-- What is in a queue after an enqueue was there before, or is what was enqueued. -/
lemma enqueue_op {k' : κ} {op' : Op κ ω} (h : ((g.enqueue k op).queue k')[i]? = some op') :
    (g.queue k')[i]? = some op' ∨ (k' = k ∧ i = (g.queue k).length ∧ op' = op) := by
  by_cases hk : k' = k
  · subst hk
    simp only [enqueue, Function.update_self] at h
    rcases Nat.lt_or_ge i (g.queue k').length with hi | hi
    · exact .inl (by rwa [List.getElem?_append_left hi] at h)
    · rw [List.getElem?_append_right hi] at h
      obtain ⟨hz, he⟩ : i - (g.queue k').length = 0 ∧ op' = op := by
        rcases hd : i - (g.queue k').length with _ | d
        · simp [hd] at h
          exact ⟨rfl, h.symm⟩
        · simp [hd] at h
      exact .inr ⟨rfl, by omega, he⟩
  · exact .inl (by simpa [enqueue, Function.update_of_ne hk] using h)

lemma enqueue_orderly (h : Orderly g) (k : κ) (op : Op κ ω) : Orderly (g.enqueue k op) := by
  have hle := enqueue_extends g k op
  constructor
  · intro k'
    exact (h.bounded k').trans (hle.length_le k')
  · intro k' i p hi hw
    rcases enqueue_op hw with hw | ⟨rfl, rfl, _⟩
    · exact h.waited k' i p hi hw
    · have hb := h.bounded k'
      simp only [enqueue] at hi
      omega

lemma finish_cases (h : g.finish k = some g') : g' = g.bump k ∧
    ∃ op, (g.queue k)[g.finished k]? = some op ∧ ∀ p, op = .wait p → g.passed p = true := by
  unfold finish at h
  split at h
  · exact nomatch h
  · rename_i w hw
    exact ⟨(Option.some.inj h).symm, .work w, hw, nofun⟩
  · rename_i p hw
    split_ifs at h with hp
    refine ⟨(Option.some.inj h).symm, .wait p, hw, ?_⟩
    rintro q ⟨rfl⟩
    exact hp

lemma bump_extends (g : Gpu κ ω) (k : κ) : Extends g (g.bump k) := by
  refine ⟨fun _ => List.prefix_rfl, ?_⟩
  intro k'
  by_cases hk : k' = k
  · subst hk
    simp [bump]
  · simp [bump, Function.update_of_ne hk]

lemma finish_extends (h : g.finish k = some g') : Extends g g' :=
  (finish_cases h).1 ▸ bump_extends g k

lemma finish_orderly (h : Orderly g) (hf : g.finish k = some g') : Orderly g' := by
  have hext := finish_extends hf
  obtain ⟨rfl, op, hop, hpass⟩ := finish_cases hf
  obtain ⟨hlt, _⟩ := List.getElem?_eq_some_iff.mp hop
  constructor
  · intro k'
    have hb := h.bounded k'
    by_cases hk : k' = k
    · subst hk
      simpa [bump] using Nat.succ_le_of_lt hlt
    · simpa [bump, Function.update_of_ne hk] using hb
  · intro k' i p hi hw
    apply hext.passed
    by_cases hk : k' = k
    · subst hk
      simp only [bump, Function.update_self] at hi
      rcases Nat.lt_or_ge i (g.finished k') with hlt | hge
      · exact h.waited k' i p hlt hw
      · obtain rfl : i = g.finished k' := by omega
        exact hpass p (Option.some.inj (hop.symm.trans hw))
    · simp only [bump, Function.update_of_ne hk] at hi
      exact h.waited k' i p hi hw

end Gpu

end RosidlBufferBackends.Streams
