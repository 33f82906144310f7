import RosidlBufferBackends.Lib.Streams

/-! Streams whose waits are for what was enqueued before them: whatever is enqueued can be
finished. -/

namespace RosidlBufferBackends.Streams.Gpu

variable {κ ω : Type*} {g g' g'' : Gpu κ ω} {k : κ} {p : Point κ} {op : Op κ ω}
  {i n : ℕ} {rank : κ → ℕ → ℕ}

/-- `rank` is an order in which the device can finish the operations. -/
structure Ranked (g : Gpu κ ω) (rank : κ → ℕ → ℕ) (n : ℕ) : Prop where
  below : ∀ k i, i < (g.queue k).length → rank k i < n
  along : ∀ k i j, i < j → j < (g.queue k).length → rank k i < rank k j
  reached : ∀ k (i : ℕ) (p : Point κ), (g.queue k)[i]? = some (.wait p) →
    p.position ≤ (g.queue p.stream).length
  waits : ∀ k (i : ℕ) (p : Point κ), (g.queue k)[i]? = some (.wait p) →
    ∀ j < p.position, rank p.stream j < rank k i

def Acyclic (g : Gpu κ ω) : Prop := ∃ rank n, Ranked g rank n

lemma Ranked.of_queue (h : Ranked g rank n) (hq : g'.queue = g.queue) : Ranked g' rank n :=
  ⟨hq ▸ h.below, hq ▸ h.along, hq ▸ h.reached, hq ▸ h.waits⟩

lemma Acyclic.of_queue (h : Acyclic g) (hq : g'.queue = g.queue) : Acyclic g' := by
  obtain ⟨rank, n, hr⟩ := h
  exact ⟨rank, n, hr.of_queue hq⟩

variable [DecidableEq κ]

/-- The device finishes operations while nothing is enqueued. -/
inductive Finishes : Gpu κ ω → Gpu κ ω → Prop
  | refl (g : Gpu κ ω) : Finishes g g
  | tail {g g' g'' : Gpu κ ω} {k : κ} : Finishes g g' → g'.finish k = some g'' → Finishes g g''

namespace Finishes

lemma trans (h : Finishes g g') (h' : Finishes g' g'') : Finishes g g'' := by
  induction h' with
  | refl => exact h
  | tail _ hf ih => exact .tail ih hf

lemma queue (h : Finishes g g') : g'.queue = g.queue := by
  induction h with
  | refl => rfl
  | tail _ hf ih =>
    rw [(finish_cases hf).1]
    exact ih

lemma grown (h : Finishes g g') : Extends g g' := by
  induction h with
  | refl => exact .refl _
  | tail _ hf ih => exact ih.trans (finish_extends hf)

lemma orderly (ho : Orderly g) (h : Finishes g g') : Orderly g' := by
  induction h with
  | refl => exact ho
  | tail _ hf ih => exact finish_orderly ih hf

end Finishes

/-- What is enqueued comes last. -/
lemma Acyclic.enqueue (h : Acyclic g) (k : κ)
    (hop : ∀ p, op = .wait p → p.position ≤ (g.queue p.stream).length) :
    Acyclic (g.enqueue k op) := by
  obtain ⟨rank, n, hr⟩ := h
  let rank' : κ → ℕ → ℕ := fun k' i => if k' = k ∧ i = (g.queue k).length then n else rank k' i
  have hold : ∀ k' j, j < (g.queue k').length → rank' k' j = rank k' j := by
    intro k' j hj
    refine if_neg ?_
    rintro ⟨rfl, rfl⟩
    exact lt_irrefl _ hj
  have hlength : ∀ k' j, j < ((g.enqueue k op).queue k').length →
      j < (g.queue k').length ∨ (k' = k ∧ j = (g.queue k).length) := by
    intro k' j hj
    obtain hop | ⟨hk, hj, -⟩ := enqueue_op (List.getElem?_eq_getElem hj)
    · exact .inl (List.getElem?_eq_some_iff.mp hop).1
    · exact .inr ⟨hk, hk ▸ hj⟩
  have hnew : rank' k (g.queue k).length = n := if_pos ⟨rfl, rfl⟩
  have hgrown := (enqueue_extends g k op).length_le
  refine ⟨rank', n + 1, fun k' j hj => ?_, fun k' j l hjl hl => ?_, fun k' j p hw => ?_,
    fun k' j p hw l hl => ?_⟩
  · obtain hj | ⟨rfl, rfl⟩ := hlength k' j hj
    · rw [hold k' j hj]
      exact Nat.lt_succ_of_lt (hr.below k' j hj)
    · rw [hnew]
      exact n.lt_succ_self
  · obtain hl | ⟨rfl, rfl⟩ := hlength k' l hl
    · rw [hold k' l hl, hold k' j (hjl.trans hl)]
      exact hr.along k' j l hjl hl
    · rw [hnew, hold k' j hjl]
      exact hr.below k' j hjl
  · obtain hw | ⟨-, -, he⟩ := enqueue_op hw
    · exact (hr.reached k' j p hw).trans (hgrown _)
    · exact (hop p he.symm).trans (hgrown _)
  · obtain hw | ⟨rfl, rfl, he⟩ := enqueue_op hw
    · have hlt := hl.trans_le (hr.reached k' j p hw)
      rw [hold p.stream l hlt, hold k' j (List.getElem?_eq_some_iff.mp hw).1]
      exact hr.waits k' j p hw l hl
    · have hlt := hl.trans_le (hop p he.symm)
      rw [hnew, hold p.stream l hlt]
      exact hr.below _ l hlt

/-- The induction is on the rank: what is in front of an operation and what it waits for are
finished first. -/
lemma Ranked.finish_one (hr : Ranked g rank n) (ho : Orderly g) (hi : i < (g.queue k).length) :
    ∃ g', Finishes g g' ∧ i < g'.finished k := by
  induction hm : rank k i using Nat.strong_induction_on generalizing k i g with
  | _ m ih =>
    subst hm
    obtain ⟨g₁, hf₁, hfront⟩ : ∃ g₁, Finishes g g₁ ∧ i ≤ g₁.finished k := by
      cases i with
      | zero => exact ⟨g, .refl g, Nat.zero_le _⟩
      | succ i => exact ih _ (hr.along k i _ i.lt_succ_self hi) hr ho (Nat.lt_of_succ_lt hi) rfl
    have hr₁ := hr.of_queue hf₁.queue
    obtain ⟨op, hop⟩ : ∃ op, (g.queue k)[i]? = some op := ⟨_, List.getElem?_eq_getElem hi⟩
    obtain ⟨g₂, hf₂, hpassed⟩ : ∃ g₂, Finishes g₁ g₂ ∧ ∀ p, op = .wait p → g₂.passed p = true := by
      cases op with
      | work w => exact ⟨g₁, .refl g₁, by rintro p ⟨⟩⟩
      | wait p =>
        rcases Nat.eq_zero_or_pos p.position with hz | hpos
        · refine ⟨g₁, .refl g₁, ?_⟩
          rintro _ ⟨⟩
          exact decide_eq_true (hz ▸ Nat.zero_le _)
        · have hlt : p.position - 1 < p.position := Nat.sub_lt hpos Nat.one_pos
          have hreach : p.position - 1 < (g₁.queue p.stream).length := by
            rw [hf₁.queue]
            exact hlt.trans_le (hr.reached k i p hop)
          obtain ⟨g₂, hf₂, hdone⟩ := ih _ (hr.waits k i p hop _ hlt) hr₁ (hf₁.orderly ho) hreach rfl
          refine ⟨g₂, hf₂, ?_⟩
          rintro _ ⟨⟩
          exact decide_eq_true (Nat.le_of_pred_lt hdone)
    have hf := hf₁.trans hf₂
    by_cases hdone : i < g₂.finished k
    · exact ⟨g₂, hf, hdone⟩
    · have hat : g₂.finished k = i := le_antisymm (not_lt.mp hdone)
        (hfront.trans (hf₂.grown.finished k))
      have hfinish : g₂.finish k = some (g₂.bump k) := by
        have hhead : (g₂.queue k)[g₂.finished k]? = some op := by rw [hat, hf.queue, hop]
        unfold finish
        rw [hhead]
        cases op with
        | work w => rfl
        | wait p => exact if_pos (hpassed p rfl)
      refine ⟨g₂.bump k, hf.tail hfinish, ?_⟩
      simp [bump, hat]

/-- A point that has been reached by its queue is passed in the end. -/
lemma Acyclic.pass (h : Acyclic g) (ho : Orderly g) (hp : p.position ≤ (g.queue p.stream).length) :
    ∃ g', Finishes g g' ∧ g'.passed p = true := by
  obtain ⟨rank, n, hr⟩ := h
  rcases Nat.eq_zero_or_pos p.position with hz | hpos
  · exact ⟨g, .refl g, decide_eq_true (hz ▸ Nat.zero_le _)⟩
  · obtain ⟨g', hf, hdone⟩ := hr.finish_one ho ((Nat.sub_lt hpos Nat.one_pos).trans_le hp)
    exact ⟨g', hf, decide_eq_true (Nat.le_of_pred_lt hdone)⟩

lemma Acyclic.drain (h : Acyclic g) (ho : Orderly g) (k : κ) :
    ∃ g', Finishes g g' ∧ g'.idle k = true := by
  obtain ⟨g', hf, hpassed⟩ := h.pass ho (p := g.here k) le_rfl
  refine ⟨g', hf, ?_⟩
  rw [idle, here, hf.queue]
  exact hpassed

lemma Acyclic.pass_all (h : Acyclic g) (ho : Orderly g) (ps : List (Point κ))
    (hps : ∀ p ∈ ps, p.position ≤ (g.queue p.stream).length) :
    ∃ g', Finishes g g' ∧ ∀ p ∈ ps, g'.passed p = true := by
  induction ps with
  | nil => exact ⟨g, .refl g, by simp⟩
  | cons p ps ih =>
    obtain ⟨g₁, hf₁, hall⟩ := ih fun q hq => hps q (List.mem_cons_of_mem p hq)
    have hp : p.position ≤ (g₁.queue p.stream).length := by
      rw [hf₁.queue]
      exact hps p List.mem_cons_self
    obtain ⟨g₂, hf₂, hpassed⟩ := (h.of_queue hf₁.queue).pass (hf₁.orderly ho) hp
    refine ⟨g₂, hf₁.trans hf₂, fun q hq => ?_⟩
    obtain rfl | hq := List.mem_cons.mp hq
    · exact hpassed
    · exact hf₂.grown.passed (hall q hq)

end RosidlBufferBackends.Streams.Gpu
