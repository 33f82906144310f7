import Mathlib.Data.List.Induction

/-! Finite runs of a deterministic machine whose events carry every choice of
the environment. A trace pairs each event with the output of its step. -/

namespace RosidlBufferBackends.Runs

variable {σ ε ω : Type*} (step : σ → ε → Option (ω × σ))

inductive Run (s : σ) : List (ε × ω) → σ → Prop
  | nil : Run s [] s
  | snoc {t u : σ} {tr : List (ε × ω)} {e : ε} {o : ω} :
      Run s tr t → step t e = some (o, u) → Run s (tr ++ [(e, o)]) u

def exec (s : σ) : List ε → Option (List (ε × ω) × σ)
  | [] => some ([], s)
  | e :: es =>
      match step s e with
      | none => none
      | some (o, t) =>
          match exec t es with
          | none => none
          | some (tr, u) => some ((e, o) :: tr, u)

/-- Every step of the trace, taken in the state it is taken in, meets `good`. -/
def Every (good : σ → ε → ω → Prop) (s : σ) (tr : List (ε × ω)) : Prop :=
  ∀ pre e o post t, tr = pre ++ (e, o) :: post → Run step s pre t → good t e o

/-- `Every`, along the execution of a list of events. -/
def EveryExec (good : σ → ε → ω → Prop) (s : σ) : List ε → Prop
  | [] => True
  | e :: es =>
      match step s e with
      | none => True
      | some (o, t) => good s e o ∧ EveryExec good t es

instance EveryExec.decidable (good : σ → ε → ω → Prop) [∀ s e o, Decidable (good s e o)] :
    (s : σ) → (es : List ε) → Decidable (EveryExec step good s es)
  | _, [] => .isTrue trivial
  | s, e :: es =>
      match h : step s e with
      | none => .isTrue (by simp [EveryExec, h])
      | some (o, t) =>
          have := EveryExec.decidable good t es
          decidable_of_iff (good s e o ∧ EveryExec step good t es) (by simp [EveryExec, h])

variable {step} {s t u : σ} {tr tr' : List (ε × ω)} {e : ε} {o : ω}

lemma run_nil_iff : Run step s [] t ↔ s = t := by
  constructor
  · intro h
    generalize htr : ([] : List (ε × ω)) = tr at h
    cases h with
    | nil => rfl
    | snoc _ _ => simp at htr
  · rintro rfl
    exact .nil

lemma run_snoc_iff :
    Run step s (tr ++ [(e, o)]) u ↔ ∃ t, Run step s tr t ∧ step t e = some (o, u) := by
  constructor
  · intro h
    generalize htr : tr ++ [(e, o)] = tr' at h
    cases h with
    | nil => simp at htr
    | @snoc t _ tr₀ e₀ o₀ hr hs =>
      obtain ⟨rfl, he⟩ := List.append_inj' htr rfl
      obtain ⟨rfl, rfl⟩ : e = e₀ ∧ o = o₀ := by simpa using he
      exact ⟨t, hr, hs⟩
  · rintro ⟨t, hr, hs⟩
    exact .snoc hr hs

lemma Run.single (h : step s e = some (o, t)) : Run step s [(e, o)] t :=
  Run.snoc (.nil : Run step s [] s) h

lemma Run.append (h : Run step s tr t) (h' : Run step t tr' u) : Run step s (tr ++ tr') u := by
  induction h' with
  | nil => simpa using h
  | snoc _ hs ih =>
    rw [← List.append_assoc]
    exact .snoc ih hs

lemma run_append_iff : Run step s (tr ++ tr') u ↔ ∃ t, Run step s tr t ∧ Run step t tr' u := by
  refine ⟨?_, fun ⟨t, h, h'⟩ => h.append h'⟩
  induction tr' using List.reverseRecOn generalizing u with
  | nil =>
    intro h
    exact ⟨u, by simpa using h, .nil⟩
  | append_singleton tr' x ih =>
    intro h
    rw [← List.append_assoc] at h
    obtain ⟨v, hr, hs⟩ := run_snoc_iff.mp h
    obtain ⟨t, ht, ht'⟩ := ih hr
    exact ⟨t, ht, .snoc ht' hs⟩

lemma run_cons_iff :
    Run step s ((e, o) :: tr) u ↔ ∃ t, step s e = some (o, t) ∧ Run step t tr u := by
  rw [show (e, o) :: tr = [(e, o)] ++ tr from rfl, run_append_iff]
  constructor
  · rintro ⟨t, h, h'⟩
    obtain ⟨v, hv, hs⟩ := run_snoc_iff.mp (show Run step s ([] ++ [(e, o)]) t from h)
    obtain rfl := run_nil_iff.mp hv
    exact ⟨t, hs, h'⟩
  · rintro ⟨t, hs, h'⟩
    exact ⟨t, .single hs, h'⟩

lemma Run.unique (h : Run step s tr t) (h' : Run step s tr u) : t = u := by
  induction h generalizing u with
  | nil => exact run_nil_iff.mp h'
  | snoc _ hs ih =>
    obtain ⟨v, hv, hs'⟩ := run_snoc_iff.mp h'
    obtain rfl := ih hv
    have he := hs.symm.trans hs'
    exact (Prod.mk.inj (Option.some.inj he)).2

lemma exec_run {es : List ε} (h : exec step s es = some (tr, t)) : Run step s tr t := by
  induction es generalizing s tr with
  | nil =>
    obtain ⟨rfl, rfl⟩ : [] = tr ∧ s = t := by simpa [exec] using h
    exact .nil
  | cons e es ih =>
    cases hs : step s e with
    | none => simp [exec, hs] at h
    | some ov =>
      obtain ⟨o, v⟩ := ov
      cases hr : exec step v es with
      | none => simp [exec, hs, hr] at h
      | some tw =>
        obtain ⟨tr', w⟩ := tw
        obtain ⟨rfl, rfl⟩ : (e, o) :: tr' = tr ∧ w = t := by simpa [exec, hs, hr] using h
        exact run_cons_iff.mpr ⟨v, hs, ih hr⟩

lemma exec_cons {es : List ε} (h : exec step s (e :: es) = some (tr, u)) :
    ∃ o t tr', tr = (e, o) :: tr' ∧ step s e = some (o, t) ∧ exec step t es = some (tr', u) := by
  cases hs : step s e with
  | none => simp [exec, hs] at h
  | some ov =>
    obtain ⟨o, v⟩ := ov
    cases hr : exec step v es with
    | none => simp [exec, hs, hr] at h
    | some tw =>
      obtain ⟨tr', w⟩ := tw
      obtain ⟨rfl, rfl⟩ : (e, o) :: tr' = tr ∧ w = u := by simpa [exec, hs, hr] using h
      exact ⟨o, v, tr', rfl, rfl, hr⟩

/-- The output of an event in the middle of an execution, and what is executed after it. -/
lemma exec_at {es es' : List ε} {ok : ω → Bool} (h : exec step s (es ++ e :: es') = some (tr, u))
    (hok : (tr[es.length]?).any (fun x => ok x.2) = true) :
    ∃ tr₁ o t tr₂, tr = tr₁ ++ (e, o) :: tr₂ ∧ ok o = true ∧ exec step t es' = some (tr₂, u) ∧
      ∀ i, tr[es.length + 1 + i]? = tr₂[i]? := by
  induction es generalizing s tr with
  | nil =>
    obtain ⟨o, t, tr₂, rfl, -, hx⟩ := exec_cons h
    exact ⟨[], o, t, tr₂, rfl, by simpa using hok, hx, fun i => by simp [Nat.add_comm]⟩
  | cons e' es ih =>
    obtain ⟨o', v, tr', rfl, -, hx⟩ := exec_cons h
    obtain ⟨tr₁, o, t, tr₂, rfl, ho, hx', hi⟩ := ih hx (by simpa using hok)
    refine ⟨(e', o') :: tr₁, o, t, tr₂, rfl, ho, hx', fun i => ?_⟩
    rw [← hi i, List.length_cons, Nat.add_right_comm _ 1 1, Nat.add_right_comm _ 1 i]
    exact List.getElem?_cons_succ

lemma run_exec {es : List ε} (h : (exec step s es).isSome) :
    Run step s ((exec step s es).get h).1 ((exec step s es).get h).2 :=
  exec_run (Option.some_get h).symm

lemma Run.invariant {P : σ → Prop} (h : Run step s tr t) (hi : P s)
    (hp : ∀ t e o u, P t → step t e = some (o, u) → P u) : P t := by
  induction h with
  | nil => exact hi
  | snoc _ hs ih => exact hp _ _ _ _ ih hs

lemma Every.init {good : σ → ε → ω → Prop} {tr' : List (ε × ω)}
    (h : Every step good s (tr ++ tr')) : Every step good s tr := by
  rintro pre e o post t rfl hr
  exact h pre e o (post ++ tr') t (by simp) hr

lemma Every.last {good : σ → ε → ω → Prop} (h : Every step good s (tr ++ [(e, o)]))
    (hr : Run step s tr t) : good t e o :=
  h tr e o [] t rfl hr

lemma Run.every_snoc {good : σ → ε → ω → Prop} (hr : Run step s tr t) :
    Every step good s (tr ++ [(e, o)]) ↔ Every step good s tr ∧ good t e o := by
  refine ⟨fun h => ⟨h.init, h.last hr⟩, ?_⟩
  rintro ⟨h, hg⟩ pre e' o' post t' heq hr'
  rcases List.eq_nil_or_concat post with rfl | ⟨post, x, rfl⟩
  · obtain ⟨rfl, he⟩ := List.append_inj' heq rfl
    obtain ⟨rfl, rfl⟩ : e = e' ∧ o = o' := by simpa using he
    exact hr.unique hr' ▸ hg
  · rw [List.concat_eq_append, ← List.cons_append, ← List.append_assoc] at heq
    exact h pre e' o' post t' (List.append_inj' heq rfl).1 hr'

lemma Run.every_append {good : σ → ε → ω → Prop} (hr : Run step s tr t)
    (hr' : Run step t tr' u) (h : Every step good s tr) (h' : Every step good t tr') :
    Every step good s (tr ++ tr') := by
  induction hr' with
  | nil => simpa using h
  | snoc hv _ ih =>
    rw [← List.append_assoc]
    exact (hr.append hv).every_snoc.mpr ⟨ih h'.init, h'.last hv⟩

lemma Every.suffix {good : σ → ε → ω → Prop} (h : Every step good s (tr ++ tr'))
    (hr : Run step s tr t) : Every step good t tr' := by
  rintro pre e o post u rfl hr'
  exact h (tr ++ pre) e o post u (by simp) (hr.append hr')

lemma Every.cons {good : σ → ε → ω → Prop} (h : Every step good s ((e, o) :: tr))
    (hs : step s e = some (o, t)) : good s e o ∧ Every step good t tr := by
  refine ⟨h [] e o tr s rfl .nil, ?_⟩
  rw [← List.singleton_append] at h
  exact h.suffix (.single hs)

lemma Every.with_mem {good : σ → ε → ω → Prop} {ok : ε × ω → Prop} (h : Every step good s tr)
    (hm : ∀ x ∈ tr, ok x) : Every step (fun s e o => good s e o ∧ ok (e, o)) s tr := by
  rintro pre e o post t rfl hr
  exact ⟨h pre e o post t rfl hr, hm (e, o) (by simp)⟩

lemma Every.mono {good good' : σ → ε → ω → Prop} (h : Every step good s tr)
    (hg : ∀ t e o, good t e o → good' t e o) : Every step good' s tr :=
  fun pre e o post t heq hr => hg _ _ _ (h pre e o post t heq hr)

lemma every_nil {good : σ → ε → ω → Prop} : Every step good s [] := by
  intro pre e o post t heq
  simp at heq

lemma every_cons {good : σ → ε → ω → Prop} (hs : step s e = some (o, t)) (hg : good s e o)
    (h : Every step good t tr) : Every step good s ((e, o) :: tr) := by
  intro pre e' o' post v heq hrun
  cases pre with
  | nil =>
    obtain ⟨⟨rfl, rfl⟩, -⟩ : (e = e' ∧ o = o') ∧ tr = post := by simpa using heq
    exact run_nil_iff.mp hrun ▸ hg
  | cons x pre =>
    obtain ⟨rfl, rfl⟩ : (e, o) = x ∧ tr = pre ++ (e', o') :: post := by simpa using heq
    obtain ⟨t', ht', hrun'⟩ := run_cons_iff.mp hrun
    obtain ⟨-, rfl⟩ := Prod.mk.inj (Option.some.inj (hs.symm.trans ht'))
    exact h pre e' o' post v rfl hrun'

lemma every_of_exec {good : σ → ε → ω → Prop} {es : List ε} (h : exec step s es = some (tr, t))
    (hg : EveryExec step good s es) : Every step good s tr := by
  induction es generalizing s tr with
  | nil =>
    obtain ⟨rfl, -⟩ : [] = tr ∧ s = t := by simpa [exec] using h
    exact every_nil
  | cons e es ih =>
    obtain ⟨o, v, tr', rfl, hs, hr⟩ := exec_cons h
    obtain ⟨hgood, hrest⟩ : good s e o ∧ EveryExec step good v es := by
      simpa [EveryExec, hs] using hg
    exact every_cons hs hgood (ih hr hrest)

lemma exists_run {good : σ → ε → ω → Prop} {es : List ε} (h : (exec step s es).isSome)
    (hg : EveryExec step good s es) :
    ∃ tr, Run step s tr ((exec step s es).get h).2 ∧ Every step good s tr :=
  ⟨_, run_exec h, every_of_exec (Option.some_get h).symm hg⟩

/-- The induction rule for a history-dependent invariant of the runs whose
steps all meet `good`. -/
lemma Run.induction_every {good : σ → ε → ω → Prop} {P : List (ε × ω) → σ → Prop}
    (h : Run step s tr t) (hg : Every step good s tr) (hi : P [] s)
    (hp : ∀ tr t e o u, Run step s tr t → P tr t → good t e o → step t e = some (o, u) →
      P (tr ++ [(e, o)]) u) : P tr t := by
  induction h with
  | nil => exact hi
  | snoc hr hs ih => exact hp _ _ _ _ _ hr (ih hg.init) (hg.last hr) hs

end RosidlBufferBackends.Runs
