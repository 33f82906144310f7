import Mathlib.Data.List.Induction
import Mathlib.Data.List.Nodup
import Mathlib.Logic.Function.Basic

/-! Slots that an owner recycles and publishes under a fresh tag, with readers
that compare the shared tag with the one they were given. A history is a list of
the owner's acts. -/

namespace RosidlBufferBackends.Generations

variable {ι τ : Type*}

inductive Act (ι τ : Type*)
  | recycle (i : ι)
  | publish (i : ι) (t : τ)
  deriving DecidableEq, Repr

/-- `current` is the owner's tag for the present use, `shared` what readers see. -/
structure Slot (τ : Type*) where
  current : Option τ := none
  shared : Option τ := none
  deriving DecidableEq, Repr

def Act.tag : Act ι τ → Option τ
  | .recycle _ => none
  | .publish _ t => some t

def tags (h : List (Act ι τ)) : List τ := h.filterMap Act.tag

/-- The slot was recycled after the tag was published for it. -/
def Outlived (h : List (Act ι τ)) (i : ι) (t : τ) : Prop :=
  ∃ pre post, h = pre ++ .publish i t :: post ∧ .recycle i ∈ post

section Slots

variable [DecidableEq ι]

def act (s : ι → Slot τ) : Act ι τ → ι → Slot τ
  | .recycle i => Function.update s i { s i with current := none }
  | .publish i t => Function.update s i { current := some t, shared := some t }

def slots (h : List (Act ι τ)) : ι → Slot τ := h.foldl act (fun _ => {})

variable {h h' : List (Act ι τ)} {a : Act ι τ} {i j : ι} {t t' : τ}

@[simp] lemma slots_nil (i : ι) : slots ([] : List (Act ι τ)) i = {} := rfl

@[simp] lemma slots_snoc (h : List (Act ι τ)) (a : Act ι τ) :
    slots (h ++ [a]) = act (slots h) a := by
  simp [slots]

lemma slots_recycle (h : List (Act ι τ)) (i j : ι) :
    slots (h ++ [.recycle i]) j =
      if j = i then { slots h i with current := none } else slots h j := by
  rw [slots_snoc, act, Function.update_apply]

lemma slots_publish (h : List (Act ι τ)) (i j : ι) (t : τ) :
    slots (h ++ [.publish i t]) j =
      if j = i then { current := some t, shared := some t } else slots h j := by
  rw [slots_snoc, act, Function.update_apply]

lemma shared_mem (hs : (slots h i).shared = some t) : .publish i t ∈ h := by
  induction h using List.reverseRecOn with
  | nil => simp at hs
  | append_singleton h a ih =>
    rw [slots_snoc] at hs
    apply List.mem_append.mpr
    cases a with
    | recycle j =>
      by_cases hj : i = j
      · subst hj
        exact .inl (ih (by simpa [act] using hs))
      · exact .inl (ih (by simpa [act, hj] using hs))
    | publish j t' =>
      by_cases hj : i = j
      · subst hj
        obtain rfl : t' = t := by simpa [act] using hs
        exact .inr (by simp)
      · exact .inl (ih (by simpa [act, hj] using hs))

lemma shared_of_current (hc : (slots h i).current = some t) : (slots h i).shared = some t := by
  induction h using List.reverseRecOn with
  | nil => simp at hc
  | append_singleton h a ih =>
    rw [slots_snoc] at hc ⊢
    cases a with
    | recycle j => by_cases hj : i = j <;> simp_all [act]
    | publish j t' => by_cases hj : i = j <;> simp_all [act]

omit [DecidableEq ι] in
lemma outlived_snoc : Outlived (h ++ [a]) i t ↔
    Outlived h i t ∨ (a = .recycle i ∧ .publish i t ∈ h) := by
  constructor
  · rintro ⟨pre, post, heq, hr⟩
    rcases List.eq_nil_or_concat post with rfl | ⟨post, b, rfl⟩
    · simp at hr
    · rw [List.concat_eq_append] at heq hr
      rw [← List.cons_append, ← List.append_assoc] at heq
      obtain ⟨rfl, hb⟩ := List.append_inj' heq rfl
      obtain rfl : a = b := by simpa using hb
      rcases List.mem_append.mp hr with hr | hr
      · exact .inl ⟨pre, post, rfl, hr⟩
      · exact .inr ⟨(List.mem_singleton.mp hr).symm, by simp⟩
  · rintro (⟨pre, post, rfl, hr⟩ | ⟨rfl, hp⟩)
    · exact ⟨pre, post ++ [a], by simp, List.mem_append_left _ hr⟩
    · obtain ⟨pre, post, rfl⟩ := List.append_of_mem hp
      exact ⟨pre, post ++ [.recycle i], by simp, by simp⟩

omit [DecidableEq ι] in
lemma Outlived.mem (ho : Outlived h i t) : .publish i t ∈ h := by
  obtain ⟨pre, post, rfl, _⟩ := ho
  simp

/-- A slot without a current tag has been recycled since every publication. -/
lemma outlived_of_idle (hc : (slots h i).current = none) (hp : .publish i t ∈ h) :
    Outlived h i t := by
  induction h using List.reverseRecOn with
  | nil => simp at hp
  | append_singleton h a ih =>
    rw [slots_snoc] at hc
    rw [outlived_snoc]
    rw [List.mem_append, List.mem_singleton] at hp
    cases a with
    | recycle j =>
      by_cases hj : i = j
      · subst hj
        exact .inr ⟨rfl, by simpa using hp⟩
      · exact .inl (ih (by simpa [act, hj] using hc) (by simpa using hp))
    | publish j t' =>
      by_cases hj : i = j
      · simp [act, hj] at hc
      · refine .inl (ih (by simpa [act, hj] using hc) (hp.resolve_right ?_))
        rintro ⟨⟩
        exact hj rfl

omit [DecidableEq ι] in
lemma tags_snoc_nodup (hn : (tags (h ++ [a])).Nodup) : (tags h).Nodup := by
  rw [tags, List.filterMap_append] at hn
  exact (List.nodup_append.mp hn).1

lemma current_not_outlived (hn : (tags h).Nodup) (hc : (slots h i).current = some t) :
    ¬ Outlived h i t := by
  induction h using List.reverseRecOn with
  | nil => simp at hc
  | append_singleton h a ih =>
    have hih := ih (tags_snoc_nodup hn)
    rw [slots_snoc] at hc
    rw [outlived_snoc]
    rintro (ho | ⟨rfl, _⟩)
    · cases a with
      | recycle j =>
        by_cases hj : i = j
        · simp [act, hj] at hc
        · exact hih (by simpa [act, hj] using hc) ho
      | publish j t' =>
        by_cases hj : i = j
        · -- the tag would have been published before
          obtain rfl : t' = t := by simpa [act, hj] using hc
          rw [tags, List.filterMap_append, List.nodup_append] at hn
          exact hn.2.2 t' (List.mem_filterMap.mpr ⟨_, ho.mem, rfl⟩) t' (by simp [Act.tag]) rfl
        · exact hih (by simpa [act, hj] using hc) ho
    · simp [act] at hc

omit [DecidableEq ι] in
lemma publish_inj (hn : (tags h).Nodup) (hi : .publish i t ∈ h) (hj : .publish j t ∈ h) :
    i = j := by
  induction h with
  | nil => simp at hi
  | cons a h ih =>
    have hmem : ∀ {k}, .publish k t ∈ h → t ∈ tags h :=
      fun hk => List.mem_filterMap.mpr ⟨_, hk, rfl⟩
    cases a with
    | recycle k => exact ih hn (by simpa using hi) (by simpa using hj)
    | publish k t' =>
      have hn' : t' ∉ tags h ∧ (tags h).Nodup := List.nodup_cons.mp hn
      rcases List.mem_cons.mp hi with he | hi'
      · obtain ⟨rfl, rfl⟩ := Act.publish.inj he
        rcases List.mem_cons.mp hj with he | hj'
        · exact (Act.publish.inj he).1.symm
        · exact absurd (hmem hj') hn'.1
      · rcases List.mem_cons.mp hj with he | hj'
        · obtain ⟨rfl, rfl⟩ := Act.publish.inj he
          exact absurd (hmem hi') hn'.1
        · exact ih hn'.2 hi' hj'

/-- With tags that are never drawn twice, the comparison with the shared tag
tells the recycled slots apart exactly while the slot is published. -/
lemma shared_fresh_iff (hn : (tags h).Nodup) (hs : (slots h i).shared = some t) :
    (∀ j, ¬ Outlived h j t) ↔ (slots h i).current ≠ none := by
  constructor
  · intro hf hc
    exact hf i (outlived_of_idle hc (shared_mem hs))
  · intro hc j ho
    obtain ⟨t', ht⟩ := Option.ne_none_iff_exists'.mp hc
    obtain rfl : t' = t := Option.some.inj ((shared_of_current ht).symm.trans hs)
    obtain rfl := publish_inj hn ho.mem (shared_mem hs)
    exact current_not_outlived hn ht ho

end Slots

end RosidlBufferBackends.Generations
