import Mathlib.Data.List.Nodup
import Mathlib.Logic.Function.Basic
import Mathlib.Tactic.SplitIfs

/-! Tables of resources that are acquired and released, and their owners. -/

namespace RosidlBufferBackends.Holdings

variable {ι ρ α : Type*}

/-- Every acquisition has a number of its own; `faults` counts the releases of resources
that are not there. -/
structure Table (ρ α : Type*) where
  entries : ρ → Option (α × ℕ) := fun _ => none
  next : ℕ := 0
  released : ℕ → ℕ := fun _ => 0
  faults : ℕ := 0

namespace Table

def get (t : Table ρ α) (r : ρ) : Option α := (t.entries r).map Prod.fst

/-- Nothing has been released that was not there, and every acquisition is there still or
has been released once. -/
structure Once (t : Table ρ α) : Prop where
  faultless : t.faults = 0
  held : ∀ r e, t.entries r = some e → e.2 < t.next ∧ t.released e.2 = 0
  distinct : ∀ r r' e e', t.entries r = some e → t.entries r' = some e' → e.2 = e'.2 → r = r'
  settled : ∀ n, n < t.next → (∃ r x, t.entries r = some (x, n)) ∨ t.released n = 1
  fresh : ∀ n, t.next ≤ n → t.released n = 0

variable {t : Table ρ α} {x : α} {r : ρ} {e : α × ℕ} {l : List ρ}

lemma once_empty : ({} : Table ρ α).Once where
  faultless := rfl
  held _ _ h := nomatch h
  distinct _ _ _ _ h := nomatch h
  settled _ h := absurd h (Nat.not_lt_zero _)
  fresh _ _ := rfl

lemma get_eq_none : t.get r = none ↔ t.entries r = none := Option.map_eq_none_iff

section Changes

variable [DecidableEq ρ]

def acquire (t : Table ρ α) (x : α) (r : ρ) : Table ρ α :=
  { t with
    entries := Function.update t.entries r (some (x, t.next))
    next := t.next + 1 }

def release (t : Table ρ α) (r : ρ) : Table ρ α :=
  match t.entries r with
  | none => { t with faults := t.faults + 1 }
  | some e => { t with
      entries := Function.update t.entries r none
      released := Function.update t.released e.2 (t.released e.2 + 1) }

def acquireAll (t : Table ρ α) (x : α) (l : List ρ) : Table ρ α :=
  l.foldl (fun t r => t.acquire x r) t

def releaseAll (t : Table ρ α) (l : List ρ) : Table ρ α := l.foldl release t

lemma get_acquire (r' : ρ) : (t.acquire x r).get r' = if r' = r then some x else t.get r' := by
  rw [get, acquire]
  dsimp only
  rw [Function.update_apply]
  split_ifs <;> rfl

lemma get_release (r' : ρ) : (t.release r).get r' = if r' = r then none else t.get r' := by
  rw [release]
  split
  · rename_i hr
    split_ifs with he
    · rw [he]
      exact get_eq_none.mpr hr
    · rfl
  · rw [get]
    dsimp only
    rw [Function.update_apply]
    split_ifs <;> rfl

lemma get_acquireAll (r' : ρ) :
    (t.acquireAll x l).get r' = if r' ∈ l then some x else t.get r' := by
  induction l generalizing t with
  | nil => exact (if_neg List.not_mem_nil).symm
  | cons r l ih =>
    rw [acquireAll, List.foldl_cons]
    refine ih.trans ?_
    rw [get_acquire]
    by_cases hl : r' ∈ l
    · rw [if_pos hl, if_pos (List.mem_cons_of_mem _ hl)]
    · rw [if_neg hl]
      exact if_congr (by simp [hl]) rfl rfl

lemma get_releaseAll (r' : ρ) :
    (t.releaseAll l).get r' = if r' ∈ l then none else t.get r' := by
  induction l generalizing t with
  | nil => exact (if_neg List.not_mem_nil).symm
  | cons r l ih =>
    rw [releaseAll, List.foldl_cons]
    refine ih.trans ?_
    rw [get_release]
    by_cases hl : r' ∈ l
    · rw [if_pos hl, if_pos (List.mem_cons_of_mem _ hl)]
    · rw [if_neg hl]
      exact if_congr (by simp [hl]) rfl rfl

lemma acquire_entries {r' : ρ} (h : (t.acquire x r).entries r' = some e) :
    (r' = r ∧ e = (x, t.next)) ∨ (r' ≠ r ∧ t.entries r' = some e) := by
  have hu : Function.update t.entries r (some (x, t.next)) r' = some e := h
  by_cases hx : r' = r
  · subst hx
    rw [Function.update_self] at hu
    exact .inl ⟨rfl, (Option.some.inj hu).symm⟩
  · rw [Function.update_of_ne hx] at hu
    exact .inr ⟨hx, hu⟩

lemma Once.acquire (h : t.Once) (hr : t.get r = none) : (t.acquire x r).Once := by
  have hnone := get_eq_none.mp hr
  refine ⟨h.faultless, ?_, ?_, ?_, ?_⟩
  · intro r' e he
    rcases acquire_entries he with ⟨-, rfl⟩ | ⟨-, he⟩
    · exact ⟨Nat.lt_succ_self _, h.fresh _ (Nat.le_refl _)⟩
    · obtain ⟨hlt, hzero⟩ := h.held r' e he
      exact ⟨Nat.lt_succ_of_lt hlt, hzero⟩
  · intro r₁ r₂ e₁ e₂ h₁ h₂ he
    rcases acquire_entries h₁ with ⟨rfl, rfl⟩ | ⟨-, hold₁⟩
    · rcases acquire_entries h₂ with ⟨rfl, -⟩ | ⟨-, hold₂⟩
      · rfl
      · exact absurd he.symm (Nat.ne_of_lt (h.held r₂ e₂ hold₂).1)
    · rcases acquire_entries h₂ with ⟨rfl, rfl⟩ | ⟨-, hold₂⟩
      · exact absurd he (Nat.ne_of_lt (h.held r₁ e₁ hold₁).1)
      · exact h.distinct r₁ r₂ e₁ e₂ hold₁ hold₂ he
  · intro n hn
    rcases Nat.lt_succ_iff_lt_or_eq.mp hn with hn | rfl
    · rcases h.settled n hn with ⟨r', y, hy⟩ | hone
      · have hx : r' ≠ r := by
          rintro rfl
          exact nomatch hnone.symm.trans hy
        exact .inl ⟨r', y, (Function.update_of_ne hx _ _).trans hy⟩
      · exact .inr hone
    · exact .inl ⟨r, x, Function.update_self ..⟩
  · exact fun n hn => h.fresh n (Nat.le_of_succ_le hn)

lemma release_eq (he : t.entries r = some e) : t.release r = { t with
    entries := Function.update t.entries r none
    released := Function.update t.released e.2 (t.released e.2 + 1) } := by
  rw [release, he]

lemma release_entries {r' : ρ} {e' : α × ℕ} (h : (t.release r).entries r' = some e') :
    r' ≠ r ∧ t.entries r' = some e' := by
  have hget : (t.release r).get r' ≠ none := fun hn => nomatch (get_eq_none.mp hn).symm.trans h
  rw [get_release] at hget
  split_ifs at hget with hx
  · exact absurd rfl hget
  · refine ⟨hx, ?_⟩
    rw [release] at h
    split at h
    · exact h
    · exact (Function.update_of_ne hx _ _).symm.trans h

lemma Once.release (h : t.Once) (hr : t.get r ≠ none) : (t.release r).Once := by
  obtain ⟨e, he⟩ := Option.ne_none_iff_exists'.mp (mt get_eq_none.mpr hr)
  have hreleased : (t.release r).released =
      Function.update t.released e.2 (t.released e.2 + 1) := by
    rw [release_eq he]
  have hnext : (t.release r).next = t.next := by rw [release_eq he]
  refine ⟨by rw [release_eq he]; exact h.faultless, ?_, ?_, ?_, ?_⟩
  · intro r' e' h'
    obtain ⟨hx, h'⟩ := release_entries h'
    have hne : e'.2 ≠ e.2 := fun hn => hx (h.distinct r' r e' e h' he hn)
    obtain ⟨hlt, hzero⟩ := h.held r' e' h'
    rw [hnext, hreleased, Function.update_of_ne hne]
    exact ⟨hlt, hzero⟩
  · intro r₁ r₂ e₁ e₂ h₁ h₂
    exact h.distinct r₁ r₂ e₁ e₂ (release_entries h₁).2 (release_entries h₂).2
  · intro n hn
    rw [hnext] at hn
    rw [hreleased]
    by_cases hx : n = e.2
    · subst hx
      refine .inr ?_
      rw [Function.update_self, (h.held r e he).2]
    · rcases h.settled n hn with ⟨r', y, hy⟩ | hone
      · have hr' : r' ≠ r := by
          rintro rfl
          exact hx (congrArg Prod.snd (Option.some.inj (hy.symm.trans he)))
        refine .inl ⟨r', y, ?_⟩
        rw [release_eq he]
        exact (Function.update_of_ne hr' _ _).trans hy
      · exact .inr ((Function.update_of_ne hx _ _).trans hone)
  · intro n hn
    rw [hnext] at hn
    have hx : n ≠ e.2 := by
      rintro rfl
      exact absurd (h.held r e he).1 (Nat.not_lt.mpr hn)
    rw [hreleased, Function.update_of_ne hx]
    exact h.fresh n hn

lemma Once.acquireAll (h : t.Once) (hl : l.Nodup) (hfree : ∀ r ∈ l, t.get r = none) :
    (t.acquireAll x l).Once := by
  induction l generalizing t with
  | nil => exact h
  | cons r l ih =>
    obtain ⟨hr, hl⟩ := List.nodup_cons.mp hl
    refine ih (h.acquire (hfree r List.mem_cons_self)) hl ?_
    intro r' hr'
    rw [get_acquire, if_neg fun he : r' = r => hr (he ▸ hr')]
    exact hfree r' (List.mem_cons_of_mem _ hr')

lemma Once.releaseAll (h : t.Once) (hl : l.Nodup) (hheld : ∀ r ∈ l, t.get r ≠ none) :
    (t.releaseAll l).Once := by
  induction l generalizing t with
  | nil => exact h
  | cons r l ih =>
    obtain ⟨hr, hl⟩ := List.nodup_cons.mp hl
    refine ih (h.release (hheld r List.mem_cons_self)) hl ?_
    intro r' hr'
    rw [get_release, if_neg fun he : r' = r => hr (he ▸ hr')]
    exact hheld r' (List.mem_cons_of_mem _ hr')

end Changes

end Table

/-- The resources of an owner refer all to what the owner is worth, and every resource that
exists is in the list of one owner. -/
structure Accounts (held : ι → List ρ) (worth : ι → Option α) (t : Table ρ α) : Prop where
  once : t.Once
  nodup : ∀ o, (held o).Nodup
  valued : ∀ o r, r ∈ held o → ∃ x, worth o = some x ∧ t.get r = some x
  owned : ∀ r, t.get r ≠ none → ∃ o, r ∈ held o
  unique : ∀ o o' r, r ∈ held o → r ∈ held o' → o = o'

section Owners

variable {held : ι → List ρ} {worth worth' : ι → Option α} {t : Table ρ α} {o o' : ι} {r : ρ}
  {l : List ρ} {x : α}

lemma accounts_empty : Accounts (fun _ => []) worth ({} : Table ρ α) where
  once := Table.once_empty
  nodup _ := List.nodup_nil
  valued _ _ h := nomatch h
  owned _ h := absurd rfl h
  unique _ _ _ h := nomatch h

namespace Accounts

lemma not_mem (h : Accounts held worth t) (hr : t.get r = none) (o : ι) : r ∉ held o := by
  intro hm
  obtain ⟨x, -, hx⟩ := h.valued o r hm
  exact nomatch hr.symm.trans hx

lemma get_ne_none (h : Accounts held worth t) (hr : r ∈ held o) : t.get r ≠ none := by
  obtain ⟨x, -, hx⟩ := h.valued o r hr
  exact fun hn => nomatch hn.symm.trans hx

lemma worth_ne_none (h : Accounts held worth t) (ho : held o ≠ []) : worth o ≠ none := by
  obtain ⟨r, hr⟩ := List.exists_mem_of_ne_nil _ ho
  obtain ⟨x, hx, -⟩ := h.valued o r hr
  exact fun hn => nomatch hn.symm.trans hx

lemma worth_of_get (h : Accounts held worth t) (hr : r ∈ held o) (hx : t.get r = some x) :
    worth o = some x := by
  obtain ⟨y, hy, hget⟩ := h.valued o r hr
  rw [hy, ← hget, hx]

lemma congr (h : Accounts held worth t) (hw : ∀ o, held o ≠ [] → worth' o = worth o) :
    Accounts held worth' t := by
  refine ⟨h.once, h.nodup, ?_, h.owned, h.unique⟩
  intro o r hr
  rw [hw o (List.ne_nil_of_mem hr)]
  exact h.valued o r hr

variable [DecidableEq ι]

/-- All that `o` has goes to `o'`, which has nothing. -/
lemma pass (h : Accounts held worth t) (ho : held o' = [])
    (hw : held o ≠ [] → worth o' = worth o) :
    Accounts (Function.update (Function.update held o' (held o)) o []) worth t := by
  have hcase : ∀ p r, r ∈ Function.update (Function.update held o' (held o)) o [] p →
      p ≠ o ∧ (p = o' ∧ r ∈ held o ∨ p ≠ o' ∧ r ∈ held p) := by
    intro p r hr
    by_cases hp : p = o
    · rw [hp, Function.update_self] at hr
      exact nomatch hr
    · rw [Function.update_of_ne hp] at hr
      refine ⟨hp, ?_⟩
      by_cases hp' : p = o'
      · rw [hp', Function.update_self] at hr
        exact .inl ⟨hp', hr⟩
      · rw [Function.update_of_ne hp'] at hr
        exact .inr ⟨hp', hr⟩
  refine ⟨h.once, ?_, ?_, ?_, ?_⟩
  · intro p
    by_cases hp : p = o
    · rw [hp, Function.update_self]
      exact List.nodup_nil
    · rw [Function.update_of_ne hp]
      by_cases hp' : p = o'
      · rw [hp', Function.update_self]
        exact h.nodup o
      · rw [Function.update_of_ne hp']
        exact h.nodup p
  · intro p r hr
    obtain ⟨-, ⟨rfl, hro⟩ | ⟨-, hrp⟩⟩ := hcase p r hr
    · rw [hw (List.ne_nil_of_mem hro)]
      exact h.valued o r hro
    · exact h.valued p r hrp
  · intro r hr
    obtain ⟨p, hp⟩ := h.owned r hr
    have hne' : p ≠ o' := by
      rintro rfl
      rw [ho] at hp
      exact nomatch hp
    by_cases hpo : p = o
    · subst hpo
      refine ⟨o', ?_⟩
      rwa [Function.update_of_ne hne'.symm, Function.update_self]
    · refine ⟨p, ?_⟩
      rwa [Function.update_of_ne hpo, Function.update_of_ne hne']
  · intro p q r hp hq
    obtain ⟨hpo, ⟨rfl, hpr⟩ | ⟨-, hpr⟩⟩ := hcase p r hp
    · obtain ⟨hqo, ⟨rfl, -⟩ | ⟨-, hqr⟩⟩ := hcase q r hq
      · rfl
      · exact absurd (h.unique o q r hpr hqr) hqo.symm
    · obtain ⟨-, ⟨rfl, hqr⟩ | ⟨-, hqr⟩⟩ := hcase q r hq
      · exact absurd (h.unique p o r hpr hqr) hpo
      · exact h.unique p q r hpr hqr

variable [DecidableEq ρ]

/-- The owner `o` gets the resources of the list, none of which existed. -/
lemma acquire (h : Accounts held worth t) (ho : worth o = some x) (hl : l.Nodup)
    (hfree : ∀ r ∈ l, t.get r = none) :
    Accounts (Function.update held o (l ++ held o)) worth (t.acquireAll x l) := by
  have hcase : ∀ p r, r ∈ Function.update held o (l ++ held o) p →
      p = o ∧ r ∈ l ∨ r ∉ l ∧ r ∈ held p := by
    intro p r hr
    by_cases hrl : r ∈ l
    · by_cases hp : p = o
      · exact .inl ⟨hp, hrl⟩
      · rw [Function.update_of_ne hp] at hr
        exact absurd hr (h.not_mem (hfree r hrl) p)
    · refine .inr ⟨hrl, ?_⟩
      by_cases hp : p = o
      · rw [hp, Function.update_self] at hr
        rw [hp]
        exact (List.mem_append.mp hr).resolve_left hrl
      · rwa [Function.update_of_ne hp] at hr
  refine ⟨h.once.acquireAll hl hfree, ?_, ?_, ?_, ?_⟩
  · intro p
    by_cases hp : p = o
    · rw [hp, Function.update_self]
      refine List.nodup_append'.mpr ⟨hl, h.nodup o, ?_⟩
      exact fun r hr => h.not_mem (hfree r hr) o
    · rw [Function.update_of_ne hp]
      exact h.nodup p
  · intro p r hr
    rw [Table.get_acquireAll]
    rcases hcase p r hr with ⟨rfl, hrl⟩ | ⟨hrl, hr⟩
    · rw [if_pos hrl]
      exact ⟨x, ho, rfl⟩
    · rw [if_neg hrl]
      exact h.valued p r hr
  · intro r hr
    rw [Table.get_acquireAll] at hr
    split_ifs at hr with hrl
    · refine ⟨o, ?_⟩
      rw [Function.update_self]
      exact List.mem_append_left _ hrl
    · obtain ⟨p, hp⟩ := h.owned r hr
      refine ⟨p, ?_⟩
      by_cases hpo : p = o
      · rw [hpo, Function.update_self]
        exact List.mem_append_right _ (hpo ▸ hp)
      · rwa [Function.update_of_ne hpo]
  · intro p q r hp hq
    rcases hcase p r hp with ⟨rfl, hrl⟩ | ⟨hrl, hp⟩
    · rcases hcase q r hq with ⟨rfl, -⟩ | ⟨hrl', -⟩
      · rfl
      · exact absurd hrl hrl'
    · rcases hcase q r hq with ⟨rfl, hrl'⟩ | ⟨-, hq⟩
      · exact absurd hrl' hrl
      · exact h.unique p q r hp hq

/-- The owner `o` gives up all that it has. -/
lemma giveUp (h : Accounts held worth t) (o : ι) :
    Accounts (Function.update held o []) worth (t.releaseAll (held o)) := by
  have hcase : ∀ p r, r ∈ Function.update held o [] p → r ∉ held o ∧ r ∈ held p := by
    intro p r hr
    by_cases hp : p = o
    · rw [hp, Function.update_self] at hr
      exact nomatch hr
    · rw [Function.update_of_ne hp] at hr
      exact ⟨fun hr' => hp (h.unique p o r hr hr'), hr⟩
  refine ⟨h.once.releaseAll (h.nodup o) fun r hr => h.get_ne_none hr, ?_, ?_, ?_, ?_⟩
  · intro p
    by_cases hp : p = o
    · rw [hp, Function.update_self]
      exact List.nodup_nil
    · rw [Function.update_of_ne hp]
      exact h.nodup p
  · intro p r hr
    obtain ⟨hro, hr⟩ := hcase p r hr
    rw [Table.get_releaseAll, if_neg hro]
    exact h.valued p r hr
  · intro r hr
    rw [Table.get_releaseAll] at hr
    split_ifs at hr with hro
    · exact absurd rfl hr
    · obtain ⟨p, hp⟩ := h.owned r hr
      have hpo : p ≠ o := by
        rintro rfl
        exact hro hp
      refine ⟨p, ?_⟩
      rwa [Function.update_of_ne hpo]
  · exact fun p q r hp hq => h.unique p q r (hcase p r hp).2 (hcase q r hq).2

/-- What is acquired for a while has no effect on the owners; `o` has nothing else. -/
lemma borrow (h : Accounts held worth t) (ho : held o = []) (hl : l.Nodup)
    (hfree : ∀ r ∈ l, t.get r = none) :
    Accounts held worth ((t.acquireAll x l).releaseAll l) := by
  have hsame : ∀ p, held p ≠ [] → Function.update worth o (some x) p = worth p := by
    rintro p hp
    refine Function.update_of_ne ?_ _ _
    rintro rfl
    exact hp ho
  have hacquired := (h.congr hsame).acquire (Function.update_self o (some x) worth) hl hfree
  have hback := hacquired.giveUp o
  rw [Function.update_self, ho, List.append_nil, Function.update_idem,
    Function.update_eq_self_iff.mpr ho.symm] at hback
  exact hback.congr fun p hp => (hsame p hp).symm

end Accounts

end Owners

end RosidlBufferBackends.Holdings
