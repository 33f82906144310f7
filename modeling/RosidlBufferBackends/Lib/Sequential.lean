import Mathlib.Data.List.Nodup
import RosidlBufferBackends.Lib.Transfers

/-! Transfers that are launched one after the other and finish in another order. Where those
that conflict finish in the order of their launches, each finds what it would in that order. -/

namespace RosidlBufferBackends.Streams

variable {κ ι ω α ν : Type*}

namespace Transfer

/-- One of them writes what the other one touches. -/
def Conflicts (x y : Transfer α ν) : Prop :=
  ∃ r, x.target = some r ∧ y.Touches r ∨ y.target = some r ∧ x.Touches r

variable {x y w : Transfer α ν} {memory : α → ν} {r : α}

lemma Conflicts.symm (h : x.Conflicts y) : y.Conflicts x := by
  obtain ⟨r, h | h⟩ := h
  · exact ⟨r, .inr h⟩
  · exact ⟨r, .inl h⟩

variable [DecidableEq α]

lemma perform_target (h : w.target = some r) :
    w.perform memory r = w.effect (w.source.map memory) (memory r) := by
  rw [perform, h]
  exact Function.update_self ..

lemma perform_other (h : w.target ≠ some r) : w.perform memory r = memory r := by
  rw [perform]
  cases ht : w.target with
  | none => rfl
  | some t =>
    have hne : r ≠ t := fun he => h (ht.trans (congrArg some he.symm))
    exact Function.update_of_ne hne _ _

lemma source_perform (h : ¬ x.Conflicts y) :
    y.source.map (x.perform memory) = y.source.map memory := by
  cases hs : y.source with
  | none => rfl
  | some r => exact congrArg some (perform_other fun ht => h ⟨r, .inl ⟨ht, .inl hs⟩⟩)

lemma perform_comm (h : ¬ x.Conflicts y) :
    y.perform (x.perform memory) = x.perform (y.perform memory) := by
  have h' : ¬ y.Conflicts x := fun hc => h hc.symm
  funext r
  by_cases hy : y.target = some r
  · have hx : x.target ≠ some r := fun hx => h ⟨r, .inl ⟨hx, .inr hy⟩⟩
    rw [perform_target hy, source_perform h, perform_other hx, perform_other hx, perform_target hy]
  · rw [perform_other hy]
    by_cases hx : x.target = some r
    · rw [perform_target hx, perform_target hx, source_perform h', perform_other hy]
    · rw [perform_other hx, perform_other hx, perform_other hy]

end Transfer

variable [DecidableEq α] {w : Transfer α ν} {memory device sequential : α → ν} {r : α}
  {l l₁ l₂ : List (ι × Transfer α ν)} {expected : ι → Option ν} {i : ι}

def performAll (l : List (ι × Transfer α ν)) (memory : α → ν) : α → ν :=
  l.foldl (fun memory x => x.2.perform memory) memory

section Lists

lemma performAll_cons (x : ι × Transfer α ν) (l : List (ι × Transfer α ν)) (memory : α → ν) :
    performAll (x :: l) memory = performAll l (x.2.perform memory) := rfl

lemma performAll_append (l₁ l₂ : List (ι × Transfer α ν)) (memory : α → ν) :
    performAll (l₁ ++ l₂) memory = performAll l₂ (performAll l₁ memory) := List.foldl_append

lemma performAll_other (h : ∀ x ∈ l, x.2.target ≠ some r) : performAll l memory r = memory r := by
  induction l generalizing memory with
  | nil => rfl
  | cons x l ih =>
    rw [performAll_cons, ih fun y hy => h y (List.mem_cons_of_mem _ hy)]
    exact Transfer.perform_other (h x List.mem_cons_self)

lemma performAll_comm (h : ∀ x ∈ l, ¬ x.2.Conflicts w) :
    performAll l (w.perform memory) = w.perform (performAll l memory) := by
  induction l generalizing memory with
  | nil => rfl
  | cons x l ih =>
    have hx : ¬ w.Conflicts x.2 := fun hc => h x List.mem_cons_self hc.symm
    rw [performAll_cons, performAll_cons, Transfer.perform_comm hx]
    exact ih fun y hy => h y (List.mem_cons_of_mem _ hy)

lemma mem_rest {β : Type*} {l₁ l₂ : List (ι × β)} {y : ι × β}
    (h : ((l₁ ++ y :: l₂).map Prod.fst).Nodup) (x : ι × β) :
    x ∈ l₁ ++ l₂ ↔ x ∈ l₁ ++ y :: l₂ ∧ x.1 ≠ y.1 := by
  rw [List.map_append, List.map_cons, List.nodup_middle, List.nodup_cons, ← List.map_append] at h
  rw [List.mem_append, List.mem_append, List.mem_cons]
  constructor
  · intro hx
    refine ⟨hx.imp_right .inr, fun he => h.1 ?_⟩
    exact List.mem_map.mpr ⟨x, List.mem_append.mpr hx, he⟩
  · rintro ⟨hx | rfl | hx, hne⟩
    · exact .inl hx
    · exact absurd rfl hne
    · exact .inr hx

lemma source_performAll (h : ∀ x ∈ l, ¬ x.2.Conflicts w) :
    w.source.map (performAll l memory) = w.source.map memory := by
  cases hs : w.source with
  | none => rfl
  | some r =>
    refine congrArg some (performAll_other fun x hx ht => ?_)
    exact h x hx ⟨r, .inl ⟨ht, .inl hs⟩⟩

end Lists

/-- The transfers of the list are still to be done, in the order in which they were launched:
together they make of the memory what it would be, and each will find what it would. -/
structure Consistent (l : List (ι × Transfer α ν)) (device sequential : α → ν)
    (expected : ι → Option ν) : Prop where
  settles : performAll l device = sequential
  sources : ∀ l₁ i w l₂, l = l₁ ++ (i, w) :: l₂ →
    w.source.map (performAll l₁ device) = expected i

section Consistent

lemma Consistent.launch [DecidableEq ι] (h : Consistent l device sequential expected)
    (hi : i ∉ l.map Prod.fst) (w : Transfer α ν) :
    Consistent (l ++ [(i, w)]) device (w.perform sequential)
      (Function.update expected i (w.source.map sequential)) := by
  constructor
  · rw [performAll_append, h.settles]
    rfl
  · intro l₁ j v l₂ hl
    rcases List.eq_nil_or_concat l₂ with rfl | ⟨l₂, y, rfl⟩
    · obtain ⟨rfl, hlast⟩ := List.append_inj' hl rfl
      obtain ⟨rfl, rfl⟩ := Prod.mk.inj (List.cons.inj hlast).1
      rw [h.settles, Function.update_self]
    · rw [List.concat_eq_append, ← List.cons_append, ← List.append_assoc] at hl
      obtain ⟨rfl, -⟩ := List.append_inj' hl rfl
      have hj : j ≠ i := by
        rintro rfl
        exact hi (List.mem_map.mpr ⟨(j, v), by simp, rfl⟩)
      rw [Function.update_of_ne hj]
      exact h.sources l₁ j v l₂ rfl

/-- A transfer finishes before those that were launched earlier, but none of these conflicts. -/
lemma Consistent.finish (h : Consistent (l₁ ++ (i, w) :: l₂) device sequential expected)
    (hc : ∀ x ∈ l₁, ¬ x.2.Conflicts w) : w.source.map device = expected i ∧
      Consistent (l₁ ++ l₂) (w.perform device) sequential expected := by
  have hfound := h.sources l₁ i w l₂ rfl
  rw [source_performAll hc] at hfound
  refine ⟨hfound, ?_, ?_⟩
  · rw [← h.settles, performAll_append, performAll_append, performAll_comm hc]
    rfl
  · intro k₁ j v k₂ hl
    rcases List.append_eq_append_iff.mp hl with ⟨k, rfl, rfl⟩ | ⟨k, rfl, hk⟩
    · have hold := h.sources (l₁ ++ (i, w) :: k) j v k₂ (by simp)
      rw [performAll_append] at hold ⊢
      rwa [performAll_comm hc]
    · rcases k with _ | ⟨y, k⟩
      · have hold := h.sources (k₁ ++ [(i, w)]) j v k₂ (by simpa using hk.symm)
        rw [performAll_append] at hold
        rw [performAll_comm fun x hx => hc x (by simpa using hx)]
        exact hold
      · obtain ⟨rfl, rfl⟩ := List.cons.inj hk
        have hold := h.sources k₁ j v (k ++ (i, w) :: l₂) (by simp)
        rw [performAll_comm fun x hx => hc x (List.mem_append_left _ hx), Transfer.source_perform]
        · exact hold
        · exact fun hcon => hc (j, v) (by simp) hcon.symm

lemma Consistent.device_eq (h : Consistent l device sequential expected)
    (hr : ∀ x ∈ l, x.2.target ≠ some r) : device r = sequential r := by
  rw [← h.settles, performAll_other hr]

end Consistent

/-- What a memory holds, and what it would hold if each transfer was done when it is launched;
what the transfers that are done have found in their sources, and what they would have found. -/
structure Contents (κ α ν : Type*) where
  device : α → ν
  sequential : α → ν
  found : Point κ → Option ν := fun _ => none
  expected : Point κ → Option ν := fun _ => none

namespace Contents

variable [DecidableEq κ]

def launch (c : Contents κ α ν) (p : Point κ) (w : Transfer α ν) : Contents κ α ν :=
  { c with
    sequential := w.perform c.sequential
    expected := Function.update c.expected p (w.source.map c.sequential) }

def finish (c : Contents κ α ν) (p : Point κ) (w : Transfer α ν) : Contents κ α ν :=
  { c with
    device := w.perform c.device
    found := Function.update c.found p (w.source.map c.device) }

end Contents

/-- The work at the point is not done. -/
def Gpu.Pending (g : Gpu κ ω) (p : Point κ) (x : ω) : Prop :=
  (g.queue p.stream)[p.position]? = some (.work x) ∧ g.finished p.stream ≤ p.position

/-- The list has the works that are not done, as transfers and in the order in which they were
launched, and those that conflict have to finish in that order. -/
structure Serial (g : Gpu κ ω) (view : Point κ → ω → Transfer α ν) (c : Contents κ α ν)
    (l : List (Point κ × Transfer α ν)) : Prop where
  pending : ∀ p w, (p, w) ∈ l ↔ ∃ x, g.Pending p x ∧ w = view p x
  distinct : (l.map Prod.fst).Nodup
  ordered : l.Pairwise fun x y => x.2.Conflicts y.2 → g.Before x.1 y.1
  consistent : Consistent l c.device c.sequential c.expected
  found : ∀ p, p ∉ l.map Prod.fst → c.found p = c.expected p
  asked : ∀ p x, (g.queue p.stream)[p.position]? = some (.work x) →
    (c.expected p).isSome = (view p x).source.isSome

section Serial

variable {g g' : Gpu κ ω} {view : Point κ → ω → Transfer α ν} {c : Contents κ α ν}
  {l : List (Point κ × Transfer α ν)} {k : κ} {p : Point κ} {x : ω}

lemma serial_initial (view : Point κ → ω → Transfer α ν) (memory : α → ν) :
    Serial {} view { device := memory, sequential := memory } [] :=
  ⟨by simp [Gpu.Pending], List.nodup_nil, List.Pairwise.nil, ⟨rfl, by simp⟩, fun _ _ => rfl,
    by simp⟩

lemma Serial.mem (h : Serial g view c l) : p ∈ l.map Prod.fst ↔ ∃ x, g.Pending p x := by
  constructor
  · intro hp
    obtain ⟨⟨q, w⟩, hmem, rfl⟩ := List.mem_map.mp hp
    obtain ⟨x, hx, -⟩ := (h.pending q w).mp hmem
    exact ⟨x, hx⟩
  · rintro ⟨x, hx⟩
    exact List.mem_map.mpr ⟨(p, view p x), (h.pending p _).mpr ⟨x, hx, rfl⟩, rfl⟩

lemma Serial.still (h : Serial g view c l) (he : g.Extends g')
    (hw : ∀ (p : Point κ) (x : ω), (g'.queue p.stream)[p.position]? = some (.work x) →
      (g.queue p.stream)[p.position]? = some (.work x))
    (hp : ∀ p x, g'.Pending p x ↔ g.Pending p x) : Serial g' view c l := by
  refine ⟨fun p w => ?_, h.distinct, ?_, h.consistent, h.found, fun p x hx => ?_⟩
  · simp only [hp, h.pending]
  · exact h.ordered.imp fun hxy hc => Device.before_extends (hxy hc) he
  · exact h.asked p x (hw p x hx)

/-- A work that is done has found what it would have found. -/
lemma Serial.found_eq (h : Serial g view c l)
    (hw : (g.queue p.stream)[p.position]? = some (.work x)) (hs : (view p x).source = some r)
    (hd : p.position < g.finished p.stream) :
    ∃ v, c.found p = some v ∧ c.expected p = some v := by
  have hasked := h.asked p x hw
  rw [hs, Option.isSome_some] at hasked
  obtain ⟨v, hv⟩ := Option.isSome_iff_exists.mp hasked
  refine ⟨v, (h.found p fun hp => ?_).trans hv, hv⟩
  obtain ⟨y, hy⟩ := h.mem.mp hp
  exact absurd hy.2 (Nat.not_le.mpr hd)

lemma Serial.device_eq (h : Serial g view c l)
    (hr : ∀ p x, g.Pending p x → (view p x).target ≠ some r) : c.device r = c.sequential r := by
  refine h.consistent.device_eq fun y hy => ?_
  obtain ⟨x, hx, he⟩ := (h.pending y.1 y.2).mp hy
  rw [he]
  exact hr y.1 x hx

lemma Gpu.not_pending_here (g : Gpu κ ω) (k : κ) : ¬ g.Pending (g.here k) x := fun h =>
  absurd (List.getElem?_eq_some_iff.mp h.1).1 (lt_irrefl _)

variable [DecidableEq κ]

lemma Gpu.pending_enqueue {op : Op κ ω} (ho : g.Orderly) :
    (g.enqueue k op).Pending p x ↔ g.Pending p x ∨ (p = g.here k ∧ op = .work x) := by
  constructor
  · rintro ⟨hw, hle⟩
    obtain hw | ⟨hk, hi, he⟩ := Gpu.enqueue_op hw
    · exact .inl ⟨hw, hle⟩
    · obtain ⟨stream, position⟩ := p
      simp only at hk hi
      subst hk hi
      exact .inr ⟨rfl, he.symm⟩
  · rintro (⟨hw, hle⟩ | ⟨rfl, rfl⟩)
    · exact ⟨(Gpu.enqueue_extends g k op).getElem hw, hle⟩
    · refine ⟨?_, ho.bounded k⟩
      simp [Gpu.enqueue, Gpu.here]

lemma Serial.wait (h : Serial g view c l) (ho : g.Orderly) (k : κ) (awaited : Point κ) :
    Serial (g.enqueue k (.wait awaited)) view c l := by
  refine h.still (Gpu.enqueue_extends _ _ _) (fun p x hx => ?_) fun p x => ?_
  · obtain hx | ⟨-, -, he⟩ := Gpu.enqueue_op hx
    · exact hx
    · cases he
  · rw [Gpu.pending_enqueue ho]
    simp

/-- The transfer that is launched has to wait for those that it conflicts with. -/
lemma Serial.launch (h : Serial g view c l) (ho : g.Orderly) (k : κ) (x : ω)
    (hb : ∀ p y, g.Pending p y → (view p y).Conflicts (view (g.here k) x) →
      g.Before p (g.here k)) :
    Serial (g.enqueue k (.work x)) view (c.launch (g.here k) (view (g.here k) x))
      (l ++ [(g.here k, view (g.here k) x)]) := by
  have hnew : g.here k ∉ l.map Prod.fst := by
    intro hmem
    obtain ⟨y, hy⟩ := h.mem.mp hmem
    exact g.not_pending_here k hy
  have hext : g.Extends (g.enqueue k (.work x)) := Gpu.enqueue_extends _ _ _
  refine ⟨?_, ?_, ?_, h.consistent.launch hnew _, ?_, ?_⟩
  · intro p w
    rw [List.mem_append, h.pending, List.mem_singleton]
    constructor
    · rintro (⟨y, hy, rfl⟩ | he)
      · exact ⟨y, (Gpu.pending_enqueue ho).mpr (.inl hy), rfl⟩
      · obtain ⟨rfl, rfl⟩ := Prod.mk.inj he
        exact ⟨x, (Gpu.pending_enqueue ho).mpr (.inr ⟨rfl, rfl⟩), rfl⟩
    · rintro ⟨y, hy, rfl⟩
      obtain hy | ⟨rfl, he⟩ := (Gpu.pending_enqueue ho).mp hy
      · exact .inl ⟨y, hy, rfl⟩
      · obtain rfl := Op.work.inj he
        exact .inr rfl
  · rw [List.map_append]
    refine h.distinct.append (List.pairwise_singleton _ _) ?_
    intro p hp hq
    obtain rfl := List.mem_singleton.mp hq
    exact hnew hp
  · rw [List.pairwise_append]
    refine ⟨h.ordered.imp fun hxy hc => Device.before_extends (hxy hc) hext,
      List.pairwise_singleton _ _, ?_⟩
    rintro ⟨p, w⟩ hp y hy hc
    obtain rfl := List.mem_singleton.mp hy
    obtain ⟨z, hz, rfl⟩ := (h.pending p w).mp hp
    exact Device.before_extends (hb p z hz hc) hext
  · intro p hp
    rw [List.map_append, List.mem_append, not_or] at hp
    have hne : p ≠ g.here k := fun he => hp.2 (List.mem_singleton.mpr he)
    exact (h.found p hp.1).trans (Function.update_of_ne hne _ _).symm
  · intro p y hy
    obtain hy | ⟨hk, hi, he⟩ := Gpu.enqueue_op hy
    · have hne : p ≠ g.here k := by
        rintro rfl
        exact absurd (List.getElem?_eq_some_iff.mp hy).1 (lt_irrefl _)
      exact (congrArg Option.isSome (Function.update_of_ne hne _ _)).trans (h.asked p y hy)
    · obtain rfl : p = g.here k := by
        rw [Gpu.here, ← hi, ← hk]
      obtain rfl := Op.work.inj he
      have hnew : (c.launch (g.here k) (view (g.here k) y)).expected (g.here k) =
          (view (g.here k) y).source.map c.sequential := Function.update_self ..
      rw [hnew, Option.isSome_map]

lemma Gpu.pending_bump : (g.bump k).Pending p x ↔ g.Pending p x ∧ p ≠ ⟨k, g.finished k⟩ := by
  obtain ⟨stream, position⟩ := p
  by_cases hk : stream = k
  · subst hk
    simp only [Gpu.Pending, Gpu.bump, Function.update_self, ne_eq, Point.mk.injEq, true_and]
    constructor
    · rintro ⟨hw, hle⟩
      exact ⟨⟨hw, by omega⟩, by omega⟩
    · rintro ⟨⟨hw, hle⟩, hne⟩
      exact ⟨hw, by omega⟩
  · simp [Gpu.Pending, Gpu.bump, hk]

lemma Serial.finish_wait {awaited : Point κ} (h : Serial g view c l) (hf : g.finish k = some g')
    (hop : (g.queue k)[g.finished k]? = some (.wait awaited)) : Serial g' view c l := by
  obtain ⟨rfl, -⟩ := Gpu.finish_cases hf
  refine h.still (Gpu.bump_extends g k) (fun _ _ => id) fun p x => ?_
  rw [Gpu.pending_bump]
  refine and_iff_left_of_imp ?_
  rintro hp rfl
  exact absurd (hp.1.symm.trans hop) nofun

/-- What was launched before the work that finishes and is not done does not conflict with it. -/
lemma Serial.finish_work (h : Serial g view c l) (ho : g.Orderly) (hf : g.finish k = some g')
    (hop : (g.queue k)[g.finished k]? = some (.work x)) :
    ∃ l', Serial g' view (c.finish ⟨k, g.finished k⟩ (view ⟨k, g.finished k⟩ x)) l' := by
  obtain ⟨rfl, -⟩ := Gpu.finish_cases hf
  have hmem : ((⟨k, g.finished k⟩ : Point κ), view ⟨k, g.finished k⟩ x) ∈ l :=
    (h.pending _ _).mpr ⟨x, ⟨hop, le_rfl⟩, rfl⟩
  obtain ⟨l₁, l₂, rfl⟩ := List.append_of_mem hmem
  have hfree : ∀ y ∈ l₁, ¬ y.2.Conflicts (view ⟨k, g.finished k⟩ x) := by
    rintro ⟨q, w⟩ hy hc
    have hbefore := (List.pairwise_append.mp h.ordered).2.2 (q, w) hy _ List.mem_cons_self hc
    obtain ⟨z, hz, -⟩ := (h.pending q w).mp (List.mem_append_left _ hy)
    exact absurd hz.2 (Nat.not_le.mpr (Device.done_of_before ho hbefore le_rfl))
  obtain ⟨hfound, hconsistent⟩ := h.consistent.finish hfree
  have hsub : (l₁ ++ l₂).Sublist (l₁ ++ (⟨k, g.finished k⟩, view ⟨k, g.finished k⟩ x) :: l₂) :=
    (List.sublist_cons_self _ l₂).append_left l₁
  have hother := mem_rest h.distinct
  refine ⟨l₁ ++ l₂, ?_, h.distinct.sublist (hsub.map _), ?_, hconsistent, ?_, h.asked⟩
  · intro p w
    rw [hother (p, w), h.pending]
    constructor
    · rintro ⟨⟨y, hy, rfl⟩, hne⟩
      exact ⟨y, Gpu.pending_bump.mpr ⟨hy, hne⟩, rfl⟩
    · rintro ⟨y, hy, rfl⟩
      obtain ⟨hy, hne⟩ := Gpu.pending_bump.mp hy
      exact ⟨⟨y, hy, rfl⟩, hne⟩
  · exact (h.ordered.sublist hsub).imp fun hxy hc =>
      Device.before_extends (hxy hc) (Gpu.bump_extends g k)
  · intro p hp
    by_cases he : p = ⟨k, g.finished k⟩
    · subst he
      exact (Function.update_self ..).trans hfound
    · refine (Function.update_of_ne he _ _).trans (h.found p fun hmem => hp ?_)
      obtain ⟨⟨q, w⟩, hq, rfl⟩ := List.mem_map.mp hmem
      exact List.mem_map.mpr ⟨(q, w), (hother (q, w)).mpr ⟨hq, he⟩, rfl⟩

end Serial

end RosidlBufferBackends.Streams
