import RosidlBufferBackends.Lib.Streams

/-! Queues of transfers between the cells of a memory. The ledger of a device tells what a
cell will hold when its queues are done, whatever order they make progress in. -/

namespace RosidlBufferBackends.Streams

variable {κ α ν : Type*}

/-- `effect` makes the value of the target from that of the source and its own. -/
structure Transfer (α ν : Type*) where
  source : Option α := none
  target : Option α := none
  effect : Option ν → ν → ν

namespace Transfer

def Touches (w : Transfer α ν) (r : α) : Prop := w.source = some r ∨ w.target = some r

def perform [DecidableEq α] (w : Transfer α ν) (memory : α → ν) : α → ν :=
  match w.target with
  | none => memory
  | some r => Function.update memory r (w.effect (w.source.map memory) (memory r))

end Transfer

structure Device (κ α ν : Type*) where
  gpu : Gpu κ (Transfer α ν) := {}
  memory : α → ν

/-- The first point is behind the second in its queue, or is waited for before it. -/
def Gpu.Before {ω : Type*} (g : Gpu κ ω) (p q : Point κ) : Prop :=
  (p.stream = q.stream ∧ p.position < q.position) ∨
    ∃ i < q.position, ∃ awaited, (g.queue q.stream)[i]? = some (.wait awaited) ∧
      awaited.stream = p.stream ∧ p.position < awaited.position

namespace Device

variable {d d' : Device κ α ν} {L : α → Option ν} {k : κ} {r : α} {v : ν} {w : Transfer α ν}
  {p q : Point κ}

def pending (d : Device κ α ν) (k : κ) : List (Op κ (Transfer α ν)) :=
  (d.gpu.queue k).drop (d.gpu.finished k)

/-- The transfer at the point is not done. -/
def Unfinished (d : Device κ α ν) (p : Point κ) (w : Transfer α ν) : Prop :=
  (d.gpu.queue p.stream)[p.position]? = some (.work w) ∧ d.gpu.finished p.stream ≤ p.position

def Idle (d : Device κ α ν) : Prop := ∀ k, d.gpu.finished k = (d.gpu.queue k).length

section Points

lemma mem_pending (h : Op.work w ∈ d.pending k) : ∃ p, p.stream = k ∧ d.Unfinished p w := by
  obtain ⟨i, hi⟩ := List.mem_iff_getElem?.mp h
  rw [pending, List.getElem?_drop] at hi
  exact ⟨⟨k, d.gpu.finished k + i⟩, rfl, hi, Nat.le_add_right _ _⟩

lemma done_of_before {ω : Type*} {g : Gpu κ ω} (ho : g.Orderly) (hb : g.Before p q)
    (hq : q.position ≤ g.finished q.stream) : p.position < g.finished p.stream := by
  obtain ⟨hs, hlt⟩ | ⟨i, hi, awaited, hw, hs, hlt⟩ := hb
  · rw [hs]
    omega
  · have hp := ho.waited q.stream i awaited (by omega) hw
    simp only [Gpu.passed, decide_eq_true_eq, hs] at hp
    omega

lemma before_extends {ω : Type*} {g g' : Gpu κ ω} (h : g.Before p q) (he : g.Extends g') :
    g'.Before p q := by
  obtain h | ⟨i, hi, awaited, hw, hs, hlt⟩ := h
  · exact .inl h
  · exact .inr ⟨i, hi, awaited, he.getElem hw, hs, hlt⟩

/-- The queues have gone on, and no transfer is new. -/
structure Calm (d d' : Device κ α ν) : Prop where
  grown : d.gpu.Extends d'.gpu
  unfinished : ∀ p w, d'.Unfinished p w → d.Unfinished p w

lemma Calm.refl (d : Device κ α ν) : Calm d d := ⟨.refl _, fun _ _ => id⟩

end Points

section Ledger

variable [DecidableEq α]

def perform (d : Device κ α ν) : Op κ (Transfer α ν) → α → ν
  | .work w => w.perform d.memory
  | .wait _ => d.memory

/-- What the cell holds after the operation, if its source holds what the ledger tells. -/
def apply (L : α → Option ν) (r : α) (v : ν) : Op κ (Transfer α ν) → ν
  | .work w => if w.target = some r then w.effect (w.source.bind L) v else v
  | .wait _ => v

def replay (L : α → Option ν) (r : α) (ops : List (Op κ (Transfer α ν))) (v : ν) : ν :=
  ops.foldl (apply L r) v

/-- The cells of the ledger are written by one queue each, and from cells of the ledger that
nothing writes any more by then. -/
structure Determined (d : Device κ α ν) (L : α → Option ν) : Prop where
  settles : ∀ r v, L r = some v → ∃ k,
    (∀ p w, d.Unfinished p w → w.target = some r → p.stream = k) ∧
      replay L r (d.pending k) (d.memory r) = v
  sources : ∀ p w r src, d.Unfinished p w → w.target = some r → (L r).isSome →
    w.source = some src → (L src).isSome ∧
      ∀ p' w', d.Unfinished p' w' → w'.target = some src → d.gpu.Before p' p

lemma replay_unchanged {ops : List (Op κ (Transfer α ν))}
    (h : ∀ w, Op.work w ∈ ops → w.target ≠ some r) : replay L r ops v = v := by
  induction ops with
  | nil => rfl
  | cons op ops ih =>
    have hop : apply L r v op = v := by
      cases op with
      | work w => exact if_neg (h w List.mem_cons_self)
      | wait p => rfl
    rw [replay, List.foldl_cons, hop]
    exact ih fun w hw => h w (List.mem_cons_of_mem _ hw)

lemma replay_congr {L' : α → Option ν} {ops : List (Op κ (Transfer α ν))}
    (h : ∀ w, Op.work w ∈ ops → w.source.bind L = w.source.bind L') :
    replay L r ops v = replay L' r ops v := by
  induction ops generalizing v with
  | nil => rfl
  | cons op ops ih =>
    have hop : apply L r v op = apply L' r v op := by
      cases op with
      | work w => rw [apply, apply, h w List.mem_cons_self]
      | wait p => rfl
    rw [replay, replay, List.foldl_cons, List.foldl_cons, hop]
    exact ih fun w hw => h w (List.mem_cons_of_mem _ hw)

lemma replay_snoc (ops : List (Op κ (Transfer α ν))) (op : Op κ (Transfer α ν)) :
    replay L r (ops ++ [op]) v = apply L r (replay L r ops v) op :=
  List.foldl_append

/-- Nothing is pending that would write the cell, or read it. -/
lemma replay_free {L' : α → Option ν} (hfree : ∀ p w, d.Unfinished p w → ¬ w.Touches r) (k : κ) :
    replay L' r (d.pending k) v = v := by
  apply replay_unchanged
  intro w hw ht
  obtain ⟨p, -, hp⟩ := mem_pending hw
  exact hfree p w hp (.inr ht)

lemma source_update (hfree : ∀ p w, d.Unfinished p w → ¬ w.Touches r) (x : Option ν) (k : κ) :
    ∀ w, Op.work w ∈ d.pending k → w.source.bind (Function.update L r x) = w.source.bind L := by
  intro w hw
  obtain ⟨p, -, hp⟩ := mem_pending hw
  cases hs : w.source with
  | none => rfl
  | some src =>
    have hne : src ≠ r := fun he => hfree p w hp (.inl (he ▸ hs))
    exact Function.update_of_ne hne _ _

/-- A cell that nothing writes any more holds what the ledger tells. -/
lemma Determined.memory (h : Determined d L) (hL : L r = some v)
    (hdone : ∀ p w, d.Unfinished p w → w.target ≠ some r) : d.memory r = v := by
  obtain ⟨k, -, hreplay⟩ := h.settles r v hL
  rw [replay_unchanged] at hreplay
  · exact hreplay
  · intro w hw
    obtain ⟨p, -, hp⟩ := mem_pending hw
    exact hdone p w hp

/-- The source of the first operation holds what the ledger tells. -/
lemma Determined.source_eq (h : Determined d L) (ho : d.gpu.Orderly)
    (hw : (d.gpu.queue k)[d.gpu.finished k]? = some (.work w)) (ht : w.target = some r)
    (hL : (L r).isSome) : w.source.map d.memory = w.source.bind L := by
  cases hs : w.source with
  | none => rfl
  | some src =>
    obtain ⟨hsome, hbefore⟩ := h.sources ⟨k, d.gpu.finished k⟩ w r src ⟨hw, le_rfl⟩ ht hL hs
    obtain ⟨x, hx⟩ := Option.isSome_iff_exists.mp hsome
    have hmem : d.memory src = x := by
      refine h.memory hx fun p w' hp ht' => ?_
      have hdone := done_of_before ho (hbefore p w' hp ht') le_rfl
      exact absurd hp.2 (Nat.not_le.mpr hdone)
    rw [Option.map_some, Option.bind_some, hx, hmem]

/-- The operation that finishes writes what its replay would. -/
lemma Determined.perform_eq (h : Determined d L) (ho : d.gpu.Orderly)
    {op : Op κ (Transfer α ν)} (hop : (d.gpu.queue k)[d.gpu.finished k]? = some op)
    (hL : (L r).isSome) : d.perform op r = apply L r (d.memory r) op := by
  cases op with
  | wait p => rfl
  | work w =>
    rw [perform, apply, Transfer.perform]
    cases ht : w.target with
    | none => rfl
    | some t =>
      by_cases hr : t = r
      · subst hr
        dsimp only
        rw [Function.update_self, if_pos rfl, h.source_eq ho hop ht hL]
      · rw [if_neg fun he => hr (Option.some.inj he)]
        exact Function.update_of_ne (Ne.symm hr) _ _

/-- A cell that nothing touches is entered in the ledger with what it holds. -/
lemma track_determined (h : Determined d L) (k : κ)
    (hfree : ∀ p w, d.Unfinished p w → ¬ w.Touches r) :
    Determined d (Function.update L r (some (d.memory r))) := by
  constructor
  · intro r' v hL
    by_cases hr : r' = r
    · subst hr
      rw [Function.update_self] at hL
      obtain rfl := Option.some.inj hL
      refine ⟨k, fun p w hp ht => absurd (.inr ht) (hfree p w hp), ?_⟩
      exact replay_free hfree k
    · rw [Function.update_of_ne hr] at hL
      obtain ⟨k, hone, hreplay⟩ := h.settles r' v hL
      exact ⟨k, hone, (replay_congr (source_update hfree _ k)).trans hreplay⟩
  · intro p w r' src hp ht hL hs
    have hr : r' ≠ r := fun he => hfree p w hp (.inr (he ▸ ht))
    have hsrc : src ≠ r := fun he => hfree p w hp (.inl (he ▸ hs))
    rw [Function.update_of_ne hr] at hL
    rw [Function.update_of_ne hsrc]
    exact h.sources p w r' src hp ht hL hs

end Ledger

section Progress

variable [DecidableEq κ]

def enqueue (d : Device κ α ν) (k : κ) (op : Op κ (Transfer α ν)) : Device κ α ν :=
  { d with gpu := d.gpu.enqueue k op }

@[simp] lemma enqueue_memory (d : Device κ α ν) (k : κ) (op : Op κ (Transfer α ν)) :
    (d.enqueue k op).memory = d.memory := rfl

lemma unfinished_bump {memory : α → ν}
    (h : Unfinished { gpu := d.gpu.bump k, memory := memory } p w) :
    d.Unfinished p w ∧ (p.stream = k → d.gpu.finished k < p.position) := by
  obtain ⟨hw, hle⟩ := h
  by_cases hk : p.stream = k
  · simp only [Gpu.bump, hk, Function.update_self] at hle
    refine ⟨⟨hw, ?_⟩, fun _ => hle⟩
    rw [hk]
    omega
  · simp only [Gpu.bump, Function.update_of_ne hk] at hle
    exact ⟨⟨hw, hle⟩, fun he => absurd he hk⟩

lemma pending_bump (memory : α → ν) {op : Op κ (Transfer α ν)}
    (hop : (d.gpu.queue k)[d.gpu.finished k]? = some op) :
    d.pending k = op :: pending { gpu := d.gpu.bump k, memory := memory } k := by
  obtain ⟨hlt, he⟩ := List.getElem?_eq_some_iff.mp hop
  rw [pending, pending, List.drop_eq_getElem_cons hlt, he]
  simp only [Gpu.bump, Function.update_self]

lemma pending_bump_of_ne {memory : α → ν} {k' : κ} (h : k' ≠ k) :
    pending { gpu := d.gpu.bump k, memory := memory } k' = d.pending k' := by
  rw [pending, pending]
  simp only [Gpu.bump, Function.update_of_ne h]

lemma unfinished_enqueue {op : Op κ (Transfer α ν)} (h : (d.enqueue k op).Unfinished p w) :
    d.Unfinished p w ∨ (p = d.gpu.here k ∧ op = .work w) := by
  obtain ⟨hw, hle⟩ := h
  obtain hw | ⟨hk, hi, he⟩ := Gpu.enqueue_op hw
  · exact .inl ⟨hw, hle⟩
  · obtain ⟨stream, position⟩ := p
    simp only at hk hi
    subst hk hi
    exact .inr ⟨rfl, he.symm⟩

lemma pending_enqueue (d : Device κ α ν) (k : κ) (op : Op κ (Transfer α ν))
    (hb : d.gpu.finished k ≤ (d.gpu.queue k).length) :
    (d.enqueue k op).pending k = d.pending k ++ [op] := by
  rw [pending, pending, enqueue, Gpu.enqueue]
  simp only [Function.update_self]
  exact List.drop_append_of_le_length hb

lemma pending_enqueue_of_ne {k' : κ} (op : Op κ (Transfer α ν)) (h : k' ≠ k) :
    (d.enqueue k op).pending k' = d.pending k' := by
  rw [pending, pending, enqueue, Gpu.enqueue]
  simp only [Function.update_of_ne h]

lemma wait_calm (d : Device κ α ν) (k : κ) (awaited : Point κ) :
    Calm d (d.enqueue k (.wait awaited)) := by
  refine ⟨Gpu.enqueue_extends _ _ _, fun p w hp => ?_⟩
  obtain hp | ⟨-, he⟩ := unfinished_enqueue hp
  · exact hp
  · exact nomatch he

variable [DecidableEq α]

/-- The first operation of the queue that is not done yet finishes. -/
def finish (d : Device κ α ν) (k : κ) : Option (Device κ α ν) :=
  match d.gpu.finish k, (d.gpu.queue k)[d.gpu.finished k]? with
  | some gpu, some op => some { gpu := gpu, memory := d.perform op }
  | _, _ => none

lemma finish_some (h : d.finish k = some d') : ∃ op, (d.gpu.queue k)[d.gpu.finished k]? = some op ∧
    d.gpu.finish k = some d'.gpu ∧ d' = { gpu := d.gpu.bump k, memory := d.perform op } := by
  rw [finish] at h
  split at h
  · rename_i gpu op hg hop
    obtain rfl := Option.some.inj h
    obtain ⟨hgpu, -⟩ := Gpu.finish_cases hg
    exact ⟨op, hop, hg, by rw [hgpu]⟩
  · exact nomatch h

theorem finish_determined (h : Determined d L) (ho : d.gpu.Orderly) (hf : d.finish k = some d') :
    Determined d' L := by
  obtain ⟨op, hop, -, rfl⟩ := finish_some hf
  constructor
  · intro r v hL
    obtain ⟨k', hone, hreplay⟩ := h.settles r v hL
    refine ⟨k', fun p w hp ht => hone p w (unfinished_bump hp).1 ht, ?_⟩
    have hperform := h.perform_eq ho hop (Option.isSome_iff_exists.mpr ⟨v, hL⟩)
    by_cases hk : k' = k
    · subst hk
      rw [pending_bump (d.perform op) hop] at hreplay
      change replay L r _ (d.perform op r) = v
      rw [hperform]
      exact hreplay
    · rw [pending_bump_of_ne hk]
      change replay L r _ (d.perform op r) = v
      have hsame : apply L r (d.memory r) op = d.memory r := by
        cases op with
        | wait p => rfl
        | work w => exact if_neg fun ht => hk (hone ⟨k, d.gpu.finished k⟩ w ⟨hop, le_rfl⟩ ht).symm
      rw [hperform, hsame]
      exact hreplay
  · intro p w r src hp ht hL hs
    obtain ⟨hsome, hbefore⟩ := h.sources p w r src (unfinished_bump hp).1 ht hL hs
    refine ⟨hsome, fun p' w' hp' ht' => ?_⟩
    exact before_extends (hbefore p' w' (unfinished_bump hp').1 ht') (Gpu.bump_extends _ _)

lemma finish_calm (h : d.finish k = some d') : Calm d d' := by
  obtain ⟨op, -, hg, rfl⟩ := finish_some h
  exact ⟨Gpu.finish_extends hg, fun p w hp => (unfinished_bump hp).1⟩

lemma silent_determined {op : Op κ (Transfer α ν)} (h : Determined d L) (ho : d.gpu.Orderly) (k : κ)
    (hop : ∀ w, op = .work w → w.target = none) : Determined (d.enqueue k op) L := by
  have hold : ∀ p w r, (d.enqueue k op).Unfinished p w → w.target = some r →
      d.Unfinished p w := by
    intro p w r hp ht
    obtain hp | ⟨-, he⟩ := unfinished_enqueue hp
    · exact hp
    · exact nomatch (hop w he).symm.trans ht
  constructor
  · intro r v hL
    obtain ⟨k', hone, hreplay⟩ := h.settles r v hL
    refine ⟨k', fun p w hp ht => hone p w (hold p w r hp ht) ht, ?_⟩
    by_cases hk : k' = k
    · subst hk
      rw [pending_enqueue d k' _ (ho.bounded k'), replay_snoc, enqueue_memory, hreplay]
      cases op with
      | wait p => rfl
      | work w =>
        rw [apply, hop w rfl]
        exact if_neg nofun
    · rw [pending_enqueue_of_ne _ hk]
      exact hreplay
  · intro p w r src hp ht hL hs
    obtain ⟨hsome, hbefore⟩ := h.sources p w r src (hold p w r hp ht) ht hL hs
    refine ⟨hsome, fun p' w' hp' ht' => ?_⟩
    exact before_extends (hbefore p' w' (hold p' w' src hp' ht') ht') (Gpu.enqueue_extends _ _ _)

lemma wait_determined (h : Determined d L) (ho : d.gpu.Orderly) (k : κ) (awaited : Point κ) :
    Determined (d.enqueue k (.wait awaited)) L :=
  silent_determined h ho k nofun

lemma Determined.settles_on (h : Determined d L) (hL : L r = some v)
    (hone : ∀ p w, d.Unfinished p w → w.target = some r → p.stream = k) :
    replay L r (d.pending k) (d.memory r) = v := by
  obtain ⟨k', hone', hreplay⟩ := h.settles r v hL
  by_cases hk : k' = k
  · exact hk ▸ hreplay
  · have hnone : ∀ p w, d.Unfinished p w → w.target ≠ some r := fun p w hp ht =>
      hk ((hone' p w hp ht).symm.trans (hone p w hp ht))
    rw [replay_unchanged]
    · exact h.memory hL hnone
    · intro w hw
      obtain ⟨p, -, hp⟩ := mem_pending hw
      exact hnone p w hp

/-- A transfer without a source, behind all that writes its target; nothing reads that. -/
lemma launch_determined {y : ν} (h : Determined d L) (ho : d.gpu.Orderly) (hs : w.source = none)
    (ht : w.target = some r) (hy : L r = some y)
    (hone : ∀ p w', d.Unfinished p w' → w'.target = some r → p.stream = k)
    (hread : ∀ p w', d.Unfinished p w' → w'.source ≠ some r) :
    Determined (d.enqueue k (.work w)) (Function.update L r (some (w.effect none y))) := by
  have hsources : ∀ (x : Option ν) k', ∀ w', Op.work w' ∈ d.pending k' →
      w'.source.bind (Function.update L r x) = w'.source.bind L := by
    intro x k' w' hw
    obtain ⟨p, -, hp⟩ := mem_pending hw
    cases hs' : w'.source with
    | none => rfl
    | some src =>
      have hne : src ≠ r := fun he => hread p w' hp (he ▸ hs')
      exact Function.update_of_ne hne _ _
  constructor
  · intro r' v hL
    by_cases hr : r' = r
    · subst hr
      rw [Function.update_self] at hL
      refine ⟨k, ?_, ?_⟩
      · intro p w' hp ht'
        obtain hp | ⟨rfl, -⟩ := unfinished_enqueue hp
        · exact hone p w' hp ht'
        · rfl
      · rw [pending_enqueue d k _ (ho.bounded k), replay_snoc, replay_congr (hsources _ k),
          enqueue_memory, h.settles_on hy hone, apply, if_pos ht, hs]
        exact Option.some.inj hL
    · rw [Function.update_of_ne hr] at hL
      obtain ⟨k', hone', hreplay⟩ := h.settles r' v hL
      have hold := (replay_congr (hsources (some (w.effect none y)) k')).trans hreplay
      refine ⟨k', ?_, ?_⟩
      · intro p w' hp ht'
        obtain hp | ⟨-, he⟩ := unfinished_enqueue hp
        · exact hone' p w' hp ht'
        · obtain rfl := Op.work.inj he
          exact absurd (Option.some.inj (ht'.symm.trans ht)) hr
      · by_cases hk : k' = k
        · subst hk
          rw [pending_enqueue d k' _ (ho.bounded k'), replay_snoc, apply, if_neg]
          · exact hold
          · exact fun he => hr (Option.some.inj (he.symm.trans ht))
        · rw [pending_enqueue_of_ne _ hk]
          exact hold
  · intro p w' r' src hp ht' hL hs'
    obtain hp | ⟨-, he⟩ := unfinished_enqueue hp
    · have hsrc : src ≠ r := fun he => hread p w' hp (he ▸ hs')
      have hL' : (L r').isSome := by
        by_cases hr : r' = r
        · rw [hr, hy]
          rfl
        · rwa [Function.update_of_ne hr] at hL
      rw [Function.update_of_ne hsrc]
      obtain ⟨hsome, hall⟩ := h.sources p w' r' src hp ht' hL' hs'
      refine ⟨hsome, fun p' w₀ hp' ht₀ => ?_⟩
      obtain hp' | ⟨-, he⟩ := unfinished_enqueue hp'
      · exact before_extends (hall p' w₀ hp' ht₀) (Gpu.enqueue_extends _ _ _)
      · obtain rfl := Op.work.inj he
        exact absurd (Option.some.inj (ht₀.symm.trans ht)) hsrc
    · obtain rfl := Op.work.inj he
      exact nomatch hs.symm.trans hs'

/-- A transfer into a cell that nothing else touches, behind the writes of its source. -/
lemma transfer_determined {src : α} {x y : ν} (h : Determined d L) (ho : d.gpu.Orderly)
    (hs : w.source = some src) (ht : w.target = some r) (hne : src ≠ r) (hx : L src = some x)
    (hy : L r = some y) (hfree : ∀ p w', d.Unfinished p w' → ¬ w'.Touches r)
    (hbefore : ∀ p w', d.Unfinished p w' → w'.target = some src →
      d.gpu.Before p (d.gpu.here k)) :
    Determined (d.enqueue k (.work w)) (Function.update L r (some (w.effect (some x) y))) := by
  have hmem : d.memory r = y :=
    h.memory hy fun p w' hp ht' => hfree p w' hp (.inr ht')
  constructor
  · intro r' v hL
    by_cases hr : r' = r
    · subst hr
      rw [Function.update_self] at hL
      refine ⟨k, ?_, ?_⟩
      · intro p w' hp ht'
        obtain hp | ⟨rfl, -⟩ := unfinished_enqueue hp
        · exact absurd (.inr ht') (hfree p w' hp)
        · rfl
      · rw [pending_enqueue d k _ (ho.bounded k), replay_snoc, apply, if_pos ht, hs]
        change w.effect (Function.update L r' _ src) (replay _ r' (d.pending k) (d.memory r')) = v
        rw [Function.update_of_ne hne, hx, replay_free hfree k, hmem]
        exact Option.some.inj hL
    · rw [Function.update_of_ne hr] at hL
      obtain ⟨k', hone, hreplay⟩ := h.settles r' v hL
      refine ⟨k', ?_, ?_⟩
      · intro p w' hp ht'
        obtain hp | ⟨-, he⟩ := unfinished_enqueue hp
        · exact hone p w' hp ht'
        · obtain rfl := Op.work.inj he
          exact absurd (Option.some.inj (ht'.symm.trans ht)) hr
      · have hold := (replay_congr
          (source_update hfree (some (w.effect (some x) y)) k')).trans hreplay
        by_cases hk : k' = k
        · subst hk
          rw [pending_enqueue d k' _ (ho.bounded k'), replay_snoc, apply, if_neg]
          · exact hold
          · exact fun he => hr (Option.some.inj (he.symm.trans ht))
        · rw [pending_enqueue_of_ne _ hk]
          exact hold
  · intro p w' r' src' hp ht' hL hs'
    have hext : d.gpu.Extends (d.enqueue k (.work w)).gpu := Gpu.enqueue_extends _ _ _
    have hwriters : ∀ {src₀ : α}, src₀ ≠ r → ∀ p' w₀, (d.enqueue k (.work w)).Unfinished p' w₀ →
        w₀.target = some src₀ → d.Unfinished p' w₀ := by
      intro src₀ hne₀ p' w₀ hp' ht₀
      obtain hp' | ⟨-, he⟩ := unfinished_enqueue hp'
      · exact hp'
      · obtain rfl := Op.work.inj he
        exact absurd (Option.some.inj (ht₀.symm.trans ht)) hne₀
    obtain hp | ⟨rfl, he⟩ := unfinished_enqueue hp
    · have hr : r' ≠ r := fun he => hfree p w' hp (.inr (he ▸ ht'))
      have hsrc : src' ≠ r := fun he => hfree p w' hp (.inl (he ▸ hs'))
      rw [Function.update_of_ne hr] at hL
      rw [Function.update_of_ne hsrc]
      obtain ⟨hsome, hall⟩ := h.sources p w' r' src' hp ht' hL hs'
      exact ⟨hsome, fun p' w₀ hp' ht₀ =>
        before_extends (hall p' w₀ (hwriters hsrc p' w₀ hp' ht₀) ht₀) hext⟩
    · obtain rfl := Op.work.inj he
      obtain rfl := Option.some.inj (hs'.symm.trans hs)
      rw [Function.update_of_ne hne, hx]
      exact ⟨rfl, fun p' w₀ hp' ht₀ =>
        before_extends (hbefore p' w₀ (hwriters hne p' w₀ hp' ht₀) ht₀) hext⟩

end Progress

end Device

end RosidlBufferBackends.Streams
