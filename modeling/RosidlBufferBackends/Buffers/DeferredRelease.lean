import RosidlBufferBackends.Buffers.Custody

/-! A read of an allocation is shielded until it is done: by its open handle, or by
an event that whoever holds the allocation waits for. -/

namespace RosidlBufferBackends.Buffers

open Streams Runs Process Inventory

variable {s s' : Process} {o : Operation} {out : Output} {b b' a ev : ℕ} {x y : CudaBuffer}
  {st : Stream}

/-- The storage of a buffer does not move while a read handle on it is open. -/
def Steady (s : Process) (o : Operation) (_ : Output) : Prop :=
  match o with
  | .moveConstruct b => s.readReferenced b = false
  | .moveAssign b b' => b = b' ∨ (s.readReferenced b = false ∧ s.readReferenced b' = false)
  | _ => True

def Anchored (s : Process) (rh : ReadHandle) : Prop :=
  ∀ a, rh.dataPtr = some a → ∃ b buf, rh.readEvents = some b ∧ s.buffers b = some buf ∧
    buf.devicePtr = some a

structure Attached (s : Process) : Prop where
  lt : ∀ h rh, s.readHandles h = some rh → h < s.nextRead
  anchored : ∀ h rh, s.readHandles h = some rh → Anchored s rh

def Guards (s : Process) (a ev : ℕ) : Prop :=
  (∃ b buf, s.buffers b = some buf ∧ buf.devicePtr = some a ∧ ev ∈ buf.readEvents) ∨
    ∃ item ∈ s.queue, item.devicePtr = some a ∧ ev ∈ item.events

def Covers (s : Process) (rh : ReadHandle) (a : ℕ) (st : Stream) : Prop :=
  rh.stream = st ∧ ∃ b buf, rh.readEvents = some b ∧ s.buffers b = some buf ∧
    buf.devicePtr = some a

def Scoped (s : Process) (a : ℕ) (st : Stream) : Prop :=
  ∃ h rh, s.readHandles h = some rh ∧ Covers s rh a st

def Shielded (s : Process) (a : ℕ) (p : Point Stream) : Prop :=
  Scoped s a p.stream ∨
    ∃ ev k, Guards s a ev ∧ s.recorded ev = some ⟨p.stream, k⟩ ∧ p.position < k

def Done (s : Process) (p : Point Stream) : Prop := p.position < s.gpu.finished p.stream

structure Keeps (s s' : Process) : Prop where
  gpu : s.gpu.Extends s'.gpu
  shield : ∀ a p, p.stream ≠ none → p.position < (s.gpu.queue p.stream).length →
    Shielded s a p → Done s' p ∨ Shielded s' a p

def ReadsGuarded (s : Process) : Prop :=
  ∀ p wk a, p.stream ≠ none → (s.gpu.queue p.stream)[p.position]? = some (.work wk) →
    wk.source = some a → Done s p ∨ Shielded s a p

lemma Attached.not_read (h : Attached s) (hf : s.readReferenced b = false) {k : ℕ}
    {rh : ReadHandle} (hh : s.readHandles k = some rh) : rh.readEvents ≠ some b := by
  intro hre
  have hany : s.readReferenced b = true :=
    List.any_eq_true.mpr ⟨k, List.mem_range.mpr (h.lt k rh hh), by simp [hh, hre]⟩
  rw [hf] at hany
  exact nomatch hany

lemma Covers.pinned {rh : ReadHandle} (h : Covers s rh a st)
    (hp : ∀ b buf, rh.readEvents = some b → s.buffers b = some buf →
      ∃ buf', s'.buffers b = some buf' ∧ buf'.devicePtr = buf.devicePtr) :
    Covers s' rh a st := by
  obtain ⟨hst, b, buf, hre, hb, hptr⟩ := h
  obtain ⟨buf', hb', hptr'⟩ := hp b buf hre hb
  exact ⟨hst, b, buf', hre, hb', hptr'.trans hptr⟩

section Guards

variable (h : Stocked s)

include h

lemma Stocked.guard_lt (hg : Guards s a ev) : ev < s.nextEvent := by
  have hle := h.events ev
  by_contra hlt
  rw [if_neg hlt] at hle
  rcases hg with ⟨b, buf, hb, _, hmem⟩ | ⟨item, hitem, _, hmem⟩
  · have hst := le_total (f := s.buffers) (w := CudaBuffer.tokens ev) (h.placed b buf hb)
    have hpos : 0 < buf.tokens ev := List.count_pos_iff.mpr (List.mem_append_right _ hmem)
    rw [hb, Option.elim_some] at hst
    unfold stock at hle
    omega
  · have hpos : 0 < item.tokens ev := List.count_pos_iff.mpr hmem
    have hsum := le_queued (v := PendingWork.tokens ev) hitem
    omega

lemma Stocked.not_guard (hb : s.buffers b = some x) (hw : x.writeEvent = some ev) :
    ¬ Guards s a ev := by
  have hle : s.stock (CudaBuffer.tokens ev) + s.queued (PendingWork.tokens ev) ≤ 1 :=
    (h.events ev).trans (by split_ifs <;> omega)
  have hlt := h.placed b x hb
  have hst := le_total (f := s.buffers) (w := CudaBuffer.tokens ev) hlt
  have hx : x.tokens ev = 1 + x.readEvents.count ev := by
    simp [CudaBuffer.tokens, hw, Nat.add_comm]
  rw [hb, Option.elim_some] at hst
  rintro (⟨b', buf, hb', _, hmem⟩ | ⟨item, hitem, _, hmem⟩)
  · have hpos : 0 < buf.tokens ev := List.count_pos_iff.mpr (List.mem_append_right _ hmem)
    have hone : total s.nextBuffer s.buffers (CudaBuffer.tokens ev) ≤ 1 := by
      unfold stock at hle
      omega
    obtain rfl : b = b' := by
      apply unique_of_total_le_one hone hlt (h.placed b' buf hb')
      · rw [hb, Option.elim_some]
        omega
      · rwa [hb', Option.elim_some]
    obtain rfl := Option.some.inj (hb.symm.trans hb')
    have hcount : 0 < x.readEvents.count ev := List.count_pos_iff.mpr hmem
    omega
  · have hpos : 0 < item.tokens ev := List.count_pos_iff.mpr hmem
    have hsum := le_queued (v := PendingWork.tokens ev) hitem
    unfold stock at hle
    omega

lemma Stocked.fresh_buffer : s.buffers s.nextBuffer = none := by
  cases hb : s.buffers s.nextBuffer with
  | none => rfl
  | some buf => exact absurd (h.placed _ buf hb) (lt_irrefl _)

end Guards

namespace Keeps

lemma refl (s : Process) : Keeps s s := ⟨.refl _, fun _ _ _ _ h => .inr h⟩

lemma trans {s₁ s₂ s₃ : Process} (h : Keeps s₁ s₂) (h' : Keeps s₂ s₃) : Keeps s₁ s₃ := by
  refine ⟨h.gpu.trans h'.gpu, ?_⟩
  intro a p hne hlt hsh
  rcases h.shield a p hne hlt hsh with hd | hsh
  · exact .inl (Nat.lt_of_lt_of_le hd (h'.gpu.finished _))
  · exact h'.shield a p hne (hlt.trans_le (h.gpu.length_le _)) hsh

lemma of (hgpu : s.gpu.Extends s'.gpu)
    (hscope : ∀ a st, st ≠ none → Scoped s a st → Scoped s' a st ∨
      ∃ ev, Guards s' a ev ∧ s'.recorded ev = some (s.gpu.here st))
    (hguard : ∀ a ev, Guards s a ev → s.complete ev = true ∨
      (Guards s' a ev ∧ s'.recorded ev = s.recorded ev)) : Keeps s s' := by
  refine ⟨hgpu, ?_⟩
  rintro a p hne hlt (hsc | ⟨ev, k, hg, hrec, hk⟩)
  · rcases hscope a p.stream hne hsc with hsc' | ⟨ev, hg, hrec⟩
    · exact .inr (.inl hsc')
    · exact .inr (.inr ⟨ev, _, hg, hrec, hlt⟩)
  · rcases hguard a ev hg with hc | ⟨hg', hrec'⟩
    · left
      have hf := hgpu.finished p.stream
      have hle : k ≤ s.gpu.finished p.stream := by
        simpa [complete, hrec, Gpu.passed] using hc
      exact hk.trans_le (hle.trans hf)
    · exact .inr (.inr ⟨ev, k, hg', hrec'.trans hrec, hk⟩)

lemma still {gpu : Gpu Stream Work} (hgpu : s.gpu.Extends gpu)
    {impls : ℕ → Option CudaBufferImpl} {nextEvent nextAllocation nextState nextWrite : ℕ}
    {deleted : ℕ → ℕ} {states : ℕ → HandleState} {writeHandles : ℕ → Option WriteHandle} :
    Keeps s { s with
      gpu := gpu, impls := impls, nextEvent := nextEvent, nextAllocation := nextAllocation,
      nextState := nextState, nextWrite := nextWrite, deleted := deleted, states := states,
      writeHandles := writeHandles } :=
  .of hgpu (fun _ _ _ hsc => .inl hsc) (fun _ _ hg => .inr ⟨hg, rfl⟩)

lemma recording {recorded : ℕ → Option (Point Stream)} {states : ℕ → HandleState}
    (hr : ∀ a ev, Guards s a ev → recorded ev = s.recorded ev) :
    Keeps s { s with recorded := recorded, states := states } :=
  .of (.refl _) (fun _ _ _ hsc => .inl hsc) (fun a ev hg => .inr ⟨hg, hr a ev hg⟩)

lemma handles {readHandles : ℕ → Option ReadHandle} {nextRead : ℕ}
    (hh : ∀ k rh, s.readHandles k = some rh → ∃ k', readHandles k' = some rh) :
    Keeps s { s with readHandles := readHandles, nextRead := nextRead } := by
  refine .of (.refl _) ?_ (fun _ _ hg => .inr ⟨hg, rfl⟩)
  rintro a st _ ⟨k, rh, hk, hc⟩
  obtain ⟨k', hk'⟩ := hh k rh hk
  exact .inl ⟨k', rh, hk', hc⟩

lemma replace (hb : s.buffers b = some x) (hp : y.devicePtr = x.devicePtr)
    (hr : ∀ ev ∈ x.readEvents, s.complete ev = true ∨ ev ∈ y.readEvents) :
    Keeps s (s.setBuffer b (some y)) := by
  refine .of (.refl _) ?_ ?_
  · rintro a st _ ⟨k, rh, hk, hc⟩
    refine .inl ⟨k, rh, hk, hc.pinned ?_⟩
    intro b₀ buf₀ _ h₀
    by_cases hx : b₀ = b
    · subst hx
      obtain rfl := Option.some.inj (hb.symm.trans h₀)
      exact ⟨y, by simp [setBuffer], hp⟩
    · exact ⟨buf₀, by simpa [setBuffer, Function.update_of_ne hx] using h₀, rfl⟩
  · rintro a ev (⟨b₀, buf₀, h₀, hptr, hmem⟩ | hitem)
    · by_cases hx : b₀ = b
      · subst hx
        obtain rfl := Option.some.inj (hb.symm.trans h₀)
        rcases hr ev hmem with hc | hmem'
        · exact .inl hc
        · exact .inr ⟨.inl ⟨b₀, y, by simp [setBuffer], hp.trans hptr, hmem'⟩, rfl⟩
      · refine .inr ⟨.inl ⟨b₀, buf₀, ?_, hptr, hmem⟩, rfl⟩
        simpa [setBuffer, Function.update_of_ne hx] using h₀
    · exact .inr ⟨.inr hitem, rfl⟩

lemma added (hst : Stocked s) (y : CudaBuffer) : Keeps s (s.addBuffer y) := by
  have hkeep : ∀ b buf, s.buffers b = some buf → (s.addBuffer y).buffers b = some buf := by
    intro b buf hb
    have hx : b ≠ s.nextBuffer := (hst.placed b buf hb).ne
    exact (Function.update_of_ne hx _ _).trans hb
  refine .of (.refl _) ?_ ?_
  · rintro a st _ ⟨k, rh, hk, hc⟩
    exact .inl ⟨k, rh, hk, hc.pinned fun b buf _ hb => ⟨buf, hkeep b buf hb, rfl⟩⟩
  · rintro a ev (⟨b, buf, hb, hptr, hmem⟩ | hitem)
    · exact .inr ⟨.inl ⟨b, buf, hkeep b buf hb, hptr, hmem⟩, rfl⟩
    · exact .inr ⟨.inr hitem, rfl⟩

lemma moved {buffers : ℕ → Option CudaBuffer} {nextBuffer : ℕ} (hat : Attached s)
    (hr : ∀ b buf, s.buffers b = some buf → buffers b = some buf ∨ s.readReferenced b = false)
    (hg : ∀ b buf, s.buffers b = some buf → buf.readEvents ≠ [] →
      ∃ b', buffers b' = some buf) :
    Keeps s { s with buffers := buffers, nextBuffer := nextBuffer } := by
  refine .of (.refl _) ?_ ?_
  · rintro a st _ ⟨k, rh, hk, hc⟩
    refine .inl ⟨k, rh, hk, hc.pinned ?_⟩
    intro b buf hre hb
    rcases hr b buf hb with hb' | hf
    · exact ⟨buf, hb', rfl⟩
    · exact absurd hre (hat.not_read hf hk)
  · rintro a ev (⟨b, buf, hb, hptr, hmem⟩ | hitem)
    · obtain ⟨b', hb'⟩ := hg b buf hb (List.ne_nil_of_mem hmem)
      exact .inr ⟨.inl ⟨b', buf, hb', hptr, hmem⟩, rfl⟩
    · exact .inr ⟨.inr hitem, rfl⟩

lemma frame {recorded : ℕ → Option (Point Stream)} {states : ℕ → HandleState}
    (hst : Stocked s) (hb : s.buffers b = some x)
    (hr : Records s x.writeEvent recorded) :
    Keeps s { s with recorded := recorded, states := states } := by
  apply recording
  intro a ev hg
  apply (hr ev).resolve_right
  rintro ⟨hw, _⟩
  exact hst.not_guard hb hw hg

lemma finalizeWriteHandle (hst : Stocked s) (hb : s.buffers b = some x) :
    Keeps s (s.finalizeWriteHandle x) := by
  obtain ⟨recorded, states, he, hr⟩ := finalizeWriteHandle_frame s x
  rw [he]
  exact frame hst hb hr

lemma reap (hb : s.buffers b = some x) : Keeps s (s.reapCompletedReadEvents b x) := by
  refine replace hb ?_ ?_
  · rfl
  · intro ev hmem
    cases hc : s.complete ev with
    | true => exact .inl rfl
    | false => exact .inr (List.mem_filter.mpr ⟨hmem, by simp [hc]⟩)

lemma addRead (hlt : ∀ k rh, s.readHandles k = some rh → k < s.nextRead) (rh : ReadHandle) :
    Keeps s (s.addRead rh) := by
  apply handles
  intro k rh' hk
  exact ⟨k, (Function.update_of_ne (hlt k rh' hk).ne _ _).trans hk⟩

lemma getReadHandle (hst : Stocked s) (hat : Attached s) (hb : s.buffers b = some x) :
    Keeps s (s.getReadHandle b x st) := by
  have hst' := hst.reapCompletedReadEvents hb
  have hfin : Keeps (s.reapCompletedReadEvents b x)
      ((s.reapCompletedReadEvents b x).finalizeOpenWrite x) := by
    obtain ⟨recorded, states, he, hr⟩ :=
      finalizeOpenWrite_frame (s.reapCompletedReadEvents b x) x
    rw [he]
    exact frame hst' (reaped_buffer s b x) hr
  have hwait : ∀ s₀ : Process, Keeps s₀ (s₀.waitForWrite x st) := by
    intro s₀
    obtain ⟨gpu, he, hg⟩ := waitForWrite_frame s₀ x st
    rw [he]
    apply still
    rcases hg with rfl | ⟨p, rfl⟩
    · exact .refl _
    · exact Gpu.enqueue_extends _ _ _
  refine (((reap hb).trans hfin).trans (hwait _)).trans (addRead ?_ _)
  obtain ⟨gpu, he, _⟩ :=
    waitForWrite_frame ((s.reapCompletedReadEvents b x).finalizeOpenWrite x) x st
  obtain ⟨recorded, states, he', _⟩ :=
    finalizeOpenWrite_frame (s.reapCompletedReadEvents b x) x
  rw [he, he']
  exact hat.lt

lemma releaseWrite (hst : Stocked s) (wh : WriteHandle) : Keeps s (s.releaseWrite wh) := by
  obtain ⟨recorded, states, he, hr⟩ := releaseWrite_frame s wh
  rw [he]
  apply recording
  intro a ev hg
  apply (hr ev).resolve_right
  rintro ⟨hw, _⟩
  obtain ⟨buf, hb, hev⟩ := Option.bind_eq_some_iff.mp hw
  obtain ⟨b, _, hb⟩ := Option.bind_eq_some_iff.mp hb
  exact hst.not_guard hb hev hg

lemma releaseRead (hst : Stocked s) {k : ℕ} {rh : ReadHandle} (hk : s.readHandles k = some rh)
    {readHandles : ℕ → Option ReadHandle}
    (hh : ∀ k' rh', k' ≠ k → s.readHandles k' = some rh' → ∃ k'', readHandles k'' = some rh') :
    Keeps s { s.releaseRead rh with readHandles := readHandles } := by
  rcases releaseRead_cases s rh with ⟨he, hnone⟩ | ⟨b, x, hre, hb, he⟩
  · rw [he]
    refine .of (.refl _) ?_ (fun _ _ hg => .inr ⟨hg, rfl⟩)
    rintro a st hne ⟨k', rh', hk', hc⟩
    by_cases hx : k' = k
    · subst hx
      obtain rfl := Option.some.inj (hk.symm.trans hk')
      obtain ⟨rfl, b, buf, hre, hb, _⟩ := hc
      rcases hnone with hnone | hnone
      · rw [hre] at hnone
        exact absurd (hnone.symm.trans hb) nofun
      · exact absurd hnone hne
    · obtain ⟨k'', hk''⟩ := hh k' rh' hx hk'
      exact .inl ⟨k'', rh', hk'', hc⟩
  · rw [he]
    refine .of (.refl _) ?_ ?_
    · rintro a st _ ⟨k', rh', hk', hc⟩
      by_cases hx : k' = k
      · subst hx
        obtain rfl := Option.some.inj (hk.symm.trans hk')
        obtain ⟨rfl, b', buf, hre', hb', hptr⟩ := hc
        obtain rfl := Option.some.inj (hre.symm.trans hre')
        obtain rfl := Option.some.inj (hb.symm.trans hb')
        refine .inr ⟨s.nextEvent, .inl ⟨b, _, Function.update_self .., hptr, ?_⟩, ?_⟩
        · exact List.mem_append_right _ (List.mem_singleton_self _)
        · exact Function.update_self ..
      · obtain ⟨k'', hk''⟩ := hh k' rh' hx hk'
        refine .inl ⟨k'', rh', hk'', hc.pinned ?_⟩
        intro b₀ buf₀ _ h₀
        by_cases hx : b₀ = b
        · subst hx
          obtain rfl := Option.some.inj (hb.symm.trans h₀)
          exact ⟨_, Function.update_self .., rfl⟩
        · exact ⟨buf₀, (Function.update_of_ne hx _ _).trans h₀, rfl⟩
    · intro a ev hg
      have hev : ev ≠ s.nextEvent := (hst.guard_lt hg).ne
      refine .inr ⟨?_, Function.update_of_ne hev _ _⟩
      rcases hg with ⟨b₀, buf₀, h₀, hptr, hmem⟩ | hitem
      · by_cases hx : b₀ = b
        · subst hx
          obtain rfl := Option.some.inj (hb.symm.trans h₀)
          exact .inl ⟨b₀, _, Function.update_self .., hptr, List.mem_append_left _ hmem⟩
        · exact .inl ⟨b₀, buf₀, (Function.update_of_ne hx _ _).trans h₀, hptr, hmem⟩
      · exact .inr hitem

lemma destroy (hst : Stocked s) (hat : Attached s) (hb : s.buffers b = some x)
    (hf : s.readReferenced b = false) : Keeps s (s.destroy b x) := by
  have hother : ∀ {b₀ buf₀}, b₀ ≠ b → s.buffers b₀ = some buf₀ →
      Function.update s.buffers b none b₀ = some buf₀ :=
    fun hne h₀ => (Function.update_of_ne hne _ _).trans h₀
  have hscope : ∀ {s' : Process} {a st}, s'.buffers = Function.update s.buffers b none →
      s'.readHandles = s.readHandles → Scoped s a st → Scoped s' a st := by
    rintro s' a st hbuf hread ⟨k, rh, hk, hc⟩
    refine ⟨k, rh, hread ▸ hk, hc.pinned ?_⟩
    intro b₀ buf₀ hre h₀
    have hne : b₀ ≠ b := by
      rintro rfl
      exact hat.not_read hf hk hre
    exact ⟨buf₀, hbuf ▸ hother hne h₀, rfl⟩
  unfold Process.destroy
  split_ifs with hq
  · refine .of (.refl _) (fun _ _ _ hsc => .inl (hscope rfl rfl hsc)) ?_
    rintro a ev (⟨b₀, buf₀, h₀, hptr, hmem⟩ | ⟨item, hitem, hptr, hmem⟩)
    · by_cases hx : b₀ = b
      · subst hx
        obtain rfl := Option.some.inj (hb.symm.trans h₀)
        refine .inr ⟨.inr ⟨⟨eventsToSync x, x.devicePtr⟩, ?_, hptr, ?_⟩, rfl⟩
        · exact List.mem_append_right _ (List.mem_singleton_self _)
        · exact List.mem_append_right _ hmem
      · exact .inr ⟨.inl ⟨b₀, buf₀, hother hx h₀, hptr, hmem⟩, rfl⟩
    · exact .inr ⟨.inr ⟨item, List.mem_append_left _ hitem, hptr, hmem⟩, rfl⟩
  · rw [delete_frame]
    refine .of (.refl _) (fun _ _ _ hsc => .inl (hscope rfl rfl hsc)) ?_
    rintro a ev (⟨b₀, buf₀, h₀, hptr, hmem⟩ | hitem)
    · have hne : b₀ ≠ b := by
        rintro rfl
        obtain rfl := Option.some.inj (hb.symm.trans h₀)
        have hrec := hst.recycled b₀ x hb (by rw [hptr]; rfl)
        apply hq
        rw [hrec, Bool.and_true]
        cases hev : eventsToSync x with
        | nil =>
          have hnil := (List.append_eq_nil_iff.mp hev).2
          rw [hnil] at hmem
          exact nomatch hmem
        | cons _ _ => rfl
      exact .inr ⟨.inl ⟨b₀, buf₀, hother hne h₀, hptr, hmem⟩, rfl⟩
    · exact .inr ⟨.inr hitem, rfl⟩

lemma recycle {item : PendingWork} {rest : List PendingWork} (hq : s.queue = item :: rest)
    (hall : item.events.all s.complete = true) :
    Keeps s ({ s with queue := rest }.delete item.devicePtr) := by
  rw [delete_frame]
  refine .of (.refl _) (fun _ _ _ hsc => .inl hsc) ?_
  rintro a ev (hbuf | ⟨item', hitem, hptr, hmem⟩)
  · exact .inr ⟨.inl hbuf, rfl⟩
  · rw [hq] at hitem
    rcases List.mem_cons.mp hitem with rfl | hitem
    · exact .inl (List.all_eq_true.mp hall ev hmem)
    · exact .inr ⟨.inr ⟨item', hitem, hptr, hmem⟩, rfl⟩

lemma moveConstruct (hst : Stocked s) (hat : Attached s) (hb : s.buffers b = some x)
    (hf : s.readReferenced b = false) : Keeps s (s.moveConstruct b x) := by
  have hold : ∀ {b₀ buf₀}, b₀ ≠ b → s.buffers b₀ = some buf₀ →
      (s.moveConstruct b x).buffers b₀ = some buf₀ := by
    intro b₀ buf₀ hne h₀
    have hlt : b₀ ≠ s.nextBuffer := (hst.placed b₀ buf₀ h₀).ne
    exact (Function.update_of_ne hlt _ _).trans ((Function.update_of_ne hne _ _).trans h₀)
  apply moved hat
  · intro b₀ buf₀ h₀
    by_cases hx : b₀ = b
    · exact .inr (hx ▸ hf)
    · exact .inl (hold hx h₀)
  · intro b₀ buf₀ h₀ _
    by_cases hx : b₀ = b
    · subst hx
      obtain rfl := Option.some.inj (hb.symm.trans h₀)
      exact ⟨s.nextBuffer, Function.update_self ..⟩
    · exact ⟨b₀, hold hx h₀⟩

lemma swap (hat : Attached s) (hne : b ≠ b') (hb : s.buffers b = some x)
    (hb' : s.buffers b' = some y) (hf : s.readReferenced b = false)
    (hf' : s.readReferenced b' = false) : Keeps s (s.swap b b' x y) := by
  have hold : ∀ {b₀ buf₀}, b₀ ≠ b → b₀ ≠ b' → s.buffers b₀ = some buf₀ →
      (s.swap b b' x y).buffers b₀ = some buf₀ := by
    intro b₀ buf₀ hx hx' h₀
    exact (Function.update_of_ne hx' _ _).trans ((Function.update_of_ne hx _ _).trans h₀)
  apply moved hat
  · intro b₀ buf₀ h₀
    by_cases hx : b₀ = b
    · exact .inr (hx ▸ hf)
    · by_cases hx' : b₀ = b'
      · exact .inr (hx' ▸ hf')
      · exact .inl (hold hx hx' h₀)
  · intro b₀ buf₀ h₀ _
    by_cases hx : b₀ = b
    · subst hx
      obtain rfl := Option.some.inj (hb.symm.trans h₀)
      exact ⟨b', Function.update_self ..⟩
    · by_cases hx' : b₀ = b'
      · subst hx'
        obtain rfl := Option.some.inj (hb'.symm.trans h₀)
        exact ⟨b, (Function.update_of_ne hne _ _).trans (Function.update_self ..)⟩
      · exact ⟨b₀, hold hx hx' h₀⟩

lemma act (hst : Stocked s) (hat : Attached s) (hg : Steady s o out)
    (ha : s.act o = some (out, s')) : Keeps s s' := by
  cases act_cases ha with
  | unchanged impls => exact .still (.refl _)
  | constructDefault => exact .added hst _
  | construct size => exact (added hst _).trans (.still (.refl _))
  | setWriteEvent hb =>
    refine (replace hb ?_ ?_).trans (.still (.refl _))
    · rfl
    · exact fun ev hmem => .inr hmem
  | moveConstruct hb => exact .moveConstruct hst hat hb hg
  | moveAssign hb hb' hne =>
    obtain ⟨hf, hf'⟩ := hg.resolve_left hne
    exact .swap hat hne hb hb' hf hf'
  | destroy hb href => exact .destroy hst hat hb (Bool.or_eq_false_iff.mp href).1
  | getReadHandle hb => exact .getReadHandle hst hat hb
  | refused hb => exact .reap hb
  | granted hb _ _ _ => exact (reap hb).trans (.still (.refl _))
  | grantedFirst hb _ _ =>
    refine (reap hb).trans ((replace (reaped_buffer s _ _) ?_ ?_).trans (.still (.refl _)))
    · rfl
    · exact fun ev hmem => .inr hmem
  | finalizeWriteHandle hb => exact .finalizeWriteHandle hst hb
  | launch _ _ => exact .still (Gpu.enqueue_extends _ _ _)
  | @moveRead k rh hk =>
    apply handles
    intro k₀ rh₀ h₀
    by_cases hx : k₀ = k
    · subst hx
      obtain rfl := Option.some.inj (hk.symm.trans h₀)
      exact ⟨s.nextRead, Function.update_self ..⟩
    · have hlt : k₀ ≠ s.nextRead := (hat.lt k₀ rh₀ h₀).ne
      exact ⟨k₀, (Function.update_of_ne hlt _ _).trans ((Function.update_of_ne hx _ _).trans h₀)⟩
  | @assignRead k k' rh rh' hk hk' hne =>
    refine releaseRead hst hk ?_
    intro k₀ rh₀ hx h₀
    by_cases hx' : k₀ = k'
    · subst hx'
      obtain rfl := Option.some.inj (hk'.symm.trans h₀)
      exact ⟨k, (Function.update_of_ne hne _ _).trans (Function.update_self ..)⟩
    · refine ⟨k₀, ?_⟩
      have hold := (congrFun (releaseRead_readHandles s rh).1 k₀).trans h₀
      exact (Function.update_of_ne hx' _ _).trans ((Function.update_of_ne hx _ _).trans hold)
  | @closeRead k rh hk =>
    refine releaseRead hst hk ?_
    intro k₀ rh₀ hx h₀
    have hold := (congrFun (releaseRead_readHandles s rh).1 k₀).trans h₀
    exact ⟨k₀, (Function.update_of_ne hx _ _).trans hold⟩
  | moveWrite _ => exact .still (.refl _)
  | assignWrite _ _ _ => exact (releaseWrite hst _).trans (.still (.refl _))
  | closeWrite _ => exact (releaseWrite hst _).trans (.still (.refl _))
  | finish hf => exact .still (Gpu.finish_extends hf)
  | recycle hq hall => exact .recycle hq hall

end Keeps

/-- The buffers that read handles point into stay, with their storage. -/
def Pins (s s' : Process) : Prop :=
  ∀ k rh b buf, s.readHandles k = some rh → rh.readEvents = some b → s.buffers b = some buf →
    ∃ buf', s'.buffers b = some buf' ∧ buf'.devicePtr = buf.devicePtr

section Attached

lemma pins_of_eq (h : s'.buffers = s.buffers) : Pins s s' :=
  fun _ _ _ buf _ _ hb => ⟨buf, h ▸ hb, rfl⟩

lemma pins_of_update (hu : s'.buffers = Function.update s.buffers b (some y))
    (hb : s.buffers b = some x) (hp : y.devicePtr = x.devicePtr) : Pins s s' := by
  intro k rh b₀ buf₀ _ _ h₀
  by_cases hx : b₀ = b
  · subst hx
    obtain rfl := Option.some.inj (hb.symm.trans h₀)
    exact ⟨y, by rw [hu, Function.update_self], hp⟩
  · exact ⟨buf₀, by rw [hu, Function.update_of_ne hx, h₀], rfl⟩

lemma pins_of_moved (hat : Attached s) (h : ∀ b buf, s.buffers b = some buf →
    s'.buffers b = some buf ∨ s.readReferenced b = false) : Pins s s' := by
  intro k rh b₀ buf₀ hk hre h₀
  rcases h b₀ buf₀ h₀ with h₁ | hf
  · exact ⟨buf₀, h₁, rfl⟩
  · exact absurd hre (hat.not_read hf hk)

lemma pins_added (hst : Stocked s)
    (h : s'.buffers = Function.update s.buffers s.nextBuffer (some y)) :
    Pins s s' := by
  intro k rh b₀ buf₀ _ _ h₀
  exact ⟨buf₀, by rw [h, Function.update_of_ne (hst.placed b₀ buf₀ h₀).ne, h₀], rfl⟩

lemma releaseRead_pins (s : Process) (rh : ReadHandle) {readHandles : ℕ → Option ReadHandle} :
    Pins s { s.releaseRead rh with readHandles := readHandles } := by
  rcases releaseRead_cases s rh with ⟨he, _⟩ | ⟨b, x, _, hb, he⟩
  · rw [he]
    exact pins_of_eq rfl
  · rw [he]
    refine pins_of_update rfl hb ?_
    rfl

lemma act_pins (hst : Stocked s) (hat : Attached s) (hg : Steady s o out)
    (ha : s.act o = some (out, s')) : Pins s s' := by
  cases act_cases ha with
  | unchanged impls => exact pins_of_eq rfl
  | constructDefault => exact pins_added hst rfl
  | construct size => exact pins_added hst rfl
  | setWriteEvent hb =>
    refine pins_of_update rfl hb ?_
    rfl
  | @moveConstruct b x hb =>
    apply pins_of_moved hat
    intro b₀ buf₀ h₀
    by_cases hx : b₀ = b
    · exact .inr (hx ▸ hg)
    · have hlt : b₀ ≠ s.nextBuffer := (hst.placed b₀ buf₀ h₀).ne
      exact .inl ((Function.update_of_ne hlt _ _).trans ((Function.update_of_ne hx _ _).trans h₀))
  | @moveAssign b b' x y hb hb' hne =>
    obtain ⟨hf, hf'⟩ := hg.resolve_left hne
    apply pins_of_moved hat
    intro b₀ buf₀ h₀
    by_cases hx : b₀ = b
    · exact .inr (hx ▸ hf)
    · by_cases hx' : b₀ = b'
      · exact .inr (hx' ▸ hf')
      · exact .inl ((Function.update_of_ne hx' _ _).trans ((Function.update_of_ne hx _ _).trans h₀))
  | @destroy b x hb href =>
    apply pins_of_moved hat
    intro b₀ buf₀ h₀
    by_cases hx : b₀ = b
    · exact .inr (hx ▸ (Bool.or_eq_false_iff.mp href).1)
    · obtain ⟨queue, deleted, he⟩ := destroy_frame s b x
      rw [he]
      exact .inl ((Function.update_of_ne hx _ _).trans h₀)
  | @getReadHandle b x st hb =>
    obtain ⟨gpu, recorded, states, he, _⟩ := getReadHandle_frame s b x st
    rw [he]
    refine pins_of_update rfl hb ?_
    rfl
  | refused hb =>
    refine pins_of_update rfl hb ?_
    rfl
  | granted hb _ _ _ =>
    refine pins_of_update rfl hb ?_
    rfl
  | grantedFirst hb _ _ =>
    refine pins_of_update (Function.update_idem ..) hb ?_
    rfl
  | finalizeWriteHandle hb =>
    obtain ⟨recorded, states, he, _⟩ := finalizeWriteHandle_frame s _
    rw [he]
    exact pins_of_eq rfl
  | launch _ _ => exact pins_of_eq rfl
  | moveRead _ => exact pins_of_eq rfl
  | assignRead _ _ _ => exact releaseRead_pins s _
  | closeRead _ => exact releaseRead_pins s _
  | moveWrite _ => exact pins_of_eq rfl
  | @assignWrite _ _ wh _ _ _ _ =>
    obtain ⟨recorded, states, he, _⟩ := releaseWrite_frame s wh
    rw [he]
    exact pins_of_eq rfl
  | @closeWrite _ wh _ =>
    obtain ⟨recorded, states, he, _⟩ := releaseWrite_frame s wh
    rw [he]
    exact pins_of_eq rfl
  | finish _ => exact pins_of_eq rfl
  | recycle _ _ =>
    rw [delete_frame]
    exact pins_of_eq rfl

lemma Anchored.pinned {rh : ReadHandle} {k : ℕ} (h : Anchored s rh)
    (hk : s.readHandles k = some rh) (hp : Pins s s') : Anchored s' rh := by
  intro a ha
  obtain ⟨b, buf, hre, hb, hptr⟩ := h a ha
  obtain ⟨buf', hb', hptr'⟩ := hp k rh b buf hk hre hb
  exact ⟨b, buf', hre, hb', hptr'.trans hptr⟩

lemma anchored_empty (s : Process) : Anchored s {} := nofun

lemma Attached.of (h : Attached s) (hp : Pins s s') (hn : s.nextRead ≤ s'.nextRead)
    (hh : ∀ k rh, s'.readHandles k = some rh →
      s.readHandles k = some rh ∨ (k < s'.nextRead ∧ Anchored s' rh)) : Attached s' := by
  constructor
  · intro k rh hk
    rcases hh k rh hk with hk | ⟨hlt, _⟩
    · exact (h.lt k rh hk).trans_le hn
    · exact hlt
  · intro k rh hk
    rcases hh k rh hk with hk | ⟨_, hx⟩
    · exact (h.anchored k rh hk).pinned hk hp
    · exact hx

lemma Attached.same (h : Attached s) (hp : Pins s s') (hn : s'.nextRead = s.nextRead)
    (hh : s'.readHandles = s.readHandles) : Attached s' :=
  h.of hp hn.ge fun _ _ hk => .inl (hh ▸ hk)

lemma act_attached (hst : Stocked s) (hat : Attached s) (hg : Steady s o out)
    (ha : s.act o = some (out, s')) : Attached s' := by
  have hp := act_pins hst hat hg ha
  cases act_cases ha with
  | unchanged impls => exact hat.same hp rfl rfl
  | constructDefault => exact hat.same hp rfl rfl
  | construct size => exact hat.same hp rfl rfl
  | setWriteEvent hb => exact hat.same hp rfl rfl
  | moveConstruct hb => exact hat.same hp rfl rfl
  | moveAssign hb hb' hne => exact hat.same hp rfl rfl
  | @destroy b x hb href =>
    obtain ⟨queue, deleted, he⟩ := destroy_frame s b x
    rw [he] at hp ⊢
    exact hat.same hp rfl rfl
  | @getReadHandle b x st hb =>
    obtain ⟨gpu, recorded, states, he, _⟩ := getReadHandle_frame s b x st
    rw [he] at hp ⊢
    refine hat.of hp (Nat.le_succ _) ?_
    intro k rh hk
    rcases update_some hk with ⟨rfl, he⟩ | ⟨_, h₁⟩
    · obtain rfl := Option.some.inj he
      refine .inr ⟨Nat.lt_succ_self _, ?_⟩
      intro a hptr
      exact ⟨b, _, rfl, Function.update_self .., hptr⟩
    · exact .inl h₁
  | refused hb => exact hat.same hp rfl rfl
  | granted hb _ _ _ => exact hat.same hp rfl rfl
  | grantedFirst hb _ _ => exact hat.same hp rfl rfl
  | finalizeWriteHandle hb =>
    obtain ⟨recorded, states, he, _⟩ := finalizeWriteHandle_frame s _
    rw [he] at hp ⊢
    exact hat.same hp rfl rfl
  | launch _ _ => exact hat.same hp rfl rfl
  | @moveRead k rh hk =>
    refine hat.of hp (Nat.le_succ _) ?_
    intro k₀ rh₀ h₀
    rcases update_some h₀ with ⟨rfl, he⟩ | ⟨_, h₁⟩
    · obtain rfl := Option.some.inj he
      exact .inr ⟨Nat.lt_succ_self _, (hat.anchored k _ hk).pinned hk hp⟩
    · rcases update_some h₁ with ⟨rfl, he⟩ | ⟨_, h₂⟩
      · obtain rfl := Option.some.inj he
        exact .inr ⟨Nat.lt_succ_of_lt (hat.lt k₀ rh hk), anchored_empty _⟩
      · exact .inl h₂
  | @assignRead k k' rh rh' hk hk' hne =>
    obtain ⟨hh, hn⟩ := releaseRead_readHandles s rh
    refine hat.of hp hn.ge ?_
    intro k₀ rh₀ h₀
    rcases update_some h₀ with ⟨rfl, he⟩ | ⟨_, h₁⟩
    · obtain rfl := Option.some.inj he
      exact .inr ⟨(hat.lt k₀ rh' hk').trans_eq hn.symm, anchored_empty _⟩
    · rcases update_some h₁ with ⟨rfl, he⟩ | ⟨_, h₂⟩
      · obtain rfl := Option.some.inj he
        exact .inr ⟨(hat.lt k₀ rh hk).trans_eq hn.symm, (hat.anchored k' _ hk').pinned hk' hp⟩
      · exact .inl ((congrFun hh k₀).symm.trans h₂)
  | @closeRead k rh hk =>
    obtain ⟨hh, hn⟩ := releaseRead_readHandles s rh
    refine hat.of hp hn.ge ?_
    intro k₀ rh₀ h₀
    rcases update_some h₀ with ⟨_, he⟩ | ⟨_, h₁⟩
    · exact nomatch he
    · exact .inl ((congrFun hh k₀).symm.trans h₁)
  | moveWrite _ => exact hat.same hp rfl rfl
  | @assignWrite _ _ wh _ _ _ _ =>
    obtain ⟨recorded, states, he, _⟩ := releaseWrite_frame s wh
    rw [he] at hp ⊢
    exact hat.same hp rfl rfl
  | @closeWrite _ wh _ =>
    obtain ⟨recorded, states, he, _⟩ := releaseWrite_frame s wh
    rw [he] at hp ⊢
    exact hat.same hp rfl rfl
  | finish _ => exact hat.same hp rfl rfl
  | recycle _ _ =>
    rw [delete_frame] at hp ⊢
    exact hat.same hp rfl rfl

end Attached

section Runs

lemma act_work (ha : s.act o = some (out, s')) {k : Stream} {i : ℕ} {wk : Work}
    (hw : (s'.gpu.queue k)[i]? = some (.work wk)) :
    (s.gpu.queue k)[i]? = some (.work wk) ∨
      ∃ r w, o = .launch k r w ∧ r.all (s.mayRead k) = true ∧ wk = s.workOf r w := by
  rcases act_gpu ha with he | ⟨st, p, he⟩ | ⟨st, r, w, rfl, hr, he⟩ | ⟨st, _, hf⟩
  · exact .inl (he ▸ hw)
  · rw [he] at hw
    rcases Gpu.enqueue_op hw with hw | ⟨_, _, hop⟩
    · exact .inl hw
    · exact nomatch hop
  · rw [he] at hw
    rcases Gpu.enqueue_op hw with hw | ⟨rfl, _, hop⟩
    · exact .inl hw
    · exact .inr ⟨r, w, rfl, hr, Op.work.inj hop⟩
  · obtain ⟨he, _⟩ := Gpu.finish_cases hf
    rw [he] at hw
    exact .inl hw

/-- The handle that a launch reads through covers the allocation that it reads. -/
lemma scoped_of_launch (hat : Attached s) {r w : Option ℕ} (hr : r.all (s.mayRead st) = true)
    (hs : (s.workOf r w).source = some a) : Scoped s a st := by
  obtain ⟨k, rfl, hs⟩ := Option.bind_eq_some_iff.mp hs
  obtain ⟨rh, hk, hptr⟩ := Option.bind_eq_some_iff.mp hs
  have hst : rh.stream = st := by
    have hmay : s.mayRead st k = true := hr
    simp only [mayRead, hk, Option.any_some, Bool.and_eq_true, decide_eq_true_eq] at hmay
    exact hmay.1
  obtain ⟨b, buf, hre, hb, hptr'⟩ := hat.anchored k rh hk a hptr
  exact ⟨k, rh, hk, hst, b, buf, hre, hb, hptr'⟩

lemma act_readsGuarded (hst : Stocked s) (hat : Attached s) (h : ReadsGuarded s)
    (hg : Steady s o out) (ha : s.act o = some (out, s')) : ReadsGuarded s' := by
  have hk := Keeps.act hst hat hg ha
  intro p wk a hne hw hs
  rcases act_work ha hw with hw | ⟨r, w, rfl, hr, rfl⟩
  · have hlt := (List.getElem?_eq_some_iff.mp hw).1
    rcases h p wk a hne hw hs with hd | hsh
    · exact .inl (Nat.lt_of_lt_of_le hd (hk.gpu.finished _))
    · exact hk.shield a p hne hlt hsh
  · have hsc := scoped_of_launch hat hr hs
    cases act_cases ha with
    | launch _ _ => exact .inr (.inl hsc)
    | unchanged impls => exact .inr (.inl hsc)

lemma attached_initial : Attached {} := ⟨nofun, nofun⟩

lemma readsGuarded_initial : ReadsGuarded {} := by
  intro p wk a _ hw
  simp at hw

variable {tr : List (Operation × Output)}

lemma run_readsGuarded (hr : Run act {} tr s) (hg : Every act Steady {} tr) :
    Stocked s ∧ Attached s ∧ ReadsGuarded s := by
  refine hr.induction_every (P := fun _ s => Stocked s ∧ Attached s ∧ ReadsGuarded s) hg
    ⟨stocked_initial, attached_initial, readsGuarded_initial⟩ ?_
  rintro _ s o out s' _ ⟨hst, hat, h⟩ hgood ha
  exact ⟨act_stocked hst ha, act_attached hst hat hgood ha, act_readsGuarded hst hat h hgood ha⟩

/-- Whoever guards an allocation still has it. -/
lemma not_shielded_of_deleted (hst : Stocked s) {p : Point Stream} (hd : s.deleted a ≠ 0) :
    ¬ Shielded s a p := by
  have hone : s.stock (CudaBuffer.holds a) + s.queued (PendingWork.holds a) + s.deleted a ≤ 1 :=
    (hst.custody a).le.trans (by split_ifs <;> omega)
  have hbuffers : ∀ {b buf}, s.buffers b = some buf → buf.devicePtr ≠ some a := by
    intro b buf hb hptr
    have hle := le_total (f := s.buffers) (w := CudaBuffer.holds a) (hst.placed b buf hb)
    rw [hb, Option.elim_some, CudaBuffer.holds, if_pos hptr] at hle
    unfold stock at hone
    omega
  rintro (⟨_, _, _, _, b, buf, _, hb, hptr⟩ | ⟨ev, k, hg, _⟩)
  · exact hbuffers hb hptr
  · rcases hg with ⟨b, buf, hb, hptr, _⟩ | ⟨item, hitem, hptr, _⟩
    · exact hbuffers hb hptr
    · have hle := le_queued (v := PendingWork.holds a) hitem
      rw [PendingWork.holds, if_pos hptr] at hle
      omega

/-- Every recorded point has been reached by its queue. -/
def Reached (s : Process) : Prop :=
  ∀ ev p, s.recorded ev = some p → p.position ≤ (s.gpu.queue p.stream).length

lemma reached_of (h : Reached s) (hext : s.gpu.Extends s'.gpu)
    (hr : ∀ ev, s'.recorded ev = s.recorded ev ∨ ∃ st, s'.recorded ev = some (s.gpu.here st)) :
    Reached s' := by
  intro ev p hp
  apply le_trans _ (hext.length_le _)
  rcases hr ev with he | ⟨st, he⟩
  · exact h ev p (he ▸ hp)
  · obtain rfl := Option.some.inj (he.symm.trans hp)
    exact le_rfl

lemma act_recorded (ha : s.act o = some (out, s')) (ev : ℕ) :
    s'.recorded ev = s.recorded ev ∨ ∃ st, s'.recorded ev = some (s.gpu.here st) := by
  have hrelease : ∀ rh : ReadHandle, (s.releaseRead rh).recorded ev = s.recorded ev ∨
      ∃ st, (s.releaseRead rh).recorded ev = some (s.gpu.here st) := by
    intro rh
    rcases releaseRead_cases s rh with ⟨he, _⟩ | ⟨_, _, _, _, he⟩
    · rw [he]
      exact .inl rfl
    · rw [he]
      by_cases hev : ev = s.nextEvent
      · subst hev
        exact .inr ⟨_, Function.update_self ..⟩
      · exact .inl (Function.update_of_ne hev _ _)
  cases act_cases ha with
  | @destroy b buf _ _ =>
    obtain ⟨queue, deleted, he⟩ := destroy_frame s b buf
    rw [he]
    exact .inl rfl
  | @getReadHandle b buf st _ =>
    obtain ⟨gpu, recorded, states, he, _, hr⟩ := getReadHandle_frame s b buf st
    rw [he]
    exact (hr ev).imp_right And.right
  | @finalizeWriteHandle b buf _ =>
    obtain ⟨recorded, states, he, hr⟩ := finalizeWriteHandle_frame s buf
    rw [he]
    exact (hr ev).imp_right And.right
  | @assignRead _ _ rh _ _ _ _ => exact hrelease rh
  | @closeRead _ rh _ => exact hrelease rh
  | @assignWrite _ _ wh _ _ _ _ =>
    obtain ⟨recorded, states, he, hr⟩ := releaseWrite_frame s wh
    rw [he]
    exact (hr ev).imp_right And.right
  | @closeWrite _ wh _ =>
    obtain ⟨recorded, states, he, hr⟩ := releaseWrite_frame s wh
    rw [he]
    exact (hr ev).imp_right And.right
  | recycle _ _ =>
    rw [delete_frame]
    exact .inl rfl
  | _ => exact .inl rfl

lemma run_reached (hr : Run act {} tr s) : Reached s := by
  apply hr.invariant
  · exact nofun
  · exact fun _ _ _ _ h ha => reached_of h (act_extends ha) (act_recorded ha)

/-- With all streams idle the recycler can go on. -/
lemma recycle_enabled (h : Reached s) (hidle : ∀ st, s.gpu.idle st = true) (hq : s.queue ≠ []) :
    (s.act .recycle).isSome = true := by
  have hall : ∀ ev, s.complete ev = true := by
    intro ev
    unfold complete
    cases hr : s.recorded ev with
    | none => rfl
    | some p =>
      have hp := h ev p hr
      have hi : (s.gpu.queue p.stream).length ≤ s.gpu.finished p.stream :=
        of_decide_eq_true (hidle p.stream)
      exact decide_eq_true (hp.trans hi)
  cases hqueue : s.queue with
  | nil => exact absurd hqueue hq
  | cons item rest =>
    have hitem : item.events.all s.complete = true := List.all_eq_true.mpr fun ev _ => hall ev
    simp [act, Process.recycle, hqueue, hitem, quietly]

end Runs

/-- Each allocation has one owner until its deleter has run, which is after the
reads of it on streams other than the default one are done; and with the streams
idle the recycler goes on. -/
theorem deferred_release {m : Machine} {tr : List (Machine.Event × Machine.Report)}
    (hr : Run Machine.step {} tr m) :
    (∀ a < m.process.nextAllocation, m.process.stock (CudaBuffer.holds a) +
      m.process.queued (PendingWork.holds a) + m.process.deleted a = 1) ∧
    (Every act Steady {} (Machine.performed tr) →
      ∀ (p : Point Stream) (wk : Work) (a : ℕ), p.stream ≠ none →
        (m.process.gpu.queue p.stream)[p.position]? = some (.work wk) → wk.source = some a →
        m.process.deleted a ≠ 0 → p.position < m.process.gpu.finished p.stream) ∧
    ((∀ st, m.process.gpu.idle st = true) → m.process.queue ≠ [] →
      (Machine.step m .recycle).isSome = true) := by
  have hrun : Run act {} (Machine.performed tr) m.process := Machine.run_performed hr
  refine ⟨?_, ?_, ?_⟩
  · intro a ha
    rw [(run_stocked hrun).custody a, if_pos ha]
  · intro hg p wk a hne hw hs hd
    obtain ⟨hst, _, hguard⟩ := run_readsGuarded hrun hg
    exact (hguard p wk a hne hw hs).resolve_right (not_shielded_of_deleted hst hd)
  · intro hidle hq
    have hen := recycle_enabled (run_reached hrun) hidle hq
    simp only [Machine.step, Machine.perform]
    split
    · rename_i hnone
      rw [hnone] at hen
      cases hen
    · rfl

instance (s : Process) (o : Operation) (out : Output) : Decidable (Steady s o out) :=
  match o with
  | .moveConstruct _ => inferInstanceAs (Decidable (_ = false))
  | .moveAssign _ _ => inferInstanceAs (Decidable (_ ∨ _ ∧ _))
  | .constructDefault | .construct _ | .setWriteEvent _ _ | .destroy _ | .getReadHandle _ _
  | .getWriteHandle _ _ | .finalizeWriteHandle _ | .launch _ _ _ | .synchronize _ | .moveRead _
  | .assignRead _ _ | .closeRead _ | .moveWrite _ | .assignWrite _ _ | .closeWrite _
  | .makeImpl _ _ | .setStream _ _ | .setSize _ _ | .finish _ | .recycle => .isTrue trivial

def calling (ops : List Operation) : List Machine.Event :=
  ops.flatMap (fun o => [.call (.operation o), .proceed])

/-- A buffer is destroyed after a read of it on the stream `st`. -/
def readThenDestroyed (st : Stream) : List Operation :=
  [.construct 16, .getReadHandle 0 st, .launch st (some 0) none, .closeRead 0, .destroy 0]

theorem deferred_release_once : ∃ tr m, Run Machine.step {} tr m ∧ m.process.deleted 0 = 1 ∧
    (m.process.gpu.queue (some 1))[0]? = some (.work ⟨some 0, none⟩) ∧
    0 < m.process.gpu.finished (some 1) := by
  let ops := readThenDestroyed (some 1)
  have hlast : (exec Machine.step {} (calling ops ++ [.finish (some 1), .recycle])).any (fun x =>
      decide ((exec act {} (ops ++ [.finish (some 1), .recycle])).map Prod.fst =
        some (Machine.performed x.1)) &&
      decide (x.2.process.deleted 0 = 1) &&
      decide ((x.2.process.gpu.queue (some 1))[0]? = some (.work ⟨some 0, none⟩))) = true := by
    decide +kernel
  obtain ⟨⟨tr, m⟩, hx, hp⟩ := Option.any_eq_true _ _ |>.mp hlast
  simp only [Bool.and_eq_true, decide_eq_true_eq] at hp
  obtain ⟨⟨hops, hd⟩, hq⟩ := hp
  obtain ⟨⟨tr', s⟩, hs, rfl⟩ := Option.map_eq_some_iff.mp hops
  have hr := exec_run hx
  have hg : Every act Steady {} (Machine.performed tr) := every_of_exec hs (by decide +kernel)
  refine ⟨tr, m, hr, hd, hq, ?_⟩
  exact (deferred_release hr).2.1 hg ⟨some 1, 0⟩ _ 0 nofun hq rfl (by rw [hd]; decide)

/-- A read on the default stream leaves no event behind. -/
theorem default_stream_read_unguarded : ∃ tr m, Run Machine.step {} tr m ∧
    m.process.deleted 0 = 1 ∧ (m.process.gpu.queue none)[0]? = some (.work ⟨some 0, none⟩) ∧
    ¬ 0 < m.process.gpu.finished none := by
  have hlast : (exec Machine.step {} (calling (readThenDestroyed none))).any (fun x =>
      decide (x.2.process.deleted 0 = 1 ∧
        (x.2.process.gpu.queue none)[0]? = some (.work ⟨some 0, none⟩) ∧
        ¬ 0 < x.2.process.gpu.finished none)) = true := by
    decide +kernel
  obtain ⟨⟨tr, m⟩, hx, hp⟩ := Option.any_eq_true _ _ |>.mp hlast
  exact ⟨tr, m, exec_run hx, of_decide_eq_true hp⟩

end RosidlBufferBackends.Buffers
