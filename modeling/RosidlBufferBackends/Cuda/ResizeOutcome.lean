import RosidlBufferBackends.Cuda.ResizeEffects
import RosidlBufferBackends.Lib.Runs

/-! `resize` keeps the first elements, or nothing changes, and every storage that it abandons
goes back to the pool once. -/

namespace RosidlBufferBackends.Cuda.Resizing

open Runs Streams Device PoolPartition

/-- An impl without storage, over a pool that others have blocks of. -/
structure Constructed (others : List ℕ) (s : State) : Prop where
  orderly : s.device.gpu.Orderly
  partition : Partition s.pool
  tenancy : ∀ r, s.queue.countP (PendingWork.holds r) + others.count r = s.pool.handedOut.count r
  placed : ∀ t ∈ s.queue, ∀ q, some q ∈ t.events →
    q.position ≤ (s.device.gpu.queue q.stream).length
  guarded : ∀ p w r, s.device.Unfinished p w → w.Touches r → r ∉ others →
    ∃ t ∈ s.queue, t.devicePtr = some r ∧
      ∃ q, some q ∈ t.events ∧ q.stream = p.stream ∧ p.position < q.position
  size : s.size = 0
  cudaBuffer : s.cudaBuffer = {}
  call : s.call = .none

/-- The sizes that are asked for fit into the address space. -/
def Requested (width : ℕ) (s : State) (tr : List (Event × Output)) : Prop :=
  ∀ n o, (Event.resize n, o) ∈ tr → Requestable width s.pool n

def Output.returns : Output → Bool
  | .returned _ => true
  | .quiet | .threw .. | .recycled _ => false

/-- No write of the user and no call that succeeds lies in between. -/
def Undisturbed (pid : ℤ) (width : ℕ) (s u : State) : Prop :=
  ∃ tr, Run (step pid width) s tr u ∧ Requested width s tr ∧
    ∀ x ∈ tr, x.1.writes = false ∧ x.2.returns = false

/-- The stream work that writes the block is complete. -/
def Settled (s : State) (r : ℕ) : Prop := ∀ p w, s.device.Unfinished p w → w.target ≠ some r

def SameBytes (pid : ℤ) (width : ℕ) (s t : State) (count : ℕ) : Prop :=
  ∀ u v x y, Undisturbed pid width s u → Undisturbed pid width t v →
    s.cudaBuffer.devicePtr = some x → t.cudaBuffer.devicePtr = some y → Settled u x →
      Settled v y → ∀ j < count, v.device.memory y j = u.device.memory x j

/-- The run of one `resize`, from the call to its return or exception. -/
structure CallRun (pid : ℤ) (width n : ℕ) (s : State) (front : List (Event × Output)) (e : Event)
    (o : Output) (t : State) : Prop where
  run : Run (step pid width) s (front ++ [(e, o)]) t
  starts : (front ++ [(e, o)]).head?.map Prod.fst = some (.resize n)
  underWay : ∀ x ∈ front, x.2.ends = false
  ends : o.ends = true

/-- What the call has done when it ends. -/
def CallResult (pid : ℤ) (width n : ℕ) (s t : State) : Output → Prop
  | .returned _ => t.size = n ∧ SameBytes pid width s t (min n s.size * width)
  | .threw _ _ => t.size = s.size ∧ t.cudaBuffer.devicePtr = s.cudaBuffer.devicePtr ∧
      t.cudaBuffer.size = s.cudaBuffer.size ∧ ∀ count, SameBytes pid width s t count
  | .quiet | .recycled _ => False

/-- The elements are within the block that the impl has. -/
def HasRoom (width : ℕ) (s : State) : Prop :=
  s.size * width ≤ s.cudaBuffer.devicePtr.elim 0 fun r => (s.pool.pool.block r).size

/-- At least so many elements are asked for, and the user writes nothing. -/
def Event.keeps (m : ℕ) : Event → Prop
  | .resize n => m ≤ n
  | .clear => m = 0
  | .write .. => False
  | .read _ | .proceed _ | .finish _ | .recycle | .perturb _ => True

/-- Every block is the impl's, the new buffer's, the recycler's, another's or the pool's. -/
def Accounted (others : List ℕ) (s : State) : Prop :=
  ∀ r < s.pool.pool.allBlocks.length,
    s.tenants.countP (PendingWork.holds r) + others.count r + s.pool.pool.stored r = 1

/-- A block goes back to the free list when the recycler frees it, and nothing that touches it
is under way then. -/
def FreedWhenDone (pid : ℤ) (width : ℕ) (s : State) : Prop :=
  ∀ e o t r, step pid width s e = some (o, t) → Requested width s [(e, o)] →
    r < s.pool.pool.allBlocks.length →
      (o.freed = some r ↔ s.pool.pool.stored r = 0 ∧ t.pool.pool.stored r = 1) ∧
        (o.freed = some r → ∀ p w, s.device.Unfinished p w → ¬ w.Touches r)

variable {pid : ℤ} {width : ℕ} {others : List ℕ} {L L' : ℕ → Option Bytes} {s₀ s t u : State}
  {tr : List (Event × Output)} {e : Event} {o : Output} {n m r count : ℕ}

section Start

lemma constructed_tended (h : Constructed others s) :
    Tended width others (fun _ => none) s where
  orderly := h.orderly
  partition := h.partition
  tenancy r := by
    rw [tenants_count, h.call, h.cudaBuffer]
    simp only [Call.newBuffer, Option.elim_none, reduceCtorEq, if_false, Nat.zero_add]
    exact h.tenancy r
  placed t ht q hq := by
    rw [tenants_idle h.call, h.cudaBuffer] at ht
    obtain rfl | ht := List.mem_cons.mp ht
    · cases hq
    · exact h.placed t ht q hq
  guarded p w r hp hw hr := by
    obtain ⟨t, ht, hcovers⟩ := h.guarded p w r hp hw hr
    exact .inr ⟨t, mem_tenants.mpr (.inr (.inr ht)), hcovers⟩
  determined := ⟨(fun _ _ h => by cases h), fun _ _ _ _ _ _ h => by cases h⟩
  fits := by
    rw [h.size, h.cudaBuffer]
    exact fits_empty width _ _
  writes := by
    rw [h.cudaBuffer]
    intro _ _ _ _ h
    cases h
  closed := by
    rw [h.cudaBuffer]
    intro h
    cases h
  call := by
    rw [CallOk, h.call]
    trivial

end Start

section Run

lemma Requestable.congr {pool pool' : PoolPartition.State} (h : Requestable width pool n)
    (hg : pool'.pool.granularity = pool.pool.granularity) : Requestable width pool' n := by
  rw [Requestable, hg]
  exact h

/-- What every step of the run carries on from one ledger to the next holds at its end. -/
lemma run_ledger {P : (ℕ → Option Bytes) → State → Prop} (hw : 0 < width)
    (h : Tended width others L s) (hr : Run (step pid width) s tr t) (hn : Requested width s tr)
    (hi : P L s)
    (hp : ∀ L₁ L₂ t₁ t₂ e o, (e, o) ∈ tr → step pid width t₁ e = some (o, t₂) →
      Tended width others L₁ t₁ → Stepped width others L₁ L₂ t₁ e o t₂ → P L₁ t₁ → P L₂ t₂) :
    t.pool.pool.granularity = s.pool.pool.granularity ∧
      ∃ L', Tended width others L' t ∧ P L' t := by
  induction hr with
  | nil => exact ⟨rfl, L, h, hi⟩
  | @snoc t u tr e o hr hs ih =>
    obtain ⟨hg, L₁, h₁, hi₁⟩ := ih (fun n o ho => hn n o (List.mem_append_left _ ho))
      fun L₁ L₂ t₁ t₂ e o hmem => hp L₁ L₂ t₁ t₂ e o (List.mem_append_left _ hmem)
    have hlast : (e, o) ∈ tr ++ [(e, o)] := List.mem_append_right _ List.mem_cons_self
    have hasks : ∀ n, e = .resize n → Requestable width t.pool n := by
      rintro n rfl
      exact (hn n o hlast).congr hg
    obtain ⟨L', h'⟩ := step_stepped hw h₁ hasks hs
    exact ⟨h'.granularity.trans hg, L', h'.tended, hp L₁ L' t u e o hlast hs h₁ h' hi₁⟩

lemma run_tended (hw : 0 < width) (h : Tended width others L s) (hr : Run (step pid width) s tr t)
    (hn : Requested width s tr) : t.pool.pool.granularity = s.pool.pool.granularity ∧
      ∃ L', Tended width others L' t := by
  obtain ⟨hg, L', ht, -⟩ := run_ledger (P := fun _ _ => True) hw h hr hn trivial
    fun _ _ _ _ _ _ _ _ _ _ => id
  exact ⟨hg, L', ht⟩

lemma undisturbed_carried (hw : 0 < width) (h : Tended width others L s)
    (hu : Undisturbed pid width s u) : ∃ L', Tended width others L' u ∧ Carried L L' s u := by
  obtain ⟨tr, hr, hn, hquiet⟩ := hu
  refine (run_ledger (P := fun L₁ t => Carried L L₁ s t) hw h hr hn (.refl L s) ?_).2
  intro L₁ L₂ t₁ t₂ e o hmem _ _ h' hc
  obtain ⟨hwrites, hreturns⟩ := hquiet (e, o) hmem
  have hout := h'.outcome
  cases o with
  | quiet => exact hc.trans (hout.2.2 hwrites)
  | returned ptr => exact nomatch hreturns
  | threw e ptr => exact hc.trans hout.2
  | recycled ptr => exact hc.trans (hout.2.2 hwrites)

lemma sameBytes_of_retained (hw : 0 < width) (h : Tended width others L s)
    (h' : Tended width others L' t) (hretained : Retained count L L' s t) :
    SameBytes pid width s t count := by
  intro u v x y hu hv hx hy hsettled hsettled' j hj
  obtain ⟨Lu, htu, hcu⟩ := undisturbed_carried hw h hu
  obtain ⟨Lv, htv, hcv⟩ := undisturbed_carried hw h' hv
  obtain ⟨bx, hbx⟩ := Option.isSome_iff_exists.mp (h.fits.tracked x hx)
  obtain ⟨by', hby⟩ := Option.isSome_iff_exists.mp (h'.fits.tracked y hy)
  rw [htu.determined.memory ((hcu.ledger x hx).trans hbx) hsettled,
    htv.determined.memory ((hcv.ledger y hy).trans hby) hsettled']
  refine hretained bx by' ?_ ?_ j hj
  · rw [hx]
    exact hbx
  · rw [hy]
    exact hby

end Run

section CallRuns

lemma asked_underWay (hs : step pid width s e = some (o, t)) (hcall : s.call.target = some n) :
    s.asked e = some n ∧ e.writes = false := by
  have hbusy : s.call ≠ .none := by
    intro he
    rw [he] at hcall
    cases hcall
  cases e with
  | resize m =>
    rw [step] at hs
    split at hs
    · rename_i he
      exact absurd he hbusy
    · cases hs
  | clear => exact absurd (idle_of_step (.inl rfl) hs) hbusy
  | write k launches => exact absurd (idle_of_step (.inr (.inl ⟨k, launches, rfl⟩)) hs) hbusy
  | read k => exact absurd (idle_of_step (.inr (.inr ⟨k, rfl⟩)) hs) hbusy
  | proceed env => exact ⟨hcall, rfl⟩
  | finish k => exact ⟨hcall, rfl⟩
  | recycle => exact ⟨hcall, rfl⟩
  | perturb segments => exact ⟨hcall, rfl⟩

/-- Before its last step the call has changed nothing of the impl. -/
lemma callRun_front {front : List (Event × Output)} (hw : 0 < width)
    (h : Tended width others L s) (hc : CallRun pid width n s front e o u)
    (hn : Requested width s (front ++ [(e, o)])) (ht : Run (step pid width) s front t)
    (hs : step pid width t e = some (o, u)) :
    t.pool.pool.granularity = s.pool.pool.granularity ∧
      ∃ L₁, Tended width others L₁ t ∧ Carried L L₁ s t ∧ t.asked e = some n := by
  cases front with
  | nil =>
    obtain rfl := run_nil_iff.mp ht
    obtain rfl := Option.some.inj hc.starts
    exact ⟨rfl, L, h, .refl L s, rfl⟩
  | cons first rest =>
    obtain ⟨e₁, o₁⟩ := first
    obtain rfl : e₁ = .resize n := Option.some.inj hc.starts
    obtain ⟨s₁, hfirst, hrest⟩ := run_cons_iff.mp ht
    obtain ⟨L₁, h₁⟩ := resize_stepped h (hn n o₁ List.mem_cons_self) hfirst
    have hkept : ∀ {L₁ L₂ t₁ t₂ e o}, o.ends = false → e.writes = false → t₁.asked e = some n →
        Stepped width others L₁ L₂ t₁ e o t₂ → t₂.call.target = some n ∧ Carried L₁ L₂ t₁ t₂ := by
      intro L₁ L₂ t₁ t₂ e o hends hwrites hasked h'
      have hout := h'.outcome
      cases o with
      | quiet => exact ⟨hout.1.trans hasked, hout.2.2 hwrites⟩
      | recycled ptr => exact ⟨hout.1.trans hasked, hout.2.2 hwrites⟩
      | returned ptr => exact nomatch hends
      | threw e ptr => exact nomatch hends
    obtain ⟨htarget, hcarried⟩ := hkept (hc.underWay _ List.mem_cons_self) rfl rfl h₁
    have hrequested : Requested width s₁ rest := fun m o hm =>
      (hn m o (List.mem_cons_of_mem _ (List.mem_append_left _ hm))).congr h₁.granularity
    obtain ⟨hg, L', ht', htarget', hcarried'⟩ := run_ledger
      (P := fun L₁ t => t.call.target = some n ∧ Carried L L₁ s t) hw h₁.tended hrest hrequested
      ⟨htarget, hcarried⟩ fun L₁ L₂ t₁ t₂ e o hmem hstep _ h' hi => by
        obtain ⟨hasked, hwrites⟩ := asked_underWay hstep hi.1
        have hends := hc.underWay _ (List.mem_cons_of_mem _ hmem)
        obtain ⟨htarget, hcarried⟩ := hkept hends hwrites hasked h'
        exact ⟨htarget, hi.2.trans hcarried⟩
    exact ⟨hg.trans h₁.granularity, L', ht', hcarried', (asked_underWay hs htarget').1⟩

/-- A call that returns has kept the first elements, and one that throws everything. -/
lemma callRun_result {front : List (Event × Output)} (hw : 0 < width)
    (h : Tended width others L s) (hc : CallRun pid width n s front e o t)
    (hn : Requested width s (front ++ [(e, o)])) : CallResult pid width n s t o := by
  obtain ⟨t₁, hr, hs⟩ := run_snoc_iff.mp hc.run
  obtain ⟨hg, L₁, h₁, hcarried, hasked⟩ := callRun_front hw h hc hn hr hs
  have hlast : (e, o) ∈ front ++ [(e, o)] := List.mem_append_right _ List.mem_cons_self
  have hasks : ∀ m, e = .resize m → Requestable width t₁.pool m := by
    rintro m rfl
    exact (hn m o hlast).congr hg
  obtain ⟨L', h'⟩ := step_stepped hw h₁ hasks hs
  have hout := h'.outcome
  have hends := hc.ends
  cases o with
  | quiet => exact nomatch hends
  | recycled ptr => exact nomatch hends
  | returned ptr =>
    obtain ⟨m, hm, -, hsize, hretained⟩ := hout
    obtain rfl := Option.some.inj (hm.symm.trans hasked)
    rw [hcarried.size] at hretained
    exact ⟨hsize, sameBytes_of_retained hw h h'.tended (hretained.after hcarried)⟩
  | threw e ptr =>
    have hall := hcarried.trans hout.2
    exact ⟨hall.size, hall.devicePtr, hall.bytes, fun count =>
      sameBytes_of_retained hw h h'.tended (hall.retained count)⟩

end CallRuns

section Sequences

lemma Tended.tracked_of_pos (h : Tended width others L s) (hw : 0 < width) (hs : 0 < s.size) :
    ∃ v, s.cudaBuffer.devicePtr.bind L = some v := by
  cases hr : s.cudaBuffer.devicePtr with
  | none =>
    have hle := h.fits.elements
    have hpos : 0 < s.size * width := Nat.mul_pos hs hw
    rw [(h.fits.empty hr).1] at hle
    omega
  | some r => exact Option.isSome_iff_exists.mp (h.fits.tracked r hr)

lemma Retained.chain {L₁ : ℕ → Option Bytes} (h : Retained count L L₁ s t)
    (h' : Retained count L₁ L' t u) (ht : ∃ v, t.cudaBuffer.devicePtr.bind L₁ = some v) :
    Retained count L L' s u := by
  obtain ⟨v₁, hv₁⟩ := ht
  intro v v' hv hv' j hj
  exact (h' v₁ v' hv₁ hv' j hj).trans (h v v₁ hv hv₁ j hj)

lemma Retained.mono (h : Retained count L L' s t) (hm : m ≤ count) : Retained m L L' s t :=
  fun v v' hv hv' j hj => h v v' hv hv' j (hj.trans_le hm)

/-- The call that is under way, if any, asks for so many, and the impl has them. -/
def Keeping (width m : ℕ) (L : ℕ → Option Bytes) (s : State) (L' : ℕ → Option Bytes)
    (t : State) : Prop :=
  m ≤ t.size ∧ (∀ n, t.call.target = some n → m ≤ n) ∧ Retained (m * width) L L' s t

lemma step_keeping {L₁ : ℕ → Option Bytes} (hw : 0 < width) (ht : Tended width others L₁ t)
    (h' : Stepped width others L₁ L' t e o u) (hk : e.keeps m)
    (hi : Keeping width m L s L₁ t) : Keeping width m L s L' u := by
  obtain ⟨hsize, htarget, hretained⟩ := hi
  have hwrites : e.writes = false := by
    cases e with
    | write k launches => exact hk.elim
    | _ => rfl
  have hasked : ∀ n, t.asked e = some n → m ≤ n := by
    intro n hask
    cases e with
    | resize n' => exact Option.some.inj hask ▸ hk
    | clear => exact (show m = 0 from hk).le.trans (Nat.zero_le n)
    | write k launches => exact hk.elim
    | read k => exact nomatch hask
    | proceed env => exact htarget n hask
    | finish k => exact htarget n hask
    | recycle => exact htarget n hask
    | perturb segments => exact htarget n hask
  have hgoes : Carried L₁ L' t u → Retained (m * width) L L' s u := by
    intro hc v v' hv hv'
    exact hretained v v' hv (hc.held ▸ hv')
  have hout := h'.outcome
  cases o with
  | quiet =>
    obtain ⟨htarget', hsize', hc⟩ := hout
    exact ⟨hsize'.symm ▸ hsize, fun n hn => hasked n (htarget' ▸ hn), hgoes (hc hwrites)⟩
  | recycled ptr =>
    obtain ⟨htarget', hsize', hc⟩ := hout
    exact ⟨hsize'.symm ▸ hsize, fun n hn => hasked n (htarget' ▸ hn), hgoes (hc hwrites)⟩
  | threw e ptr =>
    obtain ⟨hnone, hc⟩ := hout
    refine ⟨hc.size.symm ▸ hsize, ?_, hgoes hc⟩
    rw [hnone]
    nofun
  | returned ptr =>
    obtain ⟨n, hask, hnone, hsize', hstep⟩ := hout
    have hmn := hasked n hask
    refine ⟨hsize'.symm ▸ hmn, ?_, ?_⟩
    · rw [hnone]
      nofun
    · rcases Nat.eq_zero_or_pos m with rfl | hpos
      · rw [Nat.zero_mul]
        exact retained_zero
      · have hle : m * width ≤ min n t.size * width :=
          Nat.mul_le_mul_right width (Nat.le_min.mpr ⟨hmn, hsize⟩)
        exact hretained.chain (hstep.mono hle) (ht.tracked_of_pos hw (hpos.trans_le hsize))

/-- The elements that every call asks for are kept through all of them. -/
lemma kept_run (hw : 0 < width) (h : Tended width others L s) (hcall : s.call = .none)
    (hm : m ≤ s.size) (hr : Run (step pid width) s tr t) (hn : Requested width s tr)
    (hkeep : ∀ x ∈ tr, x.1.keeps m) :
    ∃ L', Tended width others L' t ∧ Keeping width m L s L' t := by
  have hinit : Keeping width m L s L s := by
    refine ⟨hm, ?_, (Carried.refl L s).retained _⟩
    rw [hcall]
    nofun
  exact (run_ledger (P := Keeping width m L s) hw h hr hn hinit
    fun L₁ L₂ t₁ t₂ e o hmem _ h₁ h' => step_keeping hw h₁ h' (hkeep (e, o) hmem)).2

end Sequences

section Blocks

lemma Tended.hasRoom (h : Tended width others L s) : HasRoom width s := by
  rw [HasRoom]
  cases hr : s.cudaBuffer.devicePtr with
  | none => exact h.fits.elements.trans (h.fits.empty hr).1.le
  | some r => exact h.fits.elements.trans (h.fits.block r hr)

lemma Tended.accounted (h : Tended width others L s) : Accounted others s := by
  intro r hr
  have honce := h.partition.once r
  rw [if_pos hr] at honce
  rw [h.tenancy r]
  exact honce

lemma freed_recycle (hs : step pid width s e = some (o, t)) (ho : o.freed = some r) :
    s.recycle = some (o, t) ∧ o = .recycled (some r) := by
  have hfreed : o = .recycled (some r) := by
    cases o with
    | recycled ptr => exact congrArg Output.recycled ho
    | quiet => cases ho
    | returned ptr => cases ho
    | threw e ptr => cases ho
  subst hfreed
  refine ⟨?_, rfl⟩
  cases e with
  | recycle => exact hs
  | resize n =>
    rw [step] at hs
    split at hs
    · split_ifs at hs
      · cases (Prod.mk.inj (Option.some.inj hs)).1
      · cases (Prod.mk.inj (Option.some.inj hs)).1
      · cases (Prod.mk.inj (Option.some.inj hs)).1
    · cases hs
  | clear =>
    simp only [step, idle_of_step (.inl rfl) hs] at hs
    cases (Prod.mk.inj (Option.some.inj hs)).1
  | write k launches =>
    simp only [step, idle_of_step (.inr (.inl ⟨k, launches, rfl⟩)) hs] at hs
    cases (Prod.mk.inj (Option.some.inj hs)).1
  | read k =>
    simp only [step, idle_of_step (.inr (.inr ⟨k, rfl⟩)) hs] at hs
    cases (Prod.mk.inj (Option.some.inj hs)).1
  | finish k =>
    rw [step] at hs
    split at hs
    · cases hs
    · cases (Prod.mk.inj (Option.some.inj hs)).1
  | perturb segments => cases (Prod.mk.inj (Option.some.inj hs)).1
  | proceed env =>
    rw [step, State.proceed] at hs
    split at hs
    · cases hs
    · obtain ⟨-, -, ⟨e, he, -⟩ | ⟨he, -⟩⟩ := allocate_frame (Option.some.inj hs)
      · cases he
      · cases he
    · cases (Prod.mk.inj (Option.some.inj hs)).1
    · cases (Prod.mk.inj (Option.some.inj hs)).1
    · cases (Prod.mk.inj (Option.some.inj hs)).1
    · cases (Prod.mk.inj (Option.some.inj hs)).1
    · cases (Prod.mk.inj (Option.some.inj hs)).1
    · rename_i thrown _
      cases thrown with
      | none => cases (Prod.mk.inj (Option.some.inj hs)).1
      | some e => cases (Prod.mk.inj (Option.some.inj hs)).1

/-- What is given back is in the free list, and nothing under way touches it. -/
lemma Tended.freed (h : Tended width others L s) (hs : step pid width s e = some (o, t))
    (ho : o.freed = some r) :
    (∀ p w, s.device.Unfinished p w → ¬ w.Touches r) ∧ s.pool.pool.stored r = 0 ∧
      t.pool.pool.stored r = 1 := by
  obtain ⟨hrecycle, rfl⟩ := freed_recycle hs ho
  refine ⟨h.recycled hrecycle rfl, ?_⟩
  have h' := recycle_tended h hrecycle
  obtain ⟨item, rest, hq, -, hptr, rfl⟩ := recycle_cases hrecycle
  obtain hptr : some r = item.devicePtr := Output.recycled.inj hptr
  rw [← hptr] at h' ⊢
  have hitem : item ∈ s.tenants := mem_tenants.mpr (.inr (.inr (hq ▸ List.mem_cons_self)))
  have hmem := h.handed hitem hptr.symm
  have hlt := h.partition.handed_lt hmem
  have honce := h.partition.once r
  have honce' := h'.partition.once r
  have hpos := List.count_pos_iff.mpr hmem
  have hlt' : r < (State.free { s with queue := rest } (some r)).pool.pool.allBlocks.length := hlt
  rw [if_pos hlt] at honce
  rw [if_pos hlt'] at honce'
  have herase : (State.free { s with queue := rest } (some r)).pool.handedOut.count r =
      s.pool.handedOut.count r - 1 := List.count_erase_self
  omega

lemma Tended.freedWhenDone (h : Tended width others L s) (hw : 0 < width) :
    FreedWhenDone pid width s := by
  intro e o t r hs hn hlt
  have hasks : ∀ n, e = .resize n → Requestable width s.pool n := by
    rintro n rfl
    exact hn n o List.mem_cons_self
  refine ⟨⟨fun ho => (h.freed hs ho).2, fun ⟨hout, hin⟩ => ?_⟩, fun ho => (h.freed hs ho).1⟩
  obtain ⟨L', h'⟩ := step_stepped hw h hasks hs
  have honce := h.partition.once r
  have honce' := h'.tended.partition.once r
  have hhanded := h'.handed r
  rw [if_pos hlt, hout] at honce
  by_contra ho
  rw [if_neg ho] at hhanded
  split_ifs at honce' <;> omega

lemma recycle_enabled (h : Tended width others L s) (hi : s.device.Idle) (hq : s.queue ≠ []) :
    ∃ o u, s.recycle = some (o, u) := by
  obtain ⟨item, rest, hq⟩ := List.exists_cons_of_ne_nil hq
  have hpassed : (item.events.all fun event => event.all s.device.gpu.passed) = true := by
    rw [List.all_eq_true]
    intro event hevent
    cases event with
    | none => rfl
    | some q =>
      have hitem : item ∈ s.tenants := mem_tenants.mpr (.inr (.inr (hq ▸ List.mem_cons_self)))
      have hle := h.placed item hitem q hevent
      rw [← hi q.stream] at hle
      exact decide_eq_true hle
  refine ⟨.recycled item.devicePtr, State.free { s with queue := rest } item.devicePtr, ?_⟩
  simp only [State.recycle, hq, hpassed, if_true]

/-- When the streams are done the recycler gives everything back. -/
lemma drain_queue (h : Tended width others L s) (hi : s.device.Idle) :
    ∃ tr u, Run (step pid width) s tr u ∧ (∀ x ∈ tr, x.1 = .recycle) ∧ u.queue = [] := by
  induction hlen : s.queue.length generalizing s with
  | zero => exact ⟨[], s, .nil, List.forall_mem_nil _, List.length_eq_zero_iff.mp hlen⟩
  | succ k ih =>
    have hne : s.queue ≠ [] := by
      intro he
      rw [he] at hlen
      exact nomatch hlen
    obtain ⟨o, t, hs⟩ := recycle_enabled h hi hne
    obtain ⟨-, -, hdevice, -⟩ := recycle_stepped h hs
    have hlen' : t.queue.length = k := by
      obtain ⟨item, rest, hq, -, -, rfl⟩ := recycle_cases hs
      obtain ⟨pool, he, -, -⟩ := free_frame { s with queue := rest } item.devicePtr
      rw [he]
      rw [hq, List.length_cons] at hlen
      exact Nat.succ.inj hlen
    have hidle : t.device.Idle := by
      rw [hdevice]
      exact hi
    obtain ⟨tr, u, hr, hall, hnil⟩ := ih (recycle_tended h hs) hidle hlen'
    refine ⟨(.recycle, o) :: tr, u, run_cons_iff.mpr ⟨t, hs, hr⟩, ?_, hnil⟩
    intro x hx
    obtain rfl | hx := List.mem_cons.mp hx
    · rfl
    · exact hall x hx

def abandons (r : ℕ) (x : Event × Output) : Bool := decide (x.2.abandoned = some r)

def frees (r : ℕ) (x : Event × Output) : Bool := decide (x.2.freed = some r)

/-- What was abandoned was given back, or is in the queue. -/
lemma queue_balance (hw : 0 < width) (h : Tended width others L s)
    (hr : Run (step pid width) s tr t) (hn : Requested width s tr) (r : ℕ) :
    t.queue.countP (PendingWork.holds r) + tr.countP (frees r) =
      s.queue.countP (PendingWork.holds r) + tr.countP (abandons r) := by
  induction hr with
  | nil => rfl
  | @snoc t u tr e o hr hs ih =>
    have hn' : Requested width s tr := fun n o ho => hn n o (List.mem_append_left _ ho)
    obtain ⟨hg, L₁, h₁⟩ := run_tended hw h hr hn'
    have hasks : ∀ n, e = .resize n → Requestable width t.pool n := by
      rintro n rfl
      exact (hn n o (List.mem_append_right _ List.mem_cons_self)).congr hg
    obtain ⟨L', h'⟩ := step_stepped hw h₁ hasks hs
    have hstep := h'.queue r
    have hsofar := ih hn'
    rw [List.countP_append, List.countP_append, List.countP_singleton, List.countP_singleton]
    simp only [frees, abandons, decide_eq_true_eq] at hsofar ⊢
    omega

end Blocks

/-- From any state that calls, accesses, the streams and the recycler lead to: a `resize` that
returns keeps the first elements, one that throws keeps everything, and so does every sequence of
them; no block is lost, and what was abandoned goes back once, when all that touches it is done. -/
theorem resize_prefix_or_unchanged (pid : ℤ) (width : ℕ) (hw : 0 < width) (others : List ℕ)
    (h₀ : Constructed others s₀) (hr : Run (step pid width) s₀ tr s)
    (hn : Requested width s₀ tr) :
    HasRoom width s ∧ Accounted others s ∧
      (∀ n front e o t, CallRun pid width n s front e o t →
        Requested width s (front ++ [(e, o)]) → CallResult pid width n s t o) ∧
      (∀ m tr' t, s.call = .none → m ≤ s.size → Run (step pid width) s tr' t →
        Requested width s tr' → (∀ x ∈ tr', x.1.keeps m) →
          m ≤ t.size ∧ SameBytes pid width s t (m * width)) ∧
      FreedWhenDone pid width s ∧
      (∀ r, s.queue.countP (PendingWork.holds r) + tr.countP (frees r) =
        s₀.queue.countP (PendingWork.holds r) + tr.countP (abandons r)) ∧
      (s.device.Idle → ∃ tr' u, Run (step pid width) s tr' u ∧ (∀ x ∈ tr', x.1 = .recycle) ∧
        u.queue = []) := by
  have hstart : Tended width others (fun _ => none) s₀ := constructed_tended h₀
  obtain ⟨-, L, h⟩ := run_tended hw hstart hr hn
  refine ⟨h.hasRoom, h.accounted, fun n front e o t => callRun_result hw h, ?_,
    h.freedWhenDone hw, queue_balance hw hstart hr hn, drain_queue h⟩
  intro m tr' t hcall hm hr' hn' hkeep
  obtain ⟨L', ht, hsize, -, hretained⟩ := kept_run hw h hcall hm hr' hn' hkeep
  exact ⟨hsize, sameBytes_of_retained hw h ht hretained⟩

def emptyImpl : State where
  device := { memory := fun _ _ => 0 }
  pool := PoolPartition.initial 4 (by decide) 0 true

lemma emptyImpl_constructed : Constructed [] emptyImpl where
  orderly := ⟨fun _ => le_rfl, fun _ _ _ hi => absurd hi (Nat.not_lt_zero _)⟩
  partition := partition_initial 4 (by decide) 0 true
  tenancy _ := rfl
  placed := List.forall_mem_nil _
  guarded _ _ _ hp := nomatch hp.1
  size := rfl
  cudaBuffer := rfl
  call := rfl

def succeeding (va a : ℕ) : Event :=
  .proceed
    { now := 0
      createBlock := workingEnv 3 va a
      streamWaitEvent := true
      memcpyAsync := true }

def Event.atMost (m : ℕ) : Event → Bool
  | .resize n => decide (n ≤ m)
  | _ => true

lemma requested_of_atMost (hg : s.pool.pool.granularity = 4)
    (h : (tr.all fun x => x.1.atMost 4) = true) : Requested 2 s tr := by
  intro n o hmem
  have hle : n ≤ 4 := of_decide_eq_true (List.all_eq_true.mp h _ hmem)
  rw [Requestable, hg]
  omega

/-- Two elements are written, and four are asked for before the write is done. -/
theorem resize_while_written : ∃ tr s front e o t, Run (step 1 2) emptyImpl tr s ∧
    CallRun 1 2 4 s front e o t ∧ o.abandoned = some 0 ∧ CallResult 1 2 4 s t o := by
  let earlier : List Event :=
    [.resize 2, succeeding 8192 1, succeeding 8192 1, .write 1 [fun _ j => j.toUInt8]]
  let later : List Event := List.replicate 7 (succeeding 16384 2)
  have hruns : ((exec (step 1 2) emptyImpl earlier).bind fun x =>
      (exec (step 1 2) x.2 (.resize 4 :: later)).map fun y => (x, y)).any (fun z =>
        (z.1.1.all fun x => x.1.atMost 4) && decide (z.1.2.pool.pool.granularity = 4) &&
        (z.2.1.all fun x => x.1.atMost 4) && (z.2.1.dropLast.all fun x => !x.2.ends) &&
        (z.2.1.getLast?.any fun x => x.2.ends && decide (x.2.abandoned = some 0))) = true := by
    decide +kernel
  obtain ⟨⟨⟨tr, s⟩, whole, t⟩, hz, hchecks⟩ := Option.any_eq_true _ _ |>.mp hruns
  obtain ⟨x, hx, hy⟩ := Option.bind_eq_some_iff.mp hz
  obtain ⟨y, hy, he⟩ := Option.map_eq_some_iff.mp hy
  obtain ⟨rfl, rfl⟩ := Prod.mk.inj he
  simp only [Bool.and_eq_true, decide_eq_true_eq] at hchecks
  obtain ⟨⟨⟨⟨hsmall, hg⟩, hsmall'⟩, hquiet⟩, hlast⟩ := hchecks
  obtain ⟨⟨e, o⟩, hmem, hends⟩ := Option.any_eq_true _ _ |>.mp hlast
  simp only [Bool.and_eq_true, decide_eq_true_eq] at hends
  have hwhole : whole.dropLast ++ [(e, o)] = whole := List.dropLast_append_getLast? _ hmem
  have hr : Run (step 1 2) emptyImpl tr s := exec_run hx
  have hcall : CallRun 1 2 4 s whole.dropLast e o t := by
    refine ⟨?_, ?_, fun x hx => ?_, hends.1⟩
    · rw [hwhole]
      exact exec_run hy
    · obtain ⟨o₁, -, rest, hcons, -, -⟩ := exec_cons hy
      rw [hwhole, hcons]
      rfl
    · exact Bool.not_eq_true' _ |>.mp (List.all_eq_true.mp hquiet x hx)
  have hg₀ : emptyImpl.pool.pool.granularity = 4 := rfl
  obtain ⟨-, -, hresult, -⟩ := resize_prefix_or_unchanged 1 2 (by decide) [] emptyImpl_constructed
    hr (requested_of_atMost hg₀ hsmall)
  have hrequested : Requested 2 s (whole.dropLast ++ [(e, o)]) := by
    rw [hwhole]
    exact requested_of_atMost hg hsmall'
  exact ⟨tr, s, _, e, o, t, hr, hcall, hends.2, hresult 4 _ e o t hcall hrequested⟩

end RosidlBufferBackends.Cuda.Resizing
