import RosidlBufferBackends.Cuda.ResizeEnds

/-! The writes and reads of the buffer between the calls leave its handles closed, and all that
they launched behind the events of the buffer. -/

namespace RosidlBufferBackends.Cuda.Resizing

open Streams Device PoolPartition

variable {width : ℕ} {others : List ℕ} {L L' : ℕ → Option Bytes} {s : State} {r k : ℕ}
  {launches : List (Bytes → Bytes)}

section Launches

/-- What a series of launches on the target adds to the device. -/
structure Launched (k : ℕ) (target : Option ℕ) (L : ℕ → Option Bytes)
    (d d' : Device ℕ ℕ Bytes) : Prop where
  orderly : d'.gpu.Orderly
  grown : d.gpu.Extends d'.gpu
  unfinished : ∀ p w, d'.Unfinished p w →
    d.Unfinished p w ∨ (p.stream = k ∧ w.source = none ∧ w.target = target)
  determined : ∃ L', d'.Determined L' ∧ ∀ r, (L r).isSome → (L' r).isSome

variable {d d₁ d' : Device ℕ ℕ Bytes} {target : Option ℕ}

lemma Launched.trans (h : Launched k target L d d₁)
    (h' : ∀ L₁, d₁.Determined L₁ → (∀ r, (L r).isSome → (L₁ r).isSome) →
      Launched k target L₁ d₁ d') : Launched k target L d d' := by
  obtain ⟨L₁, hd, hL⟩ := h.determined
  have hrest := h' L₁ hd hL
  obtain ⟨L', hd', hL'⟩ := hrest.determined
  refine ⟨hrest.orderly, h.grown.trans hrest.grown, fun p w hp => ?_, L', hd', fun r hr =>
    hL' r (hL r hr)⟩
  exact (hrest.unfinished p w hp).elim (h.unfinished p w) .inr

lemma launch_launched (f : Bytes → Bytes) (ho : d.gpu.Orderly) (hd : d.Determined L)
    (hL : ∀ r, target = some r → (L r).isSome)
    (halone : ∀ p w r, d.Unfinished p w → target = some r → w.Touches r →
      p.stream = k ∧ w.source = none) :
    Launched k target L d (d.enqueue k (.work (launch target f))) := by
  refine ⟨Gpu.enqueue_orderly ho _ _, Gpu.enqueue_extends _ _ _, fun p w hp => ?_, ?_⟩
  · obtain hp | ⟨rfl, he⟩ := unfinished_enqueue hp
    · exact .inl hp
    · obtain rfl := Op.work.inj he
      exact .inr ⟨rfl, rfl, rfl⟩
  · cases target with
    | none =>
      refine ⟨L, silent_determined hd ho k ?_, fun _ => id⟩
      rintro w ⟨rfl⟩
      rfl
    | some r =>
      obtain ⟨y, hy⟩ := Option.isSome_iff_exists.mp (hL r rfl)
      refine ⟨_, launch_determined hd ho rfl rfl hy ?_ ?_, fun r' hr' => ?_⟩
      · exact fun p w hp ht => (halone p w r hp rfl (.inr ht)).1
      · exact fun p w hp hs => nomatch (halone p w r hp rfl (.inl hs)).2.symm.trans hs
      · by_cases hr : r' = r
        · subst hr
          rw [Function.update_self]
          rfl
        · rwa [Function.update_of_ne hr]

lemma launchAll_launched (launches : List (Bytes → Bytes)) (ho : d.gpu.Orderly)
    (hd : d.Determined L) (hL : ∀ r, target = some r → (L r).isSome)
    (halone : ∀ p w r, d.Unfinished p w → target = some r → w.Touches r →
      p.stream = k ∧ w.source = none) :
    Launched k target L d (launchAll k target launches d) := by
  induction launches generalizing d L with
  | nil => exact ⟨ho, .refl _, fun _ _ => .inl, L, hd, fun _ => id⟩
  | cons f launches ih =>
    have hfirst := launch_launched f ho hd hL halone
    refine hfirst.trans fun L₁ hd₁ hL₁ => ?_
    refine ih hfirst.orderly hd₁ (fun r hr => hL₁ r (hL r hr)) fun p w r hp hr hw => ?_
    obtain hp | ⟨hk, hs, -⟩ := hfirst.unfinished p w hp
    · exact halone p w r hp hr hw
    · exact ⟨hk, hs⟩

end Launches

section Accesses

lemma idle_reaped (h : Tended width others L s) (hcall : s.call = .none) :
    Tended width others L { s with cudaBuffer := s.cudaBuffer.reap s.device.gpu } := by
  have hidle : CallOk width L
      { s with
        cudaBuffer := s.cudaBuffer.reap s.device.gpu
        call := s.call } := by
    rw [CallOk, hcall]
    trivial
  exact reaped_tended h (not_scoped hcall) rfl hidle

lemma mem_idle (hcall : s.call = .none) {device : Device ℕ ℕ Bytes} {buf : CudaBuffer}
    {t : PendingWork} : t ∈ State.tenants { s with device := device, cudaBuffer := buf } ↔
      t = buf.work ∨ t ∈ s.queue := by
  rw [State.tenants, hcall]
  exact List.mem_cons

/-- Nothing under way touches a buffer that has no event recorded. -/
lemma Tended.unaccessed (h : Tended width others L s) (hcall : s.call = .none)
    (hunset : s.cudaBuffer.handleState.state = .unset) (hread : s.cudaBuffer.readEvents = [])
    (hr : s.cudaBuffer.devicePtr = some r) : ∀ p w, s.device.Unfinished p w → ¬ w.Touches r := by
  intro p w hp hw
  have hheld : s.cudaBuffer.work ∈ s.tenants := mem_tenants.mpr (.inl rfl)
  obtain hs | ⟨t, ht, htr, q, hq, -⟩ := h.guarded p w r hp hw (h.not_other hheld hr)
  · exact not_scoped hcall r _ hs
  · rw [tenants_idle hcall] at ht
    obtain rfl | ht := List.mem_cons.mp ht
    · obtain hq | hq := mem_events.mp hq
      · exact h.fits.unwritten hunset q hq
      · rw [hread] at hq
        exact nomatch hq
    · exact (h.held_alone hr).2 t ht htr

lemma finalize_acquired (gpu : Gpu ℕ (Transfer ℕ Bytes)) (k : ℕ) (buf : CudaBuffer) :
    (buf.acquireWrite k).finalizeWrite gpu =
      { buf with
        writeEvent := buf.writeEvent.map fun _ => some (gpu.here k)
        handleState := { state := .finalized, writeStream := none } } :=
  if_pos rfl

lemma launches_tended (h : Tended width others L s) (hcall : s.call = .none)
    (hunset : s.cudaBuffer.handleState.state = .unset) (hread : s.cudaBuffer.readEvents = [])
    (k : ℕ) (launches : List (Bytes → Bytes)) :
    ∃ L', Tended width others L'
      { s with
        device := launchAll k s.cudaBuffer.devicePtr launches s.device
        cudaBuffer := (s.cudaBuffer.acquireWrite k).finalizeWrite
          (launchAll k s.cudaBuffer.devicePtr launches s.device).gpu } := by
  have hfree := fun r hr => h.unaccessed (r := r) hcall hunset hread hr
  have hlaunched : Launched k s.cudaBuffer.devicePtr L s.device
      (launchAll k s.cudaBuffer.devicePtr launches s.device) :=
    launchAll_launched launches h.orderly h.determined h.fits.tracked
      fun p w r hp hr hw => absurd hw (hfree r hr p w hp)
  rw [finalize_acquired]
  set d' := launchAll k s.cudaBuffer.devicePtr launches s.device with hd'
  set buf : CudaBuffer :=
    { s.cudaBuffer with
      writeEvent := s.cudaBuffer.writeEvent.map fun _ => some (d'.gpu.here k)
      handleState := { state := .finalized, writeStream := none } } with hbuf
  have hrecorded : ∀ r, s.cudaBuffer.devicePtr = some r →
      buf.writeEvent = some (some (d'.gpu.here k)) := by
    intro r hr
    obtain ⟨event, hevent⟩ := Option.isSome_iff_exists.mp (h.fits.event r hr).1
    simp only [hbuf, hevent, Option.map_some]
  have hheld : buf.work ∈ State.tenants { s with device := d', cudaBuffer := buf } :=
    mem_tenants.mpr (.inl rfl)
  obtain ⟨L', hdetermined, hL'⟩ := hlaunched.determined
  refine ⟨L', ?_⟩
  constructor
  · exact hlaunched.orderly
  · exact h.partition
  · intro r
    have ht := h.tenancy r
    rw [tenants_count, hcall] at ht
    rw [tenants_count, hcall]
    exact ht
  · intro t ht q hq
    obtain rfl | ht := (mem_idle hcall).mp ht
    · obtain hq | hq := mem_events.mp hq
      · obtain ⟨event, -, he⟩ := Option.map_eq_some_iff.mp hq
        obtain rfl := Option.some.inj he
        exact le_rfl
      · change q ∈ s.cudaBuffer.readEvents at hq
        rw [hread] at hq
        exact nomatch hq
    · exact (h.placed t (mem_tenants.mpr (.inr (.inr ht))) q hq).trans
        (hlaunched.grown.length_le q.stream)
  · intro p w r hp hw hr
    obtain hp' | ⟨hk, hsource, htarget⟩ := hlaunched.unfinished p w hp
    · refine covered_mono (h.guarded p w r hp' hw hr) (fun hs => ?_) fun t ht htr => ?_
      · exact absurd hs (not_scoped hcall r _)
      · obtain rfl | ht := (mem_idle hcall).mp ht
        · exact absurd hw (hfree r htr p w hp')
        · exact ⟨t, mem_tenants.mpr (.inr (.inr ht)), htr, fun q => id⟩
    · obtain hs | ht := hw
      · exact nomatch hsource.symm.trans hs
      · have hr' : s.cudaBuffer.devicePtr = some r := htarget.symm.trans ht
        obtain ⟨hs, hlt⟩ := unfinished_ahead hp hk
        exact .inr ⟨buf.work, hheld, hr', _, mem_events.mpr (.inl (hrecorded r hr')), hs, hlt⟩
  · exact hdetermined
  · refine ⟨h.fits.elements, h.fits.block, fun r hr => hL' r (h.fits.tracked r hr), ?_, nofun,
      h.fits.empty⟩
    intro r hr
    rw [hrecorded r hr]
    exact ⟨rfl, (h.fits.event r hr).2⟩
  · intro p w r hp hr ht
    obtain hp' | ⟨hk, -, -⟩ := hlaunched.unfinished p w hp
    · exact absurd (.inr ht) (hfree r hr p w hp')
    · obtain ⟨hs, hlt⟩ := unfinished_ahead hp hk
      exact ⟨_, hrecorded r hr, hs, hlt⟩
  · exact nofun
  · rw [CallOk, hcall]
    trivial

lemma write_tended (h : Tended width others L s) (hcall : s.call = .none) (k : ℕ)
    (launches : List (Bytes → Bytes)) : ∃ L', Tended width others L' (s.write k launches) := by
  have hreaped := idle_reaped h hcall
  rw [State.write]
  dsimp only
  split_ifs with hfree
  · exact launches_tended hreaped hcall hfree.1 hfree.2 k launches
  · exact ⟨L, hreaped⟩

lemma load_tended (h : Tended width others L s) (hcall : s.call = .none) (k : ℕ) :
    Tended width others L
      { s with
        device := s.device.enqueue k (.work (load s.cudaBuffer.devicePtr))
        cudaBuffer := s.cudaBuffer.releaseRead
          (s.device.enqueue k (.work (load s.cudaBuffer.devicePtr))).gpu k } := by
  set d' := s.device.enqueue k (.work (load s.cudaBuffer.devicePtr)) with hd'
  have hext : s.device.gpu.Extends d'.gpu := Gpu.enqueue_extends _ _ _
  have hevents : ∀ q, some q ∈ (s.cudaBuffer.releaseRead d'.gpu k).work.events ↔
      some q ∈ s.cudaBuffer.work.events ∨ q = d'.gpu.here k := by
    intro q
    rw [mem_events, mem_events, CudaBuffer.releaseRead, List.mem_append, List.mem_singleton,
      or_assoc]
  constructor
  · exact Gpu.enqueue_orderly h.orderly _ _
  · exact h.partition
  · intro r
    have ht := h.tenancy r
    rw [tenants_count] at ht
    rw [tenants_count]
    exact ht
  · intro t ht q hq
    obtain rfl | ht := (mem_idle hcall).mp ht
    · obtain hq | rfl := (hevents q).mp hq
      · exact (h.placed _ (mem_tenants.mpr (.inl rfl)) q hq).trans (hext.length_le q.stream)
      · exact le_rfl
    · exact (h.placed t (mem_tenants.mpr (.inr (.inr ht))) q hq).trans
        (hext.length_le q.stream)
  · intro p w r hp hw hr
    obtain hp' | ⟨rfl, he⟩ := unfinished_enqueue hp
    · refine covered_mono (h.guarded p w r hp' hw hr) (fun hs => ?_) fun t ht htr => ?_
      · exact absurd hs (not_scoped hcall r _)
      · obtain rfl | ht := (mem_idle hcall).mp ht
        · exact ⟨_, mem_tenants.mpr (.inl rfl), htr, fun q hq => (hevents q).mpr (.inl hq)⟩
        · exact ⟨t, mem_tenants.mpr (.inr (.inr ht)), htr, fun q => id⟩
    · obtain rfl := Op.work.inj he
      obtain hs | ht := hw
      · obtain ⟨hstream, hlt⟩ := unfinished_ahead hp rfl
        exact .inr ⟨_, mem_tenants.mpr (.inl rfl), hs, _, (hevents _).mpr (.inr rfl), hstream, hlt⟩
      · cases ht
  · refine silent_determined h.determined h.orderly k ?_
    rintro w ⟨rfl⟩
    rfl
  · exact ⟨h.fits.elements, h.fits.block, h.fits.tracked, h.fits.event, h.fits.unwritten,
      h.fits.empty⟩
  · intro p w r hp hr ht
    obtain hp | ⟨-, he⟩ := unfinished_enqueue hp
    · exact h.writes p w r hp hr ht
    · obtain rfl := Op.work.inj he
      cases ht
  · exact h.closed
  · rw [CallOk, hcall]
    trivial

lemma read_tended (h : Tended width others L s) (hcall : s.call = .none) :
    Tended width others L (s.read k) := by
  have hreaped := idle_reaped h hcall
  have hclosed : (s.cudaBuffer.reap s.device.gpu).finalizeWrite s.device.gpu =
      s.cudaBuffer.reap s.device.gpu := finalizeWrite_closed hreaped.closed
  rw [State.read, hclosed]
  cases hevent : (s.cudaBuffer.reap s.device.gpu).writeEvent.join with
  | none => exact load_tended hreaped hcall k
  | some p =>
    have hready := hreaped.calm (wait_calm s.device k p) (Gpu.enqueue_orderly h.orderly _ _)
      (wait_determined h.determined h.orderly k p)
    exact load_tended hready hcall k

end Accesses

end RosidlBufferBackends.Cuda.Resizing
