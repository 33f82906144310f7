import RosidlBufferBackends.Cuda.ResizeSteps

/-! The copy of a `resize`, between the handles of the old buffer and of the new one. -/

namespace RosidlBufferBackends.Cuda.Resizing

open Streams Device PoolPartition

variable {width : ℕ} {others : List ℕ} {L L' : ℕ → Option Bytes} {s s' : State} {n : ℕ}
  {env : Env} {newBuffer : CudaBuffer} {thrown : Option ResizeError}

section Handles

variable {d' : Device ℕ ℕ Bytes}

lemma reading_tended (h : Tended width others L s)
    (hcall : s.call = .resizing n newBuffer .reaped) (hc : s.device.Calm d')
    (ho : d'.gpu.Orderly) (hd : d'.Determined L)
    (hbefore : ∀ p w r, d'.Unfinished p w → s.cudaBuffer.devicePtr = some r →
      w.target = some r → d'.gpu.Before p (d'.gpu.here s.streamOf)) :
    Tended width others L
      { s with
        device := d'
        call := .resizing n (newBuffer.acquireWrite s.streamOf) .reading } := by
  obtain ⟨hfits, hsome, hheld, hfresh, -⟩ := h.stage hcall
  refine (h.calm hc ho hd).recall ?_ ?_ ?_
  · change _ = s.call.newBuffer.map CudaBuffer.work
    rw [hcall]
    rfl
  · intro r k hscope
    change State.Scoped s r k at hscope
    rw [State.Scoped, hcall] at hscope
    exact hscope.elim
  · have hstill : Fresh d' newBuffer := hfresh.calm hc
    exact ⟨⟨hfits.elements, hfits.block, hfits.tracked, hfits.event, (fun h => by cases h),
      hfits.empty⟩, hsome, hheld, ⟨hstill.untouched, hstill.event⟩, ⟨rfl, hfresh.event⟩, hbefore⟩

lemma getHandles_failed (h : Tended width others L s)
    (hcall : s.call = .resizing n newBuffer .reaped) :
    Tended width others L
      { s with call := .resizing n newBuffer (.closed (some .streamWaitEvent)) } := by
  obtain ⟨hfits, hsome, -, hfresh, hclosed⟩ := h.stage hcall
  refine h.recall ?_ ?_ ?_
  · rw [hcall]
    rfl
  · intro r k hscope
    rw [State.Scoped, hcall] at hscope
    exact hscope.elim
  · exact ⟨hfits, hsome, hclosed, hfresh.writes, (fun h => by cases h)⟩

lemma getHandles_tended (env : Env) (h : Tended width others L s)
    (hcall : s.call = .resizing n newBuffer .reaped) :
    Tended width others L (s.getHandles n newBuffer env) ∧
      Carried L L s (s.getHandles n newBuffer env) := by
  obtain ⟨-, -, hheld, -, -⟩ := h.stage hcall
  obtain ⟨r₀, hr₀⟩ := Option.isSome_iff_exists.mp hheld
  obtain ⟨event, hevent⟩ := Option.isSome_iff_exists.mp (h.fits.event r₀ hr₀).1
  have hunrecorded : event = none → ∀ p w r, s.device.Unfinished p w →
      s.cudaBuffer.devicePtr = some r → w.target ≠ some r := by
    rintro rfl p w r hp hr ht
    obtain ⟨q, hq, -⟩ := h.writes p w r hp hr ht
    exact nomatch hevent.symm.trans hq
  rw [State.getHandles, finalizeWrite_closed h.closed, hevent]
  cases hwait : env.streamWaitEvent with
  | false => exact ⟨getHandles_failed h hcall, rfl, rfl, rfl, fun _ _ => rfl⟩
  | true =>
    refine ⟨?_, rfl, rfl, rfl, fun _ _ => rfl⟩
    cases event with
    | none =>
      refine reading_tended h hcall (.refl _) h.orderly h.determined fun p w r hp hr ht => ?_
      exact absurd ht (hunrecorded rfl p w r hp hr)
    | some p₀ =>
      refine reading_tended h hcall (wait_calm _ _ _) (Gpu.enqueue_orderly h.orderly _ _)
        (wait_determined h.determined h.orderly _ _) fun p w r hp hr ht => ?_
      have hold := (wait_calm s.device s.streamOf p₀).unfinished p w hp
      obtain ⟨q, hq, hs, hlt⟩ := h.writes p w r hold hr ht
      obtain rfl : p₀ = q := Option.some.inj (Option.some.inj (hevent.symm.trans hq))
      refine .inr ⟨(s.device.gpu.queue s.streamOf).length, ?_, p₀, ?_, hs, hlt⟩
      · change _ < ((s.device.gpu.enqueue s.streamOf (.wait p₀)).queue s.streamOf).length
        rw [Gpu.enqueue_length]
        exact Nat.lt_succ_self _
      · change ((s.device.gpu.enqueue s.streamOf (.wait p₀)).queue s.streamOf)[_]? = _
        simp only [Gpu.enqueue, Function.update_self, List.getElem?_concat_length]

end Handles

section Copy

lemma copyBytes_effect (count : ℕ) (source target : Option ℕ) (x y : Bytes) :
    ∀ j < count, (copyBytes count source target).effect (some x) y j = x j :=
  fun _ hj => if_pos hj

lemma Tended.blocks_ne {stage : Stage} {x y : ℕ} (h : Tended width others L s)
    (hcall : s.call = .resizing n newBuffer stage) (hx : s.cudaBuffer.devicePtr = some x)
    (hy : newBuffer.devicePtr = some y) : x ≠ y := by
  rintro rfl
  exact (h.held_alone hx).1 newBuffer (by rw [hcall]; rfl) hy

lemma memcpy_tended (h : Tended width others L s)
    (hcall : s.call = .resizing n newBuffer .reading) :
    ∃ L', Tended width others L'
      { s with
        device := s.device.enqueue s.streamOf (.work (copyBytes (min n s.size * width)
          s.cudaBuffer.devicePtr newBuffer.devicePtr))
        call := .resizing n newBuffer (.copied none) } ∧
      ∀ r, s.cudaBuffer.devicePtr = some r → L' r = L r := by
  obtain ⟨hfits, hsome, hheld, hfresh, hopen, hbefore⟩ := h.stage hcall
  obtain ⟨x, hx⟩ := Option.isSome_iff_exists.mp hheld
  obtain ⟨y, hy⟩ := Option.isSome_iff_exists.mp hsome
  have hne : x ≠ y := h.blocks_ne hcall hx hy
  obtain ⟨vx, hvx⟩ := Option.isSome_iff_exists.mp (h.fits.tracked x hx)
  obtain ⟨vy, hvy⟩ := Option.isSome_iff_exists.mp (hfits.tracked y hy)
  set w := copyBytes (min n s.size * width) s.cudaBuffer.devicePtr newBuffer.devicePtr with hw
  set d' := s.device.enqueue s.streamOf (.work w) with hd'
  set L' := Function.update L y (some (w.effect (some vx) vy)) with hL'
  have htracked : ∀ r, (L r).isSome → (L' r).isSome := by
    intro r hr
    by_cases hry : r = y
    · subst hry
      rw [hL', Function.update_self]
      rfl
    · rwa [hL', Function.update_of_ne hry]
  have htenants : ∀ t, t ∈ State.tenants
      { s with device := d', call := .resizing n newBuffer (.copied none) } ↔ t ∈ s.tenants := by
    intro t
    rw [mem_tenants, mem_tenants, hcall]
    rfl
  refine ⟨L', ?_, fun r hr => ?_⟩
  · constructor
    · exact Gpu.enqueue_orderly h.orderly _ _
    · exact h.partition
    · intro r
      have ht := h.tenancy r
      rw [tenants_count, hcall] at ht
      rw [tenants_count]
      exact ht
    · intro t ht q hq
      refine (h.placed t ((htenants t).mp ht) q hq).trans ?_
      exact (Gpu.enqueue_extends s.device.gpu s.streamOf (.work w)).length_le q.stream
    · intro p w' r hp hr hother
      obtain hp | ⟨rfl, he⟩ := unfinished_enqueue hp
      · refine covered_mono (h.guarded p w' r hp hr hother) (fun hscope => ?_) fun t ht htr => ?_
        · rw [State.Scoped, hcall] at hscope
          exact .inl hscope
        · exact ⟨t, (htenants t).mpr ht, htr, fun q => id⟩
      · obtain rfl := Op.work.inj he
        exact .inl ⟨rfl, hr⟩
    · refine transfer_determined h.determined h.orderly hx hy hne hvx hvy ?_ ?_
      · exact fun p w' hp => hfresh.untouched p w' y hp hy
      · exact fun p w' hp ht => hbefore p w' x hp hx ht
    · exact h.fits.congr (fun _ _ => rfl) htracked
    · intro p w' r hp hr ht
      obtain hp | ⟨-, he⟩ := unfinished_enqueue hp
      · exact h.writes p w' r hp hr ht
      · obtain rfl := Op.work.inj he
        exact absurd (Option.some.inj ((hx.symm.trans hr).trans (ht.symm.trans hy))) hne
    · exact h.closed
    · refine ⟨hfits.congr (fun _ _ => rfl) htracked, hsome, hheld, hopen, ?_, fun _ => ?_⟩
      · intro p w' r hp hr ht
        obtain hp | ⟨rfl, -⟩ := unfinished_enqueue hp
        · exact absurd (.inr ht) (hfresh.untouched p w' r hp hr)
        · rfl
      · intro x' y' hx' hy' j hj
        change s.cudaBuffer.devicePtr.bind L' = some x' at hx'
        rw [hx, Option.bind_some, hL', Function.update_of_ne hne, hvx] at hx'
        rw [hy, Option.bind_some, hL', Function.update_self] at hy'
        obtain rfl := Option.some.inj hx'
        obtain rfl := Option.some.inj hy'
        exact copyBytes_effect _ _ _ _ _ j hj
  · obtain rfl := Option.some.inj (hx.symm.trans hr)
    exact Function.update_of_ne hne _ _

lemma memcpy_failed (h : Tended width others L s)
    (hcall : s.call = .resizing n newBuffer .reading) :
    Tended width others L
      { s with call := .resizing n newBuffer (.copied (some .memcpyAsync)) } := by
  obtain ⟨hfits, hsome, hheld, hfresh, hopen, -⟩ := h.stage hcall
  refine h.recall ?_ ?_ ?_
  · rw [hcall]
    rfl
  · intro r k hscope
    rw [State.Scoped, hcall] at hscope
    exact hscope
  · refine ⟨hfits, hsome, hheld, hopen, fun p w r hp hr ht => ?_, (fun h => by cases h)⟩
    exact absurd (.inr ht) (hfresh.untouched p w r hp hr)

lemma copy_tended (env : Env) (h : Tended width others L s)
    (hcall : s.call = .resizing n newBuffer .reading) :
    ∃ L', Tended width others L' (s.copy width n newBuffer env) ∧
      Carried L L' s (s.copy width n newBuffer env) := by
  rw [State.copy]
  cases hmemcpy : env.memcpyAsync with
  | false => exact ⟨L, memcpy_failed h hcall, rfl, rfl, rfl, fun _ _ => rfl⟩
  | true =>
    obtain ⟨L', ht, hL⟩ := memcpy_tended h hcall
    exact ⟨L', ht, rfl, rfl, rfl, hL⟩

end Copy

section Closing

/-- What is under way on the stream is ahead of a point that is recorded there now. -/
lemma unfinished_ahead {d : Device ℕ ℕ Bytes} {p : Point ℕ} {w : Transfer ℕ Bytes} {k : ℕ}
    (hp : d.Unfinished p w) (hk : p.stream = k) :
    (d.gpu.here k).stream = p.stream ∧ p.position < (d.gpu.here k).position :=
  ⟨hk.symm, hk ▸ (List.getElem?_eq_some_iff.mp hp.1).1⟩

lemma finalizeWrite_open {gpu : Gpu ℕ (Transfer ℕ Bytes)} {k : ℕ} (h : OpenOn k newBuffer) :
    newBuffer.finalizeWrite gpu =
      { newBuffer with
        writeEvent := some (some (gpu.here k))
        handleState := { state := .finalized, writeStream := none } } := by
  rw [CudaBuffer.finalizeWrite, h.handle, h.event]
  rfl

lemma finalize_tended (h : Tended width others L s)
    (hcall : s.call = .resizing n newBuffer (.copied thrown)) :
    Tended width others L
      { s with
        call := .resizing n (newBuffer.finalizeWrite s.device.gpu) (.writeClosed thrown) } := by
  obtain ⟨hfits, hsome, hheld, hopen, hstream, hcopied⟩ := h.stage hcall
  rw [finalizeWrite_open hopen]
  set k := s.streamOf with hk
  set finalized : CudaBuffer :=
    { newBuffer with
      writeEvent := some (some (s.device.gpu.here k))
      handleState := { state := .finalized, writeStream := none } } with hfinalized
  have hevents : ∀ q, some q ∈ finalized.work.events ↔
      q = s.device.gpu.here k ∨ some q ∈ newBuffer.work.events := by
    intro q
    rw [mem_events, mem_events, hopen.event, hfinalized]
    simp only [Option.some.injEq, reduceCtorEq, false_or]
    rw [eq_comm]
  have hnew : newBuffer.work ∈ s.tenants :=
    mem_tenants.mpr (.inr (.inl ⟨newBuffer, by rw [hcall]; rfl, rfl⟩))
  have hmem : finalized.work ∈ State.tenants
      { s with call := .resizing n finalized (.writeClosed thrown) } :=
    mem_tenants.mpr (.inr (.inl ⟨finalized, rfl, rfl⟩))
  constructor
  · exact h.orderly
  · exact h.partition
  · intro r
    have ht := h.tenancy r
    rw [tenants_count, hcall] at ht
    rw [tenants_count]
    exact ht
  · intro t ht q hq
    obtain rfl | ⟨new, hn, rfl⟩ | ht := mem_tenants.mp ht
    · exact h.placed _ (mem_tenants.mpr (.inl rfl)) q hq
    · obtain rfl := Option.some.inj hn
      obtain rfl | hq := (hevents q).mp hq
      · exact le_rfl
      · exact h.placed _ hnew q hq
    · exact h.placed _ (mem_tenants.mpr (.inr (.inr ht))) q hq
  · intro p w r hp hw hr
    refine covered_mono (h.guarded p w r hp hw hr) (fun hscope => ?_) fun t ht htr => ?_
    · rw [State.Scoped, hcall] at hscope
      obtain ⟨hpk, hold | hold⟩ := hscope
      · exact .inl ⟨hpk, hold⟩
      · obtain ⟨hs, hlt⟩ := unfinished_ahead hp hpk
        exact .inr ⟨finalized.work, hmem, hold, _, (hevents _).mpr (.inl rfl), hs, hlt⟩
    · obtain rfl | ⟨new, hn, rfl⟩ | ht := mem_tenants.mp ht
      · exact ⟨_, mem_tenants.mpr (.inl rfl), htr, fun q => id⟩
      · rw [hcall] at hn
        obtain rfl := Option.some.inj hn
        exact ⟨finalized.work, hmem, htr, fun q hq => (hevents q).mpr (.inr hq)⟩
      · exact ⟨t, mem_tenants.mpr (.inr (.inr ht)), htr, fun q => id⟩
  · exact h.determined
  · exact h.fits
  · exact h.writes
  · exact h.closed
  · refine ⟨⟨hfits.elements, hfits.block, hfits.tracked, ?_, (fun h => by cases h),
      hfits.empty⟩, hsome, hheld, (fun h => by cases h), ?_, hcopied⟩
    · exact fun r hr => ⟨rfl, (hfits.event r hr).2⟩
    · intro p w r hp hr ht
      obtain ⟨hs, hlt⟩ := unfinished_ahead hp (hstream p w r hp hr ht)
      exact ⟨_, rfl, hs, hlt⟩

lemma release_tended (h : Tended width others L s)
    (hcall : s.call = .resizing n newBuffer (.writeClosed thrown)) :
    Tended width others L
      { s with
        cudaBuffer := s.cudaBuffer.releaseRead s.device.gpu s.streamOf
        call := .resizing n newBuffer (.closed thrown) } := by
  obtain ⟨hfits, hsome, hheld, hended⟩ := h.stage hcall
  set k := s.streamOf with hk
  set released := s.cudaBuffer.releaseRead s.device.gpu k with hreleased
  have hevents : ∀ q, some q ∈ released.work.events ↔
      some q ∈ s.cudaBuffer.work.events ∨ q = s.device.gpu.here k := by
    intro q
    rw [mem_events, mem_events, hreleased, CudaBuffer.releaseRead, List.mem_append,
      List.mem_singleton, or_assoc]
  have hnew : newBuffer.work ∈ s.tenants :=
    mem_tenants.mpr (.inr (.inl ⟨newBuffer, by rw [hcall]; rfl, rfl⟩))
  constructor
  · exact h.orderly
  · exact h.partition
  · intro r
    have ht := h.tenancy r
    rw [tenants_count, hcall] at ht
    rw [tenants_count]
    exact ht
  · intro t ht q hq
    obtain rfl | ⟨new, hn, rfl⟩ | ht := mem_tenants.mp ht
    · obtain hq | rfl := (hevents q).mp hq
      · exact h.placed _ (mem_tenants.mpr (.inl rfl)) q hq
      · exact le_rfl
    · obtain rfl := Option.some.inj hn
      exact h.placed _ hnew q hq
    · exact h.placed _ (mem_tenants.mpr (.inr (.inr ht))) q hq
  · intro p w r hp hw hr
    refine covered_mono (h.guarded p w r hp hw hr) (fun hscope => ?_) fun t ht htr => ?_
    · rw [State.Scoped, hcall] at hscope
      obtain ⟨hs, hlt⟩ := unfinished_ahead hp hscope.1
      exact .inr ⟨released.work, mem_tenants.mpr (.inl rfl), hscope.2, _,
        (hevents _).mpr (.inr rfl), hs, hlt⟩
    · obtain rfl | ⟨new, hn, rfl⟩ | ht := mem_tenants.mp ht
      · exact ⟨released.work, mem_tenants.mpr (.inl rfl), htr,
          fun q hq => (hevents q).mpr (.inl hq)⟩
      · rw [hcall] at hn
        exact ⟨_, mem_tenants.mpr (.inr (.inl ⟨new, hn, rfl⟩)), htr, fun q => id⟩
      · exact ⟨t, mem_tenants.mpr (.inr (.inr ht)), htr, fun q => id⟩
  · exact h.determined
  · exact ⟨h.fits.elements, h.fits.block, h.fits.tracked, h.fits.event, h.fits.unwritten,
      h.fits.empty⟩
  · exact h.writes
  · exact h.closed
  · exact ⟨hfits, hsome, hended.closed, hended.writes, hended.copied⟩

end Closing

end RosidlBufferBackends.Cuda.Resizing
