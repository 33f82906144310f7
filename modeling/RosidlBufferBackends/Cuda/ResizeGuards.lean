import RosidlBufferBackends.Cuda.Resizing

/-! What holds at every point of a `resize`: whoever has a block has the events, or the open
handles, that guard the transfers still under way on it. -/

namespace RosidlBufferBackends.Cuda.Resizing

open Streams Device PoolPartition

def PendingWork.holds (r : ℕ) (item : PendingWork) : Bool := decide (item.devicePtr = some r)

def CudaBuffer.work (buf : CudaBuffer) : PendingWork := ⟨buf.eventsToSync, buf.devicePtr⟩

def Call.newBuffer : Call → Option CudaBuffer
  | .resizing _ newBuffer _ => some newBuffer
  | .none | .allocating _ => Option.none

namespace State

/-- Who has a block that was not handed out to others. -/
def tenants (s : State) : List PendingWork :=
  s.cudaBuffer.work :: ((s.call.newBuffer.map CudaBuffer.work).toList ++ s.queue)

/-- A handle on the block is open on the stream. -/
def Scoped (s : State) (r k : ℕ) : Prop :=
  match s.call with
  | .resizing _ newBuffer .reading | .resizing _ newBuffer (.copied _) =>
    k = s.streamOf ∧ (s.cudaBuffer.devicePtr = some r ∨ newBuffer.devicePtr = some r)
  | .resizing _ _ (.writeClosed _) => k = s.streamOf ∧ s.cudaBuffer.devicePtr = some r
  | _ => False

def Covered (s : State) (r : ℕ) (p : Point ℕ) : Prop :=
  s.Scoped r p.stream ∨ ∃ t ∈ s.tenants, t.devicePtr = some r ∧
    ∃ q, some q ∈ t.events ∧ q.stream = p.stream ∧ p.position < q.position

end State

/-- The buffer has room for its elements, and its block for the buffer. -/
structure Fits (width : ℕ) (L : ℕ → Option Bytes) (pool : PoolPartition.State) (n : ℕ)
    (buf : CudaBuffer) : Prop where
  elements : n * width ≤ buf.size
  block : ∀ r, buf.devicePtr = some r → buf.size ≤ (pool.pool.block r).size
  tracked : ∀ r, buf.devicePtr = some r → (L r).isSome
  event : ∀ r, buf.devicePtr = some r → buf.writeEvent.isSome ∧ buf.recycler = true
  unwritten : buf.handleState.state = .unset → ∀ q, buf.writeEvent ≠ some (some q)
  empty : buf.devicePtr = none → buf.size = 0 ∧ buf.recycler = false

/-- The unfinished writes of the buffer are ahead of what its write event has recorded. -/
def WritesRecorded (d : Device ℕ ℕ Bytes) (buf : CudaBuffer) : Prop :=
  ∀ p w r, d.Unfinished p w → buf.devicePtr = some r → w.target = some r →
    ∃ q, buf.writeEvent = some (some q) ∧ q.stream = p.stream ∧ p.position < q.position

/-- Nothing under way touches the buffer, and its event was not recorded yet. -/
structure Fresh (d : Device ℕ ℕ Bytes) (buf : CudaBuffer) : Prop where
  untouched : ∀ p w r, d.Unfinished p w → buf.devicePtr = some r → ¬ w.Touches r
  event : buf.writeEvent = some none

def Closed (buf : CudaBuffer) : Prop := buf.handleState.state ≠ .inUse

structure OpenOn (k : ℕ) (buf : CudaBuffer) : Prop where
  handle : buf.handleState = { state := .inUse, writeStream := some k }
  event : buf.writeEvent = some none

/-- The first bytes of the two are the same. -/
def Copied (count : ℕ) (L : ℕ → Option Bytes) (old new : CudaBuffer) : Prop :=
  ∀ x y, old.devicePtr.bind L = some x → new.devicePtr.bind L = some y →
    ∀ j < count, y j = x j

/-- The new buffer when its handles are closed. -/
structure Ended (width : ℕ) (L : ℕ → Option Bytes) (s : State) (n : ℕ) (newBuffer : CudaBuffer)
    (thrown : Option ResizeError) : Prop where
  closed : Closed newBuffer
  writes : WritesRecorded s.device newBuffer
  copied : thrown.isNone → Copied (min n s.size * width) L s.cudaBuffer newBuffer

def StageOk (width : ℕ) (L : ℕ → Option Bytes) (s : State) (n : ℕ) (newBuffer : CudaBuffer) :
    Stage → Prop
  | .allocated | .reaped =>
    s.cudaBuffer.devicePtr.isSome ∧ Fresh s.device newBuffer ∧ Closed newBuffer
  | .reading =>
    s.cudaBuffer.devicePtr.isSome ∧ Fresh s.device newBuffer ∧ OpenOn s.streamOf newBuffer ∧
      ∀ p w r, s.device.Unfinished p w → s.cudaBuffer.devicePtr = some r → w.target = some r →
        s.device.gpu.Before p (s.device.gpu.here s.streamOf)
  | .copied thrown =>
    s.cudaBuffer.devicePtr.isSome ∧ OpenOn s.streamOf newBuffer ∧
      (∀ p w r, s.device.Unfinished p w → newBuffer.devicePtr = some r → w.target = some r →
        p.stream = s.streamOf) ∧
      (thrown.isNone → Copied (min n s.size * width) L s.cudaBuffer newBuffer)
  | .writeClosed thrown =>
    s.cudaBuffer.devicePtr.isSome ∧ Ended width L s n newBuffer thrown
  | .closed thrown => Ended width L s n newBuffer thrown

/-- The byte size, rounded up to the granularity, does not wrap. -/
def Requestable (width : ℕ) (pool : PoolPartition.State) (n : ℕ) : Prop :=
  n * width + pool.pool.granularity < 2 ^ 64

def CallOk (width : ℕ) (L : ℕ → Option Bytes) (s : State) : Prop :=
  match s.call with
  | .none => True
  | .allocating n => Requestable width s.pool n
  | .resizing n newBuffer stage =>
    Fits width L s.pool n newBuffer ∧ newBuffer.devicePtr.isSome ∧
      StageOk width L s n newBuffer stage

/-- `others` are the blocks that other buffers have. -/
structure Tended (width : ℕ) (others : List ℕ) (L : ℕ → Option Bytes) (s : State) : Prop where
  orderly : s.device.gpu.Orderly
  partition : Partition s.pool
  tenancy : ∀ r, s.tenants.countP (PendingWork.holds r) + others.count r =
    s.pool.handedOut.count r
  placed : ∀ t ∈ s.tenants, ∀ q, some q ∈ t.events →
    q.position ≤ (s.device.gpu.queue q.stream).length
  guarded : ∀ p w r, s.device.Unfinished p w → w.Touches r → r ∉ others → s.Covered r p
  determined : s.device.Determined L
  fits : Fits width L s.pool s.size s.cudaBuffer
  writes : WritesRecorded s.device s.cudaBuffer
  closed : Closed s.cudaBuffer
  call : CallOk width L s

variable {width : ℕ} {others : List ℕ} {L : ℕ → Option Bytes} {s : State} {r n : ℕ}
  {d d' : Device ℕ ℕ Bytes} {buf newBuffer : CudaBuffer} {stage : Stage} {t : PendingWork}

section Tenants

lemma holds_iff : t.holds r = true ↔ t.devicePtr = some r := decide_eq_true_iff

lemma Tended.count_le (h : Tended width others L s) (r : ℕ) :
    s.tenants.countP (PendingWork.holds r) + others.count r ≤ 1 := by
  have ho := h.partition.once r
  have ht := h.tenancy r
  split_ifs at ho <;> omega

lemma Tended.not_other (h : Tended width others L s) (ht : t ∈ s.tenants)
    (hr : t.devicePtr = some r) : r ∉ others := by
  intro hmem
  have hle := h.count_le r
  have hpos : 0 < s.tenants.countP (PendingWork.holds r) :=
    List.countP_pos_iff.mpr ⟨t, ht, holds_iff.mpr hr⟩
  have hother := List.count_pos_iff.mpr hmem
  omega

lemma Tended.handed (h : Tended width others L s) (ht : t ∈ s.tenants)
    (hr : t.devicePtr = some r) : r ∈ s.pool.handedOut := by
  have hpos : 0 < s.tenants.countP (PendingWork.holds r) :=
    List.countP_pos_iff.mpr ⟨t, ht, holds_iff.mpr hr⟩
  have htenancy := h.tenancy r
  exact List.count_pos_iff.mp (by omega)

lemma mem_tenants : t ∈ s.tenants ↔ t = s.cudaBuffer.work ∨
    (∃ new, s.call.newBuffer = some new ∧ t = new.work) ∨ t ∈ s.queue := by
  rw [State.tenants, List.mem_cons, List.mem_append, Option.mem_toList, Option.map_eq_some_iff]
  simp only [eq_comm]

/-- The block of the impl is in no one else's hands. -/
lemma Tended.held_alone (h : Tended width others L s) (hr : s.cudaBuffer.devicePtr = some r) :
    (∀ new, s.call.newBuffer = some new → new.devicePtr ≠ some r) ∧
      ∀ t ∈ s.queue, t.devicePtr ≠ some r := by
  have hle := h.count_le r
  have hheld : s.cudaBuffer.work.holds r = true := holds_iff.mpr hr
  rw [State.tenants, List.countP_cons_of_pos hheld, List.countP_append] at hle
  constructor
  · intro new hn he
    have hnew : new.work.holds r = true := holds_iff.mpr he
    rw [hn, Option.map_some, Option.toList_some, List.countP_cons_of_pos hnew] at hle
    omega
  · intro t ht he
    have hpos : 0 < s.queue.countP (PendingWork.holds r) :=
      List.countP_pos_iff.mpr ⟨t, ht, holds_iff.mpr he⟩
    omega

end Tenants

section Calm

lemma Fits.congr {L' : ℕ → Option Bytes} {pool : PoolPartition.State}
    (h : Fits width L s.pool n buf)
    (hb : ∀ r, buf.devicePtr = some r → (pool.pool.block r).size = (s.pool.pool.block r).size)
    (hL : ∀ r, (L r).isSome → (L' r).isSome) : Fits width L' pool n buf where
  elements := h.elements
  block r hr := (h.block r hr).trans_eq (hb r hr).symm
  tracked r hr := hL r (h.tracked r hr)
  event := h.event
  unwritten := h.unwritten
  empty := h.empty

lemma WritesRecorded.calm (h : WritesRecorded d buf) (hc : d.Calm d') : WritesRecorded d' buf :=
  fun p w r hp => h p w r (hc.unfinished p w hp)

lemma Fresh.calm (h : Fresh d buf) (hc : d.Calm d') : Fresh d' buf :=
  ⟨fun p w r hp => h.untouched p w r (hc.unfinished p w hp), h.event⟩

lemma before_here {g g' : Gpu ℕ (Transfer ℕ Bytes)} {p : Point ℕ} {k : ℕ}
    (h : g.Before p (g.here k)) (he : g.Extends g') : g'.Before p (g'.here k) := by
  have hle : (g.queue k).length ≤ (g'.queue k).length := he.length_le k
  obtain ⟨hs, hlt⟩ | ⟨i, hi, awaited, hw, hs, hlt⟩ := h
  · exact .inl ⟨hs, hlt.trans_le hle⟩
  · exact .inr ⟨i, hi.trans_le hle, awaited, he.getElem hw, hs, hlt⟩

/-- The state has the same impl, and no new transfer. -/
structure SameImpl (s s' : State) : Prop where
  device : s.device.Calm s'.device
  size : s'.size = s.size
  cudaBuffer : s'.cudaBuffer = s.cudaBuffer
  stream : s'.stream = s.stream

lemma SameImpl.streamOf {s' : State} (h : SameImpl s s') : s'.streamOf = s.streamOf := by
  rw [State.streamOf, h.stream, State.streamOf]

lemma Ended.congr {thrown : Option ResizeError} {s' : State}
    (h : Ended width L s n newBuffer thrown) (hs : SameImpl s s') :
    Ended width L s' n newBuffer thrown where
  closed := h.closed
  writes := h.writes.calm hs.device
  copied := by
    rw [hs.size, hs.cudaBuffer]
    exact h.copied

lemma StageOk.congr {s' : State} (h : StageOk width L s n newBuffer stage) (hs : SameImpl s s') :
    StageOk width L s' n newBuffer stage := by
  have hpointer : s.cudaBuffer.devicePtr.isSome → s'.cudaBuffer.devicePtr.isSome := by
    rw [hs.cudaBuffer]
    exact id
  cases stage with
  | allocated => exact ⟨hpointer h.1, h.2.1.calm hs.device, h.2.2⟩
  | reaped => exact ⟨hpointer h.1, h.2.1.calm hs.device, h.2.2⟩
  | reading =>
    refine ⟨hpointer h.1, h.2.1.calm hs.device, hs.streamOf ▸ h.2.2.1, ?_⟩
    rw [hs.cudaBuffer, hs.streamOf]
    exact fun p w r hp hr ht =>
      before_here (h.2.2.2 p w r (hs.device.unfinished p w hp) hr ht) hs.device.grown
  | copied thrown =>
    refine ⟨hpointer h.1, hs.streamOf ▸ h.2.1, ?_, ?_⟩
    · rw [hs.streamOf]
      exact fun p w r hp => h.2.2.1 p w r (hs.device.unfinished p w hp)
    · rw [hs.size, hs.cudaBuffer]
      exact h.2.2.2
  | writeClosed thrown => exact ⟨hpointer h.1, h.2.congr hs⟩
  | closed thrown => exact Ended.congr h hs

lemma CallOk.congr {s' : State} (h : CallOk width L s) (hs : SameImpl s s')
    (hc : s'.call = s.call) (hg : s'.pool.pool.granularity = s.pool.pool.granularity)
    (hb : ∀ r, (s'.pool.pool.block r).size = (s.pool.pool.block r).size) :
    CallOk width L s' := by
  rw [CallOk, hc]
  cases hcall : s.call with
  | none => trivial
  | allocating n =>
    simp only [CallOk, hcall, Requestable] at h ⊢
    rwa [hg]
  | resizing n newBuffer stage =>
    simp only [CallOk, hcall] at h ⊢
    exact ⟨h.1.congr (fun r _ => hb r) fun _ => id, h.2.1, h.2.2.congr hs⟩

lemma Tended.calm (h : Tended width others L s) (hc : s.device.Calm d') (ho : d'.gpu.Orderly)
    (hd : d'.Determined L) : Tended width others L { s with device := d' } where
  orderly := ho
  partition := h.partition
  tenancy := h.tenancy
  placed t ht q hq := (h.placed t ht q hq).trans (hc.grown.length_le q.stream)
  guarded p w r hp := h.guarded p w r (hc.unfinished p w hp)
  determined := hd
  fits := h.fits
  writes := h.writes.calm hc
  closed := h.closed
  call := h.call.congr ⟨hc, rfl, rfl, rfl⟩ rfl rfl fun _ => rfl

end Calm

section Coverage

variable {p : Point ℕ} {s' : State}

/-- Every event that guarded a block still guards it. -/
lemma covered_mono (h : s.Covered r p) (hscope : s.Scoped r p.stream → s'.Covered r p)
    (ht : ∀ t ∈ s.tenants, t.devicePtr = some r → ∃ t' ∈ s'.tenants, t'.devicePtr = some r ∧
      ∀ q, some q ∈ t.events → some q ∈ t'.events) : s'.Covered r p := by
  obtain h | ⟨t, hmem, hr, q, hq, hs, hlt⟩ := h
  · exact hscope h
  · obtain ⟨t', hmem', hr', hsub⟩ := ht t hmem hr
    exact .inr ⟨t', hmem', hr', q, hsub q hq, hs, hlt⟩

/-- A transfer that is under way is not ahead of an event that is complete. -/
lemma not_ahead_of_passed {w : Transfer ℕ Bytes} {q : Point ℕ} (hp : d.Unfinished p w)
    (hq : d.gpu.passed q = true) (hs : q.stream = p.stream) : ¬ p.position < q.position := by
  have hle := hp.2
  simp only [Gpu.passed, decide_eq_true_eq, hs] at hq
  omega

lemma scoped_holder {k : ℕ} (h : s.Scoped r k) :
    ∃ buf : CudaBuffer, (buf = s.cudaBuffer ∨ s.call.newBuffer = some buf) ∧
      buf.devicePtr = some r := by
  rw [State.Scoped] at h
  split at h
  · rename_i new hc
    exact h.2.elim (fun hx => ⟨_, .inl rfl, hx⟩) fun hx => ⟨new, .inr (by rw [hc]; rfl), hx⟩
  · rename_i new _ hc
    exact h.2.elim (fun hx => ⟨_, .inl rfl, hx⟩) fun hx => ⟨new, .inr (by rw [hc]; rfl), hx⟩
  · exact ⟨_, .inl rfl, h.2⟩
  · exact h.elim

end Coverage

section Recycler

variable {o : Output} {s' : State} {k : ℕ} {device : Device ℕ ℕ Bytes}

lemma finish_tended (h : Tended width others L s) (hf : s.device.finish k = some device) :
    Tended width others L { s with device := device } := by
  obtain ⟨-, -, hg, -⟩ := finish_some hf
  exact h.calm (finish_calm hf) (Gpu.finish_orderly h.orderly hg)
    (finish_determined h.determined h.orderly hf)

lemma perturb_tended (h : Tended width others L s) (segments : ℕ → IPCMetadata) :
    Tended width others L
      { s with pool := { s.pool with os := { s.pool.os with segments := segments } } } where
  orderly := h.orderly
  partition := h.partition.congr rfl rfl rfl fun _ => rfl
  tenancy := h.tenancy
  placed := h.placed
  guarded := h.guarded
  determined := h.determined
  fits := h.fits.congr (fun _ _ => rfl) fun _ => id
  writes := h.writes
  closed := h.closed
  call := h.call.congr ⟨.refl _, rfl, rfl, rfl⟩ rfl rfl fun _ => rfl

lemma recycle_cases (h : s.recycle = some (o, s')) : ∃ item rest, s.queue = item :: rest ∧
    (∀ q, some q ∈ item.events → s.device.gpu.passed q = true) ∧ o = .recycled item.devicePtr ∧
    s' = { s with queue := rest }.free item.devicePtr := by
  rw [State.recycle] at h
  split at h
  · exact nomatch h
  · rename_i item rest hq
    split_ifs at h with hall
    obtain ⟨rfl, rfl⟩ := Prod.mk.inj (Option.some.inj h)
    refine ⟨item, rest, hq, fun q hmem => ?_, rfl, rfl⟩
    exact List.all_eq_true.mp hall (some q) hmem

/-- A block goes back to the pool when nothing under way touches it. -/
lemma Tended.recycled (h : Tended width others L s) (hs : s.recycle = some (o, s')) {r : ℕ}
    (ho : o = .recycled (some r)) : ∀ p w, s.device.Unfinished p w → ¬ w.Touches r := by
  obtain ⟨item, rest, hq, hpassed, rfl, -⟩ := recycle_cases hs
  have hr : item.devicePtr = some r := Output.recycled.inj ho
  have hitem : item ∈ s.tenants :=
    mem_tenants.mpr (.inr (.inr (hq ▸ List.mem_cons_self)))
  have hqueued : ∀ buf : CudaBuffer, buf.devicePtr = some r →
      buf = s.cudaBuffer ∨ s.call.newBuffer = some buf → False := by
    intro buf hbuf howner
    have hle := h.count_le r
    have hpos : item.holds r = true := holds_iff.mpr hr
    have hwork : buf.work.holds r = true := holds_iff.mpr hbuf
    rw [State.tenants, hq] at hle
    obtain rfl | hnew := howner
    · rw [List.countP_cons_of_pos hwork, List.countP_append,
        List.countP_cons_of_pos hpos] at hle
      omega
    · rw [List.countP_cons, List.countP_append, List.countP_cons_of_pos hpos, hnew,
        Option.map_some, Option.toList_some, List.countP_cons_of_pos hwork] at hle
      omega
  have halone : ∀ t ∈ s.tenants, t.devicePtr = some r → t = item := by
    intro t ht htr
    obtain rfl | ⟨new, hnew, rfl⟩ | ht := mem_tenants.mp ht
    · exact (hqueued s.cudaBuffer htr (.inl rfl)).elim
    · exact (hqueued new htr (.inr hnew)).elim
    · rw [hq] at ht
      obtain rfl | ht := List.mem_cons.mp ht
      · rfl
      · have hle := h.count_le r
        have hpos : item.holds r = true := holds_iff.mpr hr
        have hrest : 0 < rest.countP (PendingWork.holds r) :=
          List.countP_pos_iff.mpr ⟨t, ht, holds_iff.mpr htr⟩
        rw [State.tenants, hq, List.countP_cons, List.countP_append,
          List.countP_cons_of_pos hpos] at hle
        omega
  intro p w hp hw
  obtain hscope | ⟨t, ht, htr, q, hmem, hstream, hlt⟩ :=
    h.guarded p w r hp hw (h.not_other hitem hr)
  · obtain ⟨buf, howner, hbuf⟩ := scoped_holder hscope
    exact hqueued buf hbuf howner
  · obtain rfl := halone t ht htr
    exact not_ahead_of_passed hp (hpassed q hmem) hstream hlt

lemma free_frame (s : State) (ptr : Option ℕ) : ∃ pool, s.free ptr = { s with pool := pool } ∧
    (∀ r, (pool.pool.block r).size = (s.pool.pool.block r).size) ∧
    pool.pool.granularity = s.pool.pool.granularity := by
  cases ptr with
  | none => exact ⟨s.pool, rfl, fun _ => rfl, rfl⟩
  | some r => exact ⟨_, rfl, fun _ => rfl, rfl⟩

lemma recycle_tended (h : Tended width others L s) (hs : s.recycle = some (o, s')) :
    Tended width others L s' := by
  obtain ⟨item, rest, hq, hpassed, rfl, rfl⟩ := recycle_cases hs
  have hsub : ∀ t ∈ State.tenants { s with queue := rest }, t ∈ s.tenants := by
    intro t ht
    rw [mem_tenants] at ht ⊢
    exact ht.imp_right (Or.imp_right fun hr => hq ▸ List.mem_cons_of_mem item hr)
  have hcount : ∀ r, s.tenants.countP (PendingWork.holds r) =
      (State.tenants { s with queue := rest }).countP (PendingWork.holds r) +
        if item.devicePtr = some r then 1 else 0 := by
    intro r
    simp only [State.tenants, hq, List.countP_cons, List.countP_append, PendingWork.holds,
      decide_eq_true_eq]
    omega
  have hguarded : ∀ p w r, s.device.Unfinished p w → w.Touches r → r ∉ others →
      State.Covered { s with queue := rest } r p := by
    intro p w r hp hw hr
    obtain hscope | ⟨t, ht, htr, q, hmem, hstream, hlt⟩ := h.guarded p w r hp hw hr
    · exact .inl hscope
    · obtain hbuf | hnew | hqueue := mem_tenants.mp ht
      · exact .inr ⟨t, mem_tenants.mpr (.inl hbuf), htr, q, hmem, hstream, hlt⟩
      · exact .inr ⟨t, mem_tenants.mpr (.inr (.inl hnew)), htr, q, hmem, hstream, hlt⟩
      · rw [hq] at hqueue
        obtain rfl | hrest := List.mem_cons.mp hqueue
        · exact absurd hlt (not_ahead_of_passed hp (hpassed q hmem) hstream)
        · exact .inr ⟨t, mem_tenants.mpr (.inr (.inr hrest)), htr, q, hmem, hstream, hlt⟩
  have hitem : item ∈ s.tenants :=
    mem_tenants.mpr (.inr (.inr (hq ▸ List.mem_cons_self)))
  have hpool : Partition ({ s with queue := rest }.free item.devicePtr).pool ∧
      ∀ r, (State.tenants { s with queue := rest }).countP (PendingWork.holds r) +
        others.count r = ({ s with queue := rest }.free item.devicePtr).pool.handedOut.count r := by
    cases hptr : item.devicePtr with
    | none =>
      refine ⟨h.partition, fun r => ?_⟩
      have hc := hcount r
      rw [hptr, if_neg nofun] at hc
      have ht := h.tenancy r
      change _ = s.pool.handedOut.count r
      omega
    | some b =>
      have hmem := h.handed hitem hptr
      refine ⟨h.partition.free hmem, fun r => ?_⟩
      have hc := hcount r
      have ht := h.tenancy r
      have he := List.count_erase (a := r) (b := b) (l := s.pool.handedOut)
      have hpos := List.count_pos_iff.mpr hmem
      simp only [hptr, Option.some.injEq] at hc
      simp only [beq_iff_eq] at he
      change _ = (s.pool.handedOut.erase b).count r
      by_cases hb : b = r
      · subst hb
        simp only [if_true] at hc he
        omega
      · simp only [hb, if_false] at hc he
        omega
  obtain ⟨pool, he, hblock, hg⟩ := free_frame { s with queue := rest } item.devicePtr
  rw [he] at hpool ⊢
  exact {
    orderly := h.orderly
    partition := hpool.1
    tenancy := hpool.2
    placed := fun t ht => h.placed t (hsub t ht)
    guarded := hguarded
    determined := h.determined
    fits := h.fits.congr (fun r _ => hblock r) fun _ => id
    writes := h.writes
    closed := h.closed
    call := h.call.congr ⟨.refl _, rfl, rfl, rfl⟩ rfl hg hblock }

end Recycler

end RosidlBufferBackends.Cuda.Resizing
