import RosidlBufferBackends.Cuda.Wiring

/-! The shared refcount of a block counts the imports that have not been released,
and those that wait for an answer. -/

namespace RosidlBufferBackends.Cuda.ImportCount

open CudaMemoryPool CudaVmmIPCManager CudaBufferBackend Runs Exchange

variable {pid : ℤ} {s u : Exchange} {e : Event} {o : Output}

def liveOn (s : Exchange) (seg : ℕ) : ℕ := s.live.countP (fun i => i.result.ipcMeta = some seg)

def waitingOn (s : Exchange) (seg : ℕ) : ℕ := s.waiting.countP (fun w => w.ipcMeta = some seg)

def refcountOf (s : Exchange) (seg : ℕ) : ℤ := (s.os.segments seg).refcount.toInt

def Counted (s : Exchange) : Prop :=
  ∀ r seg, s.Owns r seg → refcountOf s seg = liveOn s seg + waitingOn s seg

/-- No exception skips the clean-up, and a reference that stays has room in the refcount. -/
structure Countable (os : Os) (cache : ImportCache) (env : ImportEnv) (args : ImportArgs)
    (seg : ℕ) : Prop where
  cleanup : ¬ SkipsCleanup os cache env args
  room : Completes os cache env args ∨ Waits os cache env args →
    (os.segments seg).refcount.toInt < 2 ^ 31 - 1

/-- An import that maps or finds metadata counts it properly. -/
def ImportsCountable (s : Exchange) : Event → Output → Prop
  | .importBlock sub args env, _ => ∀ seg, consulted s.os (s.caches sub) env args = some seg →
      Countable s.os (s.caches sub) env args seg
  | _, _ => True

/-- An import that maps or finds metadata meets the condition of `allOrNothing_iff`. -/
def ImportsSafe (s : Exchange) : Event → Output → Prop
  | .importBlock sub args env, _ => ∀ seg, consulted s.os (s.caches sub) env args = some seg →
      ImportSafe s.os (s.caches sub) env args seg
  | _, _ => True

lemma ImportsSafe.countable (h : ImportsSafe s e o) : ImportsCountable s e o := by
  cases e with
  | importBlock sub args env =>
    intro seg hseg
    have hsafe := h seg hseg
    refine ⟨hsafe.cleanup, ?_⟩
    rintro (hcomp | hwaits)
    · exact hsafe.room hcomp
    · exact absurd hwaits hsafe.answered
  | _ => trivial

lemma Counted.congr (hc : Counted s) (hb : SameBlocks s.pool u.pool)
    (hs : ∀ seg, (u.os.segments seg).refcount = (s.os.segments seg).refcount)
    (hl : u.live = s.live) (hwait : u.waiting = s.waiting) : Counted u := by
  intro r seg ho
  rw [refcountOf, liveOn, waitingOn, hs, hl, hwait]
  exact hc r seg (by rwa [Owns, ← hb.ipcMeta])

lemma onMeta_refcount (os : Os) (ipcMeta : Option ℕ) {f : IPCMetadata → IPCMetadata}
    (hf : ∀ m, (f m).refcount = m.refcount) (seg : ℕ) :
    ((os.onMeta ipcMeta f).segments seg).refcount = (os.segments seg).refcount := by
  rw [Os.onMeta_segments]
  split
  · exact hf _
  · rfl

lemma assigned_refcount (s : Exchange) (r now n seg : ℕ) :
    ((s.assigned r now n).os.segments seg).refcount = (s.os.segments seg).refcount := by
  by_cases h : (s.pool.block r).currentUid = 0
  · rw [assigned_of_zero now n h]
    exact onMeta_refcount s.os (s.pool.block r).ipcMeta (f := stamp n now) (fun _ => rfl) seg
  · rw [assigned_of_ne_zero now n h]

/-- The metadata of a waiting import is a segment that has been created. -/
def WaitsAllocated (s : Exchange) : Prop :=
  ∀ w ∈ s.waiting, ∀ seg, w.ipcMeta = some seg → seg < s.os.nextSegment

lemma counted_created (hw : Wired pid s) (hwait : WaitsAllocated s) (hc : Counted s) {b : VmmBlock}
    {os : Os} (hb : SegmentsCreated pid s b os) : Counted (s.created b os) := by
  intro r seg ho
  rw [Owns, created_block] at ho
  split_ifs at ho with hr
  · -- nothing is live on a new segment, and nothing waits with it
    obtain ⟨hseg, _, hnew⟩ := hb.new seg ho
    have hlive : liveOn (s.created b os) seg = 0 := by
      apply List.countP_eq_zero.mpr
      intro i hi hm
      obtain ⟨r', ho', _⟩ := hw.imported i hi seg (by simpa using hm)
      exact (hw.allocated r' seg ho').ne hseg
    have hwaiting : waitingOn (s.created b os) seg = 0 := by
      apply List.countP_eq_zero.mpr
      intro w hmem hm
      exact (hwait w hmem seg (by simpa using hm)).ne hseg
    have href : refcountOf (s.created b os) seg = 0 := by
      change (os.segments seg).refcount.toInt = 0
      rw [hnew]
      rfl
    rw [hlive, hwaiting, href]
    rfl
  · have hold := hb.old seg (hw.allocated r seg ho)
    change (os.segments seg).refcount.toInt = _
    rw [hold]
    exact hc r seg ho

/-- A reference is added for one more import that is live or waits. -/
lemma Counted.add (hc : Counted s) {ipcMeta : Option ℕ} (hb : SameBlocks s.pool u.pool)
    (hos : u.os = s.os.onMeta ipcMeta IPCMetadata.fetchAdd)
    (hn : ∀ seg, liveOn u seg + waitingOn u seg =
      liveOn s seg + waitingOn s seg + if ipcMeta = some seg then 1 else 0)
    (hroom : ∀ seg, ipcMeta = some seg → (s.os.segments seg).refcount.toInt < 2 ^ 31 - 1) :
    Counted u := by
  intro r seg ho
  have hold : (s.os.segments seg).refcount.toInt = liveOn s seg + waitingOn s seg :=
    hc r seg (by rwa [Owns, ← hb.ipcMeta])
  have hcount := hn seg
  rw [refcountOf, hos, Os.onMeta_segments]
  by_cases hm : ipcMeta = some seg
  · rw [if_pos hm] at hcount ⊢
    rw [(s.os.segments seg).fetchAdd_toInt.mpr (hroom seg hm), hold]
    omega
  · rw [if_neg hm] at hcount ⊢
    rw [hold]
    omega

/-- A reference is dropped for an import that was live or waited. -/
lemma Counted.drop (hc : Counted s) {ipcMeta : Option ℕ} (hb : SameBlocks s.pool u.pool)
    (hos : u.os = s.os.onMeta ipcMeta IPCMetadata.fetchSub)
    (hn : ∀ seg, (liveOn u seg + waitingOn u seg + if ipcMeta = some seg then 1 else 0) =
      liveOn s seg + waitingOn s seg) : Counted u := by
  intro r seg ho
  have hold : (s.os.segments seg).refcount.toInt = liveOn s seg + waitingOn s seg :=
    hc r seg (by rwa [Owns, ← hb.ipcMeta])
  have hcount := hn seg
  rw [refcountOf, hos, Os.onMeta_segments]
  by_cases hm : ipcMeta = some seg
  · rw [if_pos hm] at hcount ⊢
    rw [IPCMetadata.fetchSub_toInt (by omega), hold]
    omega
  · rw [if_neg hm] at hcount ⊢
    rw [hold]
    omega

lemma countP_erase_add {α : Type} [DecidableEq α] {l : List α} {a : α} (h : a ∈ l) (p : α → Bool) :
    ((l.erase a).countP p + if p a then 1 else 0) = l.countP p := by
  rw [(List.perm_cons_erase h).countP_eq p, List.countP_cons]

lemma step_waitsAllocated (hw : Wired pid s) (h : WaitsAllocated s)
    (hs : step pid s e = some (o, u)) :
    WaitsAllocated u := by
  have hkeep : s.os.nextSegment ≤ u.os.nextSegment → u.waiting = s.waiting → WaitsAllocated u :=
    fun hle hwait w hmem seg hm => (h w (hwait ▸ hmem) seg hm).trans_le hle
  cases step_cases hs with
  | reused _ _ => exact hkeep (by simp [reused, atTime]) rfl
  | notCreated _ _ _ => exact hkeep le_rfl rfl
  | created _ _ hb => exact hkeep (segmentsCreated hb).next_le rfl
  | freed _ => exact hkeep le_rfl rfl
  | assigned _ _ _ _ => exact hkeep (assigned_nextSegment s _ _ _).ge rfl
  | notDescribed _ _ => exact hkeep le_rfl rfl
  | @described impl env now n r uid sockets blocks socketPath result published =>
    exact hkeep (assigned_nextSegment (s.registered sockets blocks) r now n).ge rfl
  | imported _ _ _ => exact hkeep (by simp [withImport]) rfl
  | leaked _ => exact hkeep (by simp) rfl
  | @waiting sub args env _ =>
    intro w hmem seg hm
    have hnext : (s.withWaiting ⟨sub, args, consulted s.os (s.caches sub) env args⟩).os.nextSegment
        = s.os.nextSegment := by simp [withWaiting]
    rw [hnext]
    rcases List.mem_cons.mp hmem with rfl | hmem
    · obtain ⟨r, ho, _⟩ := consulted_owned hw hm
      exact hw.allocated r seg ho
    · exact h w hmem seg hm
  | notImported _ _ _ => exact h
  | interrupted _ =>
    intro w hmem seg hm
    have hlt := h w (List.mem_of_mem_erase hmem) seg hm
    simpa [withoutWaiting] using hlt
  | released _ => exact hkeep (by simp [withoutImport]) rfl

lemma step_counted (hw : Wired pid s) (hwait : WaitsAllocated s) (hc : Counted s)
    (hsafe : ImportsCountable s e o) (hs : step pid s e = some (o, u)) : Counted u := by
  cases step_cases hs with
  | reused _ _ =>
    exact hc.congr (sameBlocks_reused s _ _ _ _) (onMeta_refcount s.os _ (fun _ => rfl)) rfl rfl
  | notCreated _ _ _ => exact hc.congr (.refl rfl) (fun _ => rfl) rfl rfl
  | created _ _ hb =>
    have hc' := counted_created hw hwait hc (segmentsCreated hb)
    exact hc'.congr (.refl rfl) (fun _ => rfl) rfl rfl
  | freed _ => exact hc.congr (.refl rfl) (fun _ => rfl) rfl rfl
  | @assigned r now n uid _ _ _ _ =>
    exact hc.congr (sameBlocks_assigned s r now n) (assigned_refcount s r now n) rfl rfl
  | notDescribed _ _ => exact hc.congr (.refl rfl) (fun _ => rfl) rfl rfl
  | @described impl env now n r uid sockets blocks socketPath result published =>
    exact hc.congr (sameBlocks_described s sockets blocks r now n)
      (assigned_refcount (s.registered sockets blocks) r now n) rfl rfl
  | @imported sub args env entry hcomp hm _ =>
    refine hc.add (.refl rfl) rfl (fun seg => ?_)
      fun seg hseg => (hsafe seg (hm.symm.trans hseg)).room (.inl hcomp)
    simp only [liveOn, waitingOn, withImport, List.countP_cons, decide_eq_true_eq]
    omega
  | @leaked sub args env err hskip =>
    have hnone : consulted s.os (s.caches sub) env args = none := by
      by_contra hne
      obtain ⟨seg, hseg⟩ := Option.ne_none_iff_exists'.mp hne
      exact (hsafe seg hseg).cleanup hskip
    rw [hnone]
    exact hc
  | @waiting sub args env hwaits =>
    refine hc.add (.refl rfl) rfl (fun seg => ?_)
      fun seg hseg => (hsafe seg hseg).room (.inr hwaits)
    simp only [liveOn, waitingOn, withWaiting, List.countP_cons, decide_eq_true_eq]
    omega
  | notImported _ _ _ => exact hc
  | @interrupted w hmem =>
    refine hc.drop (.refl rfl) rfl fun seg => ?_
    have herase := countP_erase_add hmem (fun w => decide (w.ipcMeta = some seg))
    simp only [decide_eq_true_eq] at herase
    simp only [liveOn, waitingOn, withoutWaiting]
    omega
  | @released i hmem =>
    refine hc.drop (.refl rfl) rfl fun seg => ?_
    have herase := countP_erase_add hmem (fun i => decide (i.result.ipcMeta = some seg))
    simp only [decide_eq_true_eq] at herase
    simp only [liveOn, waitingOn, withoutImport]
    omega

/-- Only imports of which no count is kept wait. -/
def Uncounted (s : Exchange) : Prop := ∀ w ∈ s.waiting, w.ipcMeta = none

lemma Uncounted.waitingOn (h : Uncounted s) (seg : ℕ) : waitingOn s seg = 0 := by
  apply List.countP_eq_zero.mpr
  intro w hw
  simp [h w hw]

lemma step_uncounted (h : Uncounted s) (hsafe : ImportsSafe s e o)
    (hs : step pid s e = some (o, u)) : Uncounted u := by
  cases step_cases hs with
  | @waiting sub args env hwaits =>
    intro w hmem
    rcases List.mem_cons.mp hmem with rfl | hmem
    · by_contra hne
      obtain ⟨seg, hseg⟩ := Option.ne_none_iff_exists'.mp hne
      exact (hsafe seg hseg).answered hwaits
    · exact h w hmem
  | interrupted _ => exact fun w hmem => h w (List.mem_of_mem_erase hmem)
  | _ => exact h

variable {granularity : ℕ} {hg : 0 < granularity} {deviceId : ℤ} {ipcCapable : Bool}
  {tr : List (Event × Output)}

lemma run_waitsAllocated (hr : Run (step pid) (initial granularity hg deviceId ipcCapable) tr s) :
    WaitsAllocated s := by
  induction hr with
  | nil => exact fun w hmem => absurd hmem (by simp [initial])
  | snoc hr hs ih => exact step_waitsAllocated (run_wired hr) ih hs

lemma run_counted (hr : Run (step pid) (initial granularity hg deviceId ipcCapable) tr s)
    (hsafe : Every (step pid) ImportsCountable (initial granularity hg deviceId ipcCapable) tr) :
    Counted s := by
  apply hr.induction_every (P := fun _ s => Counted s) hsafe
  · intro r seg ho
    simp [initial, PoolPartition.initial, Owns, block] at ho
  · intro tr t e o u hrt hc hsafe hs
    exact step_counted (run_wired hrt) (run_waitsAllocated hrt) hc hsafe hs

lemma run_uncounted (hr : Run (step pid) (initial granularity hg deviceId ipcCapable) tr s)
    (hsafe : Every (step pid) ImportsSafe (initial granularity hg deviceId ipcCapable) tr) :
    Uncounted s := by
  apply hr.induction_every (P := fun _ s => Uncounted s) hsafe
  · simp [initial, Uncounted]
  · exact fun tr t e o u hrt h hsafe hs => step_uncounted h hsafe hs

theorem import_all_or_nothing (pid : ℤ) (granularity : ℕ) (hg : 0 < granularity) (deviceId : ℤ)
    (ipcCapable : Bool) :
    (∀ os cache env args seg, consulted os cache env args = some seg →
      (AllOrNothing os cache args seg (CudaVmmIPCManager.importBlock os cache env args) ↔
        ImportSafe os cache env args seg)) ∧
    ∀ tr s, Run (step pid) (initial granularity hg deviceId ipcCapable) tr s →
      Every (step pid) ImportsSafe (initial granularity hg deviceId ipcCapable) tr →
      ∀ r seg, s.Owns r seg → refcountOf s seg = liveOn s seg ∧ 0 ≤ refcountOf s seg := by
  refine ⟨fun os cache env args seg hseg => allOrNothing_iff hseg, ?_⟩
  intro tr s hr hsafe r seg ho
  have hc := run_counted hr (hsafe.mono fun _ _ _ h => h.countable) r seg ho
  rw [(run_uncounted hr hsafe).waitingOn seg, Nat.cast_zero, add_zero] at hc
  exact ⟨hc, hc ▸ Int.natCast_nonneg _⟩

open PoolPartition (workingEnv) in
def importingOnce : List Event :=
  [.allocate 100 5 (workingEnv 3 8192 1), .createDescriptor (bufferAt 8192) describing 6 41,
    .importBlock 1 (firstBlock 41) (importing 10 32768)]

lemma validName : ValidSocketName "cuda_vmm_7_0" := ⟨by decide, by decide⟩

lemma importingOnce_safe :
    EveryExec (step 7) ImportsSafe (initial 4096 (by decide) 0 true) importingOnce := by
  refine And.intro trivial (And.intro trivial (And.intro ?_ trivial))
  intro seg hseg
  obtain rfl : 0 = seg := Option.some.inj hseg
  refine ⟨fun h => h.2.2 validName, ?_, ?_, fun _ => by decide⟩
  · rintro ⟨-, ⟨listener, hc, hl⟩, -⟩
    obtain rfl : .serves 1 = listener := Option.some.inj hc.listening
    exact absurd hl (by decide)
  · rintro ⟨-, ⟨a, fd, second, hd⟩, -⟩
    exact nomatch hd.recvmsg

theorem import_all_or_nothing_once :
    ∃ tr s, Run (step 7) (initial 4096 (by decide) 0 true) tr s ∧ s.live.length = 1 ∧
      refcountOf s 0 = 1 := by
  obtain ⟨tr, hrun, hsafe⟩ := exists_run (by decide) importingOnce_safe
  have h := (import_all_or_nothing 7 4096 (by decide) 0 true).2 tr _ hrun hsafe 0 0 rfl
  exact ⟨tr, _, hrun, rfl, h.1⟩

/-- Shared state in which the first block is published. -/
def oneSegment (listener : Listener) : Os where
  nextSegment := 1
  shmNames := fun name => if name = shmName 7 0 then some 0 else none
  sockets := fun name => if name = "cuda_vmm_7_0" then some listener else none

/-- A path of 108 bytes. -/
def longPath : ImportArgs :=
  { firstBlock 0 with socketPath := String.ofList (List.replicate 108 'a') }

/-- The reply brings two files, and the driver does not accept the first one. -/
def refusing : ImportEnv :=
  { importing 10 32768 with
    recvmsg := .rights 12 (some 13), cuMemImportFromShareableHandle := false }

/-- A name that fits no address, a socket that nobody serves, and a second file. -/
theorem imports_leave_traces :
    ¬ AllOrNothing (oneSegment (.serves 1)) (fun _ => none) longPath 0
      (CudaVmmIPCManager.importBlock (oneSegment (.serves 1)) (fun _ => none)
        (importing 10 32768) longPath) ∧
    ¬ AllOrNothing (oneSegment .unserved) (fun _ => none) (firstBlock 0) 0
      (CudaVmmIPCManager.importBlock (oneSegment .unserved) (fun _ => none)
        (importing 10 32768) (firstBlock 0)) ∧
    ¬ AllOrNothing (oneSegment (.serves 1)) (fun _ => none) (firstBlock 0) 0
      (CudaVmmIPCManager.importBlock (oneSegment (.serves 1)) (fun _ => none) refusing
        (firstBlock 0)) := by
  refine ⟨fun h => ?_, fun h => ?_, fun h => ?_⟩
  · have hsafe := (allOrNothing_iff (by decide)).mp h
    exact hsafe.cleanup ⟨⟨rfl, fun _ _ => .inl rfl⟩, rfl, fun hn => absurd hn.2 (by decide)⟩
  · have hsafe := (allOrNothing_iff (by decide)).mp h
    exact hsafe.answered ⟨⟨rfl, fun _ _ => .inl rfl⟩,
      ⟨.unserved, ⟨rfl, validName, rfl, by decide⟩, .inl rfl⟩, by decide⟩
  · have hsafe := (allOrNothing_iff (by decide)).mp h
    refine hsafe.received ⟨⟨rfl, fun _ _ => .inl rfl⟩,
      ⟨1, 12, 13, ⟨rfl, validName, rfl, by decide⟩, rfl⟩, ?_⟩
    exact fun hc => nomatch (hc.2 rfl).cuMemImportFromShareableHandle

end RosidlBufferBackends.Cuda.ImportCount
