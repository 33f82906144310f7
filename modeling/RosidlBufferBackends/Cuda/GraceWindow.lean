import RosidlBufferBackends.Cuda.Offers

/-! The time that a block rests after the last of its descriptors. It counts from the stamp
that `assignUid` writes, and not from the return of the descriptor. -/

namespace RosidlBufferBackends.Cuda.GraceWindow

open CudaMemoryPool CudaVmmIPCManager CudaBufferBackend Runs Exchange

variable {pid : ℤ} {s u : Exchange} {e : Event} {o : Output}

def stampOf (s : Exchange) (seg : ℕ) : ℕ := (s.os.segments seg).publishTimestampUs

/-- The call reaches `assignUid` for the block. -/
def Publishes (pid : ℤ) (s : Exchange) (impl : CudaBufferImpl) (env : DescriptorEnv) (r : ℕ) :
    Prop :=
  env.canImport = true ∧ s.pool.ipcCapable = true ∧
    findBlockForVa s.pool impl.devicePtr = some r ∧ 0 ≤ (s.pool.block r).exportedFd ∧
    ∃ socketPath, (registerBlock s.os pid s.pool env.register r).2.2 = .ok socketPath

/-- No block with metadata is published twice under one uid, or at time 0. -/
def PublishesFresh (pid : ℤ) (s : Exchange) : Event → Output → Prop
  | .createDescriptor impl env now _, _ => ∀ r, Publishes pid s impl env r →
      (s.pool.block r).ipcMeta ≠ none → (s.pool.block r).currentUid = 0 ∧ now ≠ 0
  | _, _ => True

/-- The descriptor of a block with metadata is returned at the reading of the clock that is
stamped on the block. -/
def ReturnsAtOnce (pid : ℤ) (s : Exchange) : Event → Output → Prop
  | .createDescriptor impl env _ _, _ => ∀ r, Publishes pid s impl env r →
      (s.pool.block r).ipcMeta ≠ none → env.elapsed = 0
  | _, _ => True

/-- The window of the publication's stamp is over, or it is the one that the block's
timestamp counts. -/
def Guarded (s : Exchange) (p : Publication) : Prop :=
  p.block < s.pool.allBlocks.length ∧ ∀ seg, s.Owns p.block seg →
    p.stamped + gracePeriodUs ≤ s.clock ∨
      (stampOf s seg = p.stamped ∧ p.stamped ≠ 0 ∧ (s.pool.block p.block).currentUid ≠ 0)

def AtOnce (s : Exchange) (p : Publication) : Prop :=
  (s.pool.block p.block).ipcMeta ≠ none → p.time = p.stamped

lemma onMeta_stamp (os : Os) (ipcMeta : Option ℕ) {f : IPCMetadata → IPCMetadata}
    (hf : ∀ m, (f m).publishTimestampUs = m.publishTimestampUs) (seg : ℕ) :
    ((os.onMeta ipcMeta f).segments seg).publishTimestampUs =
      (os.segments seg).publishTimestampUs := by
  rw [Os.onMeta_segments]
  split
  · exact hf _
  · rfl

lemma Guarded.congr {p : Publication} (hg : Guarded s p)
    (hb : ∀ r, u.pool.block r = s.pool.block r)
    (hl : u.pool.allBlocks.length = s.pool.allBlocks.length)
    (hs : ∀ seg, stampOf u seg = stampOf s seg) (hc : s.clock ≤ u.clock) : Guarded u p := by
  refine ⟨hl ▸ hg.1, fun seg ho => ?_⟩
  rw [hb, hs]
  rcases hg.2 seg (by rwa [Owns, ← hb]) with h | h
  · exact .inl (h.trans hc)
  · exact .inr h

/-- A ready block whose timestamp counts has rested for the grace period. -/
lemma ready_rested {os : Os} {now seg t : ℕ} {b : VmmBlock} (hm : b.ipcMeta = some seg)
    (hready : isBlockReady os now b = true)
    (hstamp : (os.segments seg).publishTimestampUs = t) (ht : t ≠ 0) :
    t + gracePeriodUs ≤ now := by
  simp only [isBlockReady, hm, hstamp] at hready
  split_ifs at hready with hcount hlt
  · have hle := of_decide_eq_true hready
    omega

lemma guarded_reused (hw : Wired pid s) {p : Publication} (hg : Guarded s p) {now key i r : ℕ}
    {vec : List ℕ} (hr : r < s.pool.allBlocks.length)
    (hready : isBlockReady s.os now (s.pool.block r) = true) (hnow : s.clock ≤ now) :
    Guarded ((s.reused key vec i r).atTime now) p := by
  have hsame := sameBlocks_reused s key vec i r
  refine ⟨hsame.length.symm ▸ hg.1, fun seg ho => ?_⟩
  have ho' : s.Owns p.block seg := by
    rw [Owns, ← hsame.ipcMeta]
    exact ho
  by_cases hx : p.block = r
  · left
    rcases hg.2 seg ho' with h | ⟨hstamp, hne, _⟩
    · exact h.trans hnow
    · exact ready_rested (hx ▸ ho') hready hstamp hne
  · have hown : ¬ (s.pool.block r).ipcMeta = some seg :=
      fun h => hx (hw.owner p.block r seg ho' h)
    have hcur := reused_currentUid s key vec i hr p.block
    rw [if_neg hx] at hcur
    have hstamp : stampOf ((s.reused key vec i r).atTime now) seg = stampOf s seg := by
      change ((s.os.onMeta _ _).segments seg).publishTimestampUs = _
      rw [Os.onMeta_segments, if_neg hown]
      rfl
    rcases hg.2 seg ho' with h | ⟨hst, hne, hcu⟩
    · exact .inl (h.trans hnow)
    · exact .inr ⟨hstamp.trans hst, hne, hcur.symm ▸ hcu⟩

lemma guarded_drawn (hw : Wired pid s) {p : Publication} (hg : Guarded s p) {now n r : ℕ}
    (hz : (s.pool.block r).currentUid = 0) (hr : r < s.pool.allBlocks.length)
    (hnow : s.clock ≤ now) : Guarded ((s.drawn r now n).atTime now) p := by
  have hsame : SameBlocks s.pool (s.drawn r now n).pool :=
    ⟨modifyBlock_length _ _ _, modifyBlock_static s.pool r n⟩
  refine ⟨hsame.length.symm ▸ hg.1, fun seg ho => ?_⟩
  have ho' : s.Owns p.block seg := by
    rw [Owns, ← hsame.ipcMeta]
    exact ho
  rcases hg.2 seg ho' with h | ⟨hst, hne, hcu⟩
  · exact .inl (h.trans hnow)
  · have hx : p.block ≠ r := fun hx => hcu (hx ▸ hz)
    have hown : ¬ (s.pool.block r).ipcMeta = some seg :=
      fun h => hx (hw.owner p.block r seg ho' h)
    have hcur := drawn_currentUid s now n hr p.block
    rw [if_neg hx] at hcur
    have hstamp : stampOf ((s.drawn r now n).atTime now) seg = stampOf s seg := by
      change ((s.os.onMeta _ _).segments seg).publishTimestampUs = _
      rw [Os.onMeta_segments, if_neg hown]
      rfl
    exact .inr ⟨hstamp.trans hst, hne, hcur.symm ▸ hcu⟩

lemma guarded_assigned (hw : Wired pid s) {p : Publication} (hg : Guarded s p) {now r : ℕ} (n : ℕ)
    (hr : r < s.pool.allBlocks.length) (hnow : s.clock ≤ now) :
    Guarded ((s.assigned r now n).atTime now) p := by
  by_cases hz : (s.pool.block r).currentUid = 0
  · rw [assigned_of_zero now n hz]
    exact guarded_drawn hw hg hz hr hnow
  · rw [assigned_of_ne_zero now n hz]
    exact hg.congr (fun _ => rfl) rfl (fun _ => rfl) hnow

/-- The publication that a descriptor starts is the one that the timestamp counts. -/
lemma guarded_new (s : Exchange) (p : Publication) {n : ℕ}
    (hr : p.block < s.pool.allBlocks.length) (hn : n ≠ 0)
    (hfresh : (s.pool.block p.block).ipcMeta ≠ none →
      (s.pool.block p.block).currentUid = 0 ∧ p.stamped ≠ 0) :
    Guarded ((s.assigned p.block p.stamped n).atTime p.stamped) p := by
  have hsame := sameBlocks_assigned s p.block p.stamped n
  refine ⟨hsame.length.symm ▸ hr, fun seg ho => ?_⟩
  have hm : (s.pool.block p.block).ipcMeta = some seg := by
    rw [← hsame.ipcMeta]
    exact ho
  obtain ⟨hz, hne⟩ := hfresh (by simp [hm])
  rw [assigned_of_zero p.stamped n hz]
  have hcur := drawn_currentUid s p.stamped n hr p.block
  rw [if_pos rfl] at hcur
  refine .inr ⟨?_, hne, ?_⟩
  · change ((s.os.onMeta _ _).segments seg).publishTimestampUs = p.stamped
    rw [Os.onMeta_segments, if_pos hm]
    rfl
  · exact hcur.symm ▸ hn

lemma guarded_created (hw : Wired pid s) {p : Publication} (hg : Guarded s p) {b : VmmBlock}
    {os : Os} (hb : SegmentsCreated pid s b os) {now : ℕ} (hnow : s.clock ≤ now) :
    Guarded ((s.created b os).atTime now) p := by
  have hblock : ((s.created b os).atTime now).pool.block p.block = s.pool.block p.block := by
    have h := created_block s b os p.block
    rwa [if_neg hg.1.ne] at h
  refine ⟨?_, fun seg ho => ?_⟩
  · have hlt := hg.1
    simp only [created, atTime, List.length_append, List.length_singleton]
    omega
  · rw [Owns, hblock] at ho
    have hseg := hb.old seg (hw.allocated p.block seg ho)
    have hstamp : stampOf ((s.created b os).atTime now) seg = stampOf s seg :=
      congrArg IPCMetadata.publishTimestampUs hseg
    rw [hblock, hstamp]
    rcases hg.2 seg ho with h | h
    · exact .inl (h.trans hnow)
    · exact .inr h

lemma step_guarded (hw : Wired pid s) (hp : PoolPartition.Partition s.toState)
    (hg : ∀ p ∈ s.published, Guarded s p) (hf : PublishesFresh pid s e o)
    (hs : step pid s e = some (o, u)) : ∀ p ∈ u.published, Guarded u p := by
  cases step_cases hs with
  | reused hnow hc =>
    obtain ⟨hmem, hr⟩ := PoolPartition.candidate_mem hc
    intro p hp'
    exact guarded_reused hw (hg p hp') (hp.stored_lt hmem hr) (findCandidate_some hc).2.2 hnow
  | notCreated hnow _ _ =>
    intro p hp'
    exact (hg p hp').congr (fun _ => rfl) rfl (fun _ => rfl) hnow
  | created hnow _ hb =>
    intro p hp'
    exact guarded_created hw (hg p hp') (segmentsCreated hb) hnow
  | freed _ =>
    intro p hp'
    exact (hg p hp').congr (fun _ => rfl) rfl (fun _ => rfl) le_rfl
  | assigned hnow _ hr _ =>
    intro p hp'
    exact guarded_assigned hw (hg p hp') _ (hp.handed_lt hr) hnow
  | notDescribed hnow _ =>
    intro p hp'
    exact (hg p hp').congr (fun _ => rfl) rfl (fun _ => rfl) (hnow.trans (Nat.le_add_right _ _))
  | @described impl env now n r uid sockets blocks socketPath result published hnow hn _ hcan hcap
      hfind hfd hreg _ hres =>
    have hlt := (findBlockForVa_some hfind).1
    have hw' : Wired pid (s.registered sockets blocks) :=
      hw.congr (.refl rfl) rfl rfl rfl (fun i hi => hi)
    have hold : ∀ p ∈ s.published,
        Guarded (((s.registered sockets blocks).assigned r now n).atTime now) p := by
      intro p hp'
      have hg' : Guarded (s.registered sockets blocks) p :=
        (hg p hp').congr (fun _ => rfl) rfl (fun _ => rfl) le_rfl
      exact guarded_assigned hw' hg' n hlt hnow
    have hpub : Publishes pid s impl env r :=
      ⟨hcan, hcap, hfind, hfd, socketPath, by rw [hreg]⟩
    have hle : now ≤ now + env.elapsed := Nat.le_add_right _ _
    rcases hres with ⟨_, rfl⟩ | ⟨handle, _, rfl⟩
    · exact fun p hp' => (hold p hp').congr (fun _ => rfl) rfl (fun _ => rfl) hle
    · intro p hp'
      rcases List.mem_cons.mp hp' with rfl | hp'
      · have hnew := guarded_new (s.registered sockets blocks)
          ⟨describe pid impl (s.pool.block r) socketPath uid handle, impl, r, now,
            now + env.elapsed⟩ hlt hn (hf r hpub)
        exact hnew.congr (fun _ => rfl) rfl (fun _ => rfl) hle
      · exact (hold p hp').congr (fun _ => rfl) rfl (fun _ => rfl) hle
  | @imported sub args env entry _ _ _ =>
    intro p hp'
    exact (hg p hp').congr (fun _ => rfl) rfl
      (onMeta_stamp s.os entry.ipcMeta (fun _ => rfl)) le_rfl
  | leaked _ =>
    intro p hp'
    exact (hg p hp').congr (fun _ => rfl) rfl (onMeta_stamp s.os _ (fun _ => rfl)) le_rfl
  | waiting _ =>
    intro p hp'
    exact (hg p hp').congr (fun _ => rfl) rfl (onMeta_stamp s.os _ (fun _ => rfl)) le_rfl
  | notImported _ _ _ => exact hg
  | @interrupted w _ =>
    intro p hp'
    exact (hg p hp').congr (fun _ => rfl) rfl (onMeta_stamp s.os w.ipcMeta (fun _ => rfl)) le_rfl
  | @released i _ =>
    intro p hp'
    exact (hg p hp').congr (fun _ => rfl) rfl
      (onMeta_stamp s.os i.result.ipcMeta (fun _ => rfl)) le_rfl

lemma AtOnce.congr {p : Publication} (h : AtOnce s p)
    (hm : (u.pool.block p.block).ipcMeta = (s.pool.block p.block).ipcMeta) : AtOnce u p := by
  intro hne
  exact h (hm ▸ hne)

lemma step_atOnce (ho : Offers pid s) (h : ∀ p ∈ s.published, AtOnce s p)
    (hf : ReturnsAtOnce pid s e o) (hs : step pid s e = some (o, u)) :
    ∀ p ∈ u.published, AtOnce u p := by
  have hold : ∀ p ∈ s.published, AtOnce u p :=
    fun p hp => (h p hp).congr (step_ipcMeta hs (ho.offered p hp).lt)
  cases step_cases hs with
  | @described impl env now n r uid sockets blocks socketPath result published _ _ _ hcan hcap
      hfind hfd hreg _ hres =>
    have hpub : Publishes pid s impl env r :=
      ⟨hcan, hcap, hfind, hfd, socketPath, by rw [hreg]⟩
    rcases hres with ⟨_, rfl⟩ | ⟨handle, _, rfl⟩
    · exact hold
    · intro p hp
      rcases List.mem_cons.mp hp with rfl | hp
      · intro hne
        rw [step_ipcMeta hs (findBlockForVa_some hfind).1] at hne
        exact congrArg (now + ·) (hf r hpub hne)
      · exact hold p hp
  | _ => exact hold

variable {granularity : ℕ} {hg : 0 < granularity} {deviceId : ℤ} {ipcCapable : Bool}
  {tr : List (Event × Output)}

lemma run_atOnce (hr : Run (step pid) (initial granularity hg deviceId ipcCapable) tr s)
    (hf : Every (step pid) (ReturnsAtOnce pid) (initial granularity hg deviceId ipcCapable) tr) :
    ∀ p ∈ s.published, AtOnce s p := by
  apply hr.induction_every (P := fun _ s => ∀ p ∈ s.published, AtOnce s p) hf
  · simp [initial]
  · intro tr t e o u hrt h hft hs
    exact step_atOnce (run_offers hrt) h hft hs

lemma run_guarded (hr : Run (step pid) (initial granularity hg deviceId ipcCapable) tr s)
    (hf : Every (step pid) (PublishesFresh pid) (initial granularity hg deviceId ipcCapable) tr) :
    ∀ p ∈ s.published, Guarded s p := by
  apply hr.induction_every (P := fun _ s => ∀ p ∈ s.published, Guarded s p) hf
  · simp [initial]
  · intro tr t e o u hrt hgt hft hs
    exact step_guarded (run_wired hrt) (run_partition hrt) hgt hft hs

/-- The window after the stamp of a descriptor. -/
lemma stamped_window (hr : Run (step pid) (initial granularity hg deviceId ipcCapable) tr s)
    (hf : Every (step pid) (PublishesFresh pid) (initial granularity hg deviceId ipcCapable) tr)
    {byteSize now r : ℕ} {env : CreateBlockEnv} {log : List (Action Resource)}
    (hs : step pid s (.allocate byteSize now env) = some (.pool (.allocated log (.ok r)), u))
    {p : Publication} (hp : p ∈ s.published) (hblock : p.block = r)
    (hm : (s.pool.block r).ipcMeta ≠ none) : p.stamped + gracePeriodUs ≤ now := by
  obtain ⟨seg, hseg⟩ := Option.ne_none_iff_exists'.mp hm
  have hguard := run_guarded hr hf p hp
  generalize hout : Output.pool (.allocated log (.ok r)) = out at hs
  cases step_cases hs with
  | @reused _ _ _ _ r' _ _ hnow hc =>
    obtain ⟨_, rfl⟩ : _ ∧ r = r' := by simpa using hout
    rcases hguard.2 seg (hblock ▸ hseg) with h | ⟨hst, hne, _⟩
    · exact h.trans hnow
    · exact ready_rested hseg (findCandidate_some hc).2.2 hst hne
  | notCreated _ _ _ => simp at hout
  | created _ _ _ =>
    obtain ⟨_, hr'⟩ : _ ∧ r = s.pool.allBlocks.length := by simpa using hout
    have hlt := hguard.1
    omega

/-- Every window of the block, counted from the return of the descriptor, is over. -/
def WindowsOver (s : Exchange) (r now : ℕ) : Prop :=
  ∀ p ∈ s.published, p.block = r → (s.pool.block r).ipcMeta ≠ none → p.time + gracePeriodUs ≤ now

/-- The windows that count from the stamps are over, and those that count from the returns of the
descriptors where no call goes on after its stamp. -/
theorem grace_window (pid : ℤ) (granularity : ℕ) (hg : 0 < granularity) (deviceId : ℤ)
    (ipcCapable : Bool) (hr : Run (step pid) (initial granularity hg deviceId ipcCapable) tr s)
    (hf : Every (step pid) (PublishesFresh pid) (initial granularity hg deviceId ipcCapable) tr)
    {byteSize now r : ℕ} {env : CreateBlockEnv} {log : List (Action Resource)}
    (hs : step pid s (.allocate byteSize now env) = some (.pool (.allocated log (.ok r)), u)) :
    (∀ p ∈ s.published, p.block = r → (s.pool.block r).ipcMeta ≠ none →
      p.stamped + gracePeriodUs ≤ now) ∧
    (Every (step pid) (ReturnsAtOnce pid) (initial granularity hg deviceId ipcCapable) tr →
      WindowsOver s r now) := by
  have hwindow : ∀ p ∈ s.published, p.block = r → (s.pool.block r).ipcMeta ≠ none →
      p.stamped + gracePeriodUs ≤ now :=
    fun p hp hblock hm => stamped_window hr hf hs hp hblock hm
  refine ⟨hwindow, fun ho p hp hblock hm => ?_⟩
  rw [run_atOnce hr ho p hp (hblock ▸ hm)]
  exact hwindow p hp hblock hm

open PoolPartition (workingEnv) in
/-- A block that is published at each of the times, by calls that go on for a while after
the stamp, and freed. -/
def publishingAt (times : List (ℕ × ℕ)) : List Event :=
  .allocate 100 5 (workingEnv 3 8192 1) ::
    times.map (fun x => .createDescriptor (bufferAt 8192) { describing with elapsed := x.2 } x.1 41)
      ++ [.free 0]

lemma publishingAt_fresh (elapsed : ℕ) : EveryExec (step 7) (PublishesFresh 7)
    (initial 4096 (by decide) 0 true) (publishingAt [(6, elapsed)]) := by
  refine And.intro trivial (And.intro ?_ (And.intro trivial trivial))
  rintro r ⟨_, _, hf, _⟩ _
  obtain rfl : 0 = r := Option.some.inj hf
  exact ⟨rfl, Nat.succ_ne_zero 5⟩

lemma publishingAt_atOnce : EveryExec (step 7) (ReturnsAtOnce 7)
    (initial 4096 (by decide) 0 true) (publishingAt [(6, 0)]) :=
  And.intro trivial (And.intro (fun _ _ _ => rfl) (And.intro trivial trivial))

open PoolPartition (workingEnv) in
theorem grace_window_once : ∃ tr s u, Run (step 7) (initial 4096 (by decide) 0 true) tr s ∧
    step 7 s (.allocate 100 100006 (workingEnv 5 16384 2)) =
      some (.pool (.allocated [] (.ok 0)), u) ∧
    s.published.length = 1 ∧ ∀ p ∈ s.published, p.block = 0 → p.time + gracePeriodUs ≤ 100006 := by
  have hexec := (Option.some_get (show (exec (step 7) (initial 4096 (by decide) 0 true)
    (publishingAt [(6, 0)])).isSome by decide)).symm
  have hfresh := every_of_exec hexec (publishingAt_fresh 0)
  have honce := every_of_exec hexec publishingAt_atOnce
  obtain ⟨u, hu⟩ : ∃ u, step 7 ((exec (step 7) (initial 4096 (by decide) 0 true)
      (publishingAt [(6, 0)])).get (by decide)).2 (.allocate 100 100006 (workingEnv 5 16384 2)) =
      some (.pool (.allocated [] (.ok 0)), u) := ⟨_, rfl⟩
  refine ⟨_, _, u, exec_run hexec, hu, rfl, fun p hp hb => ?_⟩
  exact (grace_window 7 4096 (by decide) 0 true (exec_run hexec) hfresh hu).2 honce p hp hb
    (by decide)

open PoolPartition (workingEnv) in
/-- A buffer that is published twice, and one whose only publication returns late. -/
theorem block_returns_early :
    (¬ ∀ (tr : List (Event × Output)) (s u : Exchange) (byteSize now r : ℕ) (env : CreateBlockEnv)
      (log : List (Action Resource)), Run (step 7) (initial 4096 (by decide) 0 true) tr s →
      step 7 s (.allocate byteSize now env) = some (.pool (.allocated log (.ok r)), u) →
      WindowsOver s r now) ∧
    ¬ ∀ (tr : List (Event × Output)) (s u : Exchange) (byteSize now r : ℕ) (env : CreateBlockEnv)
      (log : List (Action Resource)), Run (step 7) (initial 4096 (by decide) 0 true) tr s →
      Every (step 7) (PublishesFresh 7) (initial 4096 (by decide) 0 true) tr →
      step 7 s (.allocate byteSize now env) = some (.pool (.allocated log (.ok r)), u) →
      WindowsOver s r now := by
  constructor
  · intro h
    have hrun := run_exec (show (exec (step 7) (initial 4096 (by decide) 0 true)
      (publishingAt [(6, 0), (50006, 0)])).isSome by decide)
    have hle := h _ _ _ 100 100006 0 (workingEnv 5 16384 2) [] hrun rfl _ List.mem_cons_self rfl
      (by decide)
    exact absurd hle (by decide)
  · intro h
    obtain ⟨tr, hrun, hfresh⟩ := exists_run (by decide) (publishingAt_fresh 50)
    have hle := h tr _ _ 100 100006 0 (workingEnv 5 16384 2) [] hrun hfresh rfl _
      List.mem_cons_self rfl (by decide)
    exact absurd hle (by decide)

end RosidlBufferBackends.Cuda.GraceWindow
