import RosidlBufferBackends.Cuda.Wiring
import RosidlBufferBackends.Lib.Generations

/-! The uid check as a comparison of generation tags: a block is a slot, drawing
a uid publishes it and `allocate` recycles it. -/

namespace RosidlBufferBackends.Cuda.Staleness

open CudaMemoryPool CudaVmmIPCManager CudaBufferBackend Runs Generations Exchange

variable {pid : ℤ} {s u : Exchange} {e : Event} {o : Output} {h : List (Act ℕ ℕ)}

def act : Output → Option (Act ℕ ℕ)
  | .pool (.allocated _ (.ok r)) => some (.recycle r)
  | .assigned ⟨r, uid, true⟩ => some (.publish r uid)
  | .described (some ⟨r, uid, true⟩) _ => some (.publish r uid)
  | _ => none

def history (tr : List (Event × Output)) : List (Act ℕ ℕ) := tr.filterMap (fun x => act x.2)

/-- The slots of the history are the uids of the blocks and of their segments. -/
structure Mirrors (h : List (Act ℕ ℕ)) (s : Exchange) : Prop where
  current : ∀ r, (s.pool.block r).currentUid = (slots h r).current.getD 0
  nonzero : ∀ r, (slots h r).current ≠ some 0
  shared : ∀ r seg, s.Owns r seg → (s.os.segments seg).uid = (slots h r).shared.getD 0
  unused : ∀ r, s.pool.allBlocks.length ≤ r → slots h r = {}

lemma Mirrors.congr (hm : Mirrors h s) (hb : ∀ r, u.pool.block r = s.pool.block r)
    (hl : u.pool.allBlocks.length = s.pool.allBlocks.length)
    (hs : ∀ seg, (u.os.segments seg).uid = (s.os.segments seg).uid) : Mirrors h u := by
  refine ⟨?_, hm.nonzero, ?_, ?_⟩
  · intro r
    rw [hb, hm.current]
  · intro r seg ho
    rw [hs]
    exact hm.shared r seg (by rwa [Owns, ← hb])
  · intro r hr
    exact hm.unused r (hl ▸ hr)

lemma onMeta_uid (os : Os) (ipcMeta : Option ℕ) {f : IPCMetadata → IPCMetadata}
    (hf : ∀ m, (f m).uid = m.uid) (seg : ℕ) :
    ((os.onMeta ipcMeta f).segments seg).uid = (os.segments seg).uid := by
  rw [Os.onMeta_segments]
  split
  · exact hf _
  · rfl

lemma mirrors_initial (granularity : ℕ) (hg : 0 < granularity) (deviceId : ℤ)
    (ipcCapable : Bool) : Mirrors [] (initial granularity hg deviceId ipcCapable) := by
  refine ⟨?_, ?_, ?_, ?_⟩ <;> simp [initial, PoolPartition.initial, Owns, block]

lemma mirrors_reused (hm : Mirrors h s) (key : ℕ) (vec : List ℕ) (i : ℕ)
    {r : ℕ} (hr : r < s.pool.allBlocks.length) :
    Mirrors (h ++ [.recycle r]) (s.reused key vec i r) := by
  have hsame := sameBlocks_reused s key vec i r
  refine ⟨?_, ?_, ?_, ?_⟩
  · intro r'
    rw [reused_currentUid s key vec i hr, slots_recycle]
    by_cases hx : r' = r
    · simp [hx]
    · simp only [if_neg hx]
      exact hm.current r'
  · intro r'
    rw [slots_recycle]
    split
    · simp
    · exact hm.nonzero r'
  · intro r' seg ho
    have hshared := hm.shared r' seg (by rwa [Owns, ← hsame.ipcMeta])
    have huid := onMeta_uid s.os (s.pool.block r).ipcMeta (f := clearStamp) (fun _ => rfl) seg
    refine (huid.trans hshared).trans ?_
    rw [slots_recycle]
    by_cases hx : r' = r
    · rw [if_pos hx, hx]
    · rw [if_neg hx]
  · intro r' hr'
    rw [hsame.length] at hr'
    rw [slots_recycle, if_neg (hr.trans_le hr').ne']
    exact hm.unused r' hr'

lemma mirrors_drawn (hw : Wired pid s) (hm : Mirrors h s) {now n r : ℕ} (hn : n ≠ 0)
    (hr : r < s.pool.allBlocks.length) :
    Mirrors (h ++ [.publish r n]) (s.drawn r now n) := by
  have hsame : SameBlocks s.pool (s.drawn r now n).pool :=
    ⟨modifyBlock_length _ _ _, modifyBlock_static s.pool r n⟩
  refine ⟨?_, ?_, ?_, ?_⟩
  · intro r'
    rw [drawn_currentUid s now n hr, slots_publish]
    by_cases hx : r' = r
    · simp [hx]
    · simp only [if_neg hx]
      exact hm.current r'
  · intro r'
    rw [slots_publish]
    split
    · simpa using hn
    · exact hm.nonzero r'
  · intro r' seg ho
    have ho' : s.Owns r' seg := by rwa [Owns, ← hsame.ipcMeta]
    rw [slots_publish, Exchange.drawn, Os.onMeta_segments]
    by_cases hx : r' = r
    · subst hx
      have hown : (s.pool.block r').ipcMeta = some seg := ho'
      rw [if_pos hown, if_pos rfl]
      rfl
    · -- the segment of another block
      have hown : ¬ (s.pool.block r).ipcMeta = some seg := fun h => hx (hw.owner r' r seg ho' h)
      rw [if_neg hown, if_neg hx]
      exact hm.shared r' seg ho'
  · intro r' hr'
    rw [hsame.length] at hr'
    rw [slots_publish, if_neg (hr.trans_le hr').ne']
    exact hm.unused r' hr'

lemma mirrors_created (hw : Wired pid s) (hm : Mirrors h s) {b : VmmBlock} {os : Os}
    (hb : SegmentsCreated pid s b os) (hu : b.currentUid = 0) :
    Mirrors (h ++ [.recycle s.pool.allBlocks.length]) (s.created b os) := by
  have hnew := hm.unused _ le_rfl
  refine ⟨?_, ?_, ?_, ?_⟩
  · intro r
    rw [created_block, slots_recycle]
    by_cases hx : r = s.pool.allBlocks.length
    · simp [hx, hu]
    · simp only [if_neg hx]
      exact hm.current r
  · intro r
    rw [slots_recycle]
    split
    · simp
    · exact hm.nonzero r
  · intro r seg ho
    rw [Owns, created_block] at ho
    rw [slots_recycle]
    by_cases hx : r = s.pool.allBlocks.length
    · rw [if_pos hx] at ho
      rw [if_pos hx, hnew]
      exact congrArg IPCMetadata.uid (hb.new seg ho).2.2
    · rw [if_neg hx] at ho
      rw [if_neg hx]
      have hseg := hb.old seg (hw.allocated r seg ho)
      exact (congrArg IPCMetadata.uid hseg).trans (hm.shared r seg ho)
  · intro r hr
    have hlt : s.pool.allBlocks.length < r := by
      simpa [created, Nat.succ_le_iff] using hr
    rw [slots_recycle, if_neg hlt.ne']
    exact hm.unused r hlt.le

lemma act_described (a : Assignment) (result : Except CudaError (Option CudaBufferDescriptor)) :
    act (.described (some a) result) = act (.assigned a) := by
  obtain ⟨r, uid, drawn⟩ := a
  cases drawn <;> rfl

lemma step_mirrors (hw : Wired pid s) (hp : PoolPartition.Partition s.toState)
    (hm : Mirrors h s) (hs : step pid s e = some (o, u)) : Mirrors (h ++ (act o).toList) u := by
  have hassign : ∀ (v : Exchange) r now n, Wired pid v → Mirrors h v →
      r < v.pool.allBlocks.length → n ≠ 0 →
      Mirrors
        (h ++ (act (.assigned ⟨r, v.uidOf r n, decide ((v.pool.block r).currentUid = 0)⟩)).toList)
        (v.assigned r now n) := by
    intro v r now n hw hm hr hn
    by_cases hz : (v.pool.block r).currentUid = 0
    · rw [assigned_of_zero now n hz]
      simpa [hz, uidOf, act] using mirrors_drawn hw hm hn hr
    · rw [assigned_of_ne_zero now n hz]
      simpa [hz, act] using hm
  have hkeep : ∀ {v : Exchange}, (∀ r, v.pool.block r = s.pool.block r) →
      v.pool.allBlocks.length = s.pool.allBlocks.length →
      (∀ seg, (v.os.segments seg).uid = (s.os.segments seg).uid) → Mirrors (h ++ []) v := by
    intro v hb hl hs
    rw [List.append_nil]
    exact hm.congr hb hl hs
  cases step_cases hs with
  | @reused byteSize now key i r vec env hnow hc =>
    obtain ⟨hmem, hr⟩ := PoolPartition.candidate_mem hc
    have hm' := mirrors_reused hm key vec i (hp.stored_lt hmem hr)
    exact hm'.congr (fun _ => rfl) rfl (fun _ => rfl)
  | notCreated _ _ _ => exact hkeep (fun _ => rfl) rfl (fun _ => rfl)
  | created _ _ hb =>
    have hm' := mirrors_created hw hm (segmentsCreated hb) hb.currentUid
    exact hm'.congr (fun _ => rfl) rfl (fun _ => rfl)
  | freed _ => exact hkeep (fun _ => rfl) rfl (fun _ => rfl)
  | @assigned r now n uid hnow hn hr huid =>
    rw [huid]
    have hm' := hassign s r now n hw hm (hp.handed_lt hr) hn
    exact hm'.congr (fun _ => rfl) rfl (fun _ => rfl)
  | notDescribed _ _ => exact hkeep (fun _ => rfl) rfl (fun _ => rfl)
  | @described impl env now n r uid sockets blocks socketPath result published hnow hn _ _ _ hf
      hfd hreg huid hres =>
    rw [huid, act_described]
    have hw' : Wired pid (s.registered sockets blocks) :=
      hw.congr (.refl rfl) rfl rfl rfl (fun i hi => hi)
    have hm' := hassign (s.registered sockets blocks) r now n hw'
      (hm.congr (fun _ => rfl) rfl (fun _ => rfl)) (findBlockForVa_some hf).1 hn
    exact hm'.congr (fun _ => rfl) rfl (fun _ => rfl)
  | @imported sub args env entry _ _ _ =>
    exact hkeep (fun _ => rfl) rfl (onMeta_uid s.os entry.ipcMeta (fun _ => rfl))
  | @leaked sub args env err _ =>
    exact hkeep (fun _ => rfl) rfl (onMeta_uid s.os _ (fun _ => rfl))
  | waiting _ => exact hkeep (fun _ => rfl) rfl (onMeta_uid s.os _ (fun _ => rfl))
  | notImported _ _ _ => exact hkeep (fun _ => rfl) rfl (fun _ => rfl)
  | @interrupted w _ =>
    exact hkeep (fun _ => rfl) rfl (onMeta_uid s.os w.ipcMeta (fun _ => rfl))
  | @released i _ =>
    exact hkeep (fun _ => rfl) rfl (onMeta_uid s.os i.result.ipcMeta (fun _ => rfl))

/-- The import consults a block that has been allocated again and not published
since, under the uid that the segment still shows. -/
def InGap (s : Exchange) (sub : ℕ) (args : ImportArgs) (env : ImportEnv) : Prop :=
  ∃ r seg, consulted s.os (s.caches sub) env args = some seg ∧ s.Owns r seg ∧
    (s.pool.block r).currentUid = 0 ∧ (s.os.segments seg).uid = args.expectedUid ∧
    args.expectedUid ≠ 0

def AvoidsGap (s : Exchange) : Event → Output → Prop
  | .importBlock sub args env, _ =>
      ¬ (Completes s.os (s.caches sub) env args ∧ InGap s sub args env)
  | _, _ => True

/-- No import with mapped metadata succeeds for a uid whose block `allocate` has
returned since the uid was drawn. -/
def RejectsStale (tr : List (Event × Output)) : Prop :=
  ∀ pre sub args env result seg post,
    tr = pre ++ (.importBlock sub args env, .imported (.ok result)) :: post →
    result.ipcMeta = some seg → args.expectedUid ≠ 0 →
    ∀ r, ¬ Outlived (history pre) r args.expectedUid

lemma import_fresh_iff (hw : Wired pid s) (hm : Mirrors h s) (hn : (tags h).Nodup) {sub : ℕ}
    {args : ImportArgs} {env : ImportEnv} {seg : ℕ}
    (hc : Completes s.os (s.caches sub) env args)
    (hseg : consulted s.os (s.caches sub) env args = some seg) (hu : args.expectedUid ≠ 0) :
    (∀ r, ¬ Outlived h r args.expectedUid) ↔ ¬ InGap s sub args env := by
  obtain ⟨r, ho, _⟩ := consulted_owned hw hseg
  have huid : (s.os.segments seg).uid = args.expectedUid := (hc.1 seg hseg).resolve_left hu
  have hshared : (slots h r).shared = some args.expectedUid := by
    have hs := hm.shared r seg ho
    rw [huid] at hs
    cases hx : (slots h r).shared with
    | none => simp [hx, hu] at hs
    | some t => simpa [hx] using hs.symm
  have hcurrent : (slots h r).current = none ↔ (s.pool.block r).currentUid = 0 := by
    have hcur := hm.current r
    have hne := hm.nonzero r
    cases hx : (slots h r).current with
    | none => simpa [hx] using hcur
    | some t => simpa [hx, hcur] using hne
  rw [shared_fresh_iff hn hshared, ne_eq, hcurrent, not_iff_not]
  constructor
  · intro hz
    exact ⟨r, seg, hseg, ho, hz, huid, hu⟩
  · rintro ⟨r', seg', hseg', ho', hz, _⟩
    obtain rfl : seg' = seg := Option.some.inj (hseg'.symm.trans hseg)
    obtain rfl := hw.owner r' r seg' ho' ho
    exact hz

/-- A completed import returns the metadata that it consulted. -/
lemma import_completes_iff {sub : ℕ} {args : ImportArgs} {env : ImportEnv}
    (hs : step pid s (.importBlock sub args env) = some (o, u)) :
    Completes s.os (s.caches sub) env args ↔
      ∃ result, o = .imported (.ok result) ∧
        result.ipcMeta = consulted s.os (s.caches sub) env args := by
  cases step_cases hs with
  | imported hcomp hm hentry => exact ⟨fun _ => ⟨_, rfl, hm⟩, fun _ => hcomp⟩
  | leaked hskip => simp [hskip.not_completes]
  | waiting hwaits => simp [hwaits.not_completes]
  | notImported hcomp _ _ => simp [hcomp]

variable {granularity : ℕ} {hg : 0 < granularity} {deviceId : ℤ} {ipcCapable : Bool}
  {tr : List (Event × Output)}

lemma run_mirrors (hr : Run (step pid) (initial granularity hg deviceId ipcCapable) tr s) :
    Mirrors (history tr) s := by
  induction hr with
  | nil => exact mirrors_initial granularity hg deviceId ipcCapable
  | @snoc t u tr e o hr hs ih =>
    have hm := step_mirrors (run_wired hr) (run_partition hr) ih hs
    have hh : history (tr ++ [(e, o)]) = history tr ++ (act o).toList := by
      rw [history, List.filterMap_append]
      cases ho : act o <;> simp [history, ho]
    rwa [hh]

lemma tags_nodup_of_append {tr tr' : List (Event × Output)}
    (hn : (tags (history (tr ++ tr'))).Nodup) : (tags (history tr)).Nodup := by
  rw [history, List.filterMap_append, tags, List.filterMap_append] at hn
  exact (List.nodup_append.mp hn).1

theorem rejectsStale_iff (pid : ℤ) (granularity : ℕ) (hg : 0 < granularity) (deviceId : ℤ)
    (ipcCapable : Bool) (hr : Run (step pid) (initial granularity hg deviceId ipcCapable) tr s)
    (hn : (tags (history tr)).Nodup) :
    RejectsStale tr ↔ Every (step pid) AvoidsGap
      (initial granularity hg deviceId ipcCapable) tr := by
  constructor
  · rintro hf pre e o post t rfl hpre
    cases e with
    | importBlock sub args env =>
      rintro ⟨hcomp, hgap⟩
      obtain ⟨t', ht', hpost⟩ := run_append_iff.mp hr
      obtain rfl := hpre.unique ht'
      obtain ⟨v, hs, _⟩ := run_cons_iff.mp hpost
      obtain ⟨result, rfl, hres⟩ := (import_completes_iff hs).mp hcomp
      have hgap' := hgap
      obtain ⟨r, seg, hseg, _, _, _, hu⟩ := hgap
      have hfresh := hf pre sub args env result seg post rfl (hres.trans hseg) hu
      have hiff := import_fresh_iff (run_wired hpre) (run_mirrors hpre)
        (tags_nodup_of_append hn) hcomp hseg hu
      exact hiff.mp hfresh hgap'
    | _ => trivial
  · rintro he pre sub args env result seg post rfl hres hu
    obtain ⟨t, hpre, hpost⟩ := run_append_iff.mp hr
    obtain ⟨v, hs, _⟩ := run_cons_iff.mp hpost
    have hgood := he pre _ _ post t rfl hpre
    have hcomp : Completes t.os (t.caches sub) env args ∧
        result.ipcMeta = consulted t.os (t.caches sub) env args := by
      cases step_cases hs with
      | imported hcomp hm _ => exact ⟨hcomp, hm⟩
    have hiff := import_fresh_iff (run_wired hpre) (run_mirrors hpre)
      (tags_nodup_of_append hn) hcomp.1 (hcomp.2.symm.trans hres) hu
    exact hiff.mpr fun hgap => hgood ⟨hcomp.1, hgap⟩

open PoolPartition (workingEnv) in
/-- A block that is published, freed, and allocated again after the grace period. -/
def recycling : List Event :=
  [.allocate 100 5 (workingEnv 3 8192 1), .createDescriptor (bufferAt 8192) describing 6 41,
    .free 0, .allocate 100 100006 (workingEnv 5 16384 2)]

/-- The recycled block is published again; then the new descriptor and the old one are imported. -/
def importingBoth : List Event :=
  recycling ++ [.createDescriptor (bufferAt 8192) describing 100007 42,
    .importBlock 1 (firstBlock 42) (importing 10 32768),
    .importBlock 2 (firstBlock 41) (importing 20 40960)]

theorem rejectsStale_iff_recycling :
    ∃ tr s, Run (step 7) (initial 4096 (by decide) 0 true) tr s ∧
      history tr = [.recycle 0, .publish 0 41, .recycle 0, .publish 0 42] ∧
      s.live = [⟨1, firstBlock 42, 32768, some 0⟩] ∧
      (RejectsStale tr ↔ Every (step 7) AvoidsGap (initial 4096 (by decide) 0 true) tr) := by
  have hrun := run_exec (show (exec (step 7) (initial 4096 (by decide) 0 true)
    importingBoth).isSome by decide)
  exact ⟨_, _, hrun, rfl, rfl, rejectsStale_iff 7 4096 (by decide) 0 true hrun (by decide)⟩

theorem stale_import_succeeds : ¬ ∀ (tr : List (Event × Output)) (s : Exchange),
    Run (step 7) (initial 4096 (by decide) 0 true) tr s → (tags (history tr)).Nodup →
      RejectsStale tr := by
  intro h
  have hrun := run_exec (show (exec (step 7) (initial 4096 (by decide) 0 true) recycling).isSome
    by decide)
  obtain ⟨v, hv⟩ : ∃ v, step 7 ((exec (step 7) (initial 4096 (by decide) 0 true) recycling).get
      (by decide)).2 (.importBlock 1 (firstBlock 41) (importing 10 32768)) =
      some (.imported (.ok ⟨32768, some 0⟩), v) := ⟨_, rfl⟩
  refine h _ _ (hrun.snoc hv) (by decide) _ 1 (firstBlock 41) (importing 10 32768) _ 0 [] rfl rfl
    (by decide) 0 ?_
  exact ⟨[.recycle 0], [.recycle 0], rfl, by simp⟩

end RosidlBufferBackends.Cuda.Staleness
