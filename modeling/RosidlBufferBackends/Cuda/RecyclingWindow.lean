import RosidlBufferBackends.Cuda.Interleaving
import RosidlBufferBackends.Cuda.ImportOutcome

/-! `allocate` does not return a block that a live import holds, unless that
one completes between the load of the refcount and the return. -/

namespace RosidlBufferBackends.Cuda.RecyclingWindow

open CudaMemoryPool CudaVmmIPCManager Runs Interleaving

variable {pid : ℤ} {s u : Interleaving} {e : Event} {o : Output}

def Owns (s : Interleaving) (r seg : ℕ) : Prop := (s.pool.block r).ipcMeta = some seg

def references (s : Interleaving) (seg : ℕ) : ℕ := s.imports.countP (fun i => i.seg = seg)

/-- A step of the publisher that creates no block. -/
structure Publishes (s u : Interleaving) : Prop where
  ipcMeta : ∀ r, (u.pool.block r).ipcMeta = (s.pool.block r).ipcMeta
  nextSegment : u.os.nextSegment = s.os.nextSegment
  refcount : ∀ seg, (u.os.segments seg).refcount = (s.os.segments seg).refcount
  imports : u.imports = s.imports
  candidate : ∀ r, u.pc.candidate = some r → s.pc.candidate = some r ∨
    ∀ seg, Owns s r seg → (s.os.segments seg).refcount.toInt ≤ 0

def created (s : Interleaving) (b : VmmBlock) (os : Os) : Interleaving :=
  { s with
    os := os
    pool := { s.pool with
      nextBlockId := (s.pool.nextBlockId + 1) % 2 ^ 32
      allBlocks := s.pool.allBlocks ++ [b] }
    handedOut := s.pool.allBlocks.length :: s.handedOut
    creations := s.creations + 1
    pc := .idle }

/-- What a step can do. -/
inductive StepCase (pid : ℤ) (s : Interleaving) : Event → Output → Interleaving → Prop
  | publishes {e : Event} {o : Output} {u : Interleaving} :
      Publishes s u → (∀ r, o = .returned r → s.pc.candidate = some r) → StepCase pid s e o u
  | created {env : CreateBlockEnv} {aligned : ℕ} {b : VmmBlock} {os : Os} :
      BlockCreated s.os pid s.pool env aligned b os →
      StepCase pid s (.createBlock env) (.returned s.pool.allBlocks.length) (created s b os)
  | added {r sub seg expectedUid : ℕ} :
      Owns s r seg →
      StepCase pid s (.fetchAdd sub seg expectedUid) .quiet
        { s with
          os := s.os.modifySegment seg IPCMetadata.fetchAdd
          imports := ⟨sub, seg, expectedUid, .added⟩ :: s.imports }
  | moved {e : Event} {i : Import} {phase : Phase} :
      i ∈ s.imports → (phase = .live → e = .importReturns i) →
        StepCase pid s e .quiet (s.move i phase)
  | dropped {i : Import} : i ∈ s.imports → StepCase pid s (.fetchSub i) .quiet (s.dropped i)

lemma publishes_pc {pc : Pc} (hc : ∀ r, pc.candidate = some r → s.pc.candidate = some r ∨
    ∀ seg, Owns s r seg → (s.os.segments seg).refcount.toInt ≤ 0) :
    Publishes s { s with pc := pc } :=
  ⟨fun _ => rfl, rfl, fun _ => rfl, rfl, hc⟩

lemma publishes_taken {scan : Scan} {r : ℕ} (hc : s.pc.candidate = some r ∨
    ∀ seg, Owns s r seg → (s.os.segments seg).refcount.toInt ≤ 0) :
    Publishes s (s.taken scan r) := by
  refine ⟨fun r' => ?_, rfl, fun _ => rfl, rfl, fun r' hr' => ?_⟩
  · have hm := modifyBlock_ipcMeta s.pool r (f := fun b => { b with currentUid := 0 })
      (fun _ => rfl) r'
    rw [← hm]
    exact congrArg VmmBlock.ipcMeta (block_eq (by rw [taken, takeBlock_pool]; rfl) r')
  · have hr : r = r' := by
      simp only [taken] at hr'
      split at hr' <;> exact Option.some.inj hr'
    exact hr ▸ hc

lemma scan_next_candidate (scan : Scan) : scan.next.candidate = none := by
  rw [Scan.next]
  split <;> rfl

lemma enter_candidate (pool : CudaMemoryPool) (aligned : ℕ) :
    (enter pool aligned).candidate = none := by
  rw [enter]
  split
  · rfl
  · split <;> rfl

lemma publishes_onMeta (ipcMeta : Option ℕ) {f : IPCMetadata → IPCMetadata}
    (hf : ∀ m, (f m).refcount = m.refcount) {pc : Pc} (hc : pc.candidate = s.pc.candidate)
    (assigning : List Assigning) :
    Publishes s { s with
      os := s.os.onMeta ipcMeta f
      pc := pc
      assigning := assigning } := by
  refine ⟨fun _ => rfl, by simp, fun seg => ?_, rfl, fun r hr => .inl (hc ▸ hr)⟩
  rw [Os.onMeta_segments]
  split
  · exact hf _
  · rfl

lemma step_scan (he : e = .loadRefcount ∨ ∃ now, e = .loadTimestamp now)
    (hs : step pid s e = some (o, u)) : Publishes s u ∧ o = .quiet := by
  rcases he with rfl | ⟨now, rfl⟩
  · simp only [step] at hs
    split at hs
    · rename_i scan hpc
      split at hs
      · exact nomatch hs
      · rename_i r hr
        split at hs
        · rename_i hnone
          obtain ⟨rfl, rfl⟩ := Prod.mk.inj (Option.some.inj hs)
          refine ⟨publishes_taken (.inr fun seg ho => ?_), rfl⟩
          exact absurd (hnone.symm.trans ho) (by simp)
        · rename_i seg hseg
          split_ifs at hs with hpos
          · obtain ⟨rfl, rfl⟩ := Prod.mk.inj (Option.some.inj hs)
            exact ⟨publishes_pc (by simp [scan_next_candidate]), rfl⟩
          · obtain ⟨rfl, rfl⟩ := Prod.mk.inj (Option.some.inj hs)
            refine ⟨publishes_pc fun r' hr' => .inr fun seg' ho => ?_, rfl⟩
            obtain rfl : r = r' := Option.some.inj (hr.symm.trans hr')
            obtain rfl : seg = seg' := Option.some.inj (hseg.symm.trans ho)
            rw [gt_iff_lt, Int32.lt_iff_toInt_lt] at hpos
            simpa using hpos
    · exact nomatch hs
  · simp only [step] at hs
    split at hs
    · rename_i scan hpc
      split at hs
      · exact nomatch hs
      · rename_i r hr
        split at hs
        · exact nomatch hs
        · rename_i seg hseg
          split_ifs at hs
          · obtain ⟨rfl, rfl⟩ := Prod.mk.inj (Option.some.inj hs)
            exact ⟨publishes_taken (.inl (by rw [hpc]; exact hr)), rfl⟩
          · obtain ⟨rfl, rfl⟩ := Prod.mk.inj (Option.some.inj hs)
            exact ⟨publishes_pc (by simp [scan_next_candidate]), rfl⟩
    · exact nomatch hs

lemma step_publisher (he : (∃ n, e = .allocate n) ∨ e = .storeTimestamp ∨ e = .returnBlock ∨
      (∃ r, e = .free r) ∨ (∃ r n, e = .assignUid r n) ∨ (∃ a, e = .storeUid a) ∨
      ∃ a now, e = .storePublishTimestamp a now)
    (hs : step pid s e = some (o, u)) :
    Publishes s u ∧ ∀ r, o = .returned r → s.pc.candidate = some r := by
  rcases he with ⟨n, rfl⟩ | rfl | rfl | ⟨r, rfl⟩ | ⟨r, n, rfl⟩ | ⟨a, rfl⟩ | ⟨a, now, rfl⟩
  · simp only [step] at hs
    split_ifs at hs
    obtain ⟨rfl, rfl⟩ := Prod.mk.inj (Option.some.inj hs)
    exact ⟨publishes_pc (by simp [enter_candidate]), nofun⟩
  · simp only [step] at hs
    split at hs
    · rename_i r hpc
      obtain ⟨rfl, rfl⟩ := Prod.mk.inj (Option.some.inj hs)
      refine ⟨publishes_onMeta _ ?_ ?_ s.assigning, nofun⟩
      · exact fun _ => rfl
      · rw [hpc]
        rfl
    · exact nomatch hs
  · simp only [step] at hs
    split at hs
    · rename_i r hpc
      obtain ⟨rfl, rfl⟩ := Prod.mk.inj (Option.some.inj hs)
      refine ⟨⟨fun _ => rfl, rfl, fun _ => rfl, rfl, by simp [Pc.candidate]⟩, ?_⟩
      intro r' hr'
      rw [hpc]
      exact congrArg some (Output.returned.inj hr')
    · exact nomatch hs
  · simp only [step] at hs
    split_ifs at hs
    obtain ⟨rfl, rfl⟩ := Prod.mk.inj (Option.some.inj hs)
    exact ⟨⟨fun _ => rfl, rfl, fun _ => rfl, rfl, fun _ h => .inl h⟩, nofun⟩
  · simp only [step] at hs
    split_ifs at hs
    · obtain ⟨rfl, rfl⟩ := Prod.mk.inj (Option.some.inj hs)
      exact ⟨publishes_pc fun _ h => .inl h, nofun⟩
    · obtain ⟨rfl, rfl⟩ := Prod.mk.inj (Option.some.inj hs)
      refine ⟨⟨?_, rfl, fun _ => rfl, rfl, fun _ h => .inl h⟩, nofun⟩
      exact modifyBlock_ipcMeta s.pool r (fun _ => rfl)
  · simp only [step] at hs
    split_ifs at hs
    obtain ⟨rfl, rfl⟩ := Prod.mk.inj (Option.some.inj hs)
    refine ⟨publishes_onMeta _ ?_ rfl _, nofun⟩
    exact fun _ => rfl
  · simp only [step] at hs
    split_ifs at hs
    obtain ⟨rfl, rfl⟩ := Prod.mk.inj (Option.some.inj hs)
    refine ⟨publishes_onMeta _ ?_ rfl _, nofun⟩
    exact fun _ => rfl

lemma step_createBlock {env : CreateBlockEnv} (hs : step pid s (.createBlock env) = some (o, u)) :
    StepCase pid s (.createBlock env) o u := by
  simp only [step] at hs
  split at hs
  · rename_i aligned hpc
    rcases createBlock_cases s.os pid s.pool env aligned with
      ⟨log, expr, hc, _⟩ | ⟨b, os, log, hc, hb⟩
    · rw [hc] at hs
      obtain ⟨rfl, rfl⟩ := Prod.mk.inj (Option.some.inj hs)
      apply StepCase.publishes
      · exact ⟨fun _ => rfl, rfl, fun _ => rfl, rfl, by simp [Pc.candidate]⟩
      · exact nofun
    · rw [hc] at hs
      obtain ⟨rfl, rfl⟩ := Prod.mk.inj (Option.some.inj hs)
      exact .created hb
  · exact nomatch hs

lemma step_cases (hs : step pid s e = some (o, u)) : StepCase pid s e o u := by
  have hpublisher := fun he => step_publisher he hs
  have hscan := fun he => step_scan he hs
  cases e with
  | allocate n => exact .publishes (hpublisher (.inl ⟨n, rfl⟩)).1 (hpublisher (.inl ⟨n, rfl⟩)).2
  | loadRefcount =>
    obtain ⟨hp, rfl⟩ := hscan (.inl rfl)
    exact .publishes hp (fun _ h => by cases h)
  | loadTimestamp now =>
    obtain ⟨hp, rfl⟩ := hscan (.inr ⟨now, rfl⟩)
    exact .publishes hp (fun _ h => by cases h)
  | storeTimestamp =>
    obtain ⟨hp, ho⟩ := hpublisher (by simp)
    exact .publishes hp ho
  | returnBlock =>
    obtain ⟨hp, ho⟩ := hpublisher (by simp)
    exact .publishes hp ho
  | createBlock env => exact step_createBlock hs
  | free r =>
    obtain ⟨hp, ho⟩ := hpublisher (by simp)
    exact .publishes hp ho
  | assignUid r n =>
    obtain ⟨hp, ho⟩ := hpublisher (by simp)
    exact .publishes hp ho
  | storeUid a =>
    obtain ⟨hp, ho⟩ := hpublisher (by simp)
    exact .publishes hp ho
  | storePublishTimestamp a now =>
    obtain ⟨hp, ho⟩ := hpublisher (by simp)
    exact .publishes hp ho
  | fetchAdd sub seg expectedUid =>
    simp only [step] at hs
    split_ifs at hs with hany
    obtain ⟨rfl, rfl⟩ := Prod.mk.inj (Option.some.inj hs)
    obtain ⟨b, hb, hm⟩ := List.any_eq_true.mp hany
    obtain ⟨r, hr, rfl⟩ := List.getElem_of_mem hb
    refine .added (r := r) ?_
    simpa [Owns, block, List.getD_eq_getElem?_getD, hr] using hm
  | checkUid i =>
    simp only [step] at hs
    split_ifs at hs with hi
    split at hs
    all_goals
      obtain ⟨rfl, rfl⟩ := Prod.mk.inj (Option.some.inj hs)
      exact .moved hi.1 (fun h => by cases h)
  | importReturns i =>
    simp only [step] at hs
    split_ifs at hs with hi
    obtain ⟨rfl, rfl⟩ := Prod.mk.inj (Option.some.inj hs)
    exact .moved hi.1 (fun _ => rfl)
  | importFails i =>
    simp only [step] at hs
    split_ifs at hs with hi
    obtain ⟨rfl, rfl⟩ := Prod.mk.inj (Option.some.inj hs)
    exact .moved hi.1 (fun h => by cases h)
  | importEscapes i =>
    simp only [step] at hs
    split_ifs at hs with hi
    obtain ⟨rfl, rfl⟩ := Prod.mk.inj (Option.some.inj hs)
    exact .moved hi.1 (fun h => by cases h)
  | fetchSub i =>
    simp only [step] at hs
    split_ifs at hs with hi
    obtain ⟨rfl, rfl⟩ := Prod.mk.inj (Option.some.inj hs)
    exact .dropped hi.1

/-- Every reference is held by an import, and none is live on the block that
`allocate` goes on to return. -/
structure Guarded (s : Interleaving) : Prop where
  allocated : ∀ r seg, Owns s r seg → seg < s.os.nextSegment
  held : ∀ i ∈ s.imports, i.seg < s.os.nextSegment
  count : ∀ r seg, Owns s r seg → (s.os.segments seg).refcount.toInt = references s seg
  clear : ∀ r seg, s.pc.candidate = some r → Owns s r seg →
    ∀ i ∈ s.imports, i.seg = seg → i.phase ≠ .live

/-- No import returns for the block that `allocate` goes on to return, and no
reference is added to a full counter. -/
def Quiet (s : Interleaving) : Event → Output → Prop
  | .importReturns i, _ => ∀ r, s.pc.candidate = some r → ¬ Owns s r i.seg
  | .fetchAdd _ seg _, _ => (s.os.segments seg).refcount.toInt < 2 ^ 31 - 1
  | _, _ => True

lemma guarded_publishes (h : Guarded s) (hp : Publishes s u) : Guarded u := by
  have howns : ∀ {r seg}, Owns u r seg → Owns s r seg := by
    intro r seg ho
    exact (hp.ipcMeta r).symm.trans ho
  constructor
  · intro r seg ho
    rw [hp.nextSegment]
    exact h.allocated r seg (howns ho)
  · rw [hp.imports, hp.nextSegment]
    exact h.held
  · intro r seg ho
    rw [hp.refcount, references, hp.imports]
    exact h.count r seg (howns ho)
  · intro r seg hc ho
    rw [hp.imports]
    rcases hp.candidate r hc with hc | hzero
    · exact h.clear r seg hc (howns ho)
    · -- no reference was left when the refcount was loaded
      intro i hi hseg
      have hle := hzero seg (howns ho)
      have hcount := h.count r seg (howns ho)
      have hpos : 0 < references s seg := List.countP_pos_iff.mpr ⟨i, hi, by simpa using hseg⟩
      omega

lemma created_owns {b : VmmBlock} {os : Os} {r seg : ℕ} (ho : Owns (created s b os) r seg) :
    Owns s r seg ∨ b.ipcMeta = some seg := by
  simp only [Owns, created, block, List.getD_eq_getElem?_getD] at ho
  rcases lt_trichotomy r s.pool.allBlocks.length with hr | rfl | hr
  · rw [List.getElem?_append_left hr] at ho
    left
    simpa [Owns, block, List.getD_eq_getElem?_getD] using ho
  · right
    simpa using ho
  · rw [List.getElem?_eq_none (by simp; omega)] at ho
    cases ho

lemma guarded_created (h : Guarded s) {b : VmmBlock} {os : Os}
    (hle : s.os.nextSegment ≤ os.nextSegment)
    (hold : ∀ seg < s.os.nextSegment, os.segments seg = s.os.segments seg)
    (hnew : ∀ seg, b.ipcMeta = some seg →
      seg = s.os.nextSegment ∧ seg < os.nextSegment ∧ os.segments seg = {}) :
    Guarded (created s b os) := by
  constructor
  · intro r seg ho
    rcases created_owns ho with ho | hm
    · exact (h.allocated r seg ho).trans_le hle
    · exact (hnew seg hm).2.1
  · intro i hi
    exact (h.held i hi).trans_le hle
  · intro r seg ho
    change (os.segments seg).refcount.toInt = _
    rcases created_owns ho with ho | hm
    · rw [hold seg (h.allocated r seg ho)]
      exact h.count r seg ho
    · obtain ⟨hseg, _, hzero⟩ := hnew seg hm
      have hnone : references (created s b os) seg = 0 := by
        apply List.countP_eq_zero.mpr
        intro i hi he
        have hlt := h.held i hi
        have heq : i.seg = seg := by simpa using he
        omega
      rw [hzero, hnone]
      rfl
  · intro r seg hc
    exact nomatch hc

lemma references_move {i : Import} {phase : Phase} (hi : i ∈ s.imports) (seg : ℕ) :
    references (s.move i phase) seg = references s seg := by
  have hperm := (List.perm_cons_erase hi).countP_eq (fun j : Import => decide (j.seg = seg))
  rw [references, references, hperm]
  simp [move, List.countP_cons]

lemma guarded_move (h : Guarded s) {i : Import} {phase : Phase} (hi : i ∈ s.imports)
    (hlive : phase = .live → ∀ r, s.pc.candidate = some r → ¬ Owns s r i.seg) :
    Guarded (s.move i phase) := by
  constructor
  · exact h.allocated
  · intro j hj
    rcases List.mem_cons.mp hj with rfl | hj
    · exact h.held i hi
    · exact h.held j (List.mem_of_mem_erase hj)
  · intro r seg ho
    rw [references_move hi]
    exact h.count r seg ho
  · intro r seg hc ho j hj hseg hphase
    rcases List.mem_cons.mp hj with rfl | hj
    · exact hlive hphase r hc (hseg ▸ ho)
    · exact h.clear r seg hc ho j (List.mem_of_mem_erase hj) hseg hphase

lemma guarded_added (h : Guarded s) {r sub seg expectedUid : ℕ} (ho : Owns s r seg)
    (hroom : (s.os.segments seg).refcount.toInt < 2 ^ 31 - 1) :
    Guarded { s with
      os := s.os.modifySegment seg IPCMetadata.fetchAdd
      imports := ⟨sub, seg, expectedUid, .added⟩ :: s.imports } := by
  constructor
  · exact h.allocated
  · intro i hi
    rcases List.mem_cons.mp hi with rfl | hi
    · exact h.allocated r seg ho
    · exact h.held i hi
  · intro r' seg' ho'
    have hcount := h.count r' seg' ho'
    simp only [references, List.countP_cons] at hcount ⊢
    by_cases hx : seg' = seg
    · subst hx
      rw [Os.modifySegment_self, (s.os.segments seg').fetchAdd_toInt.mpr hroom, hcount]
      simp
    · rw [Os.modifySegment_of_ne hx, hcount]
      simp [Ne.symm hx]
  · intro r' seg' hc ho' i hi hseg hphase
    rcases List.mem_cons.mp hi with rfl | hi
    · exact nomatch hphase
    · exact h.clear r' seg' hc ho' i hi hseg hphase

lemma guarded_dropped (h : Guarded s) {i : Import} (hi : i ∈ s.imports) :
    Guarded (s.dropped i) := by
  constructor
  · exact h.allocated
  · intro j hj
    exact h.held j (List.mem_of_mem_erase hj)
  · intro r seg ho
    have hcount := h.count r seg ho
    have hperm := (List.perm_cons_erase hi).countP_eq (fun j : Import => decide (j.seg = seg))
    simp only [references, dropped, hperm, List.countP_cons] at hcount ⊢
    by_cases hx : seg = i.seg
    · subst hx
      have hsub := IPCMetadata.fetchSub_toInt (m := s.os.segments i.seg) (by simp [hcount])
      rw [Os.modifySegment_self, hsub, hcount]
      simp
    · rw [Os.modifySegment_of_ne hx, hcount]
      simp [Ne.symm hx]
  · intro r seg hc ho j hj
    exact h.clear r seg hc ho j (List.mem_of_mem_erase hj)

lemma step_guarded (h : Guarded s) (hq : Quiet s e o) (hs : step pid s e = some (o, u)) :
    Guarded u := by
  cases step_cases hs with
  | publishes hp _ => exact guarded_publishes h hp
  | created hb =>
    have hm := hb.ipcMeta
    split_ifs at hm
    · exact guarded_created h hm.next_le hm.old hm.new
    · obtain ⟨rfl, hnone⟩ := hm
      exact guarded_created h le_rfl (fun _ _ => rfl) (by simp [hnone])
  | added ho => exact guarded_added h ho hq
  | @moved _ i phase hi hlive =>
    apply guarded_move h hi
    rintro hphase
    obtain rfl := hlive hphase
    exact hq
  | dropped hi => exact guarded_dropped h hi

/-- No import of the block has returned and not been released. -/
def Excluded (s : Interleaving) (r : ℕ) : Prop :=
  ∀ seg, Owns s r seg → ∀ i ∈ s.imports, i.seg = seg → i.phase ≠ .live

lemma step_excluded {r : ℕ} (h : Guarded s) (hs : step pid s e = some (.returned r, u)) :
    Excluded u r := by
  cases step_cases hs with
  | publishes hp hc =>
    intro seg ho
    rw [hp.imports]
    exact h.clear r seg (hc r rfl) ((hp.ipcMeta r).symm.trans ho)
  | @created _ _ b os hb =>
    intro seg ho i hi hseg
    have hm := hb.ipcMeta
    have hnew : b.ipcMeta = some seg := by simpa [Owns, created, block] using ho
    split_ifs at hm
    · have hlt : i.seg < s.os.nextSegment := h.held i hi
      exact absurd (hseg.trans (hm.new seg hnew).1) hlt.ne
    · exact absurd (hm.2.symm.trans hnew) (by simp)

variable {granularity : ℕ} {hg : 0 < granularity} {deviceId : ℤ} {ipcCapable : Bool}
  {tr : List (Event × Output)}

lemma guarded_initial (granularity : ℕ) (hg : 0 < granularity) (deviceId : ℤ) (ipcCapable : Bool) :
    Guarded (initial granularity hg deviceId ipcCapable) := by
  constructor <;> simp [initial, PoolPartition.initial, Owns, block]

lemma run_guarded (hr : Run (step pid) (initial granularity hg deviceId ipcCapable) tr s)
    (hq : Every (step pid) Quiet (initial granularity hg deviceId ipcCapable) tr) : Guarded s := by
  refine hr.induction_every (P := fun _ t => Guarded t) hq (guarded_initial _ hg _ _) ?_
  intro tr t e o u _ h hgood hs
  exact step_guarded h hgood hs

theorem recycling_excludes_imports (pid : ℤ) (granularity : ℕ) (hg : 0 < granularity)
    (deviceId : ℤ) (ipcCapable : Bool)
    (hr : Run (step pid) (initial granularity hg deviceId ipcCapable) tr s)
    (hq : Every (step pid) Quiet (initial granularity hg deviceId ipcCapable) tr) :
    ∀ pre e r post t, tr = pre ++ (e, .returned r) :: post →
      Run (step pid) (initial granularity hg deviceId ipcCapable) (pre ++ [(e, .returned r)]) t →
      Excluded t r := by
  rintro pre e r post t rfl ht
  obtain ⟨v, hv, hs⟩ := run_snoc_iff.mp ht
  exact step_excluded (run_guarded hv hq.init) hs

open PoolPartition (workingEnv) in
/-- Block 0 is created, published under the uid 41 at time 6 and freed. -/
def publishing : List Event :=
  [.allocate 100, .createBlock (workingEnv 3 8192 1), .assignUid 0 41, .storeUid ⟨0, 41, false⟩,
    .storePublishTimestamp ⟨0, 41, true⟩ 6, .free 0]

/-- An import of block 0. -/
def importing : List Event :=
  [.fetchAdd 1 0 41, .checkUid ⟨1, 0, 41, .added⟩, .importReturns ⟨1, 0, 41, .accepted⟩]

/-- The import is released before `allocate` loads the refcount. -/
def released : List Event :=
  publishing ++ importing ++ [.fetchSub ⟨1, 0, 41, .live⟩, .allocate 100, .loadRefcount,
    .loadTimestamp 100006, .storeTimestamp]

lemma released_quiet : EveryExec (step 7) Quiet (initial 4096 (by decide) 0 true) released := by
  refine And.intro trivial (And.intro trivial (And.intro trivial (And.intro trivial (And.intro
    trivial (And.intro trivial (And.intro ?_ (And.intro trivial (And.intro ?_ (And.intro trivial
    (And.intro trivial (And.intro trivial (And.intro trivial (And.intro trivial trivial)))))))))))))
  · change (0 : ℤ) < 2 ^ 31 - 1
    decide
  · intro r hr
    exact nomatch hr

theorem recycling_excludes_imports_once : ∃ tr s,
    Run (step 7) (initial 4096 (by decide) 0 true) (tr ++ [(.returnBlock, .returned 0)]) s ∧
      Excluded s 0 := by
  have hrun := run_exec (show (exec (step 7) (initial 4096 (by decide) 0 true) released).isSome
    by decide)
  have hquiet := every_of_exec (Option.some_get (show
    (exec (step 7) (initial 4096 (by decide) 0 true) released).isSome by decide)).symm
      released_quiet
  obtain ⟨u, hu⟩ : ∃ u, step 7 ((exec (step 7) (initial 4096 (by decide) 0 true) released).get
      (by decide)).2 .returnBlock = some (.returned 0, u) := ⟨_, rfl⟩
  refine ⟨_, u, hrun.snoc hu, recycling_excludes_imports 7 4096 (by decide) 0 true (hrun.snoc hu)
    ?_ _ _ 0 [] u rfl (hrun.snoc hu)⟩
  rw [hrun.every_snoc]
  exact ⟨hquiet, trivial⟩

def duringRecycling : List Event :=
  publishing ++ [.allocate 100, .loadRefcount] ++ importing ++
    [.loadTimestamp 100006, .storeTimestamp, .returnBlock]

theorem live_block_recycled : ¬ ∀ (tr : List (Event × Output)) (s : Interleaving),
    Run (step 7) (initial 4096 (by decide) 0 true) tr s →
    tr.getLast? = some (.returnBlock, .returned 0) → Excluded s 0 := by
  intro h
  have hrun := run_exec (show (exec (step 7) (initial 4096 (by decide) 0 true)
    duringRecycling).isSome by decide)
  exact h _ _ hrun rfl 0 rfl _ List.mem_cons_self rfl rfl

end RosidlBufferBackends.Cuda.RecyclingWindow
