import RosidlBufferBackends.Cuda.ImportCount
import RosidlBufferBackends.Cuda.Offers

/-! A live import with mapped metadata keeps its block out of `allocate`; without
metadata on either side nothing does. -/

namespace RosidlBufferBackends.Cuda.CountedImports

open CudaMemoryPool CudaVmmIPCManager CudaBufferBackend Runs Exchange ImportCount

variable {pid : ℤ} {s u : Exchange} {e : Event} {o : Output}

/-- Only descriptors that were returned are imported, and fewer than 2^31 - 1
imports are live or wait. -/
def ImportsOffered (s : Exchange) : Event → Output → Prop
  | .importBlock _ args _, _ =>
      (∃ p ∈ s.published, args = p.descriptor.importArgs) ∧
        s.live.length + s.waiting.length < 2 ^ 31 - 1
  | _, _ => True

/-- The import is counted where the publisher looks, and its block stays away
from `allocate`. -/
structure Protected (pid : ℤ) (s : Exchange) (i : LiveImport) (r : ℕ) : Prop where
  counted : ∃ seg, i.result.ipcMeta = some seg ∧ s.Owns r seg ∧
    refcountOf s seg = liveOn s seg + waitingOn s seg ∧ 0 < refcountOf s seg
  not_ready : ∀ now, isBlockReady s.os now (s.pool.block r) = false
  not_allocated : ∀ byteSize now env log u,
    step pid s (.allocate byteSize now env) ≠ some (.pool (.allocated log (.ok r)), u)

lemma offered_countable (hw : Wired pid s) (ho : Offers pid s) (hc : Counted s)
    (hi : ImportsOffered s e o) : ImportsCountable s e o := by
  cases e with
  | importBlock sub args env =>
    obtain ⟨⟨p, hp, rfl⟩, hroom⟩ := hi
    intro seg hseg
    have hoff := ho.offered p hp
    refine ⟨fun hskip => hskip.2.2 ?_, fun _ => ?_⟩
    · rw [hoff.importArgs]
      exact hoff.socket
    · obtain ⟨r, hown, _⟩ := consulted_owned hw hseg
      have hcount : (s.os.segments seg).refcount.toInt = liveOn s seg + waitingOn s seg :=
        hc r seg hown
      have hlive : liveOn s seg ≤ s.live.length := List.countP_le_length
      have hwaiting : waitingOn s seg ≤ s.waiting.length := List.countP_le_length
      omega
  | _ => trivial

variable {granularity : ℕ} {hg : 0 < granularity} {deviceId : ℤ} {ipcCapable : Bool}
  {tr : List (Event × Output)}

lemma run_counted_offered (hr : Run (step pid) (initial granularity hg deviceId ipcCapable) tr s)
    (hi : Every (step pid) ImportsOffered (initial granularity hg deviceId ipcCapable) tr) :
    Counted s := by
  apply hr.induction_every (P := fun _ s => Counted s) hi
  · intro r seg ho
    simp [initial, PoolPartition.initial, Owns, block] at ho
  · intro tr t e o u hrt hc hit hs
    have hcountable := offered_countable (run_wired hrt) (run_offers hrt) hc hit
    exact step_counted (run_wired hrt) (run_waitsAllocated hrt) hc hcountable hs

lemma not_ready_of_counted {os : Os} {b : VmmBlock} {seg : ℕ} (hm : b.ipcMeta = some seg)
    (hpos : 0 < (os.segments seg).refcount.toInt) (now : ℕ) : isBlockReady os now b = false := by
  have hgt : (os.segments seg).refcount > 0 := Int32.lt_iff_toInt_lt.mpr hpos
  simp only [isBlockReady, hm, if_pos hgt]

lemma not_allocated_of_not_ready {r : ℕ} (hr : r < s.pool.allBlocks.length)
    (hn : ∀ now, isBlockReady s.os now (s.pool.block r) = false) (byteSize now : ℕ)
    (env : CreateBlockEnv) (log : List (Action Resource)) (u : Exchange) :
    step pid s (.allocate byteSize now env) ≠ some (.pool (.allocated log (.ok r)), u) := by
  intro hs
  generalize hout : Output.pool (.allocated log (.ok r)) = out at hs
  cases step_cases hs with
  | @reused _ _ _ _ r' _ _ _ hc =>
    obtain ⟨_, rfl⟩ : _ ∧ r = r' := by simpa using hout
    exact absurd (findCandidate_some hc).2.2 (by simp [hn])
  | notCreated _ _ _ => simp at hout
  | created _ _ _ =>
    obtain ⟨_, hlen⟩ : _ ∧ r = s.pool.allBlocks.length := by simpa using hout
    exact hr.ne hlen

theorem mapped_imports_protect (pid : ℤ) (granularity : ℕ) (hg : 0 < granularity) (deviceId : ℤ)
    (ipcCapable : Bool) (hr : Run (step pid) (initial granularity hg deviceId ipcCapable) tr s)
    (hi : Every (step pid) ImportsOffered (initial granularity hg deviceId ipcCapable) tr)
    (hids : s.creations ≤ 2 ^ 32) {i : LiveImport} (hlive : i ∈ s.live) {p : Publication}
    (hp : p ∈ s.published) (hargs : i.args = p.descriptor.importArgs)
    (hmapped : i.result.ipcMeta ≠ none) : Protected pid s i p.block := by
  obtain ⟨seg, hseg⟩ := Option.ne_none_iff_exists'.mp hmapped
  have hoff := (run_offers hr).offered p hp
  -- the segment is the one of the block that the descriptor names
  obtain ⟨r, hown, hkey⟩ := (run_wired hr).imported i hlive seg hseg
  have hid : (s.pool.block p.block).blockId = (s.pool.block r).blockId := by
    have h := (Prod.mk.inj hkey).2
    rwa [hargs, hoff.importArgs] at h
  obtain rfl := blockId_inj ((run_numbered hr).distinct hids) hoff.lt hown.lt hid
  have hcount := run_counted_offered hr hi p.block seg hown
  have hpos : 0 < liveOn s seg :=
    List.countP_pos_iff.mpr ⟨i, hlive, by simpa using hseg⟩
  have hrefs : 0 < refcountOf s seg := by omega
  have hready := not_ready_of_counted hown hrefs
  exact ⟨⟨seg, hseg, hown, hcount, hrefs⟩, hready,
    not_allocated_of_not_ready hoff.lt hready⟩

lemma importingOnce_offered :
    EveryExec (step 7) ImportsOffered (initial 4096 (by decide) 0 true) importingOnce := by
  refine And.intro trivial (And.intro trivial (And.intro ?_ trivial))
  exact ⟨⟨_, List.mem_cons_self, rfl⟩, by decide⟩

theorem mapped_imports_protect_once :
    ∃ tr s i, Run (step 7) (initial 4096 (by decide) 0 true) tr s ∧
    i ∈ s.live ∧ Protected 7 s i 0 := by
  obtain ⟨tr, hrun, hoffered⟩ := exists_run (by decide) importingOnce_offered
  have h := mapped_imports_protect 7 4096 (by decide) 0 true hrun hoffered (by decide)
    List.mem_cons_self List.mem_cons_self rfl (by decide)
  exact ⟨tr, _, _, hrun, List.mem_cons_self, h⟩

open PoolPartition (workingEnv) in
/-- A block without metadata that is published, imported and freed. -/
def importingUncounted : List Event :=
  [.allocate 100 5 { workingEnv 3 8192 1 with shmOpen := none },
    .createDescriptor (bufferAt 8192) describing 6 41,
    .importBlock 1 (firstBlock 41) { importing 10 32768 with shmOpen := none }, .free 0]

open PoolPartition (workingEnv) in
theorem uncounted_import_unprotected : ¬ ∀ (tr : List (Event × Output)) (s : Exchange),
    Run (step 7) (initial 4096 (by decide) 0 true) tr s →
    Every (step 7) ImportsOffered (initial 4096 (by decide) 0 true) tr →
    ∀ i ∈ s.live, ∀ p ∈ s.published, i.args = p.descriptor.importArgs →
      Protected 7 s i p.block := by
  intro h
  have hoffered : EveryExec (step 7) ImportsOffered (initial 4096 (by decide) 0 true)
      importingUncounted := by
    refine And.intro trivial (And.intro trivial (And.intro ?_ (And.intro trivial trivial)))
    exact ⟨⟨_, List.mem_cons_self, rfl⟩, by decide⟩
  obtain ⟨tr, hrun, hevery⟩ := exists_run (by decide) hoffered
  have hp := h tr _ hrun hevery _ List.mem_cons_self _ List.mem_cons_self rfl
  exact hp.not_allocated 100 7 (workingEnv 5 16384 2) [] _ rfl

end RosidlBufferBackends.Cuda.CountedImports
