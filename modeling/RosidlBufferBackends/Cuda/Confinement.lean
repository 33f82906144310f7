import RosidlBufferBackends.Cuda.Offers
import RosidlBufferBackends.Cuda.Staleness

/-! What an operation of one publisher process leaves alone: the blocks it has, and
the names, sockets and segments of every other process. -/

namespace RosidlBufferBackends.Cuda.Exchange

open CudaMemoryPool CudaVmmIPCManager CudaBufferBackend

variable {pid : ℤ} {s u : Exchange} {e : Event} {o : Output}

/-- The operations of a publisher process. -/
def ofPublisher : Event → Bool
  | .importBlock _ _ _ => false
  | .interrupt _ => false
  | .release _ => false
  | _ => true

/-- A block that the operation has created. -/
structure NewBlock (s u : Exchange) (e : Event) (r : ℕ) : Prop where
  created : ∃ byteSize now env, e = .allocate byteSize now env ∧
    findCandidate s.os s.pool now (s.pool.roundToGranularity byteSize) = none ∧
    env.cuMemCreate = some (u.pool.block r).handle
  segment : ∀ seg, u.Owns r seg → seg = s.os.nextSegment ∧ seg < u.os.nextSegment

structure Confined (pid : ℤ) (s u : Exchange) (e : Event) : Prop where
  length_le : s.pool.allBlocks.length ≤ u.pool.allBlocks.length
  le_length : u.pool.allBlocks.length ≤ s.pool.allBlocks.length + 1
  static : ∀ r < s.pool.allBlocks.length, (u.pool.block r).static = (s.pool.block r).static
  new : ∀ r < u.pool.allBlocks.length, s.pool.allBlocks.length ≤ r → NewBlock s u e r
  next_le : s.os.nextSegment ≤ u.os.nextSegment
  names : ∀ name, (∀ id, name ≠ shmName pid id) → u.os.shmNames name = s.os.shmNames name
  sockets : ∀ name, (∀ id, name ≠ socketName pid id) → u.os.sockets name = s.os.sockets name
  served : ∀ name a, u.os.sockets name = some a → s.os.sockets name = some a ∨
    ∃ id, name = socketName pid id ∧ (u.pool.registeredBlocks id).isSome
  registered : ∀ id, (s.pool.registeredBlocks id).isSome → (u.pool.registeredBlocks id).isSome
  capable : u.pool.ipcCapable = true ∨
    u.published = s.published ∧ u.pool.registeredBlocks = s.pool.registeredBlocks
  uids : ∀ seg < s.os.nextSegment, (∀ r, ¬ s.Owns r seg) →
    (u.os.segments seg).uid = (s.os.segments seg).uid
  caches : u.caches = s.caches

lemma confined_of_same (hb : SameBlocks s.pool u.pool) (hn : u.os.nextSegment = s.os.nextSegment)
    (hs : u.os.shmNames = s.os.shmNames) (hk : u.os.sockets = s.os.sockets)
    (hr : u.pool.registeredBlocks = s.pool.registeredBlocks) (hp : u.published = s.published)
    (hu : ∀ seg, (∀ r, ¬ s.Owns r seg) → (u.os.segments seg).uid = (s.os.segments seg).uid)
    (hc : u.caches = s.caches) : Confined pid s u e := by
  refine ⟨hb.length.ge, by rw [hb.length]; omega, fun r _ => hb.static r, ?_, hn.ge, ?_, ?_, ?_,
    ?_, .inr ⟨hp, hr⟩, ?_, hc⟩
  · intro r hr hle
    rw [hb.length] at hr
    exact absurd hr (not_lt.mpr hle)
  · intro name _
    rw [hs]
  · intro name _
    rw [hk]
  · intro name a ha
    exact .inl (hk ▸ ha)
  · intro id hid
    rwa [hr]
  · intro seg _ hseg
    exact hu seg hseg

lemma onMeta_of_ne {os : Os} {ipcMeta : Option ℕ} {seg : ℕ} (h : ipcMeta ≠ some seg)
    (f : IPCMetadata → IPCMetadata) : (os.onMeta ipcMeta f).segments seg = os.segments seg := by
  rw [Os.onMeta_segments, if_neg h]

lemma assigned_segments (s : Exchange) (r now drawn : ℕ) {seg : ℕ} (h : ¬ s.Owns r seg) :
    (s.assigned r now drawn).os.segments seg = s.os.segments seg := by
  obtain ⟨f, hf⟩ := assigned_os s r now drawn
  rw [hf, onMeta_of_ne h]

lemma confined_created {byteSize now : ℕ} {env : CreateBlockEnv} {b : VmmBlock} {os : Os}
    (hc : findCandidate s.os s.pool now (s.pool.roundToGranularity byteSize) = none)
    (hb : BlockCreated s.os pid s.pool env (s.pool.roundToGranularity byteSize) b os) :
    Confined pid s ((s.created b os).atTime now) (.allocate byteSize now env) := by
  have hseg := segmentsCreated hb
  have hblock := fun r => created_block s b os r
  refine ⟨?_, ?_, ?_, ?_, hseg.next_le, ?_, ?_, ?_, fun _ h => h, .inr ⟨rfl, rfl⟩, ?_, rfl⟩
  · simp [created, atTime]
  · simp [created, atTime]
  · intro r hr
    exact congrArg VmmBlock.static ((hblock r).trans (if_neg hr.ne))
  · intro r hr hle
    obtain rfl : r = s.pool.allBlocks.length := by
      simp only [created, atTime, List.length_append, List.length_singleton] at hr
      omega
    have hnew := (hblock s.pool.allBlocks.length).trans (if_pos rfl)
    refine ⟨⟨byteSize, now, env, rfl, hc, ?_⟩, fun seg ho => ?_⟩
    · exact hb.handle.trans (congrArg (fun b => some b.handle) hnew).symm
    · have hown : b.ipcMeta = some seg := (congrArg VmmBlock.ipcMeta hnew).symm.trans ho
      exact ⟨(hseg.new seg hown).1, (hseg.new seg hown).2.1⟩
  · intro name hname
    have hm := hb.ipcMeta
    split_ifs at hm
    · have hnames := hm.shmNames
      exact (congrFun hnames name).trans (Function.update_of_ne (hname b.blockId) _ _)
    · rw [← hm.1]
      rfl
  · intro name _
    exact congrFun hb.sockets name
  · intro name a ha
    exact .inl ((congrFun hb.sockets name).symm.trans ha)
  · intro seg hlt _
    exact congrArg IPCMetadata.uid (hseg.old seg hlt)

/-- A registration opens no socket but the block's own. -/
lemma registered_sockets {env : RegisterEnv} {r : ℕ} {sockets : String → Option Listener}
    {blocks : ℕ → Option String} {socketPath : String}
    (hreg : registerBlock s.os pid s.pool env r =
      ({ s.os with sockets := sockets }, { s.pool with registeredBlocks := blocks },
        .ok socketPath)) :
    (∀ name, (∀ id, name ≠ socketName pid id) → sockets name = s.os.sockets name) ∧
      (∀ name a, sockets name = some a → s.os.sockets name = some a ∨
        ∃ id, name = socketName pid id ∧ (blocks id).isSome) ∧
      ∀ id, (s.pool.registeredBlocks id).isSome → (blocks id).isSome := by
  rcases registerBlock_cases s.os pid s.pool env r with ⟨_, _, he⟩ | ⟨_, _, he⟩ | ⟨_, he⟩
  · have hx := he.symm.trans hreg
    obtain rfl : s.os.sockets = sockets := congrArg (fun x => x.1.sockets) hx
    obtain rfl : s.pool.registeredBlocks = blocks := congrArg (fun x => x.2.1.registeredBlocks) hx
    exact ⟨fun _ _ => rfl, fun _ _ h => .inl h, fun _ h => h⟩
  · have hx := he.symm.trans hreg
    have hblocks := congrArg (fun x => x.2.1.registeredBlocks) hx
    have hsockets := congrArg (fun x => x.1.sockets) hx
    simp only at hblocks hsockets
    have hother : ∀ name, name ≠ socketName pid (s.pool.block r).blockId →
        sockets name = s.os.sockets name := by
      intro name hname
      rw [← hsockets, addSocket]
      exact Function.update_of_ne hname _ _
    refine ⟨fun name hname => hother name (hname _), fun name a ha => ?_, fun id hid => ?_⟩
    · by_cases hname : name = socketName pid (s.pool.block r).blockId
      · refine .inr ⟨_, hname, ?_⟩
        rw [← hblocks, Function.update_self]
        rfl
      · exact .inl (hother name hname ▸ ha)
    · rw [← hblocks]
      by_cases hx : id = (s.pool.block r).blockId
      · rw [hx, Function.update_self]
        rfl
      · rwa [Function.update_of_ne hx]
  · simp [he] at hreg

lemma step_confined (hp : ofPublisher e = true) (hs : step pid s e = some (o, u)) :
    Confined pid s u e := by
  cases step_cases hs with
  | @reused _ now key i r vec _ _ _ =>
    refine confined_of_same (sameBlocks_reused s key vec i r) ?_ ?_ ?_ ?_ rfl ?_ rfl
    · simp [reused, atTime]
    · simp [reused, atTime]
    · simp [reused, atTime]
    · simp [reused, atTime, takeBlock_pool]
    · intro seg hseg
      simp only [reused, atTime]
      rw [onMeta_of_ne (hseg r)]
  | notCreated _ _ _ => exact confined_of_same (.refl rfl) rfl rfl rfl rfl rfl (fun _ _ => rfl) rfl
  | created _ hc hb => exact confined_created hc hb
  | freed _ => exact confined_of_same (.refl rfl) rfl rfl rfl rfl rfl (fun _ _ => rfl) rfl
  | @assigned r now drawn _ _ _ _ _ =>
    refine confined_of_same (sameBlocks_assigned s r now drawn) (assigned_nextSegment s r now drawn)
      (assigned_shmNames s r now drawn) (assigned_sockets s r now drawn)
      (assigned_registeredBlocks s r now drawn) rfl (fun seg hseg => ?_) rfl
    exact congrArg IPCMetadata.uid (assigned_segments s r now drawn (hseg r))
  | notDescribed _ _ => exact confined_of_same (.refl rfl) rfl rfl rfl rfl rfl (fun _ _ => rfl) rfl
  | @described impl env now drawn r uid sockets blocks socketPath result published _ _ _ _ hcap _ _
      hreg _ _ =>
    obtain ⟨hother, hserved, hkeep⟩ := registered_sockets hreg
    have hsame := sameBlocks_described s sockets blocks r now drawn
    have hsockets := assigned_sockets (s.registered sockets blocks) r now drawn
    have hblocks : ∀ id, (blocks id).isSome → (((s.registered sockets blocks).assigned r now
        drawn).pool.registeredBlocks id).isSome := by
      intro id hid
      rw [assigned_registeredBlocks]
      exact hid
    have hlen : ((s.registered sockets blocks).assigned r now drawn).pool.allBlocks.length =
        s.pool.allBlocks.length := hsame.length
    refine ⟨hlen.ge, hlen.trans_le (Nat.le_succ _), fun r' _ => hsame.static r', ?_, ?_, ?_, ?_, ?_,
      ?_, .inl ?_, ?_, rfl⟩
    · intro r' hr' hle
      exact absurd (hr'.trans_eq hlen) (not_lt.mpr hle)
    · exact (assigned_nextSegment (s.registered sockets blocks) r now drawn).ge
    · intro name _
      exact congrFun (assigned_shmNames (s.registered sockets blocks) r now drawn) name
    · intro name hname
      exact (congrFun hsockets name).trans (hother name hname)
    · intro name a ha
      rcases hserved name a ((congrFun hsockets name).symm.trans ha) with ha | ⟨id, hid, hsome⟩
      · exact .inl ha
      · exact .inr ⟨id, hid, hblocks id hsome⟩
    · intro id hid
      exact hblocks id (hkeep id hid)
    · exact (assigned_ipcCapable (s.registered sockets blocks) r now drawn).trans hcap
    · intro seg _ hseg
      exact congrArg IPCMetadata.uid
        (assigned_segments (s.registered sockets blocks) r now drawn (hseg r))
  | imported _ _ _ => exact absurd hp (by simp [ofPublisher])
  | leaked _ => exact absurd hp (by simp [ofPublisher])
  | waiting _ => exact absurd hp (by simp [ofPublisher])
  | notImported _ _ _ => exact absurd hp (by simp [ofPublisher])
  | interrupted _ => exact absurd hp (by simp [ofPublisher])
  | released _ => exact absurd hp (by simp [ofPublisher])

/-- The segment of a block shows its uid. -/
def Shown (s : Exchange) : Prop :=
  ∀ r seg, s.Owns r seg → (s.pool.block r).currentUid ≠ 0 →
    (s.os.segments seg).uid = (s.pool.block r).currentUid

/-- No two blocks share a segment, and every segment exists. -/
structure Separate (s : Exchange) : Prop where
  owner : ∀ r r' seg, s.Owns r seg → s.Owns r' seg → r = r'
  allocated : ∀ r seg, s.Owns r seg → seg < s.os.nextSegment

lemma shown_assigned (h : Shown s) (hs : Separate s) {r : ℕ} (hr : r < s.pool.allBlocks.length)
    (now drawn : ℕ) : Shown (s.assigned r now drawn) := by
  by_cases hz : (s.pool.block r).currentUid = 0
  · rw [assigned_of_zero now drawn hz]
    intro r' seg ho huid
    have hown : s.Owns r' seg := by
      have hmeta := modifyBlock_ipcMeta s.pool r (f := fun b => { b with currentUid := drawn })
        (fun _ => rfl) r'
      exact hmeta.symm.trans ho
    have hcur := drawn_currentUid s now drawn hr r'
    rw [hcur] at huid ⊢
    by_cases hx : r' = r
    · subst hx
      have hsegment : (s.drawn r' now drawn).os.segments seg =
          stamp drawn now (s.os.segments seg) :=
        (Os.onMeta_segments _ _ _ _).trans (if_pos hown)
      rw [hsegment, if_pos rfl]
      rfl
    · have hsegment : (s.drawn r now drawn).os.segments seg = s.os.segments seg :=
        onMeta_of_ne (fun hr' => hx (hs.owner r' r seg hown hr')) _
      rw [if_neg hx] at huid ⊢
      rw [hsegment]
      exact h r' seg hown huid
  · rwa [assigned_of_ne_zero now drawn hz]

lemma shown_congr (h : Shown s) (hb : u.pool.allBlocks = s.pool.allBlocks)
    (hu : ∀ seg, (u.os.segments seg).uid = (s.os.segments seg).uid) : Shown u := by
  intro r seg ho huid
  rw [block_eq hb] at huid ⊢
  rw [hu]
  refine h r seg ?_ huid
  rwa [Owns, block_eq hb] at ho

lemma step_shown (hp : PoolPartition.Partition s.toState) (hd : Separate s) (h : Shown s)
    (hpub : ofPublisher e = true) (hs : step pid s e = some (o, u)) : Shown u := by
  cases step_cases hs with
  | @reused _ now key i r vec _ _ hc =>
    obtain ⟨hbucket, hr⟩ := PoolPartition.candidate_mem hc
    intro r' seg ho huid
    have hown : s.Owns r' seg := ((sameBlocks_reused s key vec i r).ipcMeta r').symm.trans ho
    have hcur := reused_currentUid s key vec i (hp.stored_lt hbucket hr) r'
    have hne : r' ≠ r := fun hx => huid (hcur.trans (if_pos hx))
    rw [if_neg hne] at hcur
    have hkeep := Staleness.onMeta_uid s.os (s.pool.block r).ipcMeta (f := clearStamp)
      (fun _ => rfl) seg
    have hz : (s.pool.block r').currentUid ≠ 0 := fun hx => huid (hcur.trans hx)
    exact (hkeep.trans (h r' seg hown hz)).trans hcur.symm
  | notCreated _ _ _ => exact shown_congr h rfl (fun _ => rfl)
  | @created _ _ _ _ b os _ _ hb =>
    intro r seg ho huid
    have hblock := created_block s b os r
    by_cases hr : r = s.pool.allBlocks.length
    · have hz := congrArg VmmBlock.currentUid (hblock.trans (if_pos hr))
      exact absurd (hz.trans hb.currentUid) huid
    · rw [if_neg hr] at hblock
      have hown : s.Owns r seg := (congrArg VmmBlock.ipcMeta hblock).symm.trans ho
      have hcur := congrArg VmmBlock.currentUid hblock
      have hold := (segmentsCreated hb).old seg (hd.allocated r seg hown)
      have hz : (s.pool.block r).currentUid ≠ 0 := fun hx => huid (hcur.trans hx)
      exact ((congrArg IPCMetadata.uid hold).trans (h r seg hown hz)).trans hcur.symm
  | freed _ => exact shown_congr h rfl (fun _ => rfl)
  | assigned _ _ hheld _ =>
    exact shown_congr (shown_assigned h hd (hp.handed_lt hheld) _ _) rfl (fun _ => rfl)
  | notDescribed _ _ => exact shown_congr h rfl (fun _ => rfl)
  | @described impl env now drawn r uid sockets blocks socketPath result published _ _ _ _ _ hfind _
      _ _ _ =>
    have hreg : Shown (s.registered sockets blocks) := h
    have hsep : Separate (s.registered sockets blocks) := ⟨hd.owner, hd.allocated⟩
    have hshown := shown_assigned hreg hsep (findBlockForVa_some hfind).1 now drawn
    exact shown_congr hshown rfl (fun _ => rfl)
  | imported _ _ _ => exact absurd hpub (by simp [ofPublisher])
  | leaked _ => exact absurd hpub (by simp [ofPublisher])
  | waiting _ => exact absurd hpub (by simp [ofPublisher])
  | notImported _ _ _ => exact absurd hpub (by simp [ofPublisher])
  | interrupted _ => exact absurd hpub (by simp [ofPublisher])
  | released _ => exact absurd hpub (by simp [ofPublisher])

/-- The name that `~CudaMemoryPool` unlinks is the block's own. -/
def Named (pid : ℤ) (b : VmmBlock) : Prop := 0 ≤ b.shmFd → b.shmName = shmName pid b.blockId

lemma createMetadata_named (os : Os) (env : CreateBlockEnv) {b : VmmBlock} (h : Named pid b) :
    Named pid (createMetadata os pid env b).2.1 := by
  unfold createMetadata
  cases env.shmOpen with
  | none => exact h
  | some fd =>
    cases env.ftruncate with
    | false => exact h
    | true =>
      cases env.mmap with
      | false => exact h
      | true => exact fun _ => rfl

lemma exportIpc_named (os : Os) (env : CreateBlockEnv) {b : VmmBlock} (h : Named pid b) :
    Named pid (exportIpc os pid env b).2.1 := by
  apply createMetadata_named
  cases env.cuMemExportToShareableHandle with
  | none => exact h
  | some fd => exact h

lemma createBlock_named (os : Os) (pool : CudaMemoryPool) (env : CreateBlockEnv) (n : ℕ)
    (h : ∀ b ∈ pool.allBlocks, Named pid b) :
    ∀ b ∈ (createBlock os pid pool env n).pool.allBlocks, Named pid b := by
  have hnew : ∀ b', Named pid b' → ∀ b ∈ pool.allBlocks ++ [b'], Named pid b := by
    intro b' hb' b hb
    rcases List.mem_append.mp hb with hb | hb
    · exact h b hb
    · exact List.mem_singleton.mp hb ▸ hb'
  unfold createBlock
  cases env.cuMemCreate with
  | none => exact h
  | some a =>
    cases env.cuMemAddressReserve with
    | none => exact h
    | some va =>
      cases env.cuMemMap with
      | false => exact h
      | true =>
        cases env.cuMemSetAccess with
        | false => exact h
        | true =>
          let b : VmmBlock := { handle := a, va := va, size := n, blockId := pool.nextBlockId }
          have hb : Named pid b := fun hfd => absurd hfd (by simp [b])
          cases hi : pool.ipcCapable with
          | false => exact hnew b hb
          | true => exact hnew _ (exportIpc_named os env hb)

lemma step_named (h : ∀ b ∈ s.pool.allBlocks, Named pid b) (hpub : ofPublisher e = true)
    (hs : step pid s e = some (o, u)) : ∀ b ∈ u.pool.allBlocks, Named pid b := by
  have hsame : SameBlocks s.pool u.pool → ∀ b ∈ u.pool.allBlocks, Named pid b := by
    intro hb b hmem
    obtain ⟨r, hr, rfl⟩ := List.mem_iff_getElem.mp hmem
    rw [block_getElem hr]
    have hold := h _ (block_mem (hb.length ▸ hr))
    have hfd := congrArg VmmBlock.shmFd (hb.static r)
    have hname := congrArg VmmBlock.shmName (hb.static r)
    simp only [VmmBlock.static] at hfd hname
    rwa [Named, hfd, hname, hb.blockId]
  cases e with
  | allocate byteSize now env =>
    simp only [step] at hs
    split_ifs at hs
    obtain ⟨⟨po, t⟩, ht, he⟩ := Option.map_eq_some_iff.mp hs
    obtain ⟨rfl, rfl⟩ := Prod.mk.inj he
    obtain ⟨-, rfl⟩ := Prod.mk.inj (Option.some.inj ht)
    rcases allocate_cases s.os pid s.pool now env byteSize with ⟨key, vec, i, r, _, ha⟩ | ⟨_, ha⟩
    · refine hsame ?_
      rw [ha]
      exact sameBlocks_reused s key vec i r
    · simp only [ha]
      exact createBlock_named s.os s.pool env _ h
  | free r =>
    cases step_cases hs with
    | freed _ => exact h
  | assignUid r now drawn =>
    cases step_cases hs with
    | assigned _ _ _ _ => exact hsame (sameBlocks_assigned s r now drawn)
  | createDescriptor impl env now drawn =>
    cases step_cases hs with
    | notDescribed _ _ => exact h
    | described _ _ _ _ _ _ _ _ _ _ => exact hsame (sameBlocks_described s _ _ _ now drawn)
  | importBlock sub args env => exact absurd hpub (by simp [ofPublisher])
  | interrupt w => exact absurd hpub (by simp [ofPublisher])
  | release i => exact absurd hpub (by simp [ofPublisher])

end RosidlBufferBackends.Cuda.Exchange
