import RosidlBufferBackends.Cuda.Exchange

/-! Which block a metadata segment belongs to, and that every name, cache entry
and live import leads to the segment of the block it names. -/

namespace RosidlBufferBackends.Cuda

open CudaMemoryPool CudaVmmIPCManager CudaBufferBackend Runs

/-- The block without the field that changes after its creation. -/
def VmmBlock.static (b : VmmBlock) : VmmBlock := { b with currentUid := 0 }

/-- No block is added and only the uids of blocks change. -/
structure SameBlocks (pool pool' : CudaMemoryPool) : Prop where
  length : pool'.allBlocks.length = pool.allBlocks.length
  static : ∀ r, (pool'.block r).static = (pool.block r).static

section SameBlocks

variable {pool pool' : CudaMemoryPool}

lemma SameBlocks.refl (h : pool'.allBlocks = pool.allBlocks) : SameBlocks pool pool' :=
  ⟨by rw [h], fun r => by rw [block_eq h]⟩

lemma SameBlocks.ipcMeta (h : SameBlocks pool pool') (r : ℕ) :
    (pool'.block r).ipcMeta = (pool.block r).ipcMeta := by
  have he := congrArg VmmBlock.ipcMeta (h.static r)
  exact he

lemma SameBlocks.blockId (h : SameBlocks pool pool') (r : ℕ) :
    (pool'.block r).blockId = (pool.block r).blockId := by
  have he := congrArg VmmBlock.blockId (h.static r)
  exact he

lemma SameBlocks.size (h : SameBlocks pool pool') (r : ℕ) :
    (pool'.block r).size = (pool.block r).size := by
  have he := congrArg VmmBlock.size (h.static r)
  exact he

lemma SameBlocks.va (h : SameBlocks pool pool') (r : ℕ) :
    (pool'.block r).va = (pool.block r).va := by
  have he := congrArg VmmBlock.va (h.static r)
  exact he

lemma SameBlocks.handle (h : SameBlocks pool pool') (r : ℕ) :
    (pool'.block r).handle = (pool.block r).handle := by
  have he := congrArg VmmBlock.handle (h.static r)
  exact he

lemma SameBlocks.exportedFd (h : SameBlocks pool pool') (r : ℕ) :
    (pool'.block r).exportedFd = (pool.block r).exportedFd := by
  have he := congrArg VmmBlock.exportedFd (h.static r)
  exact he

lemma block_getElem {pool : CudaMemoryPool} {r : ℕ} (hr : r < pool.allBlocks.length) :
    pool.allBlocks[r] = pool.block r := by
  simp [block, List.getD_eq_getElem?_getD, hr]

lemma SameBlocks.blockIds (h : SameBlocks pool pool') :
    pool'.allBlocks.map VmmBlock.blockId = pool.allBlocks.map VmmBlock.blockId := by
  apply List.ext_getElem
  · simp [h.length]
  · intro r hr hr'
    rw [List.length_map] at hr hr'
    rw [List.getElem_map, List.getElem_map, block_getElem hr, block_getElem hr', h.blockId]

lemma blockId_inj (hn : (pool.allBlocks.map VmmBlock.blockId).Nodup) {r r' : ℕ}
    (hr : r < pool.allBlocks.length) (hr' : r' < pool.allBlocks.length)
    (he : (pool.block r).blockId = (pool.block r').blockId) : r = r' := by
  rw [← block_getElem hr, ← block_getElem hr'] at he
  have hlen : ∀ {i}, i < pool.allBlocks.length →
      i < (pool.allBlocks.map VmmBlock.blockId).length := by simp
  have hinj := List.nodup_iff_injective_get.mp hn
  have hi := @hinj ⟨r, hlen hr⟩ ⟨r', hlen hr'⟩ (by simpa using he)
  exact congrArg Fin.val hi

lemma modifyBlock_static (pool : CudaMemoryPool) (r n r' : ℕ) :
    ((pool.modifyBlock r (fun b => { b with currentUid := n })).block r').static =
      (pool.block r').static := by
  by_cases hr : r < pool.allBlocks.length
  · rw [block_modifyBlock pool hr]
    split <;> rfl
  · have hb : (pool.modifyBlock r (fun b => { b with currentUid := n })).allBlocks =
        pool.allBlocks :=
      List.modify_eq_self (not_lt.mp hr)
    rw [block_eq hb]

end SameBlocks

namespace Exchange

variable {pid : ℤ} {s u : Exchange} {e : Event} {o : Output}

def Owns (s : Exchange) (r seg : ℕ) : Prop := (s.pool.block r).ipcMeta = some seg

structure Wired (pid : ℤ) (s : Exchange) : Prop where
  allocated : ∀ r seg, s.Owns r seg → seg < s.os.nextSegment
  owner : ∀ r r' seg, s.Owns r seg → s.Owns r' seg → r = r'
  names : ∀ name seg, s.os.shmNames name = some seg →
    ∃ r, s.Owns r seg ∧ name = shmName pid (s.pool.block r).blockId
  cached : ∀ sub key entry seg, s.caches sub key = some entry → entry.ipcMeta = some seg →
    ∃ r, s.Owns r seg ∧ key = (pid, (s.pool.block r).blockId)
  imported : ∀ i ∈ s.live, ∀ seg, i.result.ipcMeta = some seg →
    ∃ r, s.Owns r seg ∧ (i.args.pid, i.args.blockId) = (pid, (s.pool.block r).blockId)

lemma sameBlocks_reused (s : Exchange) (key : ℕ) (vec : List ℕ) (i r : ℕ) :
    SameBlocks s.pool (s.reused key vec i r).pool := by
  have hb : (s.reused key vec i r).pool.allBlocks =
      (s.pool.modifyBlock r (fun b => { b with currentUid := 0 })).allBlocks := by
    simp [reused, takeBlock_pool, modifyBlock]
  refine ⟨by rw [hb, modifyBlock_length], fun r' => ?_⟩
  rw [block_eq hb, modifyBlock_static]

lemma reused_currentUid (s : Exchange) (key : ℕ) (vec : List ℕ) (i : ℕ) {r : ℕ}
    (hr : r < s.pool.allBlocks.length) (r' : ℕ) :
    ((s.reused key vec i r).pool.block r').currentUid =
      if r' = r then 0 else (s.pool.block r').currentUid := by
  have hb : (s.reused key vec i r).pool.allBlocks =
      (s.pool.modifyBlock r (fun b => { b with currentUid := 0 })).allBlocks := by
    simp [reused, takeBlock_pool, modifyBlock]
  rw [block_eq hb, block_modifyBlock _ hr]
  split <;> rfl

lemma drawn_currentUid (s : Exchange) (now n : ℕ) {r : ℕ} (hr : r < s.pool.allBlocks.length)
    (r' : ℕ) : ((s.drawn r now n).pool.block r').currentUid =
      if r' = r then n else (s.pool.block r').currentUid := by
  rw [Exchange.drawn, block_modifyBlock _ hr]
  split <;> rfl

lemma assigned_uid (s : Exchange) (now drawn : ℕ) {r : ℕ} (hr : r < s.pool.allBlocks.length) :
    ((s.assigned r now drawn).pool.block r).currentUid = s.uidOf r drawn := by
  by_cases h : (s.pool.block r).currentUid = 0
  · rw [assigned_of_zero now drawn h, drawn_currentUid s now drawn hr, if_pos rfl, uidOf, if_pos h]
  · rw [assigned_of_ne_zero now drawn h, uidOf, if_neg h]

lemma sameBlocks_assigned (s : Exchange) (r now drawn : ℕ) :
    SameBlocks s.pool (s.assigned r now drawn).pool := by
  by_cases h : (s.pool.block r).currentUid = 0
  · rw [assigned_of_zero now drawn h]
    exact ⟨modifyBlock_length _ _ _, modifyBlock_static s.pool r drawn⟩
  · rw [assigned_of_ne_zero now drawn h]
    exact .refl rfl

lemma sameBlocks_described (s : Exchange) (sockets : String → Option Listener)
    (blocks : ℕ → Option String) (r now drawn : ℕ) :
    SameBlocks s.pool ((s.registered sockets blocks).assigned r now drawn).pool := by
  have h := sameBlocks_assigned (s.registered sockets blocks) r now drawn
  exact ⟨h.length, h.static⟩

lemma assigned_os (s : Exchange) (r now drawn : ℕ) :
    ∃ f, (s.assigned r now drawn).os = s.os.onMeta (s.pool.block r).ipcMeta f := by
  by_cases h : (s.pool.block r).currentUid = 0
  · exact ⟨stamp drawn now, by rw [assigned_of_zero now drawn h, Exchange.drawn]⟩
  · refine ⟨fun m => m, ?_⟩
    rw [assigned_of_ne_zero now drawn h]
    cases (s.pool.block r).ipcMeta with
    | none => rfl
    | some seg => exact (Os.modifySegment_id s.os seg).symm

lemma assigned_shmNames (s : Exchange) (r now drawn : ℕ) :
    (s.assigned r now drawn).os.shmNames = s.os.shmNames := by
  obtain ⟨f, h⟩ := assigned_os s r now drawn
  simp [h]

lemma assigned_nextSegment (s : Exchange) (r now drawn : ℕ) :
    (s.assigned r now drawn).os.nextSegment = s.os.nextSegment := by
  obtain ⟨f, h⟩ := assigned_os s r now drawn
  simp [h]

lemma assigned_files (s : Exchange) (r now drawn : ℕ) :
    (s.assigned r now drawn).os.files = s.os.files := by
  obtain ⟨f, h⟩ := assigned_os s r now drawn
  simp [h]

lemma assigned_sockets (s : Exchange) (r now drawn : ℕ) :
    (s.assigned r now drawn).os.sockets = s.os.sockets := by
  obtain ⟨f, h⟩ := assigned_os s r now drawn
  simp [h]

lemma assigned_ipcCapable (s : Exchange) (r now drawn : ℕ) :
    (s.assigned r now drawn).pool.ipcCapable = s.pool.ipcCapable := by
  by_cases hz : (s.pool.block r).currentUid = 0
  · rw [assigned_of_zero now drawn hz]
    rfl
  · rw [assigned_of_ne_zero now drawn hz]

lemma Wired.congr (h : Wired pid s) (hb : SameBlocks s.pool u.pool)
    (hn : u.os.nextSegment = s.os.nextSegment) (hs : u.os.shmNames = s.os.shmNames)
    (hc : u.caches = s.caches) (hl : ∀ i ∈ u.live, i ∈ s.live) : Wired pid u := by
  have howns : ∀ r seg, u.Owns r seg ↔ s.Owns r seg := fun r seg => by
    rw [Owns, Owns, hb.ipcMeta]
  refine ⟨?_, ?_, ?_, ?_, ?_⟩
  · intro r seg ho
    rw [hn]
    exact h.allocated r seg ((howns r seg).mp ho)
  · intro r r' seg ho ho'
    exact h.owner r r' seg ((howns r seg).mp ho) ((howns r' seg).mp ho')
  · intro name seg hname
    obtain ⟨r, ho, he⟩ := h.names name seg (hs ▸ hname)
    exact ⟨r, (howns r seg).mpr ho, by rw [hb.blockId, he]⟩
  · intro sub key entry seg hentry hm
    obtain ⟨r, ho, he⟩ := h.cached sub key entry seg (hc ▸ hentry) hm
    exact ⟨r, (howns r seg).mpr ho, by rw [hb.blockId, he]⟩
  · intro i hi seg hm
    obtain ⟨r, ho, he⟩ := h.imported i (hl i hi) seg hm
    exact ⟨r, (howns r seg).mpr ho, by rw [hb.blockId, he]⟩

lemma consulted_owned (h : Wired pid s) {sub seg : ℕ} {env : ImportEnv} {args : ImportArgs}
    (hc : consulted s.os (s.caches sub) env args = some seg) :
    ∃ r, s.Owns r seg ∧ (args.pid, args.blockId) = (pid, (s.pool.block r).blockId) := by
  unfold consulted at hc
  cases hentry : s.caches sub (args.pid, args.blockId) with
  | some entry => exact h.cached sub _ entry seg hentry (by simpa [hentry] using hc)
  | none =>
    have hm : (mapMetadata s.os env args).1 = some seg := by simpa [hentry] using hc
    unfold mapMetadata at hm
    cases hn : s.os.shmNames (shmName args.pid args.blockId) with
    | none => simp [hn] at hm
    | some seg' =>
      obtain rfl : seg' = seg := by
        cases hf : env.shmOpen <;> cases hmap : env.mmap <;> simp_all
      obtain ⟨r, ho, he⟩ := h.names _ _ hn
      obtain ⟨hp, hid⟩ := shmName_inj he
      exact ⟨r, ho, by rw [hp, hid]⟩

lemma wired_withImport (h : Wired pid s) {sub : ℕ} {env : ImportEnv} {args : ImportArgs}
    {entry : CachedImport} (hm : entry.ipcMeta = consulted s.os (s.caches sub) env args) :
    Wired pid (s.withImport sub args entry) := by
  have hown : ∀ seg, entry.ipcMeta = some seg →
      ∃ r, s.Owns r seg ∧ (args.pid, args.blockId) = (pid, (s.pool.block r).blockId) :=
    fun seg hseg => consulted_owned h (hm ▸ hseg)
  have hw : Wired pid { s with os := s.os.onMeta entry.ipcMeta IPCMetadata.fetchAdd } :=
    h.congr (.refl rfl) (by simp) (by simp) rfl (fun i hi => hi)
  refine ⟨hw.allocated, hw.owner, hw.names, ?_, ?_⟩
  · intro sub' key entry' seg hentry hseg
    by_cases hk : sub' = sub ∧ key = (args.pid, args.blockId)
    · obtain ⟨rfl, rfl⟩ := hk
      obtain rfl : entry = entry' := by simpa [withImport] using hentry
      exact hown seg hseg
    · refine h.cached sub' key entry' seg ?_ hseg
      by_cases hsub : sub' = sub
      · subst hsub
        have hk' : key ≠ (args.pid, args.blockId) := fun hk' => hk ⟨rfl, hk'⟩
        simpa [withImport, Function.update_of_ne hk'] using hentry
      · simpa [withImport, Function.update_of_ne hsub] using hentry
  · intro i hi seg hseg
    rcases List.mem_cons.mp hi with rfl | hi
    · exact hown seg hseg
    · exact h.imported i hi seg hseg

lemma created_block (s : Exchange) (b : VmmBlock) (os : Os) (r : ℕ) :
    (s.created b os).pool.block r =
      if r = s.pool.allBlocks.length then b else s.pool.block r := by
  simp only [created, block, List.getD_eq_getElem?_getD]
  rcases lt_trichotomy r s.pool.allBlocks.length with h | rfl | h
  · rw [List.getElem?_append_left h, if_neg h.ne]
  · simp
  · rw [if_neg h.ne', List.getElem?_eq_none (by simp; omega), List.getElem?_eq_none h.le]

lemma Owns.lt {r seg : ℕ} (h : s.Owns r seg) : r < s.pool.allBlocks.length := by
  by_contra hlt
  simp [Owns, block, List.getD_eq_getElem?_getD, List.getElem?_eq_none (not_lt.mp hlt)] at h

/-- The shared state in which a block has been created. -/
structure SegmentsCreated (pid : ℤ) (s : Exchange) (b : VmmBlock) (os : Os) : Prop where
  next_le : s.os.nextSegment ≤ os.nextSegment
  old : ∀ seg < s.os.nextSegment, os.segments seg = s.os.segments seg
  new : ∀ seg, b.ipcMeta = some seg →
    seg = s.os.nextSegment ∧ seg < os.nextSegment ∧ os.segments seg = {}
  names : ∀ name seg, os.shmNames name = some seg →
    s.os.shmNames name = some seg ∨ (b.ipcMeta = some seg ∧ name = shmName pid b.blockId)

lemma segmentsCreated {env : CreateBlockEnv} {n : ℕ} {b : VmmBlock} {os : Os}
    (hb : BlockCreated s.os pid s.pool env n b os) : SegmentsCreated pid s b os := by
  have hm := hb.ipcMeta
  split_ifs at hm with hi
  · refine ⟨hm.next_le, hm.old, hm.new, fun name seg hname => ?_⟩
    rw [hm.shmNames] at hname
    by_cases hn : name = shmName pid b.blockId
    · subst hn
      exact .inr ⟨by simpa using hname, rfl⟩
    · exact .inl (by simpa [Function.update_of_ne hn] using hname)
  · obtain ⟨rfl, hnone⟩ := hm
    exact ⟨le_rfl, fun _ _ => rfl, by simp [hnone], fun _ _ h => .inl h⟩

lemma wired_created (h : Wired pid s) {b : VmmBlock} {os : Os}
    (hb : SegmentsCreated pid s b os) : Wired pid (s.created b os) := by
  have hold : ∀ {r seg}, s.Owns r seg → (s.created b os).Owns r seg ∧
      ((s.created b os).pool.block r).blockId = (s.pool.block r).blockId := by
    intro r seg ho
    rw [Owns, created_block, if_neg ho.lt.ne]
    exact ⟨ho, rfl⟩
  have hnew : ∀ {r seg}, (s.created b os).Owns r seg →
      s.Owns r seg ∨ (r = s.pool.allBlocks.length ∧ b.ipcMeta = some seg) := by
    intro r seg ho
    rw [Owns, created_block] at ho
    split_ifs at ho with hr
    · exact .inr ⟨hr, ho⟩
    · exact .inl ho
  refine ⟨?_, ?_, ?_, ?_, ?_⟩
  · intro r seg ho
    rcases hnew ho with ho | ⟨_, hm⟩
    · exact (h.allocated r seg ho).trans_le hb.next_le
    · exact (hb.new seg hm).2.1
  · intro r r' seg ho ho'
    rcases hnew ho with ho | ⟨rfl, hm⟩ <;> rcases hnew ho' with ho' | ⟨rfl, hm'⟩
    · exact h.owner r r' seg ho ho'
    · exact absurd (hb.new seg hm').1 (h.allocated r seg ho).ne
    · exact absurd (hb.new seg hm).1 (h.allocated r' seg ho').ne
    · rfl
  · intro name seg hname
    rcases hb.names name seg hname with hname | ⟨hm, rfl⟩
    · obtain ⟨r, ho, he⟩ := h.names name seg hname
      exact ⟨r, (hold ho).1, by rw [(hold ho).2, he]⟩
    · refine ⟨s.pool.allBlocks.length, ?_, ?_⟩ <;> simp [Owns, created_block, hm]
  · intro sub key entry seg hentry hm
    obtain ⟨r, ho, he⟩ := h.cached sub key entry seg hentry hm
    exact ⟨r, (hold ho).1, by rw [(hold ho).2, he]⟩
  · intro i hi seg hm
    obtain ⟨r, ho, he⟩ := h.imported i hi seg hm
    exact ⟨r, (hold ho).1, by rw [(hold ho).2, he]⟩

lemma wired_initial (pid : ℤ) (granularity : ℕ) (hg : 0 < granularity) (deviceId : ℤ)
    (ipcCapable : Bool) : Wired pid (initial granularity hg deviceId ipcCapable) := by
  refine ⟨?_, ?_, ?_, ?_, ?_⟩ <;> simp [initial, PoolPartition.initial, Owns, block]

lemma step_wired (h : Wired pid s) (hs : step pid s e = some (o, u)) : Wired pid u := by
  cases step_cases hs with
  | reused _ hc =>
    exact h.congr (sameBlocks_reused s _ _ _ _) (by simp [reused, atTime])
      (by simp [reused, atTime])
      rfl (fun i hi => hi)
  | notCreated _ _ _ => exact h.congr (.refl rfl) rfl rfl rfl (fun i hi => hi)
  | created _ _ hb =>
    have hw := wired_created h (segmentsCreated hb)
    exact hw.congr (.refl rfl) rfl rfl rfl (fun i hi => hi)
  | freed _ => exact h.congr (.refl rfl) rfl rfl rfl (fun i hi => hi)
  | assigned _ _ _ _ =>
    exact h.congr (sameBlocks_assigned s _ _ _) (assigned_nextSegment s _ _ _)
      (assigned_shmNames s _ _ _) rfl (fun i hi => hi)
  | notDescribed _ _ => exact h.congr (.refl rfl) rfl rfl rfl (fun i hi => hi)
  | @described impl env now drawn r uid sockets blocks socketPath result published =>
    exact h.congr (sameBlocks_described s sockets blocks r now drawn)
      (assigned_nextSegment _ r now drawn) (assigned_shmNames _ r now drawn) rfl (fun i hi => hi)
  | imported _ hm _ => exact wired_withImport h hm
  | leaked _ => exact h.congr (.refl rfl) (by simp) (by simp) rfl (fun i hi => hi)
  | waiting _ =>
    exact h.congr (.refl rfl) (by simp [withWaiting]) (by simp [withWaiting]) rfl (fun i hi => hi)
  | notImported _ _ _ => exact h
  | interrupted _ =>
    exact h.congr (.refl rfl) (by simp [withoutWaiting]) (by simp [withoutWaiting]) rfl
      (fun i hi => hi)
  | released _ =>
    exact h.congr (.refl rfl) (by simp [withoutImport]) (by simp [withoutImport]) rfl
      (fun i hi => List.mem_of_mem_erase hi)

/-- The metadata of a block is settled when it is created. -/
lemma step_ipcMeta (hs : step pid s e = some (o, u)) {r : ℕ} (hr : r < s.pool.allBlocks.length) :
    (u.pool.block r).ipcMeta = (s.pool.block r).ipcMeta := by
  cases step_cases hs with
  | reused _ _ => exact (sameBlocks_reused s _ _ _ _).ipcMeta r
  | @created _ _ _ _ b os _ _ _ =>
    have hb := created_block s b os r
    rw [if_neg hr.ne] at hb
    exact congrArg VmmBlock.ipcMeta hb
  | assigned _ _ _ _ => exact (sameBlocks_assigned s _ _ _).ipcMeta r
  | @described impl env now drawn r' uid sockets blocks socketPath result published =>
    exact (sameBlocks_described s sockets blocks r' now drawn).ipcMeta r
  | _ => rfl

lemma assigned_freeBlocks (s : Exchange) (r now drawn : ℕ) :
    (s.assigned r now drawn).pool.freeBlocks = s.pool.freeBlocks := by
  by_cases hz : (s.pool.block r).currentUid = 0
  · rw [assigned_of_zero now drawn hz]
    rfl
  · rw [assigned_of_ne_zero now drawn hz]

lemma step_partition (h : PoolPartition.Partition s.toState)
    (hs : step pid s e = some (o, u)) : PoolPartition.Partition u.toState := by
  have hsame : ∀ {v : Exchange}, SameBlocks s.pool v.pool → v.handedOut = s.handedOut →
      v.pool.freeBlocks = s.pool.freeBlocks → PoolPartition.Partition v.toState :=
    fun hb hh hf => h.congr hh hf hb.length hb.size
  cases step_cases hs with
  | reused _ hc => exact h.take hc _ _
  | notCreated _ _ _ => exact hsame (.refl rfl) rfl rfl
  | created _ _ hb => exact h.create _ _ _ _
  | freed hr => exact h.free hr
  | assigned _ _ _ _ =>
    exact hsame (sameBlocks_assigned s _ _ _) rfl (assigned_freeBlocks s _ _ _)
  | notDescribed _ _ => exact hsame (.refl rfl) rfl rfl
  | @described impl env now drawn r uid sockets blocks socketPath result published =>
    exact hsame (sameBlocks_described s sockets blocks r now drawn) rfl
      (assigned_freeBlocks _ r now drawn)
  | imported _ _ _ => exact hsame (.refl rfl) rfl rfl
  | leaked _ => exact hsame (.refl rfl) rfl rfl
  | waiting _ => exact hsame (.refl rfl) rfl rfl
  | notImported _ _ _ => exact h
  | interrupted _ => exact hsame (.refl rfl) rfl rfl
  | released _ => exact hsame (.refl rfl) rfl rfl

lemma assigned_nextBlockId (s : Exchange) (r now drawn : ℕ) :
    (s.assigned r now drawn).pool.nextBlockId = s.pool.nextBlockId := by
  by_cases hz : (s.pool.block r).currentUid = 0
  · rw [assigned_of_zero now drawn hz]
    rfl
  · rw [assigned_of_ne_zero now drawn hz]

lemma step_numbered (h : PoolPartition.Numbered s.toState)
    (hs : step pid s e = some (o, u)) : PoolPartition.Numbered u.toState := by
  have hsame : ∀ {v : Exchange}, SameBlocks s.pool v.pool →
      v.pool.nextBlockId = s.pool.nextBlockId → v.creations = s.creations →
      PoolPartition.Numbered v.toState :=
    fun hb hn hc => h.congr hn hc hb.blockIds
  cases step_cases hs with
  | reused _ _ =>
    exact hsame (sameBlocks_reused s _ _ _ _) (by simp [reused, atTime, takeBlock_pool]) rfl
  | notCreated _ _ _ => exact h.fail _ _
  | created _ _ hb => exact h.create _ _ hb.blockId
  | freed _ => exact hsame (.refl rfl) rfl rfl
  | assigned _ _ _ _ =>
    exact hsame (sameBlocks_assigned s _ _ _) (assigned_nextBlockId s _ _ _) rfl
  | notDescribed _ _ => exact hsame (.refl rfl) rfl rfl
  | @described impl env now drawn r uid sockets blocks socketPath result published =>
    exact hsame (sameBlocks_described s sockets blocks r now drawn)
      (assigned_nextBlockId _ r now drawn) rfl
  | imported _ _ _ => exact hsame (.refl rfl) rfl rfl
  | leaked _ => exact hsame (.refl rfl) rfl rfl
  | waiting _ => exact hsame (.refl rfl) rfl rfl
  | notImported _ _ _ => exact h
  | interrupted _ => exact hsame (.refl rfl) rfl rfl
  | released _ => exact hsame (.refl rfl) rfl rfl

variable {granularity : ℕ} {hg : 0 < granularity} {deviceId : ℤ} {ipcCapable : Bool}
  {tr : List (Event × Output)}

lemma run_wired (hr : Run (step pid) (initial granularity hg deviceId ipcCapable) tr s) :
    Wired pid s :=
  hr.invariant (wired_initial pid _ _ _ _) (fun _ _ _ _ h hs => step_wired h hs)

lemma run_partition (hr : Run (step pid) (initial granularity hg deviceId ipcCapable) tr s) :
    PoolPartition.Partition s.toState :=
  hr.invariant (PoolPartition.partition_initial _ _ _ _) (fun _ _ _ _ h hs => step_partition h hs)

lemma run_numbered (hr : Run (step pid) (initial granularity hg deviceId ipcCapable) tr s) :
    PoolPartition.Numbered s.toState :=
  hr.invariant (PoolPartition.numbered_initial _ _ _ _) (fun _ _ _ _ h hs => step_numbered h hs)

end Exchange

end RosidlBufferBackends.Cuda
