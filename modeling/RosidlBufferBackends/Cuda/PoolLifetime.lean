import RosidlBufferBackends.Cuda.PoolPartition

/-! A pool from `create` to its destructor, with a ledger of what it acquires and releases. -/

namespace RosidlBufferBackends.Cuda.PoolLifetime

open CudaMemoryPool Runs

/-- The results of the calls that `create` makes; `cudaFree` may also fail with
`cudaErrorInvalidValue`. -/
structure CreateEnv where
  cuInit : Bool
  cudaGetDevice : Option ℤ
  cudaFree : Bool
  exportableGranularity : Option ℕ
  plainGranularity : Option ℕ
  probeCreate : Option ℕ
  probeExport : Option ℕ

inductive CUresult
  | success
  | alreadyAcquired
  | initFailed
  | invalidDevice
  | notInitialized
  | notSupported
  deriving DecidableEq, Repr

def probeVmmIpc (env : CreateEnv) : Bool × List (Action Resource) :=
  match env.probeCreate with
  | none => (false, [])
  | some a =>
      match env.probeExport with
      | none => (false, [.acquire (.allocationHandle a), .release (.allocationHandle a)])
      | some fd =>
          (true, [.acquire (.allocationHandle a), .acquire (.exportedFd fd),
            .release (.exportedFd fd), .release (.allocationHandle a)])

/-- A granularity that the driver reports; 0 counts as a failure. -/
def reported : Option ℕ → Option {g : ℕ // 0 < g}
  | some (g + 1) => some ⟨g + 1, g.succ_pos⟩
  | _ => none

def create (pool : Option CudaMemoryPool) (env : CreateEnv) :
    Option CudaMemoryPool × List (Action Resource) × CUresult :=
  match pool with
  | some pool => (some pool, [], .alreadyAcquired)
  | none =>
      if env.cuInit = false then (none, [], .initFailed)
      else
        match env.cudaGetDevice with
        | none => (none, [], .invalidDevice)
        | some device =>
            if env.cudaFree = false then (none, [], .notInitialized)
            else
              match reported env.exportableGranularity with
              | some g =>
                  let (ipcCapable, log) := probeVmmIpc env
                  (some { granularity := g.1, granularity_pos := g.2, deviceId := device,
                          ipcCapable := ipcCapable }, log, .success)
              | none =>
                  match reported env.plainGranularity with
                  | none => (none, [], .notSupported)
                  | some g =>
                      (some { granularity := g.1, granularity_pos := g.2, deviceId := device,
                              ipcCapable := false }, [], .success)

def releaseMetadata (os : Os) (b : VmmBlock) : Os × List (Action Resource) :=
  let log := b.ipcMeta.toList.map fun seg => .release (.metadataMapping seg)
  if 0 ≤ b.shmFd then (os.shmUnlink b.shmName, log ++ [.release (.shmFd b.shmFd)])
  else (os, log)

def releaseBlock (os : Os) (b : VmmBlock) : Os × List (Action Resource) :=
  let (os, log) := releaseMetadata os b
  ({ os with files :=
      if 0 ≤ b.exportedFd then Function.update os.files b.exportedFd none else os.files },
    log ++ (if 0 ≤ b.exportedFd then [.release (.exportedFd b.exportedFd)] else []) ++
    (if b.va ≠ 0 then
      [.release (.mapping b.va b.size), .release (.addressRange b.va b.size)] else []) ++
    if b.handle ≠ 0 then [.release (.allocationHandle b.handle)] else [])

def releaseBlocks (os : Os) : List VmmBlock → Os × List (Action Resource)
  | [] => (os, [])
  | b :: blocks =>
      let (os, log) := releaseBlock os b
      let (os, rest) := releaseBlocks os blocks
      (os, log ++ rest)

/-- `handedOut` are the blocks whose deleters hold the pool. -/
structure Life where
  os : Os := {}
  pool : Option CudaMemoryPool := none
  handedOut : List ℕ := []
  log : List (Action Resource) := []
  destroyed : Bool := false

/-- `destroy` is one pass of the loop in which the destructor waits. -/
inductive Event
  | create (env : CreateEnv)
  | act (e : PoolPartition.Event)
  | assignUid (r now drawn : ℕ)
  | destroy (now : ℕ)

inductive Output
  | created (result : CUresult)
  | acted (o : PoolPartition.Output)
  | assigned (uid : ℕ)
  | waiting
  | destroyed

def acquired : PoolPartition.Output → List (Action Resource)
  | .allocated log _ => log
  | .done => []

def Life.blocks (s : Life) : List VmmBlock := s.pool.elim [] CudaMemoryPool.allBlocks

def step (pid : ℤ) (s : Life) (e : Event) : Option (Output × Life) :=
  if s.destroyed then none
  else
    match e with
    | .create env =>
        let (pool, log, result) := create s.pool env
        some (.created result, { s with pool := pool, log := s.log ++ log })
    | .act e =>
        match s.pool with
        | none => none
        | some pool =>
            (PoolPartition.step pid { os := s.os, pool := pool, handedOut := s.handedOut } e).map
              fun x => (.acted x.1, { s with os := x.2.os, pool := some x.2.pool,
                                             handedOut := x.2.handedOut,
                                             log := s.log ++ acquired x.1 })
    | .assignUid r now drawn =>
        match s.pool with
        | none => none
        | some pool =>
            if r ∈ s.handedOut then
              let (os, pool, uid) := assignUid s.os pool now drawn r
              some (.assigned uid, { s with os := os, pool := some pool })
            else none
    | .destroy now =>
        if s.handedOut ≠ [] then none
        else if s.blocks.all (isBlockReady s.os now) then
          let (os, log) := releaseBlocks s.os s.blocks
          some (.destroyed, { s with os := os, log := s.log ++ log, destroyed := true })
        else some (.waiting, s)

/-- What a block holds. -/
def resources (b : VmmBlock) : List Resource :=
  b.ipcMeta.toList.map .metadataMapping ++ (if 0 ≤ b.shmFd then [.shmFd b.shmFd] else []) ++
    (if 0 ≤ b.exportedFd then [.exportedFd b.exportedFd] else []) ++
    [.mapping b.va b.size, .addressRange b.va b.size, .allocationHandle b.handle]

/-- Neither an allocation handle nor a device address is 0. -/
def NonNull : Event → Prop
  | .act (.allocate _ _ env) => env.cuMemCreate ≠ some 0 ∧ env.cuMemAddressReserve ≠ some 0
  | _ => True

instance : (e : Event) → Decidable (NonNull e)
  | .act (.allocate _ _ env) => inferInstanceAs
      (Decidable (env.cuMemCreate ≠ some 0 ∧ env.cuMemAddressReserve ≠ some 0))
  | .act (.free _) | .act (.perturb _) | .create _ | .assignUid _ _ _ | .destroy _ =>
    .isTrue trivial

variable {os : Os} {pid : ℤ} {pool : CudaMemoryPool} {s u : Life} {e : Event} {o : Output}
  {tr : List (Event × Output)}

lemma releaseBlock_log (os : Os) {b : VmmBlock} (hva : b.va ≠ 0) (hhandle : b.handle ≠ 0) :
    (releaseBlock os b).2 = (resources b).map .release := by
  unfold releaseBlock releaseMetadata resources
  by_cases hshm : 0 ≤ b.shmFd <;> by_cases hfd : 0 ≤ b.exportedFd <;>
    simp [hshm, hfd, hva, hhandle]

lemma releaseBlocks_log {blocks : List VmmBlock} (h : ∀ b ∈ blocks, b.va ≠ 0 ∧ b.handle ≠ 0)
    (os : Os) : (releaseBlocks os blocks).2 = (blocks.flatMap resources).map .release := by
  induction blocks generalizing os with
  | nil => rfl
  | cons b blocks ih =>
    obtain ⟨hva, hhandle⟩ := h b List.mem_cons_self
    have hrest := ih (fun c hc => h c (List.mem_cons_of_mem b hc)) (releaseBlock os b).1
    rw [List.flatMap_cons, List.map_append, ← hrest, ← releaseBlock_log os hva hhandle]
    rfl

/-- The name of the block's segment and the number of its exported descriptor are free. -/
def Gone (os : Os) (b : VmmBlock) : Prop :=
  (0 ≤ b.shmFd → os.shmNames b.shmName = none) ∧ (0 ≤ b.exportedFd → os.files b.exportedFd = none)

lemma releaseBlock_shmNames (os : Os) (b : VmmBlock) : (releaseBlock os b).1.shmNames =
    if 0 ≤ b.shmFd then Function.update os.shmNames b.shmName none else os.shmNames := by
  by_cases h : 0 ≤ b.shmFd <;> simp [releaseBlock, releaseMetadata, Os.shmUnlink, h]

lemma releaseBlock_files (os : Os) (b : VmmBlock) : (releaseBlock os b).1.files =
    if 0 ≤ b.exportedFd then Function.update os.files b.exportedFd none else os.files := by
  by_cases h : 0 ≤ b.shmFd <;> simp [releaseBlock, releaseMetadata, Os.shmUnlink, h]

lemma update_none_of_none {α β : Type*} [DecidableEq α] {f : α → Option β} {x : α}
    (h : f x = none) (y : α) : Function.update f y none x = none := by
  by_cases hx : x = y
  · rw [hx, Function.update_self]
  · rwa [Function.update_of_ne hx]

lemma releaseBlock_gone (os : Os) (b : VmmBlock) : Gone (releaseBlock os b).1 b := by
  constructor
  · intro h
    rw [releaseBlock_shmNames, if_pos h, Function.update_self]
  · intro h
    rw [releaseBlock_files, if_pos h, Function.update_self]

lemma Gone.release {c : VmmBlock} (h : Gone os c) (b : VmmBlock) :
    Gone (releaseBlock os b).1 c := by
  constructor
  · intro hc
    rw [releaseBlock_shmNames]
    split
    · exact update_none_of_none (h.1 hc) _
    · exact h.1 hc
  · intro hc
    rw [releaseBlock_files]
    split
    · exact update_none_of_none (h.2 hc) _
    · exact h.2 hc

lemma Gone.releaseBlocks {c : VmmBlock} (h : Gone os c) (blocks : List VmmBlock) :
    Gone (releaseBlocks os blocks).1 c := by
  induction blocks generalizing os with
  | nil => exact h
  | cons b blocks ih => exact ih (h.release b)

lemma releaseBlocks_gone (os : Os) {blocks : List VmmBlock} {b : VmmBlock} (hb : b ∈ blocks) :
    Gone (releaseBlocks os blocks).1 b := by
  induction blocks generalizing os with
  | nil => exact nomatch hb
  | cons c blocks ih =>
    obtain rfl | hb := List.mem_cons.mp hb
    · exact (releaseBlock_gone os b).releaseBlocks blocks
    · exact ih (releaseBlock os c).1 hb

/-- A block that nobody has imported becomes ready with time. -/
lemma ready_eventually (os : Os) (blocks : List VmmBlock) (h : ∀ b ∈ blocks, ∀ seg,
    b.ipcMeta = some seg → ¬ 0 < (os.segments seg).refcount) :
    ∃ t, ∀ now, t ≤ now → blocks.all (isBlockReady os now) = true := by
  induction blocks with
  | nil => exact ⟨0, fun _ _ => rfl⟩
  | cons b blocks ih =>
    obtain ⟨t, ht⟩ := ih fun c hc => h c (List.mem_cons_of_mem b hc)
    cases hb : b.ipcMeta with
    | none => exact ⟨t, fun now hle => by simp [isBlockReady, hb, ht now hle]⟩
    | some seg =>
      have hcount := h b List.mem_cons_self seg hb
      refine ⟨max t ((os.segments seg).publishTimestampUs + gracePeriodUs), fun now hle => ?_⟩
      have hrest := ht now (le_of_max_le_left hle)
      have hgrace := le_of_max_le_right hle
      have hready : isBlockReady os now b = true := by
        simp only [isBlockReady, hb]
        rw [if_neg hcount]
        split_ifs with hzero hearly
        · rfl
        · omega
        · exact decide_eq_true (by omega)
      rw [List.all_cons, hready, hrest]
      rfl

lemma probeVmmIpc_settled (env : CreateEnv) : Ledger.Settled (probeVmmIpc env).2 := by
  unfold probeVmmIpc
  cases env.probeCreate with
  | none => rfl
  | some a => cases env.probeExport <;> simp [Ledger.Settled, Ledger.holds]

/-- `create` keeps a pool that exists, and retains nothing but an empty one. -/
lemma create_cases (pool : Option CudaMemoryPool) (env : CreateEnv) :
    Ledger.Settled (create pool env).2.1 ∧
      ((create pool env).1 = pool ∨
        ∃ p, pool = none ∧ (create pool env).1 = some p ∧ p.allBlocks = []) := by
  unfold create
  cases pool with
  | some p => exact ⟨rfl, .inl rfl⟩
  | none =>
    cases env.cuInit with
    | false => exact ⟨rfl, .inl rfl⟩
    | true =>
      cases env.cudaGetDevice with
      | none => exact ⟨rfl, .inl rfl⟩
      | some device =>
        cases env.cudaFree with
        | false => exact ⟨rfl, .inl rfl⟩
        | true =>
          cases reported env.exportableGranularity with
          | some g => exact ⟨probeVmmIpc_settled env, .inr ⟨_, rfl, rfl, rfl⟩⟩
          | none =>
            cases reported env.plainGranularity with
            | none => exact ⟨rfl, .inl rfl⟩
            | some g => exact ⟨rfl, .inr ⟨_, rfl, rfl, rfl⟩⟩

lemma exportBlock_holds (os : Os) (env : CreateBlockEnv) {b : VmmBlock} (hfd : b.exportedFd = -1)
    (hshm : b.shmFd = -1) (hmeta : b.ipcMeta = none) :
    Ledger.holds (resources b) (exportBlock os env b).2.2 =
        some (resources (exportBlock os env b).2.1) ∧
      (exportBlock os env b).2.1.shmFd = -1 ∧ (exportBlock os env b).2.1.ipcMeta = none := by
  unfold exportBlock
  cases env.cuMemExportToShareableHandle with
  | none => exact ⟨rfl, hshm, hmeta⟩
  | some fd => exact ⟨by simp [Ledger.holds, resources, hfd, hshm, hmeta], hshm, hmeta⟩

lemma createMetadata_holds (os : Os) (pid : ℤ) (env : CreateBlockEnv) {b : VmmBlock}
    (hshm : b.shmFd = -1) (hmeta : b.ipcMeta = none) :
    Ledger.holds (resources b) (createMetadata os pid env b).2.2 =
      some (resources (createMetadata os pid env b).2.1) := by
  unfold createMetadata
  cases env.shmOpen with
  | none => rfl
  | some fd =>
    cases env.ftruncate <;> cases env.mmap <;> simp [Ledger.holds, resources, hshm, hmeta]

lemma exportIpc_holds (os : Os) (pid : ℤ) (env : CreateBlockEnv) {b : VmmBlock}
    (hfd : b.exportedFd = -1) (hshm : b.shmFd = -1) (hmeta : b.ipcMeta = none) :
    Ledger.holds (resources b) (exportIpc os pid env b).2.2 =
      some (resources (exportIpc os pid env b).2.1) := by
  obtain ⟨hexport, hshm, hmeta⟩ := exportBlock_holds os env hfd hshm hmeta
  have hcreate := createMetadata_holds (exportBlock os env b).1 pid env hshm hmeta
  have hlog : (exportIpc os pid env b).2.2 = (exportBlock os env b).2.2 ++
      (createMetadata (exportBlock os env b).1 pid env (exportBlock os env b).2.1).2.2 := rfl
  rw [hlog, Ledger.holds_append, hexport, Option.bind_some, hcreate]
  rfl

lemma createBlock_holds (os : Os) (pid : ℤ) (pool : CudaMemoryPool) (env : CreateBlockEnv) (n : ℕ)
    {b : VmmBlock}
    (hb : (createBlock os pid pool env n).pool.allBlocks = pool.allBlocks ++ [b]) :
    Ledger.holds [] (createBlock os pid pool env n).log = some (resources b) := by
  unfold createBlock at hb ⊢
  cases hc : env.cuMemCreate with
  | none => simp [hc] at hb
  | some a =>
    cases hr : env.cuMemAddressReserve with
    | none => simp [hc, hr] at hb
    | some va =>
      cases hm : env.cuMemMap with
      | false => simp [hc, hr, hm] at hb
      | true =>
        cases ha : env.cuMemSetAccess with
        | false => simp [hc, hr, hm, ha] at hb
        | true =>
          cases hi : pool.ipcCapable with
          | false =>
            obtain rfl : _ = b := by simpa [hc, hr, hm, ha, hi] using hb
            simp [Ledger.holds, resources]
          | true =>
            let c : VmmBlock :=
              { handle := a, va := va, size := n, blockId := pool.nextBlockId }
            obtain rfl : (exportIpc os pid env c).2.1 = b := by
              simpa [hc, hr, hm, ha, hi] using hb
            have hipc := exportIpc_holds os pid env (b := c) rfl rfl rfl
            have hmapped : resources c =
                [.mapping va n, .addressRange va n, .allocationHandle a] := by
              simp [resources, c]
            rw [hmapped] at hipc
            simpa [hi, Ledger.holds] using hipc

/-- What every state of a pool's life satisfies. -/
structure Accounted (s : Life) : Prop where
  held : s.destroyed = false → ∃ held, Ledger.holds [] s.log = some held ∧
    held.Perm (s.blocks.flatMap resources)
  addresses : ∀ b ∈ s.blocks, b.va ≠ 0 ∧ b.handle ≠ 0
  settled : s.destroyed = true → Ledger.Settled s.log ∧ ∀ b ∈ s.blocks, Gone s.os b

def account (b : VmmBlock) : List Resource × ℕ × ℕ := (resources b, b.va, b.handle)

/-- The blocks hold what they held before. -/
lemma Accounted.same (h : Accounted s) (hd : s.destroyed = false) (hu : u.destroyed = false)
    (log : List (Action Resource)) (hlog : u.log = s.log ++ log) (hsettled : Ledger.Settled log)
    (hblocks : u.blocks.map account = s.blocks.map account) : Accounted u := by
  refine ⟨fun _ => ?_, ?_, fun htrue => absurd (hu.symm.trans htrue) nofun⟩
  · obtain ⟨held, hheld, hperm⟩ := h.held hd
    refine ⟨held, ?_, ?_⟩
    · rw [hlog, Ledger.holds_append, hheld, Option.bind_some]
      simpa using Ledger.holds_frame hsettled held
    · have hmap := congrArg (fun l => (l.map Prod.fst).flatten) hblocks
      simp only [List.map_map] at hmap
      exact hperm.trans (.of_eq hmap.symm)
  · intro b hb
    have hmem : account b ∈ s.blocks.map account := hblocks ▸ List.mem_map_of_mem hb
    obtain ⟨c, hc, he⟩ := List.mem_map.mp hmem
    obtain ⟨-, hva, hhandle⟩ : resources c = resources b ∧ c.va = b.va ∧ c.handle = b.handle := by
      simpa [account] using he
    exact hva ▸ hhandle ▸ h.addresses c hc

/-- A block is added with what was acquired for it. -/
lemma Accounted.append (h : Accounted s) (hd : s.destroyed = false) (hu : u.destroyed = false)
    {log : List (Action Resource)} (hlog : u.log = s.log ++ log) {b : VmmBlock}
    (hacquired : Ledger.holds [] log = some (resources b)) (hblocks : u.blocks = s.blocks ++ [b])
    (hva : b.va ≠ 0) (hhandle : b.handle ≠ 0) : Accounted u := by
  refine ⟨fun _ => ?_, ?_, fun htrue => absurd (hu.symm.trans htrue) nofun⟩
  · obtain ⟨held, hheld, hperm⟩ := h.held hd
    refine ⟨resources b ++ held, ?_, ?_⟩
    · rw [hlog, Ledger.holds_append, hheld, Option.bind_some]
      exact Ledger.holds_frame hacquired held
    · rw [hblocks, List.flatMap_append, List.flatMap_singleton]
      exact List.perm_append_comm.trans (hperm.append_right _)
  · intro c hc
    rw [hblocks] at hc
    obtain hc | hc := List.mem_append.mp hc
    · exact h.addresses c hc
    · obtain rfl := List.mem_singleton.mp hc
      exact ⟨hva, hhandle⟩

lemma map_modify {α β : Type*} {g : α → β} {f : α → α} (hf : ∀ x, g (f x) = g x) (l : List α)
    (r : ℕ) : (l.modify r f).map g = l.map g := by
  apply List.ext_getElem?
  intro i
  rw [List.getElem?_map, List.getElem?_map, List.getElem?_modify]
  cases l[i]? with
  | none => rfl
  | some x => by_cases h : r = i <;> simp [h, hf]

lemma Accounted.allocate (h : Accounted s) (hd : s.destroyed = false) (hu : u.destroyed = false)
    (hp : s.pool = some pool) {now byteSize : ℕ} {env : CreateBlockEnv}
    (hnull : env.cuMemCreate ≠ some 0 ∧ env.cuMemAddressReserve ≠ some 0)
    (hlog : u.log = s.log ++ (allocate s.os pid pool now env byteSize).log)
    (hpool : u.pool = some (CudaMemoryPool.allocate s.os pid pool now env byteSize).pool) :
    Accounted u := by
  have hblocks : ∀ {p}, u.pool = some p → u.blocks = p.allBlocks := fun he => by
    simp [Life.blocks, he]
  have hold : s.blocks = pool.allBlocks := by simp [Life.blocks, hp]
  obtain ⟨key, vec, i, r, -, ha⟩ | ⟨-, ha⟩ := allocate_cases s.os pid pool now env byteSize
  · rw [ha] at hlog hpool
    refine h.same hd hu _ hlog rfl ?_
    rw [hblocks hpool, hold]
    exact (congrArg (fun p => p.allBlocks.map account) (takeBlock_pool s.os pool key vec i r)).trans
      (map_modify (g := account) (f := fun b => { b with currentUid := 0 }) (fun _ => rfl) _ _)
  · rw [ha] at hlog hpool
    obtain ⟨log, expr, he, hsettled, -⟩ | ⟨b, os', log, he, hb⟩ :=
      createBlock_cases s.os pid pool env (pool.roundToGranularity byteSize)
    · rw [he] at hlog hpool
      refine h.same hd hu _ hlog hsettled ?_
      rw [hblocks hpool, hold]
    · have hacquired := createBlock_holds s.os pid pool env (pool.roundToGranularity byteSize)
        (b := b) (by rw [he])
      refine h.append hd hu hlog hacquired ?_ ?_ ?_
      · rw [hblocks hpool, hold, he]
      · exact fun hzero => hnull.2 (hzero ▸ hb.va)
      · exact fun hzero => hnull.1 (hzero ▸ hb.handle)

lemma step_accounted (h : Accounted s) (hnull : NonNull e) (hs : step pid s e = some (o, u)) :
    Accounted u := by
  have hd : s.destroyed = false := by
    cases hd : s.destroyed with
    | false => rfl
    | true => simp [step, hd] at hs
  rw [step.eq_def, if_neg (by simp [hd])] at hs
  cases e with
  | create env =>
    have hu : { s with pool := (create s.pool env).1, log := s.log ++ (create s.pool env).2.1 } =
        u := (Prod.mk.inj (Option.some.inj hs)).2
    obtain ⟨hsettled, hpool⟩ := create_cases s.pool env
    subst hu
    refine h.same hd hd _ rfl hsettled ?_
    obtain hsame | ⟨p, hnone, hp, hempty⟩ := hpool
    · simp [Life.blocks, hsame]
    · rw [hnone] at hp
      simp [Life.blocks, hnone, hp, hempty]
  | act e =>
    cases hp : s.pool with
    | none => simp [hp] at hs
    | some pool =>
      simp only [hp] at hs
      obtain ⟨x, hx, he⟩ := Option.map_eq_some_iff.mp hs
      obtain ⟨-, rfl⟩ := Prod.mk.inj he
      cases e with
      | allocate byteSize now env =>
        obtain rfl := Option.some.inj hx
        exact h.allocate hd hd hp hnull rfl rfl
      | free r =>
        simp only [PoolPartition.step] at hx
        split_ifs at hx
        obtain rfl := Option.some.inj hx
        refine h.same hd hd [] rfl rfl ?_
        simp [Life.blocks, hp, CudaMemoryPool.free]
      | perturb segments =>
        obtain rfl := Option.some.inj hx
        refine h.same hd hd [] rfl rfl ?_
        simp [Life.blocks, hp]
  | assignUid r now drawn =>
    cases hp : s.pool with
    | none => simp [hp] at hs
    | some pool =>
      simp only [hp] at hs
      split_ifs at hs
      obtain ⟨-, rfl⟩ := Prod.mk.inj (Option.some.inj hs)
      refine h.same hd hd [] (List.append_nil _).symm rfl ?_
      by_cases hu : (pool.block r).currentUid = 0
      · simp only [assignUid_drawn s.os now drawn hu, Life.blocks, hp, Option.elim_some]
        exact map_modify (g := account) (f := fun b => { b with currentUid := drawn })
          (fun _ => rfl) _ _
      · simp [assignUid_kept s.os now drawn hu, Life.blocks, hp]
  | destroy now =>
    dsimp only at hs
    split_ifs at hs with hout hready
    · obtain ⟨-, rfl⟩ := Prod.mk.inj (Option.some.inj hs)
      refine ⟨(by rintro ⟨⟩), h.addresses, fun _ => ⟨?_, fun b hb => releaseBlocks_gone s.os hb⟩⟩
      obtain ⟨held, hheld, hperm⟩ := h.held hd
      have hall : held.Perm (s.blocks.flatMap resources ++ []) :=
        hperm.trans (.of_eq (List.append_nil _).symm)
      obtain ⟨rest, hrest, hnil⟩ := Ledger.holds_release_some hall
      rw [Ledger.Settled, Ledger.holds_append, hheld, Option.bind_some,
        releaseBlocks_log h.addresses, hrest, List.perm_nil.mp hnil]
    · obtain ⟨-, rfl⟩ := Prod.mk.inj (Option.some.inj hs)
      exact h

structure Balanced (pid : ℤ) (s : Life) : Prop where
  held : s.destroyed = false → ∃ held, Ledger.holds [] s.log = some held ∧
    held.Perm (s.blocks.flatMap resources)
  settled : s.destroyed = true → Ledger.Settled s.log ∧ ∀ b ∈ s.blocks, Gone s.os b
  ends : s.destroyed = false → s.handedOut = [] → (∀ b ∈ s.blocks, ∀ seg, b.ipcMeta = some seg →
    ¬ 0 < (s.os.segments seg).refcount) → ∃ t, ∀ now, t ≤ now →
      ∃ u, step pid s (.destroy now) = some (.destroyed, u)

theorem pool_life_balanced (hr : Run (step pid) { os := os } tr s)
    (hnull : ∀ x ∈ tr, NonNull x.1) : Balanced pid s := by
  have h : Accounted s := by
    induction hr with
    | nil => exact ⟨fun _ => ⟨[], rfl, .nil⟩, nofun, nofun⟩
    | snoc _ hs ih =>
      refine step_accounted (ih fun x hx => hnull x (List.mem_append_left _ hx)) ?_ hs
      exact hnull _ (List.mem_append_right _ List.mem_cons_self)
  refine ⟨h.held, h.settled, fun hd hout hcounts => ?_⟩
  obtain ⟨t, ht⟩ := ready_eventually s.os s.blocks hcounts
  exact ⟨t, fun now hle => ⟨_, by simp [step, hd, hout, ht now hle]; rfl⟩⟩

/-- `create` succeeds at the second attempt; of three blocks one cannot be mapped. -/
theorem pool_life_balanced_once : ∃ tr s, Run (step 7) {} tr s ∧ s.blocks.length = 2 ∧
    s.destroyed = true ∧ Balanced 7 s := by
  let working : CreateEnv :=
    { cuInit := true, cudaGetDevice := some 0, cudaFree := true,
      exportableGranularity := some 4096, plainGranularity := none, probeCreate := some 9,
      probeExport := some 3 }
  let evs : List Event := [.create { working with cudaFree := false }, .create working,
    .act (.allocate 100 5 (PoolPartition.workingEnv 3 8192 1)),
    .act (.allocate 100 5 { PoolPartition.workingEnv 5 16384 2 with cuMemMap := false }),
    .act (.allocate 9000 5 (PoolPartition.workingEnv 5 32768 3)), .assignUid 0 20 41,
    .act (.free 0), .act (.free 1), .destroy 50, .destroy 200000]
  have hlast : (exec (step 7) {} evs).any (fun x => x.2.destroyed &&
      decide (x.2.blocks.length = 2) && decide (∀ y ∈ x.1, NonNull y.1)) = true := by
    decide +kernel
  obtain ⟨⟨tr, s⟩, hx, hlast⟩ := Option.any_eq_true _ _ |>.mp hlast
  simp only [Bool.and_eq_true, decide_eq_true_eq] at hlast
  obtain ⟨⟨hdestroyed, hlength⟩, hnull⟩ := hlast
  exact ⟨tr, s, exec_run hx, hlength, hdestroyed, pool_life_balanced (exec_run hx) hnull⟩

end RosidlBufferBackends.Cuda.PoolLifetime
