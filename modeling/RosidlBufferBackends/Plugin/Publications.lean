import RosidlBufferBackends.Plugin.Publishing

/-! Exactly when `create_descriptor_with_endpoint` returns a complete descriptor or none. -/

namespace RosidlBufferBackends.Plugin.Publishing

open Registry Cuda CudaMemoryPool CudaVmmIPCManager

variable {s t : Publisher} {env : CallEnv} {gid r : ℕ} {impl : BufferImpl} {pool : CudaMemoryPool}

section Publications

open Publisher

lemma not_completes_of_error {x : Option BufferImpl} {c : Call} {e : Exception}
    (h : c.result = .error e) : ¬ Completes s x c := by
  rintro ⟨d, hd, -⟩
  exact nomatch h.symm.trans hd

lemma createFdServerSocket_ok_iff {env : RegisterEnv} {name : String} :
    createFdServerSocket env name = .ok true ↔
      env.socket = true ∧ ValidSocketName name ∧ env.bind = true ∧ env.listen = true := by
  rw [createFdServerSocket]
  by_cases hv : ValidSocketName name
  · rw [makeAbstractUnixAddr_ok hv]
    cases env.socket <;> simp [hv]
  · rw [makeAbstractUnixAddr_error hv]
    cases env.socket <;> simp [hv]

lemma registerBlock_cases (os : Os) (pid : ℤ) (pool : CudaMemoryPool) (env : RegisterEnv) (r : ℕ) :
    (¬ Registers pid pool env r ∧
      ∃ os' pool' e, registerBlock os pid pool env r = (os', pool', .error e)) ∨
    (Registers pid pool env r ∧ ∃ os' pool' socketPath,
      registerBlock os pid pool env r = (os', pool', .ok socketPath) ∧
        pool'.allBlocks = pool.allBlocks ∧
        pool'.registeredBlocks (pool.block r).blockId = some socketPath ∧
        (socketPath.isEmpty = true ↔
          pool.registeredBlocks (pool.block r).blockId = some "")) := by
  rw [registerBlock, Registers, ← createFdServerSocket_ok_iff]
  dsimp only
  cases hreg : pool.registeredBlocks (pool.block r).blockId with
  | some socketPath =>
    refine .inr ⟨(fun h => by cases h), os, pool, socketPath, rfl, rfl, hreg, ?_⟩
    rw [String.isEmpty_iff, Option.some.injEq]
  | none =>
    rcases hsocket : createFdServerSocket env (socketName pid (pool.block r).blockId) with
      e | opened
    · exact .inl ⟨(fun h => by cases h rfl), _, _, e, rfl⟩
    · cases opened with
      | false => exact .inl ⟨(fun h => by cases h rfl), _, _, _, rfl⟩
      | true =>
        have hvalid := (createFdServerSocket_ok_iff.mp hsocket).2.1
        refine .inr ⟨fun _ => rfl, _, _, _, rfl, rfl, Function.update_self .., ?_⟩
        exact ⟨fun h => absurd h hvalid.1, (fun h => by cases h)⟩

lemma writeEventHandle_cases (event : Option CudaEvent) :
    (∃ e, writeEventHandle event = .error e ∧ ∃ ev, event = some ev ∧ ev.interprocess = false) ∨
    (writeEventHandle event = .ok ((event.map CudaEvent.handle).getD zeroEventHandle) ∧
      ∀ ev, event = some ev → ev.interprocess = true) := by
  cases event with
  | none => exact .inr ⟨rfl, nofun⟩
  | some ev =>
    obtain ⟨interprocess, handle⟩ := ev
    cases interprocess with
    | false => exact .inl ⟨_, rfl, _, rfl, rfl⟩
    | true =>
      refine .inr ⟨rfl, ?_⟩
      rintro ev he
      rw [← Option.some.inj he]

lemma findBlock_lt (h : findBlockForVa pool impl.devicePtr = some r) :
    r < pool.allBlocks.length := by
  obtain ⟨hr, -⟩ := List.findIdx?_eq_some_iff_getElem.mp h
  exact hr

lemma assignUid_block (os : Os) (now drawn : ℕ) (hr : r < pool.allBlocks.length) :
    ((assignUid os pool now drawn r).2.1.block r) =
        { pool.block r with currentUid := (assignUid os pool now drawn r).2.2 } ∧
      (assignUid os pool now drawn r).2.1.registeredBlocks = pool.registeredBlocks := by
  by_cases h : (pool.block r).currentUid = 0
  · rw [assignUid_drawn os now drawn h]
    exact ⟨by rw [block_modifyBlock pool hr, if_pos rfl], rfl⟩
  · rw [assignUid_kept os now drawn h]
    exact ⟨rfl, rfl⟩

/-- What the write event of a buffer needs. -/
def Shares (s : Publisher) (env : CallEnv) (impl : BufferImpl) : Prop :=
  s.Attaches env.attach env.capability ∧
    ∀ event, impl.writeEvent = some event → event.interprocess = true

lemma describeEvent_cases (s : Publisher) (pool : CudaMemoryPool) (env : CallEnv)
    (impl : BufferImpl) (r : ℕ) (socketPath : String) (uid : ℕ) :
    (¬ Shares s env impl ∧
      ∃ e, (s.describeEvent pool env impl r socketPath uid).result = .error e) ∨
    (Shares s env impl ∧
      Grown s (s.describeEvent pool env impl r socketPath uid).publisher ∧
      (s.describeEvent pool env impl r socketPath uid).result =
        .ok (some (s.describe pool impl r socketPath uid
          ((impl.writeEvent.map CudaEvent.handle).getD zeroEventHandle)))) := by
  rw [describeEvent]
  rcases getEndpointManager_cases s env with ⟨hno, t, e, h⟩ | ⟨ha, t, manager, h, hdecided, -, -⟩
  · rw [h]
    exact .inl ⟨fun hs => hno hs.1, e, rfl⟩
  · rw [h]
    have hevent : impl.finalizeWriteHandle.writeEvent = impl.writeEvent := rfl
    rw [hevent]
    rcases writeEventHandle_cases impl.writeEvent with ⟨e, he, ev, hev, hlocal⟩ | ⟨hok, hinter⟩
    · rw [he]
      refine .inl ⟨fun hs => ?_, _, rfl⟩
      exact nomatch hlocal.symm.trans (hs.2 ev hev)
    · rw [hok]
      refine .inr ⟨⟨ha, hinter⟩, hdecided.toGrown, ?_⟩
      have hpid : t.pid = s.pid := hdecided.pid
      simp only [describe, hpid]
      rfl

/-- An exportable buffer is published unless a call on the way throws. -/
lemma publishFrom_exportable (hpool : s.pool = some pool) (he : Exportable pool impl r) :
    ((¬ Registers s.pid pool env.register r ∨
        pool.registeredBlocks (pool.block r).blockId ≠ some "" ∧ ¬ Shares s env impl) ∧
      ∃ e, (s.publishFrom pool env impl).result = .error e) ∨
    (Registers s.pid pool env.register r ∧
      (pool.registeredBlocks (pool.block r).blockId ≠ some "" → Shares s env impl) ∧
      ((s.publishFrom pool env impl).result = .ok none ∨
        ∃ d, (s.publishFrom pool env impl).result = .ok (some d) ∧
          Describes s (s.publishFrom pool env impl).publisher impl d)) := by
  have hregister : registerBlockForIpc s.os s.pid pool env.register r =
      registerBlock s.os s.pid pool env.register r := by
    apply if_neg
    rintro (hc | hx)
    · exact nomatch hc.symm.trans he.capable
    · exact absurd hx (not_lt.mpr he.exported)
  rw [publishFrom, if_neg (by simp [he.capable]), he.block]
  dsimp only
  rw [if_neg (not_lt.mpr he.exported), hregister]
  rcases registerBlock_cases s.os s.pid pool env.register r with
    ⟨hno, os, pool', e, hr⟩ | ⟨hreg, os, pool', socketPath, hr, hblocks, hpath, hempty⟩
  · rw [hr]
    exact .inl ⟨.inl hno, _, rfl⟩
  · rw [hr]
    dsimp only
    by_cases hp : socketPath.isEmpty = true
    · rw [if_pos hp]
      exact .inr ⟨hreg, fun h => absurd (hempty.mp hp) h, .inl rfl⟩
    · rw [if_neg hp]
      have hne : pool.registeredBlocks (pool.block r).blockId ≠ some "" := mt hempty.mpr hp
      have hblock : pool'.block r = pool.block r := by
        rw [CudaMemoryPool.block, CudaMemoryPool.block, hblocks]
      have hlt : r < pool'.allBlocks.length := hblocks ▸ findBlock_lt he.block
      obtain ⟨hassigned, hregistered⟩ := assignUid_block os env.now env.drawn hlt
      rw [hblock] at hassigned
      generalize assignUid os pool' env.now env.drawn r = assigned at hassigned hregistered
      obtain ⟨os', pool'', uid⟩ := assigned
      dsimp only at hassigned hregistered ⊢
      -- the manager does not depend on the blocks
      have hshares : Shares { s with
          os := os'
          pool := some pool'' } env impl ↔ Shares s env impl := by
        rw [Shares, Shares, Attaches, Attaches, Publisher.Answers, Publisher.Answers, hpool]
        simp
      rcases describeEvent_cases { s with
          os := os'
          pool := some pool'' } pool'' env impl r socketPath uid with
        ⟨hno, e, hd⟩ | ⟨hs, hgrown, hd⟩
      · exact .inl ⟨.inr ⟨hne, fun h => hno (hshares.mpr h)⟩, e, hd⟩
      · refine .inr ⟨hreg, fun _ => hshares.mp hs, .inr ⟨_, hd, ?_⟩⟩
        have hid : (pool''.block r).blockId = (pool.block r).blockId := by rw [hassigned]
        have hsize : (pool''.block r).size = (pool.block r).size := by rw [hassigned]
        refine ⟨⟨rfl, rfl, rfl⟩, ⟨rfl, rfl⟩, ⟨pool, pool'', r, hpool, hgrown.held rfl, he.block,
          hid, hsize, ?_, ?_⟩, ?_, rfl, hs.2⟩
        · change pool''.registeredBlocks (pool''.block r).blockId = some socketPath
          rw [hid, hregistered, hpath]
        · change (pool''.block r).currentUid = uid
          rw [hassigned]
        · change socketPath ≠ ""
          exact mt String.isEmpty_iff.mpr hp

lemma publishFrom_other (he : ∀ r, ¬ Exportable pool impl r) :
    (s.publishFrom pool env impl).result = .ok none := by
  rw [publishFrom]
  by_cases hc : pool.ipcCapable = false
  · rw [if_pos hc]
  · rw [if_neg hc]
    cases hf : findBlockForVa pool impl.devicePtr with
    | none => rfl
    | some r =>
      have hx : (pool.block r).exportedFd < 0 := by
        by_contra hx
        exact he r ⟨by simpa using hc, hf, not_lt.mp hx⟩
      dsimp only
      rw [if_pos hx]

/-- What a publication needs: the block's socket, and for the write event a manager and
an interprocess event. -/
def Publishable (s : Publisher) (env : CallEnv) (impl : BufferImpl) : Prop :=
  ∀ pool r, s.pool = some pool → Exportable pool impl r → Registers s.pid pool env.register r ∧
    (pool.registeredBlocks (pool.block r).blockId ≠ some "" → Shares s env impl)

lemma publishFrom_completes_iff (hpool : s.pool = some pool) :
    Completes s (some impl) (s.publishFrom pool env impl) ↔ Publishable s env impl := by
  by_cases hx : ∃ r, Exportable pool impl r
  · obtain ⟨r, hr⟩ := hx
    rcases publishFrom_exportable hpool hr with ⟨hno, e, hp⟩ | ⟨hreg, hevent, hp⟩
    · refine iff_of_false (not_completes_of_error hp) fun h => ?_
      obtain ⟨hreg, hevent⟩ := h pool r hpool hr
      rcases hno with hno | ⟨hne, hno⟩
      · exact hno hreg
      · exact hno (hevent hne)
    · refine iff_of_true ?_ ?_
      · rcases hp with hp | ⟨d, hp, hdescribes⟩
        · exact ⟨none, hp, nofun⟩
        · refine ⟨some d, hp, ?_⟩
          rintro d' he
          obtain rfl := Option.some.inj he
          exact ⟨impl, rfl, hdescribes⟩
      · intro pool' r' hpool' hr'
        obtain rfl : pool' = pool := Option.some.inj (hpool'.symm.trans hpool)
        obtain rfl : r' = r := Option.some.inj (hr'.block.symm.trans hr.block)
        exact ⟨hreg, hevent⟩
  · refine iff_of_true ⟨none, publishFrom_other fun r hr => hx ⟨r, hr⟩, nofun⟩ ?_
    intro pool' r hpool' hr
    obtain rfl : pool' = pool := Option.some.inj (hpool'.symm.trans hpool)
    exact absurd ⟨r, hr⟩ hx

/-- Without a pool no block is there to be published. -/
lemma publishable_of_none (hpool : s.pool = none) : Publishable s env impl := by
  intro pool r hs
  exact nomatch hpool.symm.trans hs

lemma publish_completes_iff : Completes s (some impl) (s.publish env impl) ↔
    (s.pool.isSome ∨ env.pool.Completes) ∧ Publishable s env impl := by
  have hcase := getOrCreateGlobalPool_cases s env.pool
  rw [publish]
  generalize s.getOrCreateGlobalPool env.pool = result at hcase
  cases hcase with
  | held hpool =>
    simp only [publishFrom_completes_iff hpool, hpool, Option.isSome_some, true_or, true_and]
  | created hpool hc hempty =>
    refine iff_of_true ⟨none, publishFrom_other fun r hr => ?_, nofun⟩
      ⟨.inr hc, publishable_of_none hpool⟩
    exact nomatch (findBlock_empty hempty _).symm.trans hr.block
  | refused hpool hno =>
    refine iff_of_false (not_completes_of_error rfl) ?_
    rintro ⟨hsome | hc, -⟩
    · rw [hpool] at hsome
      exact nomatch hsome
    · exact hno hc.succeeds
  | escaped hpool he =>
    refine iff_of_false (not_completes_of_error rfl) ?_
    rintro ⟨hsome | hc, -⟩
    · rw [hpool] at hsome
      exact nomatch hsome
    · exact absurd (hc.starts he.exports) (Option.isSome_iff_ne_none.mp he.throws)

lemma Decided.shares_iff (h : Decided s t env) : Shares t env impl ↔ Shares s env impl := by
  rw [Shares, Shares, h.attaches]

lemma Decided.publishable_iff (h : Decided s t env) :
    Publishable t env impl ↔ Publishable s env impl := by
  simp only [Publishable, h.shares_iff, h.pid]
  constructor
  · exact fun hp pool r hs hr => hp pool r (h.held hs) hr
  · exact fun hp pool r ht hr => hp pool r ((h.pool_iff hr.block).mp ht) hr

lemma Decided.describes_iff (h : Decided s t env) {u : Publisher} {d : CudaBufferDescriptor} :
    Describes t u impl d ↔ Describes s u impl d := by
  constructor
  · rintro ⟨hbuffer, hprocess, ⟨pool, pool', r, ht, hu, hblock, hid⟩, hsocket, hhandle, hinter⟩
    rw [h.pid] at hprocess
    exact ⟨hbuffer, hprocess, ⟨pool, pool', r, (h.pool_iff hblock).mp ht, hu, hblock, hid⟩,
      hsocket, hhandle, hinter⟩
  · rintro ⟨hbuffer, hprocess, ⟨pool, pool', r, hs, hu, hblock, hid⟩, hsocket, hhandle, hinter⟩
    rw [← h.pid] at hprocess
    exact ⟨hbuffer, hprocess, ⟨pool, pool', r, h.held hs, hu, hblock, hid⟩, hsocket, hhandle,
      hinter⟩

lemma Decided.completes_iff (h : Decided s t env) {x : Option BufferImpl} {c : Call} :
    Completes t x c ↔ Completes s x c := by
  simp only [Completes, h.describes_iff]

end Publications

/-- The call neither throws nor returns a half-made descriptor exactly if the manager can be
taken where it is needed, and for an accepted buffer a pool is there or can be created, and what
the block and the write event need. -/
theorem publication_completes_iff (s : Publisher) (env : CallEnv) (gid : ℕ)
    (impl : Option BufferImpl) :
    Completes s impl (s.createDescriptorWithEndpoint env gid impl) ↔
      (s.ipcDecisionCache gid = none → s.Attaches env.attach env.capability) ∧
      (s.Accepts env gid → ∀ i, impl = some i → s.Pools env gid ∧ Publishable s env i) := by
  rw [Publisher.createDescriptorWithEndpoint]
  rcases importDecision_cases s env gid with
    ⟨hnone, hno, t, e, hd⟩ | ⟨ha, decision, t, hd, haccepts, ht, hsome⟩
  · rw [hd]
    exact iff_of_false (not_completes_of_error rfl) fun h => hno (h.1 hnone)
  · rw [hd, haccepts]
    cases decision with
    | false => exact iff_of_true ⟨none, rfl, nofun⟩ ⟨ha, nofun⟩
    | true =>
      cases impl with
      | none => exact iff_of_true ⟨none, rfl, nofun⟩ ⟨ha, fun _ i h => nomatch h⟩
      | some impl =>
        dsimp only
        rw [← ht.completes_iff, publish_completes_iff, ht.publishable_iff, hsome, or_assoc]
        constructor
        · intro h
          refine ⟨ha, fun _ i hi => ?_⟩
          obtain rfl := Option.some.inj hi
          exact h
        · exact fun h => h.2 rfl impl rfl

section Cases

/-- The endpoint 5 has been found to be importable. -/
def fresh : Publisher where
  os := {}
  pid := 41
  ipcDecisionCache := fun gid => if gid = 5 then some true else none

/-- The endpoint 5 of another process is not classified yet. -/
def undecided : Publisher where
  os := {}
  pid := 41
  registry := {
    version := 1
    maxEntries := maxEndpoints
    numEntries := 1
    entries := fun _ => {
      instanceId := makeInstanceId 9 0
      gid := 5
      entityType := .subscription
      uid := 1000
      active := true
      ipcCapable := true } }

/-- A pool with IPC. -/
def pooling : PoolEnv where
  create := {
    cuInit := true
    cudaGetDevice := some 0
    cudaFree := true
    exportableGranularity := some 64
    plainGranularity := some 64
    probeCreate := some 1
    probeExport := some 8 }

/-- There is no usable device. -/
def unpooled : PoolEnv where
  create := { pooling.create with cuInit := false }

def creating : CreateBlockEnv where
  cuMemCreate := some 1
  cuMemAddressReserve := some 4096
  cuMemMap := true
  cuMemSetAccess := true
  cuMemExportToShareableHandle := some 9
  shmOpen := some 10
  ftruncate := true
  mmap := true

/-- Every call succeeds. -/
def succeeding : CallEnv where
  attach := {
    identity := ⟨41, 1, 0, 1000⟩
    gethostname := true
    shmOpen := some 0
    ftruncate := true
    mmap := true
    semOpen := some 0
    semTimedwait := true
    strerror := ""
    alive := fun _ => true }
  capability := pooling
  refresh := true
  pool := pooling
  register := {
    socket := true
    bind := true
    listen := true
    dup := true
    epollCtl := true }
  now := 7
  drawn := 77

/-- The driver refuses an interprocess event for the buffer, and its publication throws. So does
that of an empty buffer where no pool can be created. -/
theorem local_event_throws :
    (∃ impl, (allocateBufferInternal fresh pooling 1 creating ⟨none, true⟩ 16).2 = .ok impl ∧
      ((allocateBufferInternal fresh pooling 1 creating ⟨none, true⟩
        16).1.createDescriptorWithEndpoint succeeding 5 (some impl)).result =
          .error (.cudaError (.runtime "cudaIpcGetEventHandle(&event_handle, write_event)")) ∧
      ¬ Completes (allocateBufferInternal fresh pooling 1 creating ⟨none, true⟩ 16).1 (some impl)
        ((allocateBufferInternal fresh pooling 1 creating ⟨none, true⟩
          16).1.createDescriptorWithEndpoint succeeding 5 (some impl))) ∧
    (undecided.createDescriptorWithEndpoint
      { succeeding with
        capability := unpooled
        pool := unpooled } 5 (some ⟨0, 0, 0, 0, none, none⟩)).result =
          .error (.cudaError (.driver "CudaMemoryPool::create")) := by
  have hthrows : ((allocateBufferInternal fresh pooling 1 creating
      ⟨none, true⟩ 16).1.createDescriptorWithEndpoint succeeding 5
        (some ⟨16, 4096, 16, 0, some ⟨false, []⟩, none⟩)).result =
          .error (.cudaError (.runtime "cudaIpcGetEventHandle(&event_handle, write_event)")) := rfl
  exact ⟨⟨⟨16, 4096, 16, 0, some ⟨false, []⟩, none⟩, rfl, hthrows,
    not_completes_of_error hthrows⟩, rfl⟩

end Cases

end RosidlBufferBackends.Plugin.Publishing
