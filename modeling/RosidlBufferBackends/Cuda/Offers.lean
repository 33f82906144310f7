import RosidlBufferBackends.Cuda.Wiring

/-! What every descriptor that was returned says about its block. -/

namespace RosidlBufferBackends.Cuda.Exchange

open CudaMemoryPool CudaVmmIPCManager CudaBufferBackend Runs

variable {pid : ℤ} {s u : Exchange} {e : Event} {o : Output}

/-- The descriptor names the block, its socket and the uid under which it was published. -/
structure Offered (pid : ℤ) (pool : CudaMemoryPool) (p : Publication) : Prop where
  lt : p.block < pool.allBlocks.length
  socket : ValidSocketName (socketName pid (pool.block p.block).blockId)
  found : (pool.block p.block).va ≤ p.buffer.devicePtr ∧
    p.buffer.devicePtr < (pool.block p.block).va + (pool.block p.block).size
  uid : p.descriptor.ipcUid ≠ 0
  descriptor : ∃ handle, p.descriptor = describe pid p.buffer (pool.block p.block)
    (socketName pid (pool.block p.block).blockId) p.descriptor.ipcUid handle

lemma Offered.importArgs {pool : CudaMemoryPool} {p : Publication} (h : Offered pid pool p) :
    p.descriptor.importArgs =
      { socketPath := socketName pid (pool.block p.block).blockId, pid := pid,
        blockId := (pool.block p.block).blockId, size := (pool.block p.block).size,
        expectedUid := p.descriptor.ipcUid } := by
  obtain ⟨handle, hd⟩ := h.descriptor
  rw [hd]
  rfl

structure Offers (pid : ℤ) (s : Exchange) : Prop where
  registered : ∀ id socketPath, s.pool.registeredBlocks id = some socketPath →
    socketPath = socketName pid id ∧ ValidSocketName socketPath
  offered : ∀ p ∈ s.published, Offered pid s.pool p

lemma Offered.congr {pool pool' : CudaMemoryPool} {p : Publication} (h : Offered pid pool p)
    (hl : pool.allBlocks.length ≤ pool'.allBlocks.length)
    (hb : (pool'.block p.block).static = (pool.block p.block).static) : Offered pid pool' p := by
  have hid := congrArg VmmBlock.blockId hb
  have hva := congrArg VmmBlock.va hb
  have hsize := congrArg VmmBlock.size hb
  simp only [VmmBlock.static] at hid hva hsize
  obtain ⟨handle, hd⟩ := h.descriptor
  refine ⟨h.lt.trans_le hl, ?_, ?_, h.uid, handle, ?_⟩
  · rw [hid]
    exact h.socket
  · rw [hva, hsize]
    exact h.found
  · simpa only [describe, hid, hsize] using hd

lemma Offers.congr (h : Offers pid s) (hb : SameBlocks s.pool u.pool)
    (hr : u.pool.registeredBlocks = s.pool.registeredBlocks) (hp : u.published = s.published) :
    Offers pid u := by
  refine ⟨fun id socketPath hs => h.registered id socketPath (hr ▸ hs), fun p hp' => ?_⟩
  exact (h.offered p (hp ▸ hp')).congr hb.length.ge (hb.static p.block)

lemma registerBlock_socketName (h : Offers pid s) {env : RegisterEnv} {r : ℕ} {os : Os}
    {pool : CudaMemoryPool} {socketPath : String}
    (hreg : registerBlock s.os pid s.pool env r = (os, pool, .ok socketPath)) :
    socketPath = socketName pid (s.pool.block r).blockId ∧ ValidSocketName socketPath ∧
      ∀ id socketPath, pool.registeredBlocks id = some socketPath →
        socketPath = socketName pid id ∧ ValidSocketName socketPath := by
  rcases registerBlock_cases s.os pid s.pool env r with
    ⟨path, hpath, hr⟩ | ⟨_, hv, hr⟩ | ⟨_, hr⟩
  · obtain ⟨-, rfl, rfl⟩ : s.os = os ∧ s.pool = pool ∧ path = socketPath := by
      simpa using hr.symm.trans hreg
    obtain ⟨hname, hvalid⟩ := h.registered _ _ hpath
    exact ⟨hname, hvalid, h.registered⟩
  · obtain ⟨-, rfl, rfl⟩ : _ = os ∧ _ = pool ∧ _ = socketPath := by simpa using hr.symm.trans hreg
    refine ⟨rfl, hv, fun id path hpath => ?_⟩
    by_cases hid : id = (s.pool.block r).blockId
    · subst hid
      obtain rfl : socketName pid (s.pool.block r).blockId = path := by simpa using hpath
      exact ⟨rfl, hv⟩
    · exact h.registered id path (by simpa [Function.update_of_ne hid] using hpath)
  · simp [hr] at hreg

lemma uidOf_ne_zero {r drawn : ℕ} (h : drawn ≠ 0) : s.uidOf r drawn ≠ 0 := by
  rw [uidOf]
  split
  · exact h
  · assumption

lemma assigned_registeredBlocks (s : Exchange) (r now drawn : ℕ) :
    (s.assigned r now drawn).pool.registeredBlocks = s.pool.registeredBlocks := by
  by_cases hz : (s.pool.block r).currentUid = 0
  · rw [assigned_of_zero now drawn hz]
    rfl
  · rw [assigned_of_ne_zero now drawn hz]

lemma step_offers (h : Offers pid s) (hs : step pid s e = some (o, u)) : Offers pid u := by
  cases step_cases hs with
  | reused _ _ =>
    exact h.congr (sameBlocks_reused s _ _ _ _) (by simp [reused, atTime, takeBlock_pool]) rfl
  | notCreated _ _ _ => exact h.congr (.refl rfl) rfl rfl
  | @created _ _ _ _ b os _ _ _ =>
    refine ⟨h.registered, fun p hp => ?_⟩
    have ho := h.offered p hp
    have hb := created_block s b os p.block
    rw [if_neg ho.lt.ne] at hb
    exact ho.congr (by simp [created, atTime]) (congrArg VmmBlock.static hb)
  | freed _ => exact h.congr (.refl rfl) rfl rfl
  | assigned _ _ _ _ =>
    exact h.congr (sameBlocks_assigned s _ _ _) (assigned_registeredBlocks s _ _ _) rfl
  | notDescribed _ _ => exact h.congr (.refl rfl) rfl rfl
  | @described impl env now drawn r uid sockets blocks socketPath result published _ hdrawn _ _ _
      hfind _ hreg huid hres =>
    obtain ⟨hname, hvalid, hall⟩ := registerBlock_socketName h hreg
    have hsame := sameBlocks_described s sockets blocks r now drawn
    refine ⟨?_, fun p hp => ?_⟩
    · intro id path hpath
      have hblocks := assigned_registeredBlocks (s.registered sockets blocks) r now drawn
      exact hall id path (hblocks ▸ hpath)
    · have hold : ∀ p ∈ s.published, Offered pid
          ((s.registered sockets blocks).assigned r now drawn).pool p :=
        fun p hp => (h.offered p hp).congr hsame.length.ge (hsame.static p.block)
      rcases hres with ⟨_, rfl⟩ | ⟨handle, _, rfl⟩
      · exact hold p hp
      · rcases List.mem_cons.mp hp with rfl | hp
        · obtain ⟨hlt, hva⟩ := findBlockForVa_some hfind
          have hnew : Offered pid s.pool
              ⟨describe pid impl (s.pool.block r) socketPath uid handle, impl, r, now,
                now + env.elapsed⟩ :=
            ⟨hlt, hname ▸ hvalid, hva, huid ▸ uidOf_ne_zero hdrawn, handle, by rw [hname]; rfl⟩
          exact hnew.congr hsame.length.ge (hsame.static r)
        · exact hold p hp
  | imported _ _ _ => exact h.congr (.refl rfl) rfl rfl
  | leaked _ => exact h.congr (.refl rfl) rfl rfl
  | waiting _ => exact h.congr (.refl rfl) rfl rfl
  | notImported _ _ _ => exact h
  | interrupted _ => exact h.congr (.refl rfl) rfl rfl
  | released _ => exact h.congr (.refl rfl) rfl rfl

lemma run_offers {granularity : ℕ} {hg : 0 < granularity} {deviceId : ℤ} {ipcCapable : Bool}
    {tr : List (Event × Output)}
    (hr : Run (step pid) (initial granularity hg deviceId ipcCapable) tr s) : Offers pid s := by
  refine hr.invariant ⟨?_, ?_⟩ (fun _ _ _ _ h hs => step_offers h hs)
  · simp [initial, PoolPartition.initial]
  · simp [initial]

end RosidlBufferBackends.Cuda.Exchange
