import RosidlBufferBackends.Cuda.Restarts

/-! What a subscriber's cache entry refers to: the block of the running process, or a
block of a process that had the pid before. -/

namespace RosidlBufferBackends.Cuda.Restarts

open CudaMemoryPool CudaVmmIPCManager CudaBufferBackend Runs

variable {s u : Cluster} {e : Event} {o : Output} {pid : ℤ} {P : Publisher}

/-- The invariant of one running publisher process. -/
structure Sound (pid : ℤ) (s : Cluster) (P : Publisher) : Prop where
  partition : PoolPartition.Partition (s.view P).toState
  offers : Exchange.Offers pid (s.view P)
  faithful : P.pool.ipcCapable = true → RoundTrip.Faithful pid (s.view P)
  capable : P.pool.ipcCapable = true ∨
    P.published = [] ∧ P.pool.registeredBlocks = fun _ => none
  separate : Exchange.Separate (s.view P)
  shown : Exchange.Shown (s.view P)
  named : ∀ b ∈ P.pool.allBlocks, Exchange.Named pid b
  since_le : P.since ≤ s.allocations
  handles : ∀ r < P.pool.allBlocks.length,
    P.since ≤ (P.pool.block r).handle ∧ (P.pool.block r).handle < s.allocations

/-- The entry maps the allocation and the segment of the process's block. -/
structure Refers (P : Publisher) (id : ℕ) (entry : CachedImport) : Prop where
  lt : id < P.pool.allBlocks.length
  handle : entry.handle = (P.pool.block id).handle
  ipcMeta : entry.ipcMeta = (P.pool.block id).ipcMeta

structure Coherent (s : Cluster) : Prop where
  sound : ∀ pid P, s.processes pid = some P → Sound pid s P
  owner : ∀ pid pid' P P' r r' seg, s.processes pid = some P → s.processes pid' = some P' →
    (s.view P).Owns r seg → (s.view P').Owns r' seg → pid = pid'
  served : ∀ pid id a, s.os.sockets (socketName pid id) = some a →
    ∃ P, s.processes pid = some P ∧ (P.pool.registeredBlocks id).isSome
  cached : ∀ sub pid id entry, s.caches sub (pid, id) = some entry →
    entry.handle < s.allocations ∧
      ∀ P, s.processes pid = some P → P.since ≤ entry.handle → Refers P id entry
  past : ∀ d ∈ s.past,
    d.importArgs.socketPath = socketName d.importArgs.pid d.importArgs.blockId

/-- The steps of other processes leave a process's names, sockets and segments alone. -/
lemma Sound.frame (h : Sound pid s P)
    (hn : ∀ id, u.os.shmNames (shmName pid id) = s.os.shmNames (shmName pid id))
    (hk : ∀ id, u.os.sockets (socketName pid id) = s.os.sockets (socketName pid id))
    (ha : s.allocations ≤ u.allocations) (hx : s.os.nextSegment ≤ u.os.nextSegment)
    (hu : ∀ r seg, (s.view P).Owns r seg → (u.os.segments seg).uid = (s.os.segments seg).uid) :
    Sound pid u P := by
  refine ⟨h.partition.congr rfl rfl rfl (fun _ => rfl), h.offers.congr (.refl rfl) rfl rfl, ?_,
    h.capable, ⟨h.separate.owner, ?_⟩, ?_, h.named, h.since_le.trans ha, ?_⟩
  · intro hcap
    have hf := h.faithful hcap
    refine ⟨hf.capable, hf.next, fun r hr => ?_, hf.fd_inj, hf.apart, fun r hr => ?_, hf.start,
      hf.cached, hf.own⟩
    · have he := hf.exported r hr
      exact ⟨he.blockId, he.fd, he.file, he.mapped, (hn r).trans he.name, he.range⟩
    · obtain ⟨hlt, hserved⟩ := hf.served r hr
      exact ⟨hlt, (hk r).trans hserved⟩
  · intro r seg ho
    exact (h.separate.allocated r seg ho).trans_le hx
  · intro r seg ho huid
    exact (hu r seg ho).trans (h.shown r seg ho huid)
  · intro r hr
    obtain ⟨hsince, hlt⟩ := h.handles r hr
    exact ⟨hsince, hlt.trans_le ha⟩

lemma Sound.same_os (h : Sound pid s P) (hos : u.os = s.os)
    (ha : s.allocations ≤ u.allocations) : Sound pid u P := by
  apply h.frame (fun _ => by rw [hos]) (fun _ => by rw [hos]) ha (by rw [hos])
  intro r seg _
  rw [hos]

lemma Sound.counted (h : Sound pid s P) (ipcMeta : Option ℕ) {f : IPCMetadata → IPCMetadata}
    (hf : ∀ m, (f m).uid = m.uid) (hos : u.os = s.os.onMeta ipcMeta f)
    (ha : u.allocations = s.allocations) : Sound pid u P := by
  refine h.frame (fun _ => by simp [hos]) (fun _ => by simp [hos]) ha.ge (by simp [hos]) ?_
  intro r seg _
  rw [hos]
  exact Staleness.onMeta_uid s.os ipcMeta hf seg

lemma sound_initial (pid : ℤ) (s : Cluster) (granularity : ℕ) (hg : 0 < granularity)
    (deviceId : ℤ) (ipcCapable : Bool) :
    Sound pid s (.initial granularity hg deviceId ipcCapable s.allocations) := by
  refine ⟨(PoolPartition.partition_initial granularity hg deviceId ipcCapable).congr rfl rfl rfl
    (fun _ => rfl), ⟨?_, ?_⟩, ?_, .inr ⟨rfl, rfl⟩, ⟨?_, ?_⟩, ?_, ?_, le_rfl, ?_⟩
  · simp [Cluster.view, Publisher.initial, PoolPartition.initial]
  · simp [Cluster.view, Publisher.initial]
  · rintro rfl
    constructor <;> simp [Cluster.view, Publisher.initial, PoolPartition.initial]
  · simp [Exchange.Owns, Cluster.view, Publisher.initial, PoolPartition.initial, block]
  · simp [Exchange.Owns, Cluster.view, Publisher.initial, PoolPartition.initial, block]
  · simp [Exchange.Shown, Exchange.Owns, Cluster.view, Publisher.initial, PoolPartition.initial,
      block]
  · simp [Publisher.initial, PoolPartition.initial]
  · simp [Publisher.initial, PoolPartition.initial]

section Acted

variable {op : Exchange.Event} {out : Exchange.Output} {x : Exchange}

lemma static_handle {pool pool' : CudaMemoryPool} {r : ℕ}
    (h : (pool'.block r).static = (pool.block r).static) :
    (pool'.block r).handle = (pool.block r).handle := by
  have he := congrArg VmmBlock.handle h
  exact he

lemma static_ipcMeta {pool pool' : CudaMemoryPool} {r : ℕ}
    (h : (pool'.block r).static = (pool.block r).static) :
    (pool'.block r).ipcMeta = (pool.block r).ipcMeta := by
  have he := congrArg VmmBlock.ipcMeta h
  exact he

/-- A block of the process after its operation is an old one or new. -/
lemma owns_cases (hc : Exchange.Confined pid (s.view P) x op) {r seg : ℕ} (ho : x.Owns r seg) :
    (s.view P).Owns r seg ∨ P.pool.allBlocks.length ≤ r ∧ r < x.pool.allBlocks.length ∧
      seg = s.os.nextSegment ∧ seg < x.os.nextSegment := by
  rcases lt_or_ge r P.pool.allBlocks.length with hr | hr
  · exact .inl ((static_ipcMeta (hc.static r hr)).symm.trans ho)
  · exact .inr ⟨hr, ho.lt, (hc.new r ho.lt hr).segment seg ho⟩

lemma Sound.acted (h : Sound pid s P) (hm : NewMemory s P op)
    (hw : P.pool.ipcCapable = true → RoundTrip.Working (s.view P) op out)
    (hpub : Exchange.ofPublisher op = true)
    (hs : Exchange.step pid (s.view P) op = some (out, x)) :
    Sound pid (s.acted pid P op x) (P.after x) := by
  have hc := Exchange.step_confined hpub hs
  have hcap : x.pool.ipcCapable = P.pool.ipcCapable := RoundTrip.step_ipcCapable hs
  have hp := Exchange.step_partition h.partition hs
  have hshown := Exchange.step_shown h.partition h.separate h.shown hpub hs
  refine ⟨hp.congr rfl rfl rfl (fun _ => rfl), ?_, ?_, ?_, ⟨?_, ?_⟩, hshown,
    Exchange.step_named h.named hpub hs, h.since_le.trans (le_max_left _ _), ?_⟩
  · exact (Exchange.step_offers h.offers hs).congr (.refl rfl) rfl rfl
  · intro hx
    have hx' : P.pool.ipcCapable = true := hcap.symm.trans hx
    have hf := RoundTrip.step_faithful h.partition h.offers (h.faithful hx') (hw hx') hs
    exact hf.congr (.refl rfl) rfl rfl rfl rfl rfl rfl hc.caches.symm rfl
  · rcases hc.capable with hx | ⟨hp, hr⟩
    · exact .inl hx
    · rcases h.capable with hx | ⟨hnone, hblocks⟩
      · exact .inl (hcap.trans hx)
      · exact .inr ⟨hp.trans hnone, hr.trans hblocks⟩
  · intro r r' seg ho ho'
    rcases owns_cases hc ho with hold | ⟨hle, hlt, hseg, _⟩ <;>
      rcases owns_cases hc ho' with hold' | ⟨hle', hlt', hseg', _⟩
    · exact h.separate.owner r r' seg hold hold'
    · exact absurd hseg' (h.separate.allocated r seg hold).ne
    · exact absurd hseg (h.separate.allocated r' seg hold').ne
    · have hlen : x.pool.allBlocks.length ≤ P.pool.allBlocks.length + 1 := hc.le_length
      omega
  · intro r seg ho
    rcases owns_cases hc ho with hold | ⟨_, _, _, hlt⟩
    · exact (h.separate.allocated r seg hold).trans_le hc.next_le
    · exact hlt
  · intro r hr
    rcases lt_or_ge r P.pool.allBlocks.length with hold | hnew
    · obtain ⟨hsince, hlt⟩ := h.handles r hold
      have hhandle : (x.pool.block r).handle = (P.pool.block r).handle :=
        static_handle (hc.static r hold)
      change P.since ≤ (x.pool.block r).handle ∧ (x.pool.block r).handle < _
      rw [hhandle]
      exact ⟨hsince, hlt.trans_le (le_max_left _ _)⟩
    · obtain ⟨byteSize, now, env, rfl, hnone, hcreate⟩ := (hc.new r hr hnew).created
      have hfresh := hm hnone _ hcreate
      have hbound : (x.pool.block r).handle < handleBound (.allocate byteSize now env) := by
        simp [handleBound, hcreate]
      exact ⟨h.since_le.trans hfresh, hbound.trans_le (le_max_right _ _)⟩

lemma Refers.acted {id : ℕ} {entry : CachedImport} (h : Refers P id entry)
    (hc : Exchange.Confined pid (s.view P) x op) : Refers (P.after x) id entry := by
  refine ⟨h.lt.trans_le hc.length_le, ?_, ?_⟩
  · exact h.handle.trans (static_handle (hc.static id h.lt)).symm
  · exact h.ipcMeta.trans (static_ipcMeta (hc.static id h.lt)).symm

end Acted

lemma Sound.capable_of_registered (h : Sound pid s P) {id : ℕ}
    (hr : (P.pool.registeredBlocks id).isSome) : P.pool.ipcCapable = true := by
  rcases h.capable with hcap | ⟨_, hnone⟩
  · exact hcap
  · simp [hnone] at hr

/-- The socket of a registered block leads to the block. -/
lemma Sound.reaches (h : Sound pid s P) {id : ℕ} (hr : (P.pool.registeredBlocks id).isSome) :
    RoundTrip.Exported pid (s.view P).os (P.pool.block id) id ∧ id < P.pool.allBlocks.length ∧
      s.os.sockets (socketName pid id) = some (.serves (P.pool.block id).handle) := by
  have hf := h.faithful (h.capable_of_registered hr)
  obtain ⟨hlt, hserved⟩ := hf.served id hr
  exact ⟨hf.exported id hlt, hlt, hserved⟩

lemma Sound.serves (h : Sound pid s P) {id : ℕ} (hr : (P.pool.registeredBlocks id).isSome) :
    P.serves (socketName pid id) = true := by
  obtain ⟨path, hpath⟩ := Option.isSome_iff_exists.mp hr
  obtain ⟨hexp, hlt, _⟩ := h.reaches hr
  have hid := hexp.blockId
  have hname := (h.offers.registered id path hpath).1
  refine List.any_eq_true.mpr ⟨P.pool.block id, block_mem hlt, decide_eq_true ?_⟩
  rw [hid, hpath, hname]

lemma Sound.serves_own (h : Sound pid s P) {pid' : ℤ} {id : ℕ}
    (hs : P.serves (socketName pid' id) = true) : pid' = pid := by
  obtain ⟨b, _, hb⟩ := List.any_eq_true.mp hs
  have hname := (h.offers.registered _ _ (of_decide_eq_true hb)).1
  exact (socketName_inj hname).1

lemma Sound.unlinks_own (h : Sound pid s P) {pid' : ℤ} {id : ℕ}
    (hu : P.unlinks (shmName pid' id) = true) : pid' = pid := by
  obtain ⟨b, hb, hname⟩ := List.any_eq_true.mp hu
  obtain ⟨hfd, he⟩ := of_decide_eq_true hname
  rw [h.named b hb hfd] at he
  exact (shmName_inj he).1.symm

lemma offered_path (h : Sound pid s P) {p : Publication} (hp : p ∈ P.published) :
    p.descriptor.importArgs.socketPath =
      socketName p.descriptor.importArgs.pid p.descriptor.importArgs.blockId := by
  rw [(h.offers.offered p hp).importArgs]

lemma Coherent.path (h : Coherent s) {d : CudaBufferDescriptor} (hk : Known s d) :
    d.importArgs.socketPath = socketName d.importArgs.pid d.importArgs.blockId := by
  rcases hk with hd | ⟨pid, P, hP, p, hp, rfl⟩
  · exact h.past d hd
  · exact offered_path (h.sound pid P hP) hp

lemma coherent_started (h : Coherent s) (hnone : s.processes pid = none) (granularity : ℕ)
    (hg : 0 < granularity) (deviceId : ℤ) (ipcCapable : Bool) :
    Coherent (s.started pid (.initial granularity hg deviceId ipcCapable s.allocations)) := by
  have hcase : ∀ {pid' P}, (s.started pid (.initial granularity hg deviceId ipcCapable
      s.allocations)).processes pid' = some P →
      pid' = pid ∧ P = .initial granularity hg deviceId ipcCapable s.allocations ∨
        s.processes pid' = some P := by
    intro pid' P hP
    by_cases hx : pid' = pid
    · subst hx
      exact .inl ⟨rfl, by simpa [Cluster.started, eq_comm] using hP⟩
    · exact .inr (by simpa [Cluster.started, Function.update_of_ne hx] using hP)
  have hempty : ∀ {r seg}, ¬ (s.view (.initial granularity hg deviceId ipcCapable
      s.allocations)).Owns r seg := by
    intro r seg
    simp [Exchange.Owns, Cluster.view, Publisher.initial, PoolPartition.initial, block]
  refine ⟨?_, ?_, ?_, ?_, h.past⟩
  · intro pid' P hP
    rcases hcase hP with ⟨rfl, rfl⟩ | hP
    · exact (sound_initial pid' s granularity hg deviceId ipcCapable).same_os rfl le_rfl
    · exact (h.sound pid' P hP).same_os rfl le_rfl
  · intro pid' pid'' P P' r r' seg hP hP' ho ho'
    rcases hcase hP with ⟨rfl, rfl⟩ | hP
    · exact absurd ho hempty
    · rcases hcase hP' with ⟨rfl, rfl⟩ | hP'
      · exact absurd ho' hempty
      · exact h.owner pid' pid'' P P' r r' seg hP hP' ho ho'
  · intro pid' id a ha
    obtain ⟨P, hP, hr⟩ := h.served pid' id a ha
    refine ⟨P, ?_, hr⟩
    have hx : pid' ≠ pid := by
      rintro rfl
      simp [hnone] at hP
    simpa [Cluster.started, Function.update_of_ne hx] using hP
  · intro sub pid' id entry hentry
    obtain ⟨hlt, hrefers⟩ := h.cached sub pid' id entry hentry
    refine ⟨hlt, fun P hP hsince => ?_⟩
    rcases hcase hP with ⟨rfl, rfl⟩ | hP
    · exact absurd hlt (not_lt.mpr hsince)
    · exact hrefers P hP hsince

lemma coherent_exited (h : Coherent s) (hP : s.processes pid = some P) (destroyed : Option ℕ) :
    Coherent (s.exited pid P destroyed) := by
  have hsound := h.sound pid P hP
  have hcase : ∀ {pid' P'}, (s.exited pid P destroyed).processes pid' = some P' →
      pid' ≠ pid ∧ s.processes pid' = some P' := by
    intro pid' P' hP'
    by_cases hx : pid' = pid
    · simp [Cluster.exited, hx] at hP'
    · exact ⟨hx, by simpa [Cluster.exited, Function.update_of_ne hx] using hP'⟩
  refine ⟨?_, ?_, ?_, ?_, ?_⟩
  · intro pid' P' hP'
    obtain ⟨hx, hP'⟩ := hcase hP'
    refine (h.sound pid' P' hP').frame (fun id => ?_) (fun id => ?_) le_rfl le_rfl
      (fun _ _ _ => rfl)
    · have hu : P.unlinks (shmName pid' id) = false :=
        Bool.eq_false_iff.mpr fun hu => hx (hsound.unlinks_own hu)
      simp [Cluster.exited, hu]
    · have hs : P.serves (socketName pid' id) = false :=
        Bool.eq_false_iff.mpr fun hs => hx (hsound.serves_own hs)
      simp [Cluster.exited, hs]
  · intro pid' pid'' P' P'' r r' seg hP' hP'' ho ho'
    exact h.owner pid' pid'' P' P'' r r' seg (hcase hP').2 (hcase hP'').2 ho ho'
  · intro pid' id a ha
    by_cases hs : P.serves (socketName pid' id) = true
    · simp [Cluster.exited, hs] at ha
    · obtain ⟨P', hP', hr⟩ := h.served pid' id a (by simpa [Cluster.exited, hs] using ha)
      have hx : pid' ≠ pid := by
        rintro rfl
        obtain rfl := Option.some.inj (hP.symm.trans hP')
        exact hs (hsound.serves hr)
      exact ⟨P', by simpa [Cluster.exited, Function.update_of_ne hx] using hP', hr⟩
  · intro sub pid' id entry hentry
    obtain ⟨hlt, hrefers⟩ := h.cached sub pid' id entry hentry
    exact ⟨hlt, fun P' hP' => hrefers P' (hcase hP').2⟩
  · intro d hd
    rcases List.mem_append.mp hd with hd | hd
    · obtain ⟨p, hp, rfl⟩ := List.mem_map.mp hd
      exact offered_path hsound hp
    · exact h.past d hd

lemma coherent_acted {op : Exchange.Event} {out : Exchange.Output} {x : Exchange} (h : Coherent s)
    (hP : s.processes pid = some P) (hm : NewMemory s P op)
    (hw : P.pool.ipcCapable = true → RoundTrip.Working (s.view P) op out)
    (hpub : Exchange.ofPublisher op = true)
    (hs : Exchange.step pid (s.view P) op = some (out, x)) : Coherent (s.acted pid P op x) := by
  have hsound := h.sound pid P hP
  have hc := Exchange.step_confined hpub hs
  have hcase : ∀ {pid' P'}, (s.acted pid P op x).processes pid' = some P' →
      pid' = pid ∧ P' = P.after x ∨ pid' ≠ pid ∧ s.processes pid' = some P' := by
    intro pid' P' hP'
    by_cases hx : pid' = pid
    · subst hx
      exact .inl ⟨rfl, by simpa [Cluster.acted, eq_comm] using hP'⟩
    · exact .inr ⟨hx, by simpa [Cluster.acted, Function.update_of_ne hx] using hP'⟩
  -- a segment of another process is neither an old one of this process nor the next one
  have hother : ∀ {pid' P' r r' seg}, pid' ≠ pid → s.processes pid' = some P' →
      (s.view P').Owns r' seg → ¬ x.Owns r seg := by
    intro pid' P' r r' seg hx hP' ho' ho
    rcases owns_cases hc ho with hold | ⟨_, _, hseg, _⟩
    · exact hx (h.owner pid' pid P' P r' r seg hP' hP ho' hold)
    · exact absurd hseg ((h.sound pid' P' hP').separate.allocated r' seg ho').ne
  refine ⟨?_, ?_, ?_, ?_, h.past⟩
  · intro pid' P' hP'
    rcases hcase hP' with ⟨rfl, rfl⟩ | ⟨hx, hP'⟩
    · exact hsound.acted hm hw hpub hs
    · have hsound' := h.sound pid' P' hP'
      refine hsound'.frame (fun id => ?_) (fun id => ?_) (le_max_left _ _) hc.next_le ?_
      · exact hc.names _ fun id' he => hx (shmName_inj he).1
      · exact hc.sockets _ fun id' he => hx (socketName_inj he).1
      · intro r seg ho
        refine hc.uids seg (hsound'.separate.allocated r seg ho) fun r' ho' => ?_
        exact hx (h.owner pid' pid P' P r r' seg hP' hP ho ho')
  · intro pid' pid'' P' P'' r r' seg hP' hP'' ho ho'
    rcases hcase hP' with ⟨hx, rfl⟩ | ⟨hx, hold⟩ <;>
      rcases hcase hP'' with ⟨hx', rfl⟩ | ⟨hx', hold'⟩
    · exact hx.trans hx'.symm
    · exact absurd ho (hother hx' hold' ho')
    · exact absurd ho' (hother hx hold ho)
    · exact h.owner pid' pid'' P' P'' r r' seg hold hold' ho ho'
  · intro pid' id a ha
    have hafter : ∀ {P'}, s.processes pid' = some P' → (P'.pool.registeredBlocks id).isSome →
        ∃ P', (s.acted pid P op x).processes pid' = some P' ∧
          (P'.pool.registeredBlocks id).isSome := by
      intro P' hP' hr
      by_cases hx : pid' = pid
      · subst hx
        obtain rfl := Option.some.inj (hP.symm.trans hP')
        exact ⟨P.after x, by simp [Cluster.acted], hc.registered id hr⟩
      · exact ⟨P', by simpa [Cluster.acted, Function.update_of_ne hx] using hP', hr⟩
    rcases hc.served _ a ha with hold | ⟨id', he, hr⟩
    · obtain ⟨P', hP', hr⟩ := h.served pid' id a hold
      exact hafter hP' hr
    · obtain ⟨rfl, rfl⟩ := socketName_inj he
      exact ⟨P.after x, by simp [Cluster.acted], hr⟩
  · intro sub pid' id entry hentry
    obtain ⟨hlt, hrefers⟩ := h.cached sub pid' id entry hentry
    refine ⟨hlt.trans_le (le_max_left _ _), fun P' hP' hsince => ?_⟩
    rcases hcase hP' with ⟨rfl, rfl⟩ | ⟨_, hP'⟩
    · exact (hrefers P hP hsince).acted hc
    · exact hrefers P' hP' hsince

/-- A fresh import under the name of a served block maps that block. -/
lemma fresh_refers (h : Coherent s) {sub : ℕ} {env : ImportEnv} {args : ImportArgs}
    {entry : CachedImport} (hpath : args.socketPath = socketName args.pid args.blockId)
    (hi : Succeeds env) (hnone : s.caches sub (args.pid, args.blockId) = none)
    (hm : entry.ipcMeta = consulted s.os (s.caches sub) env args)
    (hsock : s.os.sockets args.socketPath = some (.serves entry.handle)) :
    ∃ P, s.processes args.pid = some P ∧ Refers P args.blockId entry := by
  rw [hpath] at hsock
  obtain ⟨P, hP, hr⟩ := h.served _ _ _ hsock
  obtain ⟨hexp, hlt, hserved⟩ := (h.sound _ P hP).reaches hr
  refine ⟨P, hP, hlt, Listener.serves.inj (Option.some.inj (hsock.symm.trans hserved)), ?_⟩
  obtain ⟨fd, hfd⟩ := Option.isSome_iff_exists.mp hi.shmOpen
  obtain ⟨seg, hseg⟩ := Option.isSome_iff_exists.mp hexp.mapped
  have hname : s.os.shmNames (shmName args.pid args.blockId) = some seg := hexp.name.trans hseg
  rw [hm, consulted, hnone, hseg]
  simp [mapMetadata, hfd, hi.mmap, hname]

lemma coherent_imported (h : Coherent s) {sub : ℕ} {env : ImportEnv} {args : ImportArgs}
    {entry : CachedImport} (hpath : args.socketPath = socketName args.pid args.blockId)
    (hi : Succeeds env) (hm : entry.ipcMeta = consulted s.os (s.caches sub) env args)
    (hentry : s.caches sub (args.pid, args.blockId) = none ∧
        s.os.sockets args.socketPath = some (.serves entry.handle) ∧
        env.cuMemAddressReserve = some entry.va ∧ entry.size = args.size ∨
      s.caches sub (args.pid, args.blockId) = some entry) :
    Coherent (s.withImport sub args entry) := by
  refine ⟨?_, h.owner, ?_, ?_, h.past⟩
  · intro pid P hP
    exact (h.sound pid P hP).counted entry.ipcMeta (f := IPCMetadata.fetchAdd)
      (fun _ => rfl) rfl rfl
  · intro pid id a ha
    exact h.served pid id a (by simpa [Cluster.withImport] using ha)
  · intro sub' pid id entry' he
    have hold : s.caches sub' (pid, id) = some entry' →
        entry'.handle < s.allocations ∧ ∀ P, s.processes pid = some P →
          P.since ≤ entry'.handle → Refers P id entry' := h.cached sub' pid id entry'
    by_cases hx : sub' = sub ∧ (pid, id) = (args.pid, args.blockId)
    · obtain ⟨rfl, hk⟩ := hx
      obtain ⟨rfl, rfl⟩ := Prod.mk.inj hk
      obtain rfl : entry = entry' := by simpa [Cluster.withImport] using he
      rcases hentry with ⟨hnone, hsock, _⟩ | hsome
      · obtain ⟨P, hP, hr⟩ := fresh_refers h hpath hi hnone hm hsock
        refine ⟨hr.handle ▸ ((h.sound _ P hP).handles _ hr.lt).2, fun P' hP' _ => ?_⟩
        exact Option.some.inj (hP.symm.trans hP') ▸ hr
      · exact hold hsome
    · refine hold ?_
      by_cases hsub : sub' = sub
      · subst hsub
        have hk : (pid, id) ≠ (args.pid, args.blockId) := fun hk => hx ⟨rfl, hk⟩
        simpa [Cluster.withImport, Function.update_of_ne hk] using he
      · simpa [Cluster.withImport, Function.update_of_ne hsub] using he

lemma coherent_counted (h : Coherent s) (ipcMeta : Option ℕ) {f : IPCMetadata → IPCMetadata}
    (hf : ∀ m, (f m).uid = m.uid) (live : List LiveImport) (waiting : List Waiting) :
    Coherent (s.counted ipcMeta f live waiting) := by
  refine ⟨?_, h.owner, ?_, h.cached, h.past⟩
  · intro pid P hP
    exact (h.sound pid P hP).counted ipcMeta hf rfl rfl
  · intro pid id a ha
    exact h.served pid id a (by simpa [Cluster.counted] using ha)

lemma step_coherent (h : Coherent s) (hw : Working s e o) (hs : step s e = some (o, u)) :
    Coherent u := by
  cases step_cases hs with
  | started hg hnone => exact coherent_started h hnone _ hg _ _
  | exited hP => exact coherent_exited h hP _
  | acted hP hpub hx =>
    obtain ⟨hm, hwork⟩ := hw _ hP
    exact coherent_acted h hP hm hwork hpub hx
  | imported _ hm hentry =>
    obtain ⟨⟨d, hk, rfl⟩, hi⟩ := hw
    exact coherent_imported h (h.path hk) hi hm hentry
  | leaked => exact coherent_counted h _ (f := IPCMetadata.fetchAdd) (fun _ => rfl) _ _
  | waiting => exact coherent_counted h _ (f := IPCMetadata.fetchAdd) (fun _ => rfl) _ _
  | notImported => exact h
  | interrupted => exact coherent_counted h _ (f := IPCMetadata.fetchSub) (fun _ => rfl) _ _
  | released => exact coherent_counted h _ (f := IPCMetadata.fetchSub) (fun _ => rfl) _ _

lemma coherent_initial : Coherent {} := by
  constructor <;> simp

end RosidlBufferBackends.Cuda.Restarts
