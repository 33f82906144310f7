import RosidlBufferBackends.Cuda.Coherence

/-! When a subscriber can import the descriptors of a restarted publisher. -/

namespace RosidlBufferBackends.Cuda.Restarts

open CudaMemoryPool CudaVmmIPCManager CudaBufferBackend Runs

variable {s t u : Cluster} {e : Event} {o : Output} {pid : ℤ} {P : Publisher} {sub : ℕ}
  {tr : List (Event × Output)}

/-- The import returns a mapping of the allocation. -/
def Delivers (s : Cluster) (sub : ℕ) (env : ImportEnv) (args : ImportArgs) (a : ℕ) : Prop :=
  let c := CudaVmmIPCManager.importBlock s.os (s.caches sub) env args
  ∃ entry, c.result = .ok ⟨entry.va, entry.ipcMeta⟩ ∧
    c.cache (args.pid, args.blockId) = some entry ∧ entry.handle = a

/-- A successful import by the subscriber under a pid and a block id. -/
def Imports (sub : ℕ) (key : ℤ × ℕ) : Event × Output → Prop
  | (.importBlock sub' args _, .imported (.ok _)) => sub' = sub ∧ (args.pid, args.blockId) = key
  | _ => False

/-- An `allocate` of the process returns the block. -/
def Returned (pid : ℤ) (r : ℕ) : Event × Output → Prop
  | (.act pid' _, .acted o) => pid' = pid ∧ RoundTrip.Returns o r
  | _ => False

lemma run_coherent (h : Coherent s) (hr : Run step s tr t) (hw : Every step Working s tr) :
    Coherent t :=
  hr.induction_every (P := fun _ v => Coherent v) hw h
    (fun _ _ _ _ _ _ h hgood hs => step_coherent h hgood hs)

lemma withImport_caches (s : Cluster) (sub sub' : ℕ) (args : ImportArgs) (entry : CachedImport)
    (key : ℤ × ℕ) : (s.withImport sub args entry).caches sub' key =
      if sub' = sub ∧ key = (args.pid, args.blockId) then some entry else s.caches sub' key := by
  by_cases hsub : sub' = sub
  · subst hsub
    by_cases hk : key = (args.pid, args.blockId)
    · simp [Cluster.withImport, hk]
    · simp [Cluster.withImport, hk]
  · simp [Cluster.withImport, hsub]

/-- A cache entry is never changed. -/
lemma step_cached {key : ℤ × ℕ} {entry : CachedImport} (hs : step s e = some (o, u))
    (h : s.caches sub key = some entry) : u.caches sub key = some entry := by
  cases step_cases hs with
  | imported _ _ hentry =>
    rw [withImport_caches]
    split_ifs with hx
    · obtain ⟨rfl, rfl⟩ := hx
      rcases hentry with ⟨hnone, _⟩ | hsome
      · simp [hnone] at h
      · exact hsome.symm.trans h
    · exact h
  | _ => exact h

lemma step_cached_iff (hs : step s e = some (o, u)) (key : ℤ × ℕ) :
    (u.caches sub key).isSome ↔ (s.caches sub key).isSome ∨ Imports sub key (e, o) := by
  cases step_cases hs with
  | imported _ _ _ =>
    rw [withImport_caches]
    split_ifs with hx
    · obtain ⟨rfl, rfl⟩ := hx
      simp [Imports]
    · simp only [Imports]
      refine ⟨.inl, fun h => h.elim id fun h => absurd ⟨h.1.symm, h.2.symm⟩ hx⟩
  | leaked => simp [Imports, Cluster.counted]
  | waiting => simp [Imports, Cluster.counted]
  | notImported => simp [Imports]
  | interrupted => simp [Imports, Cluster.counted]
  | started _ _ => simp [Imports, Cluster.started]
  | exited _ => simp [Imports, Cluster.exited]
  | acted _ _ _ => simp [Imports, Cluster.acted]
  | released => simp [Imports, Cluster.counted]

lemma run_cached {key : ℤ × ℕ} {entry : CachedImport} (hr : Run step s tr t)
    (h : s.caches sub key = some entry) : t.caches sub key = some entry :=
  hr.invariant (P := fun v => v.caches sub key = some entry) h
    (fun _ _ _ _ h hs => step_cached hs h)

/-- A subscriber has an entry under the keys of its successful imports. -/
lemma run_cached_iff (hr : Run step {} tr s) (key : ℤ × ℕ) :
    (s.caches sub key).isSome ↔ ∃ x ∈ tr, Imports sub key x := by
  induction hr with
  | nil => simp
  | snoc _ hs ih => simp [step_cached_iff hs, ih, or_and_right, exists_or]

lemma step_process (hP : s.processes pid = some P) (hx : ∀ time, e ≠ .exit pid time)
    (hs : step s e = some (o, u)) :
    u.processes pid = some P ∨ ∃ op out x, e = .act pid op ∧ o = .acted out ∧
      Exchange.step pid (s.view P) op = some (out, x) ∧ u.processes pid = some (P.after x) := by
  cases step_cases hs with
  | @started pid' _ _ _ _ hnone =>
    have hne : pid ≠ pid' := by
      rintro rfl
      simp [hnone] at hP
    exact .inl (by simpa [Cluster.started, Function.update_of_ne hne] using hP)
  | @exited pid' time P' hP' =>
    have hne : pid ≠ pid' := fun h => hx time (h ▸ rfl)
    exact .inl (by simpa [Cluster.exited, Function.update_of_ne hne] using hP)
  | @acted pid' op P' out x hP' _ hact =>
    by_cases hne : pid = pid'
    · subst hne
      obtain rfl := Option.some.inj (hP.symm.trans hP')
      exact .inr ⟨op, out, x, rfl, rfl, hact, by simp [Cluster.acted]⟩
    · exact .inl (by simpa [Cluster.acted, Function.update_of_ne hne] using hP)
  | imported _ _ _ => exact .inl hP
  | leaked => exact .inl hP
  | waiting => exact .inl hP
  | notImported => exact .inl hP
  | interrupted => exact .inl hP
  | released => exact .inl hP

lemma run_alive (hr : Run step s tr t) (hP : s.processes pid = some P)
    (hx : ∀ x ∈ tr, ∀ time, x.1 ≠ .exit pid time) :
    ∃ P', t.processes pid = some P' ∧ P'.since = P.since := by
  induction hr with
  | nil => exact ⟨P, hP, rfl⟩
  | @snoc v w tr e o hr hs ih =>
    obtain ⟨P', hP', hsince⟩ := ih fun x hmem => hx x (List.mem_append_left _ hmem)
    rcases step_process hP' (hx (e, o) (by simp)) hs with hP' | ⟨_, _, x, _, _, _, hP'⟩
    · exact ⟨P', hP', hsince⟩
    · exact ⟨P'.after x, hP', hsince⟩

/-- The entries that a subscriber gains map blocks of the running process. -/
lemma step_cached_since {id : ℕ} {entry : CachedImport} (h : Coherent s) (hw : Working s e o)
    (hs : step s e = some (o, u)) (hP : s.processes pid = some P)
    (he : u.caches sub (pid, id) = some entry) :
    s.caches sub (pid, id) = some entry ∨ P.since ≤ entry.handle := by
  cases step_cases hs with
  | @imported sub' args env entry' _ hm hentry =>
    obtain ⟨⟨d, hk, rfl⟩, hi⟩ := hw
    rw [withImport_caches] at he
    split_ifs at he with hx
    · obtain ⟨rfl, hkey⟩ := hx
      obtain ⟨rfl, rfl⟩ := Prod.mk.inj hkey
      obtain rfl := Option.some.inj he
      rcases hentry with ⟨hnone, hsock, _⟩ | hsome
      · obtain ⟨P', hP', hr⟩ := fresh_refers h (h.path hk) hi hnone hm hsock
        obtain rfl := Option.some.inj (hP.symm.trans hP')
        exact .inr (hr.handle ▸ ((h.sound _ P hP).handles _ hr.lt).1)
      · exact .inl hsome
    · exact .inl he
  | _ => exact .inl he

lemma run_cached_since {id : ℕ} {entry : CachedImport} (hr : Run step s tr t) (h : Coherent s)
    (hw : Every step Working s tr) (hP : s.processes pid = some P)
    (hx : ∀ x ∈ tr, ∀ time, x.1 ≠ .exit pid time) (he : t.caches sub (pid, id) = some entry) :
    s.caches sub (pid, id) = some entry ∨ P.since ≤ entry.handle := by
  induction hr with
  | nil => exact .inl he
  | @snoc v w tr e o hr hs ih =>
    have hx' : ∀ x ∈ tr, ∀ time, x.1 ≠ .exit pid time :=
      fun x hmem => hx x (List.mem_append_left _ hmem)
    obtain ⟨P', hP', hsince⟩ := run_alive hr hP hx'
    rcases step_cached_since (run_coherent h hr hw.init) (hw.last hr) hs hP' he with he | hle
    · exact ih hw.init hx' he
    · exact .inr (hsince ▸ hle)

/-- The block still carries the uid of the descriptor. -/
def Current (s : Cluster) (pid : ℤ) (p : Publication) : Prop :=
  ∃ P, s.processes pid = some P ∧ RoundTrip.Current (s.view P) p

lemma step_current {p : Publication} (h : Coherent s) (hc : Current s pid p)
    (hx : ∀ time, e ≠ .exit pid time) (hr : ¬ Returned pid p.block (e, o))
    (hs : step s e = some (o, u)) : Current u pid p := by
  obtain ⟨P, hP, hcur⟩ := hc
  have hsound := h.sound pid P hP
  rcases step_process hP hx hs with hP | ⟨op, out, x, rfl, rfl, hact, hP⟩
  · exact ⟨P, hP, hcur⟩
  · refine ⟨P.after x, hP, ?_⟩
    have hnext : RoundTrip.Current x p :=
      RoundTrip.step_current hsound.partition hsound.offers hcur hact fun h => hr ⟨rfl, h⟩
    exact hnext

section Deliveries

variable {p : Publication} {env : ImportEnv}

lemma Sound.importArgs (h : Sound pid s P) (hp : p ∈ P.published) :
    (P.pool.registeredBlocks p.block).isSome ∧ p.descriptor.importArgs =
      { socketPath := socketName pid p.block, pid := pid, blockId := p.block,
        size := (P.pool.block p.block).size, expectedUid := p.descriptor.ipcUid } := by
  have hcap : P.pool.ipcCapable = true := by
    rcases h.capable with hcap | ⟨hnone, _⟩
    · exact hcap
    · simp [hnone] at hp
  have hreg := ((h.faithful hcap).start p hp).1
  have hid := (h.reaches hreg).1.blockId
  refine ⟨hreg, ?_⟩
  have hargs := (h.offers.offered p hp).importArgs
  simp only [Cluster.view] at hargs
  rwa [hid] at hargs

/-- What an import would consult, unless its entry is one of an earlier process. -/
lemma consulted_block (h : Coherent s) (hP : s.processes pid = some P) (hp : p ∈ P.published)
    (hi : Succeeds env)
    (hsince : ∀ entry, s.caches sub (pid, p.block) = some entry → P.since ≤ entry.handle) :
    consulted s.os (s.caches sub) env p.descriptor.importArgs =
      (P.pool.block p.block).ipcMeta := by
  obtain ⟨hreg, hargs⟩ := (h.sound pid P hP).importArgs hp
  obtain ⟨hexp, _, _⟩ := (h.sound pid P hP).reaches hreg
  rw [hargs]
  cases hentry : s.caches sub (pid, p.block) with
  | none =>
    obtain ⟨fd, hfd⟩ := Option.isSome_iff_exists.mp hi.shmOpen
    obtain ⟨seg, hseg⟩ := Option.isSome_iff_exists.mp hexp.mapped
    have hname : s.os.shmNames (shmName pid p.block) = some seg := hexp.name.trans hseg
    simp [consulted, hentry, mapMetadata, hfd, hi.mmap, hname, hseg]
  | some entry =>
    obtain ⟨_, hrefers⟩ := h.cached sub pid p.block entry hentry
    simp [consulted, hentry, (hrefers P hP (hsince entry hentry)).ipcMeta]

lemma current_completes (h : Coherent s) (hP : s.processes pid = some P)
    (hc : RoundTrip.Current (s.view P) p) (hi : Succeeds env)
    (hsince : ∀ entry, s.caches sub (pid, p.block) = some entry → P.since ≤ entry.handle) :
    Completes s.os (s.caches sub) env p.descriptor.importArgs := by
  have hsound := h.sound pid P hP
  obtain ⟨hreg, hargs⟩ := hsound.importArgs hc.1
  obtain ⟨hexp, _, hserved⟩ := hsound.reaches hreg
  have hoff := hsound.offers.offered p hc.1
  have hcons := consulted_block h hP hc.1 hi hsince
  have hvalid := hoff.socket
  simp only [Cluster.view] at hvalid
  rw [hexp.blockId] at hvalid
  refine ⟨fun seg hseg => .inr ?_, fun _ => ?_⟩
  · have hz : (P.pool.block p.block).currentUid ≠ 0 := hc.2 ▸ hoff.uid
    have hown : (P.pool.block p.block).ipcMeta = some seg := hcons.symm.trans hseg
    rw [hargs]
    exact (hsound.shown p.block seg hown hz).trans hc.2
  · obtain ⟨fd, second, hrecv⟩ := hi.recvmsg
    rw [hargs]
    constructor
    · exact ⟨_, fd, second, ⟨hi.socket, hvalid, hi.connect, hserved⟩, hrecv⟩
    · exact hi.cuMemImportFromShareableHandle
    · exact hi.cuMemAddressReserve
    · exact hi.cuMemMap
    · exact hi.cudaGetDevice
    · exact hi.cuMemSetAccess

lemma delivers_iff (h : Coherent s) (hP : s.processes pid = some P)
    (hc : RoundTrip.Current (s.view P) p) (hi : Succeeds env) :
    Delivers s sub env p.descriptor.importArgs (P.pool.block p.block).handle ↔
      ∀ entry, s.caches sub (pid, p.block) = some entry → P.since ≤ entry.handle := by
  have hsound := h.sound pid P hP
  obtain ⟨hreg, hargs⟩ := hsound.importArgs hc.1
  obtain ⟨_, hlt, hserved⟩ := hsound.reaches hreg
  have hkey : (p.descriptor.importArgs.pid, p.descriptor.importArgs.blockId) = (pid, p.block) := by
    rw [hargs]
  have hout := importBlock_outcome s.os (s.caches sub) env p.descriptor.importArgs
  simp only [Delivers]
  constructor
  · rintro ⟨entry, hres, hcache, hhandle⟩ entry' hentry'
    generalize importBlock s.os (s.caches sub) env p.descriptor.importArgs = c at *
    cases hout with
    | completed found log _ _ hfound =>
      obtain rfl : found = entry := by simpa using hcache
      rw [hkey] at hfound
      rcases hfound with ⟨hnone, _⟩ | hsome
      · simp [hnone] at hentry'
      · obtain rfl := Option.some.inj (hsome.symm.trans hentry')
        exact hhandle ▸ (hsound.handles _ hlt).1
    | leaked log e _ => simp at hres
    | waiting log _ => simp at hres
    | cleaned log e _ _ _ _ => simp at hres
  · intro hsince
    have hcomp := current_completes h hP hc hi hsince
    generalize importBlock s.os (s.caches sub) env p.descriptor.importArgs = c at *
    cases hout with
    | completed found log _ _ hfound =>
      refine ⟨found, rfl, Function.update_self _ _ _, ?_⟩
      rcases hfound with ⟨_, hsock, _⟩ | hsome
      · rw [hargs] at hsock
        exact Listener.serves.inj (Option.some.inj (hsock.symm.trans hserved))
      · rw [hkey] at hsome
        obtain ⟨_, hrefers⟩ := h.cached sub pid p.block found hsome
        exact (hrefers P hP (hsince found hsome)).handle
    | leaked log e hskip => exact absurd hcomp hskip.not_completes
    | waiting log hwaits => exact absurd hcomp hwaits.not_completes
    | cleaned log e hn _ _ _ => exact absurd hcomp hn

end Deliveries

lemma run_current {p : Publication} (hr : Run step s tr t) (h : Coherent s)
    (hw : Every step Working s tr) (hc : Current s pid p)
    (hx : ∀ x ∈ tr, ∀ time, x.1 ≠ .exit pid time) (hn : ∀ x ∈ tr, ¬ Returned pid p.block x) :
    Current t pid p := by
  induction hr with
  | nil => exact hc
  | @snoc v w tr e o hr hs ih =>
    have hcur := ih hw.init (fun x hmem => hx x (List.mem_append_left _ hmem))
      (fun x hmem => hn x (List.mem_append_left _ hmem))
    exact step_current (run_coherent h hr hw.init) hcur (hx (e, o) (by simp))
      (hn (e, o) (by simp)) hs

lemma process_of_start {granularity : ℕ} {deviceId : ℤ} {ipcCapable : Bool}
    (hs : step s (.start pid granularity deviceId ipcCapable) = some (o, u)) :
    u.caches = s.caches ∧ ∃ P, u.processes pid = some P ∧ P.since = s.allocations := by
  cases step_cases hs with
  | started hg _ =>
    exact ⟨rfl, .initial granularity hg deviceId ipcCapable s.allocations,
      by simp [Cluster.started], rfl⟩

lemma current_of_described {impl : CudaBufferImpl} {env : DescriptorEnv} {now drawn : ℕ}
    {a : Assignment} {d : CudaBufferDescriptor}
    (hs : step s (.act pid (.createDescriptor impl env now drawn)) =
      some (.acted (.described (some a) (.ok (some d))), u)) :
    Current u pid ⟨d, impl, a.block, now, now + env.elapsed⟩ := by
  cases step_cases hs with
  | @acted _ _ P _ x _ _ hact =>
    have hcur : RoundTrip.Current x ⟨d, impl, a.block, now, now + env.elapsed⟩ :=
      RoundTrip.current_of_described hact
    exact ⟨P.after x, by simp [Cluster.acted], hcur⟩

/-- In its life since its start the process has returned the descriptor, and
`allocate` has not returned the block again. -/
inductive Issued (pid : ℤ) : List (Event × Output) → CudaBufferDescriptor → ℕ → Prop
  | described (granularity : ℕ) (deviceId : ℤ) (ipcCapable : Bool)
    (mid post : List (Event × Output))
      (impl : CudaBufferImpl) (env : DescriptorEnv) (now drawn : ℕ) (a : Assignment)
      (d : CudaBufferDescriptor) :
      (∀ x ∈ mid ++ post, ∀ time, x.1 ≠ .exit pid time) →
      (∀ x ∈ post, ¬ Returned pid a.block x) →
      Issued pid ((.start pid granularity deviceId ipcCapable, .started) :: (mid ++
        (.act pid (.createDescriptor impl env now drawn),
          .acted (.described (some a) (.ok (some d)))) :: post)) d a.block

theorem current_import_iff (pid : ℤ) {pre life : List (Event × Output)}
    {d : CudaBufferDescriptor} {r : ℕ} {env : ImportEnv} (hr : Run step {} (pre ++ life) s)
    (hw : Every step Working {} (pre ++ life)) (hd : Issued pid life d r) (hi : Succeeds env) :
    ∃ P, s.processes pid = some P ∧
      (Delivers s sub env d.importArgs (P.pool.block r).handle ↔
        ∀ x ∈ pre, ¬ Imports sub (d.importArgs.pid, d.importArgs.blockId) x) := by
  obtain ⟨granularity, deviceId, ipcCapable, mid, post, impl, denv, now, drawn, a, d, halive,
    hpost⟩ := hd
  have hcoh := run_coherent coherent_initial hr hw
  obtain ⟨s₀, hpre, hlife⟩ := run_append_iff.mp hr
  have hcoh₀ := run_coherent coherent_initial hpre hw.init
  have hw₀ := hw.suffix hpre
  obtain ⟨s₁, hstart, hrest⟩ := run_cons_iff.mp hlife
  have hcoh₁ := step_coherent hcoh₀ (hw₀.cons hstart).1 hstart
  have hw₁ := (hw₀.cons hstart).2
  obtain ⟨t, hmid, htail⟩ := run_append_iff.mp hrest
  obtain ⟨v, hdesc, hafter⟩ := run_cons_iff.mp htail
  have hcoht := run_coherent hcoh₁ hmid hw₁.init
  have hcohv := step_coherent hcoht ((hw₁.suffix hmid).cons hdesc).1 hdesc
  have hwv := ((hw₁.suffix hmid).cons hdesc).2
  obtain ⟨hcaches, P₁, hP₁, hsince⟩ := process_of_start hstart
  -- the process and its descriptor in the last state
  obtain ⟨P, hP, hcur⟩ := run_current hafter hcohv hwv (current_of_described hdesc)
    (fun x hx => halive x (List.mem_append_right _ hx)) hpost
  have halive₁ : ∀ x ∈ mid ++ (.act pid (.createDescriptor impl denv now drawn),
      .acted (.described (some a) (.ok (some d)))) :: post, ∀ time, x.1 ≠ .exit pid time := by
    intro x hx time
    rcases List.mem_append.mp hx with hx | hx
    · exact halive x (List.mem_append_left _ hx) time
    · rcases List.mem_cons.mp hx with rfl | hx
      · exact nofun
      · exact halive x (List.mem_append_right _ hx) time
  obtain ⟨P', hP', hsince'⟩ := run_alive hrest hP₁ halive₁
  obtain rfl := Option.some.inj (hP.symm.trans hP')
  have hkey : (d.importArgs.pid, d.importArgs.blockId) = (pid, a.block) := by
    rw [((hcoh.sound pid P hP).importArgs hcur.1).2]
  refine ⟨P, hP, ?_⟩
  rw [hkey, delivers_iff hcoh hP hcur hi]
  constructor
  · intro hall x hx himp
    obtain ⟨entry, hentry⟩ := Option.isSome_iff_exists.mp
      ((run_cached_iff hpre (pid, a.block)).mpr ⟨x, hx, himp⟩)
    have hold := (hcoh₀.cached sub pid a.block entry hentry).1
    have hle := hall entry (run_cached hlife hentry)
    rw [hsince', hsince] at hle
    exact absurd hold (not_lt.mpr hle)
  · intro hnone entry hentry
    rcases run_cached_since hrest hcoh₁ hw₁ hP₁ halive₁ hentry with hold | hle
    · rw [hcaches] at hold
      obtain ⟨x, hx, himp⟩ := (run_cached_iff hpre (pid, a.block)).mp (by rw [hold]; rfl)
      exact absurd himp (hnone x hx)
    · rwa [hsince']

section Restart

open PoolPartition (workingEnv)
open Exchange (bufferAt describing importing)

/-- A process creates block 0 and publishes it. -/
def publishing (memory uid : ℕ) : List Event :=
  [.start 7 4096 0 true, .act 7 (.allocate 100 5 (workingEnv 3 8192 memory)),
    .act 7 (.createDescriptor (bufferAt 8192) describing 6 uid)]

lemma importing_succeeds (fd : ℤ) (va : ℕ) : Succeeds (importing fd va) := by
  constructor
  · rfl
  · rfl
  · rfl
  · rfl
  · exact ⟨_, _, rfl⟩
  · rfl
  · rfl
  · rfl
  · rfl
  · rfl

lemma working_creates {x : Exchange} (memory : ℕ) (hg : x.pool.granularity = 4096)
    (hb : x.pool.allBlocks = []) (hc : x.caches = fun _ _ => none) :
    RoundTrip.CreateWorks x (workingEnv 3 8192 memory) (x.pool.roundToGranularity 100) := by
  constructor
  · simp [roundToGranularity, hg]
  · rfl
  · rfl
  · intro va hva
    obtain rfl : 8192 = va := Option.some.inj hva
    exact ⟨by decide, by simp [hb], by simp [hc]⟩
  · rfl
  · rfl
  · rfl
  · intro fd hfd
    obtain rfl : 3 = fd := Option.some.inj hfd
    exact ⟨by decide, by simp [hb]⟩
  · rfl
  · rfl
  · rfl

/-- The calls of a new process succeed where it gets new memory. -/
lemma publishing_working {memory : ℕ} (uid : ℕ) (h : s.processes 7 = none)
    (hm : s.allocations ≤ memory) : EveryExec step Working s (publishing memory uid) := by
  have hstart : step s (.start 7 4096 0 true) = some (.started,
      s.started 7 (.initial 4096 (by decide) 0 true s.allocations)) := by
    simp [step, h]
  simp only [publishing, EveryExec, hstart]
  refine ⟨trivial, ?_⟩
  cases hs : step (s.started 7 (.initial 4096 (by decide) 0 true s.allocations))
      (.act 7 (.allocate 100 5 (workingEnv 3 8192 memory))) with
  | none => trivial
  | some x =>
    obtain ⟨o, t⟩ := x
    refine ⟨?_, ?_⟩
    · cases step_cases hs with
      | @acted _ _ P out x hP _ _ =>
        rintro P' hP'
        obtain rfl : Publisher.initial 4096 (by decide) 0 true s.allocations = P' := by
          simpa [Cluster.started] using hP'
        refine ⟨fun _ a ha => ?_, fun _ _ => working_creates memory rfl rfl rfl⟩
        obtain rfl : memory = a := Option.some.inj ha
        exact hm
    · cases hd : step t (.act 7 (.createDescriptor (bufferAt 8192) describing 6 uid)) with
      | none => trivial
      | some x =>
        obtain ⟨o', v⟩ := x
        refine ⟨?_, trivial⟩
        cases step_cases hd with
        | acted _ _ _ => exact fun _ _ => ⟨trivial, fun _ => ⟨rfl, rfl⟩⟩

lemma publishing_issues {memory uid : ℕ} {life : List (Event × Output)} {e : Event}
    {a : Assignment} {d : CudaBufferDescriptor}
    (hx : exec step s (publishing memory uid) = some (life, t))
    (hlast : life.getLast? = some (e, .acted (.described (some a) (.ok (some d))))) :
    Issued 7 life d a.block ∧ Known t d := by
  obtain ⟨o₁, s₁, tr₁, rfl, hstart, hx⟩ := exec_cons hx
  obtain ⟨o₂, s₂, tr₂, rfl, hallocate, hx⟩ := exec_cons hx
  obtain ⟨o₃, s₃, tr₃, rfl, hdescribe, hx⟩ := exec_cons hx
  obtain ⟨rfl, rfl⟩ : [] = tr₃ ∧ s₃ = t := by simpa [exec] using hx
  obtain ⟨rfl, rfl⟩ : _ = e ∧ o₃ = _ := by simpa using hlast
  cases step_cases hstart with
  | started _ _ =>
    refine ⟨.described 4096 0 true [_] [] _ _ _ _ a d ?_ (by simp), ?_⟩
    · simp
    · obtain ⟨P, hP, hcur⟩ := current_of_described hdescribe
      exact .inr ⟨7, P, hP, _, hcur.1, rfl⟩

lemma importing_working {d : CudaBufferDescriptor} (hd : Known s d) :
    EveryExec step Working s [.importBlock 1 d.importArgs (importing 10 32768), .exit 7 none] := by
  cases hs : step s (.importBlock 1 d.importArgs (importing 10 32768)) with
  | none => simp [EveryExec, hs]
  | some x =>
    obtain ⟨o, t⟩ := x
    simp only [EveryExec, hs]
    refine ⟨⟨⟨d, hd, rfl⟩, importing_succeeds 10 32768⟩, ?_⟩
    split
    · trivial
    · exact ⟨trivial, trivial⟩

/-- The descriptor that a run ends with. -/
def lastIssued (life : List (Event × Output)) : Option (Assignment × CudaBufferDescriptor) :=
  match life.getLast? with
  | some (_, .acted (.described (some a) (.ok (some d)))) => some (a, d)
  | _ => none

lemma lastIssued_some {life : List (Event × Output)} {x : Assignment × CudaBufferDescriptor}
    (h : lastIssued life = some x) :
    ∃ e, life.getLast? = some (e, .acted (.described (some x.1) (.ok (some x.2)))) := by
  unfold lastIssued at h
  split at h
  · rename_i e a d hlast
    obtain rfl := Option.some.inj h
    exact ⟨e, hlast⟩
  · cases h

/-- A process publishes a block that a subscriber imports, exits, and is followed by a
process with its pid that publishes a block with the same number. -/
lemma restart_run : ∃ pre life s d,
    (Run step {} (pre ++ life) s ∧ Every step Working {} (pre ++ life) ∧ Issued 7 life d 0) ∧
    (importBlock s.os (s.caches 1) (importing 20 40960) d.importArgs).result.toOption = none ∧
    (importBlock s.os (s.caches 2) (importing 20 40960) d.importArgs).result.toOption.isSome := by
  have h : (exec step {} (publishing 1 41)).any (fun x => (lastIssued x.1).any fun a =>
      (exec step x.2 [.importBlock 1 a.2.importArgs (importing 10 32768), .exit 7 none]).any
        (fun y => (y.2.processes 7).isNone && decide (y.2.allocations ≤ 2) &&
          (exec step y.2 (publishing 2 42)).any (fun z => (lastIssued z.1).any fun b =>
            decide (b.1.block = 0) &&
              (importBlock z.2.os (z.2.caches 1) (importing 20 40960)
                b.2.importArgs).result.toOption.isNone &&
              (importBlock z.2.os (z.2.caches 2) (importing 20 40960)
                b.2.importArgs).result.toOption.isSome))) = true := by decide +kernel
  obtain ⟨⟨tr₁, s₁⟩, hx₁, h⟩ := Option.any_eq_true _ _ |>.mp h
  have hw₁ := every_of_exec hx₁ (publishing_working 41 rfl (Nat.zero_le 1))
  obtain ⟨a₁, hissued₁, h⟩ := Option.any_eq_true _ _ |>.mp h
  obtain ⟨e₁, hlast₁⟩ := lastIssued_some hissued₁
  obtain ⟨⟨tr₂, s₂⟩, hx₂, h⟩ := Option.any_eq_true _ _ |>.mp h
  simp only [Bool.and_eq_true, decide_eq_true_eq, Option.isNone_iff_eq_none] at h
  obtain ⟨⟨hnone, hmemory⟩, h⟩ := h
  obtain ⟨⟨life, s⟩, hx₃, h⟩ := Option.any_eq_true _ _ |>.mp h
  obtain ⟨a₃, hissued₃, h⟩ := Option.any_eq_true _ _ |>.mp h
  obtain ⟨e₃, hlast₃⟩ := lastIssued_some hissued₃
  simp only [Bool.and_eq_true, decide_eq_true_eq, Option.isNone_iff_eq_none] at h
  obtain ⟨⟨hblock, hdropped⟩, hother⟩ := h
  have hknown := (publishing_issues hx₁ hlast₁).2
  have hw₂ := every_of_exec hx₂ (importing_working hknown)
  have hw₃ := every_of_exec hx₃ (publishing_working 42 hnone hmemory)
  have hr := (exec_run hx₁).append (exec_run hx₂)
  exact ⟨tr₁ ++ tr₂, life, s, a₃.2, ⟨hr.append (exec_run hx₃), hr.every_append (exec_run hx₃)
    ((exec_run hx₁).every_append (exec_run hx₂) hw₁ hw₂) hw₃,
    hblock ▸ (publishing_issues hx₃ hlast₃).1⟩, hdropped, hother⟩

theorem restarted_publisher_dropped : ¬ ∀ (pre life : List (Event × Output)) (s : Cluster)
    (d : CudaBufferDescriptor) (r : ℕ), Run step {} (pre ++ life) s →
    Every step Working {} (pre ++ life) → Issued 7 life d r →
    ∃ P, s.processes 7 = some P ∧
      Delivers s 1 (importing 20 40960) d.importArgs (P.pool.block r).handle := by
  intro h
  obtain ⟨pre, life, s, d, ⟨hr, hw, hd⟩, hdropped, _⟩ := restart_run
  obtain ⟨P, _, entry, hres, _⟩ := h pre life s d 0 hr hw hd
  simp [hres, Ending.toOption] at hdropped

theorem current_import_iff_restarted : ∃ (pre life : List (Event × Output)) (s : Cluster)
    (d : CudaBufferDescriptor) (P : Publisher),
    Run step {} (pre ++ life) s ∧ Issued 7 life d 0 ∧ s.processes 7 = some P ∧
      (Delivers s 2 (importing 20 40960) d.importArgs (P.pool.block 0).handle ↔
        ∀ x ∈ pre, ¬ Imports 2 (d.importArgs.pid, d.importArgs.blockId) x) := by
  obtain ⟨pre, life, s, d, ⟨hr, hw, hd⟩, _⟩ := restart_run
  obtain ⟨P, hP, hiff⟩ := current_import_iff 7 hr hw hd (importing_succeeds 20 40960)
  exact ⟨pre, life, s, d, P, hr, hd, hP, hiff⟩

end Restart

end RosidlBufferBackends.Cuda.Restarts
