import RosidlBufferBackends.Cuda.Offers
import RosidlBufferBackends.Cuda.Staleness
import Mathlib.Data.Finset.Card
import Mathlib.Data.Finset.Range

/-! A descriptor leads every subscriber to the allocation behind the published
buffer: the three names of a block and the import caches agree. -/

namespace RosidlBufferBackends.Cuda.RoundTrip

open CudaMemoryPool CudaVmmIPCManager CudaBufferBackend Runs Exchange

variable {pid : ℤ} {s u : Exchange} {e : Event} {o : Output}

def Apart (va size va' size' : ℕ) : Prop := va + size ≤ va' ∨ va' + size' ≤ va

/-- The calls of `createBlock` succeed, with a range and a file that are not in use. -/
structure CreateWorks (s : Exchange) (env : CreateBlockEnv) (n : ℕ) : Prop where
  size : 0 < n
  cuMemCreate : env.cuMemCreate.isSome
  cuMemAddressReserve : env.cuMemAddressReserve.isSome
  range : ∀ va, env.cuMemAddressReserve = some va → 0 < va ∧
    (∀ r < s.pool.allBlocks.length, Apart va n (s.pool.block r).va (s.pool.block r).size) ∧
    ∀ key entry, s.caches 0 key = some entry → Apart va n entry.va entry.size
  cuMemMap : env.cuMemMap = true
  cuMemSetAccess : env.cuMemSetAccess = true
  cuMemExportToShareableHandle : env.cuMemExportToShareableHandle.isSome
  file : ∀ fd, env.cuMemExportToShareableHandle = some fd → fd < 2 ^ 31 ∧
    ∀ r < s.pool.allBlocks.length, (s.pool.block r).exportedFd ≠ fd
  shmOpen : env.shmOpen.isSome
  ftruncate : env.ftruncate = true
  mmap : env.mmap = true

/-- The calls of `importBlock` succeed; the publisher's own process reserves a
range that is not in use. -/
structure ImportWorks (s : Exchange) (sub size : ℕ) (env : ImportEnv) : Prop where
  shmOpen : env.shmOpen.isSome
  mmap : env.mmap = true
  socket : env.socket.isSome
  connect : env.connect = true
  recvmsg : ∃ fd second, env.recvmsg = .rights fd second
  cuMemImportFromShareableHandle : env.cuMemImportFromShareableHandle = true
  cuMemAddressReserve : env.cuMemAddressReserve.isSome
  range : ∀ va, env.cuMemAddressReserve = some va → 0 < va ∧ (sub = 0 →
    ∀ r < s.pool.allBlocks.length, Apart va size (s.pool.block r).va (s.pool.block r).size)
  cuMemMap : env.cuMemMap = true
  cudaGetDevice : env.cudaGetDevice = true
  cuMemSetAccess : env.cuMemSetAccess = true

/-- All calls succeed, and only descriptors that were returned are imported. -/
def Working (s : Exchange) : Event → Output → Prop
  | .allocate byteSize now env, _ =>
      findCandidate s.os s.pool now (s.pool.roundToGranularity byteSize) = none →
        CreateWorks s env (s.pool.roundToGranularity byteSize)
  | .createDescriptor _ env _ _, _ => env.register.dup = true ∧ env.register.epollCtl = true
  | .importBlock sub args env, _ =>
      (∃ p ∈ s.published, args = p.descriptor.importArgs) ∧ ImportWorks s sub args.size env
  | _, _ => True

/-- A block of a pool whose calls have all succeeded. -/
structure Exported (pid : ℤ) (os : Os) (b : VmmBlock) (r : ℕ) : Prop where
  blockId : b.blockId = r
  fd : 0 ≤ b.exportedFd ∧ b.exportedFd < 2 ^ 31
  file : os.files b.exportedFd = some b.handle
  mapped : b.ipcMeta.isSome
  name : os.shmNames (shmName pid r) = b.ipcMeta
  range : 0 < b.va ∧ 0 < b.size

structure Faithful (pid : ℤ) (s : Exchange) : Prop where
  capable : s.pool.ipcCapable = true
  next : s.pool.nextBlockId = s.pool.allBlocks.length % 2 ^ 32
  exported : ∀ r < s.pool.allBlocks.length, Exported pid s.os (s.pool.block r) r
  fd_inj : ∀ r < s.pool.allBlocks.length, ∀ r' < s.pool.allBlocks.length,
    (s.pool.block r).exportedFd = (s.pool.block r').exportedFd → r = r'
  apart : ∀ r < s.pool.allBlocks.length, ∀ r' < s.pool.allBlocks.length, r ≠ r' →
    Apart (s.pool.block r).va (s.pool.block r).size (s.pool.block r').va (s.pool.block r').size
  served : ∀ r, (s.pool.registeredBlocks r).isSome → r < s.pool.allBlocks.length ∧
    s.os.sockets (socketName pid r) = some (.serves (s.pool.block r).handle)
  start : ∀ p ∈ s.published, (s.pool.registeredBlocks p.block).isSome ∧
    p.buffer.devicePtr = (s.pool.block p.block).va
  cached : ∀ sub key entry, s.caches sub key = some entry →
    ∃ r < s.pool.allBlocks.length, key = (pid, r) ∧ entry.handle = (s.pool.block r).handle ∧
      entry.ipcMeta = (s.pool.block r).ipcMeta ∧ 0 < entry.va
  own : ∀ key entry, s.caches 0 key = some entry → 0 < entry.size ∧
    ∀ r < s.pool.allBlocks.length,
      Apart entry.va entry.size (s.pool.block r).va (s.pool.block r).size

lemma Faithful.congr (h : Faithful pid s) (hb : SameBlocks s.pool u.pool)
    (hcap : u.pool.ipcCapable = s.pool.ipcCapable)
    (hnext : u.pool.nextBlockId = s.pool.nextBlockId)
    (hreg : u.pool.registeredBlocks = s.pool.registeredBlocks) (hfiles : u.os.files = s.os.files)
    (hnames : u.os.shmNames = s.os.shmNames) (hsockets : u.os.sockets = s.os.sockets)
    (hcaches : u.caches = s.caches) (hpub : u.published = s.published) : Faithful pid u := by
  constructor
  · rw [hcap, h.capable]
  · rw [hnext, hb.length, h.next]
  · intro r hr
    have he := h.exported r (hb.length ▸ hr)
    constructor
    · rw [hb.blockId, he.blockId]
    · rw [hb.exportedFd]
      exact he.fd
    · rw [hb.exportedFd, hb.handle, hfiles]
      exact he.file
    · rw [hb.ipcMeta]
      exact he.mapped
    · rw [hb.ipcMeta, hnames]
      exact he.name
    · rw [hb.va, hb.size]
      exact he.range
  · simpa only [hb.length, hb.exportedFd] using h.fd_inj
  · simpa only [hb.length, hb.va, hb.size] using h.apart
  · simpa only [hb.length, hb.handle, hreg, hsockets] using h.served
  · simpa only [hb.va, hreg, hpub] using h.start
  · simpa only [hb.length, hb.handle, hb.ipcMeta, hcaches] using h.cached
  · simpa only [hb.length, hb.va, hb.size, hcaches] using h.own

/-- Files are distinct numbers below 2^31, so there are no more blocks than that. -/
lemma Faithful.length_le (h : Faithful pid s) : s.pool.allBlocks.length ≤ 2 ^ 31 := by
  have hmaps : ∀ r ∈ Finset.range s.pool.allBlocks.length,
      (s.pool.block r).exportedFd.toNat ∈ Finset.range (2 ^ 31) := by
    intro r hr
    have hfd := (h.exported r (Finset.mem_range.mp hr)).fd
    rw [Finset.mem_range]
    omega
  have hinj : Set.InjOn (fun r => (s.pool.block r).exportedFd.toNat)
      (Finset.range s.pool.allBlocks.length) := by
    intro r hr r' hr' he
    have hlt : r < s.pool.allBlocks.length := by simpa using hr
    have hlt' : r' < s.pool.allBlocks.length := by simpa using hr'
    have h₁ := (h.exported r hlt).fd.1
    have h₂ := (h.exported r' hlt').fd.1
    have he' : (s.pool.block r).exportedFd.toNat = (s.pool.block r').exportedFd.toNat := he
    exact h.fd_inj r hlt r' hlt' (by omega)
  have hle := Finset.card_le_card_of_injOn _ hmaps hinj
  rwa [Finset.card_range, Finset.card_range] at hle

lemma faithful_registered (h : Faithful pid s) {env : RegisterEnv} {r : ℕ}
    (hr : r < s.pool.allBlocks.length) (hdup : env.dup = true) (hepoll : env.epollCtl = true)
    {sockets : String → Option Listener} {blocks : ℕ → Option String} {socketPath : String}
    (hreg : registerBlock s.os pid s.pool env r =
      ({ s.os with sockets := sockets }, { s.pool with registeredBlocks := blocks },
        .ok socketPath)) :
    Faithful pid (s.registered sockets blocks) ∧ (blocks r).isSome := by
  have hid := (h.exported r hr).blockId
  rcases registerBlock_cases s.os pid s.pool env r with
    ⟨path, hpath, he⟩ | ⟨hnone, _, he⟩ | ⟨_, he⟩
  · have hx := he.symm.trans hreg
    have hsockets : sockets = s.os.sockets :=
      (congrArg (fun x => x.1.sockets) hx).symm
    have hblocks : blocks = s.pool.registeredBlocks :=
      (congrArg (fun x => x.2.1.registeredBlocks) hx).symm
    subst hsockets hblocks
    rw [hid] at hpath
    exact ⟨h, by simp [hpath]⟩
  · have hx := he.symm.trans hreg
    have hadd : addSocket s.os env (socketName pid r) (s.pool.block r).exportedFd =
        { s.os with
          sockets := Function.update s.os.sockets (socketName pid r)
            (some (.serves (s.pool.block r).handle)) } := by
      simp only [addSocket, hdup, hepoll, Bool.and_true, if_true, (h.exported r hr).file]
      rfl
    rw [hid] at hx
    rw [hadd] at hx
    have hsockets : sockets =
        Function.update s.os.sockets (socketName pid r) (some (.serves (s.pool.block r).handle)) :=
      (congrArg (fun x => x.1.sockets) hx).symm
    have hblocks : blocks = Function.update s.pool.registeredBlocks r (some (socketName pid r)) :=
      (congrArg (fun x => x.2.1.registeredBlocks) hx).symm
    subst hsockets hblocks
    have hsome : ∀ r', (s.pool.registeredBlocks r').isSome →
        (Function.update s.pool.registeredBlocks r (some (socketName pid r)) r').isSome := by
      intro r' hr'
      by_cases hx : r' = r
      · simp [hx]
      · rwa [Function.update_of_ne hx]
    refine ⟨⟨h.capable, h.next, fun r' hr' => ?_, h.fd_inj, h.apart, ?_, ?_, h.cached, h.own⟩,
      by simp⟩
    · have he' := h.exported r' hr'
      exact ⟨he'.blockId, he'.fd, he'.file, he'.mapped, he'.name, he'.range⟩
    · intro r' hsome'
      by_cases hx : r' = r
      · subst hx
        exact ⟨hr, by simp [registered, block]⟩
      · have hne : socketName pid r' ≠ socketName pid r := fun hn => hx (socketName_inj hn).2
        simp only [registered, Function.update_of_ne hx, Function.update_of_ne hne] at hsome' ⊢
        exact h.served r' hsome'
    · intro p hp
      exact ⟨hsome _ (h.start p hp).1, (h.start p hp).2⟩
  · simp [he] at hreg

lemma Apart.symm {va size va' size' : ℕ} (h : Apart va size va' size') :
    Apart va' size' va size :=
  Or.symm h

lemma exported_new (h : Faithful pid s) {env : CreateBlockEnv} {n : ℕ} {b : VmmBlock} {os : Os}
    (hw : CreateWorks s env n) (hlen : s.pool.allBlocks.length < 2 ^ 32)
    (hb : BlockCreated s.os pid s.pool env n b os) :
    Exported pid os b s.pool.allBlocks.length ∧
      (∃ fd : ℕ, b.exportedFd = fd ∧ env.cuMemExportToShareableHandle = some fd) ∧
      os.files = Function.update s.os.files b.exportedFd (some b.handle) ∧
      os.shmNames = Function.update s.os.shmNames
        (shmName pid s.pool.allBlocks.length) b.ipcMeta := by
  have hid : b.blockId = s.pool.allBlocks.length := by
    rw [hb.blockId, h.next, Nat.mod_eq_of_lt hlen]
  obtain ⟨fd, hfd⟩ := Option.isSome_iff_exists.mp hw.cuMemExportToShareableHandle
  have hexp : b.exportedFd = fd := by simpa [h.capable, hfd] using hb.exported
  have hfiles : os.files = Function.update s.os.files b.exportedFd (some b.handle) := by
    have hf := hb.files
    rwa [if_pos (by omega)] at hf
  have hm := hb.ipcMeta
  rw [if_pos h.capable] at hm
  have hnames := hm.shmNames
  rw [hid] at hnames
  have hrange := hw.range b.va hb.va
  refine ⟨⟨hid, ?_, ?_, hb.mapped h.capable hw.shmOpen hw.ftruncate hw.mmap, ?_, ?_⟩,
    ⟨fd, hexp, hfd⟩, hfiles, hnames⟩
  · have hlt := (hw.file fd hfd).1
    omega
  · simp [hfiles]
  · simp [hnames]
  · exact ⟨hrange.1, hb.size ▸ hw.size⟩

lemma faithful_created (h : Faithful pid s) {env : CreateBlockEnv} {n : ℕ} {b : VmmBlock} {os : Os}
    (hw : CreateWorks s env n) (hb : BlockCreated s.os pid s.pool env n b os) :
      Faithful pid (s.created b os) := by
  have hlen := h.length_le
  obtain ⟨hnew, ⟨fd, hfd, henv⟩, hfiles, hnames⟩ := exported_new h hw (by omega) hb
  have hfresh := (hw.file fd henv).2
  have hva := hw.range b.va hb.va
  have hsize := hb.size
  have hcase : ∀ {r}, r < (s.created b os).pool.allBlocks.length →
      (r = s.pool.allBlocks.length ∧ (s.created b os).pool.block r = b) ∨
        (r < s.pool.allBlocks.length ∧ (s.created b os).pool.block r = s.pool.block r) := by
    intro r hr
    rw [created_block]
    simp only [created, List.length_append, List.length_singleton] at hr
    by_cases hx : r = s.pool.allBlocks.length
    · exact .inl ⟨hx, if_pos hx⟩
    · exact .inr ⟨by omega, if_neg hx⟩
  have hold : ∀ {r}, r < s.pool.allBlocks.length →
      (s.created b os).pool.block r = s.pool.block r := by
    intro r hr
    rw [created_block, if_neg hr.ne]
  have hlt : ∀ {r}, r < s.pool.allBlocks.length → r < (s.created b os).pool.allBlocks.length := by
    intro r hr
    simp only [created, List.length_append, List.length_singleton]
    omega
  constructor
  · exact h.capable
  · have hn := h.next
    simp only [created, List.length_append, List.length_singleton]
    omega
  · intro r hr
    rcases hcase hr with ⟨rfl, hbr⟩ | ⟨hr, hbr⟩
    · rw [hbr]
      exact hnew
    · have he := h.exported r hr
      rw [hbr]
      refine ⟨he.blockId, he.fd, ?_, he.mapped, ?_, he.range⟩
      · have hne : (s.pool.block r).exportedFd ≠ b.exportedFd := hfd ▸ hfresh r hr
        change os.files _ = _
        rw [hfiles, Function.update_of_ne hne]
        exact he.file
      · have hne : shmName pid r ≠ shmName pid s.pool.allBlocks.length :=
          fun hx => hr.ne (shmName_inj hx).2
        change os.shmNames _ = _
        rw [hnames, Function.update_of_ne hne]
        exact he.name
  · intro r hr r' hr' he
    rcases hcase hr with ⟨rfl, hbr⟩ | ⟨hr, hbr⟩ <;> rcases hcase hr' with ⟨rfl, hbr'⟩ | ⟨hr', hbr'⟩
    · rfl
    · rw [hbr, hbr', hfd] at he
      exact absurd he.symm (hfresh r' hr')
    · rw [hbr, hbr', hfd] at he
      exact absurd he (hfresh r hr)
    · rw [hbr, hbr'] at he
      exact h.fd_inj r hr r' hr' he
  · intro r hr r' hr' hne
    rcases hcase hr with ⟨rfl, hbr⟩ | ⟨hr, hbr⟩ <;> rcases hcase hr' with ⟨rfl, hbr'⟩ | ⟨hr', hbr'⟩
    · exact absurd rfl hne
    · rw [hbr, hbr', hsize]
      exact hva.2.1 r' hr'
    · rw [hbr, hbr', hsize]
      exact (hva.2.1 r hr).symm
    · rw [hbr, hbr']
      exact h.apart r hr r' hr' hne
  · intro r hreg
    obtain ⟨hr, hserved⟩ := h.served r hreg
    rw [hold hr]
    refine ⟨hlt hr, ?_⟩
    change os.sockets _ = _
    rw [hb.sockets]
    exact hserved
  · intro p hp
    have hstart := h.start p hp
    rwa [hold (h.served p.block hstart.1).1]
  · intro sub key entry hentry
    obtain ⟨r, hr, hkey, hhandle, hmeta, hpos⟩ := h.cached sub key entry hentry
    refine ⟨r, hlt hr, hkey, ?_, ?_, hpos⟩
    · rw [hold hr, hhandle]
    · rw [hold hr, hmeta]
  · intro key entry hentry
    obtain ⟨hpos, hap⟩ := h.own key entry hentry
    refine ⟨hpos, fun r hr => ?_⟩
    rcases hcase hr with ⟨rfl, hbr⟩ | ⟨hr, hbr⟩
    · rw [hbr, hsize]
      exact (hva.2.2 key entry hentry).symm
    · rw [hbr]
      exact hap r hr

/-- The import of a published descriptor reaches the block's allocation and segment. -/
lemma import_entry (h : Faithful pid s) (ho : Offers pid s) {p : Publication}
    (hp : p ∈ s.published) {sub : ℕ} {env : ImportEnv} {entry : CachedImport}
    (hshm : env.shmOpen.isSome) (hmmap : env.mmap = true)
    (hva : ∀ va, env.cuMemAddressReserve = some va → 0 < va)
    (hm : entry.ipcMeta = consulted s.os (s.caches sub) env p.descriptor.importArgs)
    (hentry : s.caches sub (p.descriptor.importArgs.pid, p.descriptor.importArgs.blockId) = none ∧
        s.os.sockets p.descriptor.importArgs.socketPath = some (.serves entry.handle) ∧
        env.cuMemAddressReserve = some entry.va ∧ entry.size = p.descriptor.importArgs.size ∨
      s.caches sub (p.descriptor.importArgs.pid, p.descriptor.importArgs.blockId) = some entry) :
    (p.descriptor.importArgs.pid, p.descriptor.importArgs.blockId) = (pid, p.block) ∧
      entry.handle = (s.pool.block p.block).handle ∧
      entry.ipcMeta = (s.pool.block p.block).ipcMeta ∧ 0 < entry.va := by
  have hoff := ho.offered p hp
  have hexp := h.exported p.block hoff.lt
  have hkey : (p.descriptor.importArgs.pid, p.descriptor.importArgs.blockId) = (pid, p.block) := by
    rw [hoff.importArgs, hexp.blockId]
  have hpath : p.descriptor.importArgs.socketPath = socketName pid p.block := by
    rw [hoff.importArgs, hexp.blockId]
  refine ⟨hkey, ?_⟩
  rw [hkey, hpath] at hentry
  rcases hentry with ⟨hnone, hsock, hres, _⟩ | hsome
  · have hserved := (h.served p.block (h.start p hp).1).2
    rw [hserved] at hsock
    refine ⟨(Listener.serves.inj (Option.some.inj hsock)).symm, ?_, hva _ hres⟩
    obtain ⟨fd, hfd⟩ := Option.isSome_iff_exists.mp hshm
    obtain ⟨seg, hseg⟩ := Option.isSome_iff_exists.mp hexp.mapped
    obtain ⟨hpid, hid⟩ := Prod.mk.inj hkey
    have hname := hexp.name
    rw [hm, consulted, hkey, hnone]
    simp [mapMetadata, hfd, hmmap, hpid, hid, hname, hseg]
  · obtain ⟨r, _, hr, hhandle, hmeta, hpos⟩ := h.cached sub _ entry hsome
    obtain rfl : p.block = r := (Prod.mk.inj hr).2
    exact ⟨hhandle, hmeta, hpos⟩

lemma faithful_withImport (h : Faithful pid s) (ho : Offers pid s) {p : Publication}
    (hp : p ∈ s.published) {sub : ℕ} {env : ImportEnv} {entry : CachedImport}
    (hw : ImportWorks s sub p.descriptor.importArgs.size env)
    (hm : entry.ipcMeta = consulted s.os (s.caches sub) env p.descriptor.importArgs)
    (hentry : s.caches sub (p.descriptor.importArgs.pid, p.descriptor.importArgs.blockId) = none ∧
        s.os.sockets p.descriptor.importArgs.socketPath = some (.serves entry.handle) ∧
        env.cuMemAddressReserve = some entry.va ∧ entry.size = p.descriptor.importArgs.size ∨
      s.caches sub (p.descriptor.importArgs.pid, p.descriptor.importArgs.blockId) = some entry) :
    Faithful pid (s.withImport sub p.descriptor.importArgs entry) := by
  obtain ⟨hkey, hhandle, hmeta, hpos⟩ := import_entry h ho hp hw.shmOpen hw.mmap
    (fun va hva => (hw.range va hva).1) hm hentry
  have hoff := ho.offered p hp
  have hupdate : ∀ {sub' key entry'},
      (s.withImport sub p.descriptor.importArgs entry).caches sub' key = some entry' →
      (sub' = sub ∧ key = (pid, p.block) ∧ entry' = entry) ∨ s.caches sub' key = some entry' := by
    intro sub' key entry' he
    rw [withImport, hkey] at he
    by_cases hsub : sub' = sub
    · subst hsub
      by_cases hk : key = (pid, p.block)
      · exact .inl ⟨rfl, hk, by simpa [hk, eq_comm] using he⟩
      · exact .inr (by simpa [Function.update_of_ne hk] using he)
    · exact .inr (by simpa [Function.update_of_ne hsub] using he)
  refine ⟨h.capable, h.next, fun r hr => ?_, h.fd_inj, h.apart, fun r hr => ?_, h.start, ?_, ?_⟩
  · have he := h.exported r hr
    refine ⟨he.blockId, he.fd, ?_, he.mapped, ?_, he.range⟩
    · simpa [withImport] using he.file
    · simpa [withImport] using he.name
  · simpa [withImport] using h.served r hr
  · intro sub' key entry' he
    rcases hupdate he with ⟨_, rfl, rfl⟩ | he
    · exact ⟨p.block, hoff.lt, rfl, hhandle, hmeta, hpos⟩
    · exact h.cached sub' key entry' he
  · intro key entry' he
    rcases hupdate he with ⟨rfl, rfl, rfl⟩ | he
    · rcases hentry with ⟨_, _, hres, hsize⟩ | hsome
      · have hblock : p.descriptor.importArgs.size = (s.pool.block p.block).size := by
          rw [hoff.importArgs]
        rw [hsize]
        refine ⟨hblock ▸ (h.exported p.block hoff.lt).range.2, ?_⟩
        exact (hw.range _ hres).2 rfl
      · exact h.own _ _ hsome
    · exact h.own key entry' he

lemma faithful_assigned (h : Faithful pid s) (r now drawn : ℕ) :
    Faithful pid (s.assigned r now drawn) := by
  apply h.congr (sameBlocks_assigned s r now drawn) (assigned_ipcCapable s r now drawn)
    (assigned_nextBlockId s r now drawn) (assigned_registeredBlocks s r now drawn)
    (assigned_files s r now drawn) (assigned_shmNames s r now drawn)
    (assigned_sockets s r now drawn) rfl rfl

lemma faithful_onMeta (h : Faithful pid s) (ipcMeta : Option ℕ) (f : IPCMetadata → IPCMetadata) :
    Faithful pid { s with os := s.os.onMeta ipcMeta f } := by
  refine h.congr (.refl rfl) rfl rfl rfl ?_ ?_ ?_ rfl rfl <;> simp

/-- The address search finds the block whose range starts there. -/
lemma start_of_found (h : Faithful pid s) {va r r' : ℕ} (hf : findBlockForVa s.pool va = some r)
    (hr' : r' < s.pool.allBlocks.length) (hva : (s.pool.block r').va = va) :
    va = (s.pool.block r).va := by
  obtain ⟨hr, hle, hlt⟩ := findBlockForVa_some hf
  by_cases hx : r = r'
  · rw [hx, hva]
  · have hsize := (h.exported r' hr').range.2
    rcases h.apart r hr r' hr' hx with ha | ha <;> omega

lemma faithful_published (h : Faithful pid s) {p : Publication} (now : ℕ)
    (hreg : (s.pool.registeredBlocks p.block).isSome)
    (hstart : p.buffer.devicePtr = (s.pool.block p.block).va) :
    Faithful pid { s with clock := now, published := p :: s.published } := by
  refine ⟨h.capable, h.next, h.exported, h.fd_inj, h.apart, h.served, ?_, h.cached, h.own⟩
  intro q hq
  rcases List.mem_cons.mp hq with rfl | hq
  · exact ⟨hreg, hstart⟩
  · exact h.start q hq

lemma step_faithful (hp : PoolPartition.Partition s.toState) (ho : Offers pid s)
    (h : Faithful pid s) (hw : Working s e o) (hs : step pid s e = some (o, u)) :
    Faithful pid u := by
  cases step_cases hs with
  | @reused _ now key i r vec _ _ hc =>
    have hf : Faithful pid (s.reused key vec i r) := by
      apply h.congr (sameBlocks_reused s key vec i r) <;> simp [reused, takeBlock_pool]
    exact hf.congr (.refl rfl) rfl rfl rfl rfl rfl rfl rfl rfl
  | notCreated _ hnone hfail =>
    obtain ⟨_, hcreate, hreserve, _, hmap, haccess, _⟩ := hw hnone
    rcases hfail with hfail | hfail | hfail | hfail <;> simp_all
  | created _ hnone hb =>
    have hf := faithful_created h (hw hnone) hb
    exact hf.congr (.refl rfl) rfl rfl rfl rfl rfl rfl rfl rfl
  | freed _ => exact h.congr (.refl rfl) rfl rfl rfl rfl rfl rfl rfl rfl
  | @assigned r now drawn _ _ _ _ _ =>
    have hf := faithful_assigned h r now drawn
    exact hf.congr (.refl rfl) rfl rfl rfl rfl rfl rfl rfl rfl
  | notDescribed _ _ => exact h.congr (.refl rfl) rfl rfl rfl rfl rfl rfl rfl rfl
  | @described impl env now drawn r uid sockets blocks socketPath result published _ _ hheld _ _
      hfind _ hreg _ hres =>
    have hr := (findBlockForVa_some hfind).1
    obtain ⟨hf, hsome⟩ := faithful_registered h hr hw.1 hw.2 hreg
    have hf' := faithful_assigned hf r now drawn
    rcases hres with ⟨_, rfl⟩ | ⟨handle, _, rfl⟩
    · exact hf'.congr (.refl rfl) rfl rfl rfl rfl rfl rfl rfl rfl
    · obtain ⟨r', hr', hva⟩ := hheld
      refine faithful_published hf' (now + env.elapsed) ?_ ?_
      · rwa [assigned_registeredBlocks]
      · rw [(sameBlocks_described s sockets blocks r now drawn).va]
        exact start_of_found h hfind (hp.handed_lt hr') hva
  | imported _ hm hentry =>
    obtain ⟨⟨p, hmem, rfl⟩, hworks⟩ := hw
    exact faithful_withImport h ho hmem hworks hm hentry
  | leaked _ => exact faithful_onMeta h _ _
  | @waiting sub args env _ =>
    have hf := faithful_onMeta h (consulted s.os (s.caches sub) env args) IPCMetadata.fetchAdd
    exact hf.congr (.refl rfl) rfl rfl rfl rfl rfl rfl rfl rfl
  | notImported _ _ _ => exact h
  | @interrupted w _ =>
    have hf := faithful_onMeta h w.ipcMeta IPCMetadata.fetchSub
    exact hf.congr (.refl rfl) rfl rfl rfl rfl rfl rfl rfl rfl
  | @released i _ =>
    have hf := faithful_onMeta h i.result.ipcMeta IPCMetadata.fetchSub
    exact hf.congr (.refl rfl) rfl rfl rfl rfl rfl rfl rfl rfl

variable {granularity : ℕ} {hg : 0 < granularity} {deviceId : ℤ} {ipcCapable : Bool}
  {tr : List (Event × Output)}

lemma faithful_initial (pid : ℤ) (granularity : ℕ) (hg : 0 < granularity) (deviceId : ℤ) :
    Faithful pid (initial granularity hg deviceId true) := by
  constructor <;> simp [initial, PoolPartition.initial]

lemma run_faithful (hr : Run (step pid) (initial granularity hg deviceId true) tr s)
    (hw : Every (step pid) Working (initial granularity hg deviceId true) tr) :
    Faithful pid s := by
  refine hr.induction_every (P := fun _ t => Faithful pid t) hw
    (faithful_initial pid granularity hg deviceId) ?_
  intro tr t e o u hrun hf hgood hs
  exact step_faithful (run_partition hrun) (run_offers hrun) hf hgood hs

lemma step_ipcCapable (hs : step pid s e = some (o, u)) :
    u.pool.ipcCapable = s.pool.ipcCapable := by
  cases step_cases hs with
  | reused _ _ => simp [reused, atTime, takeBlock_pool]
  | assigned _ _ _ _ => exact assigned_ipcCapable s _ _ _
  | described _ _ _ _ _ _ _ _ _ _ => exact assigned_ipcCapable (s.registered _ _) _ _ _
  | _ => rfl

lemma run_ipcCapable (hr : Run (step pid) s tr u) : u.pool.ipcCapable = s.pool.ipcCapable :=
  hr.invariant (P := fun v => v.pool.ipcCapable = s.pool.ipcCapable) rfl
    (fun _ _ _ _ h hs => (step_ipcCapable hs).trans h)

/-- The block still carries the uid under which it was published. -/
def Current (s : Exchange) (p : Publication) : Prop :=
  p ∈ s.published ∧ (s.pool.block p.block).currentUid = p.descriptor.ipcUid

lemma assigned_current {r : ℕ} (now drawn : ℕ) {r' : ℕ} (hr : r < s.pool.allBlocks.length)
    (h : (s.pool.block r').currentUid ≠ 0) :
    ((s.assigned r now drawn).pool.block r').currentUid = (s.pool.block r').currentUid := by
  by_cases hz : (s.pool.block r).currentUid = 0
  · have hx : r' ≠ r := fun hx => h (hx ▸ hz)
    rw [assigned_of_zero now drawn hz, drawn_currentUid s now drawn hr, if_neg hx]
  · rw [assigned_of_ne_zero now drawn hz]

/-- The output of an `allocate` that returns the block. -/
def Returns (o : Output) (r : ℕ) : Prop := ∃ log, o = .pool (.allocated log (.ok r))

lemma step_current (hp : PoolPartition.Partition s.toState) (ho : Offers pid s) {p : Publication}
    (h : Current s p) (hs : step pid s e = some (o, u)) (hr : ¬ Returns o p.block) :
    Current u p := by
  obtain ⟨hmem, hcur⟩ := h
  have hoff := ho.offered p hmem
  have hne : (s.pool.block p.block).currentUid ≠ 0 := hcur ▸ hoff.uid
  cases step_cases hs with
  | @reused _ now key i r vec _ _ hc =>
    obtain ⟨hbucket, hr'⟩ := PoolPartition.candidate_mem hc
    have hx : p.block ≠ r := fun hx => hr (hx ▸ ⟨[], rfl⟩)
    refine ⟨hmem, ?_⟩
    rw [← hcur]
    exact (reused_currentUid s key vec i (hp.stored_lt hbucket hr') p.block).trans (if_neg hx)
  | @created _ _ _ _ b os _ _ _ =>
    refine ⟨hmem, ?_⟩
    rw [← hcur]
    exact congrArg VmmBlock.currentUid ((created_block s b os p.block).trans (if_neg hoff.lt.ne))
  | assigned _ _ hheld _ =>
    exact ⟨hmem, (assigned_current _ _ (hp.handed_lt hheld) hne).trans hcur⟩
  | @described impl env now drawn r uid sockets blocks socketPath result published _ _ _ _ _
      hfind _ _ _ hres =>
    refine ⟨?_, ?_⟩
    · rcases hres with ⟨_, rfl⟩ | ⟨_, _, rfl⟩
      · exact hmem
      · exact List.mem_cons_of_mem _ hmem
    · have hkeep := assigned_current (s := s.registered sockets blocks) now drawn
        (findBlockForVa_some hfind).1 hne
      exact hkeep.trans hcur
  | notCreated _ _ _ => exact ⟨hmem, hcur⟩
  | freed _ => exact ⟨hmem, hcur⟩
  | notDescribed _ _ => exact ⟨hmem, hcur⟩
  | imported _ _ _ => exact ⟨hmem, hcur⟩
  | leaked _ => exact ⟨hmem, hcur⟩
  | waiting _ => exact ⟨hmem, hcur⟩
  | notImported _ _ _ => exact ⟨hmem, hcur⟩
  | interrupted _ => exact ⟨hmem, hcur⟩
  | released _ => exact ⟨hmem, hcur⟩

lemma current_of_described {impl : CudaBufferImpl} {env : DescriptorEnv} {now drawn : ℕ}
    {a : Assignment} {d : CudaBufferDescriptor}
    (hs : step pid s (.createDescriptor impl env now drawn) =
      some (.described (some a) (.ok (some d)), u)) :
    Current u ⟨d, impl, a.block, now, now + env.elapsed⟩ := by
  generalize hr : (.ok (some d) : Except CudaError (Option CudaBufferDescriptor)) = result at hs
  cases step_cases hs with
  | @described _ _ _ _ r uid sockets blocks socketPath _ published _ _ _ _ _ hfind _ _ huid hres =>
    rcases hres with ⟨⟨e, rfl⟩, _⟩ | ⟨handle, rfl, rfl⟩
    · simp at hr
    · obtain rfl : d = describe pid impl (s.pool.block r) socketPath uid handle := by
        simpa using hr
      refine ⟨List.mem_cons_self, ?_⟩
      have hlt := (findBlockForVa_some hfind).1
      have hcur := assigned_uid (s.registered sockets blocks) now drawn hlt
      exact hcur.trans huid.symm

lemma run_current {t : Exchange} {tr' : List (Event × Output)} {p : Publication}
    (ht : Run (step pid) (initial granularity hg deviceId ipcCapable) tr t)
    (hr : Run (step pid) t tr' s) (h : Current t p) (hn : ∀ x ∈ tr', ¬ Returns x.2 p.block) :
    Current s p := by
  induction hr with
  | nil => exact h
  | @snoc v w tr' e o hr hs ih =>
    have hv := ht.append hr
    have hcur := ih (fun x hx => hn x (List.mem_append_left _ hx))
    refine step_current (run_partition hv) (run_offers hv) hcur hs ?_
    exact hn (e, o) (by simp)

lemma uid_of_current {h : List (Generations.Act ℕ ℕ)} (hm : Staleness.Mirrors h s) {r seg : ℕ}
    (ho : s.Owns r seg) (hz : (s.pool.block r).currentUid ≠ 0) :
    (s.os.segments seg).uid = (s.pool.block r).currentUid := by
  have hcur := hm.current r
  cases hc : (Generations.slots h r).current with
  | none => simp [hc] at hcur; exact absurd hcur hz
  | some t =>
    rw [hm.shared r seg ho, hcur, Generations.shared_of_current hc, hc]

/-- The subscriber's buffer has the size of the published one and maps the whole
allocation of the block that the published buffer starts. -/
def Delivered (pid : ℤ) (s : Exchange) (sub : ℕ) (env : ReceiveEnv) (impl : CudaBufferImpl)
    (r : ℕ) (d : CudaBufferDescriptor) : Prop :=
  let c := fromDescriptorWithEndpoint s.os (s.caches sub) env d
  ∃ buffer entry, c.result = .ok buffer ∧ buffer.size = impl.size ∧ buffer.byteSize = impl.size ∧
    buffer.devicePtr ≠ 0 ∧ c.cache (pid, r) = some entry ∧ entry.va = buffer.devicePtr ∧
    entry.handle = (s.pool.block r).handle ∧ impl.devicePtr = (s.pool.block r).va

section Delivery

variable {p : Publication} {sub : ℕ} {h : List (Generations.Act ℕ ℕ)}

lemma current_accepted (hw : Wired pid s) (hm : Staleness.Mirrors h s) (ho : Offers pid s)
    (hf : Faithful pid s) (hc : Current s p) (env : ImportEnv) :
    UidAccepted s.os (consulted s.os (s.caches sub) env p.descriptor.importArgs)
      p.descriptor.importArgs.expectedUid := by
  intro seg hseg
  have hoff := ho.offered p hc.1
  obtain ⟨r, hown, hkey⟩ := consulted_owned hw hseg
  have hid := (Prod.mk.inj hkey).2
  rw [hoff.importArgs, (hf.exported _ hoff.lt).blockId, (hf.exported _ hown.lt).blockId] at hid
  have hr : p.block = r := hid
  subst hr
  have hz : (s.pool.block p.block).currentUid ≠ 0 := hc.2 ▸ hoff.uid
  exact .inr ((uid_of_current hm hown hz).trans hc.2)

lemma current_completes (hw : Wired pid s) (hm : Staleness.Mirrors h s) (ho : Offers pid s)
    (hf : Faithful pid s) (hc : Current s p) {env : ImportEnv}
    (hi : ImportWorks s sub p.descriptor.importArgs.size env) :
    Completes s.os (s.caches sub) env p.descriptor.importArgs := by
  have hoff := ho.offered p hc.1
  have hpath : p.descriptor.importArgs.socketPath = socketName pid p.block := by
    rw [hoff.importArgs, (hf.exported _ hoff.lt).blockId]
  have hserved := (hf.served p.block (hf.start p hc.1).1).2
  have hname : ValidSocketName p.descriptor.importArgs.socketPath := by
    rw [hpath, ← (hf.exported _ hoff.lt).blockId]
    exact hoff.socket
  obtain ⟨fd, second, hrecv⟩ := hi.recvmsg
  refine ⟨current_accepted hw hm ho hf hc env, fun _ => ?_⟩
  constructor
  · exact ⟨_, fd, second, ⟨hi.socket, hname, hi.connect, hpath ▸ hserved⟩, hrecv⟩
  · exact hi.cuMemImportFromShareableHandle
  · exact hi.cuMemAddressReserve
  · exact hi.cuMemMap
  · exact hi.cudaGetDevice
  · exact hi.cuMemSetAccess

lemma current_delivered (hw : Wired pid s) (hm : Staleness.Mirrors h s) (ho : Offers pid s)
    (hf : Faithful pid s) (hc : Current s p) {env : ReceiveEnv}
    (hdevice : env.cudaGetDevice = some p.descriptor.deviceId)
    (hi : ImportWorks s sub p.descriptor.importArgs.size env.importEnv) :
    Delivered pid s sub env p.buffer p.block p.descriptor := by
  have hoff := ho.offered p hc.1
  obtain ⟨handle, hd⟩ := hoff.descriptor
  have htype : p.descriptor.elementTypeName = typeName := by rw [hd]; rfl
  have hsize : p.descriptor.size = p.buffer.size := by rw [hd]; rfl
  have huse : ¬ (p.descriptor.useIpc = false ∨ p.descriptor.vmmSocketPath.isEmpty = true) := by
    have hname := hoff.socket.1
    rw [hd]
    simpa [describe] using hname
  have hcomp := current_completes hw hm ho hf hc hi
  have hout := importBlock_outcome s.os (s.caches sub) env.importEnv p.descriptor.importArgs
  simp only [Delivered, fromDescriptorWithEndpoint, hdevice, htype, if_neg huse, ne_eq,
    not_true_eq_false, if_false]
  generalize importBlock s.os (s.caches sub) env.importEnv p.descriptor.importArgs = c at hout
  cases hout with
  | completed entry log _ hmeta hentry =>
    obtain ⟨hkey, hhandle, _, hpos⟩ := import_entry hf ho hc.1 hi.shmOpen hi.mmap
      (fun va hva => (hi.range va hva).1) hmeta hentry
    refine ⟨_, entry, rfl, hsize, hsize, hpos.ne', ?_, rfl, hhandle, (hf.start p hc.1).2⟩
    rw [hkey]
    exact Function.update_self _ _ _
  | leaked log e hskip => exact absurd hcomp hskip.not_completes
  | waiting log hwaits => exact absurd hcomp hwaits.not_completes
  | cleaned log e hn _ _ _ => exact absurd hcomp hn

end Delivery

/-- The storage is missing, imported by the publisher's own process, or outside
of every block. -/
def NotPooled (s : Exchange) (impl : CudaBufferImpl) : Prop :=
  impl.devicePtr = 0 ∨ (∃ key entry, s.caches 0 key = some entry ∧ impl.devicePtr = entry.va) ∨
    ∀ r < s.pool.allBlocks.length, ¬ ((s.pool.block r).va ≤ impl.devicePtr ∧
      impl.devicePtr < (s.pool.block r).va + (s.pool.block r).size)

lemma notPooled_outside (h : Faithful pid s) {impl : CudaBufferImpl} (hn : NotPooled s impl) :
    findBlockForVa s.pool impl.devicePtr = none := by
  apply findBlockForVa_none
  intro r hr hva
  rcases hn with hz | ⟨key, entry, hentry, he⟩ | hout
  · have hpos := (h.exported r hr).range.1
    omega
  · obtain ⟨hpos, hap⟩ := h.own key entry hentry
    rcases hap r hr with ha | ha <;> omega
  · exact hout r hr hva

lemma createDescriptor_of_outside {env : DescriptorEnv} {impl : CudaBufferImpl} (now drawn : ℕ)
    (hf : findBlockForVa s.pool impl.devicePtr = none ∨ s.pool.ipcCapable = false) :
    (createDescriptorWithEndpoint s.os pid s.pool now drawn env impl).result = .ok none := by
  simp only [createDescriptorWithEndpoint]
  rcases hf with hf | hf
  · rw [hf]
    split_ifs <;> rfl
  · rw [if_pos hf]
    split_ifs <;> rfl

theorem descriptor_round_trip (pid : ℤ) (granularity : ℕ) (hg : 0 < granularity) (deviceId : ℤ)
    (ipcCapable : Bool) (hr : Run (step pid) (initial granularity hg deviceId ipcCapable) tr s)
    (hw : Every (step pid) Working (initial granularity hg deviceId ipcCapable) tr) :
    (∀ pre impl env now drawn a d post,
      tr = pre ++ (.createDescriptor impl env now drawn,
        .described (some a) (.ok (some d))) :: post →
      (∀ x ∈ post, ¬ Returns x.2 a.block) →
      ∀ sub env', env'.cudaGetDevice = some d.deviceId →
        ImportWorks s sub d.vmmBlockSize env'.importEnv →
        Delivered pid s sub env' impl a.block d) ∧
    ∀ impl now drawn env, NotPooled s impl →
      (createDescriptorWithEndpoint s.os pid s.pool now drawn env impl).result = .ok none := by
  constructor
  · rintro pre impl env now drawn a d post rfl hpost sub env' hdevice hi
    obtain ⟨t, hpre, hrest⟩ := run_append_iff.mp hr
    obtain ⟨v, hs, hrun⟩ := run_cons_iff.mp hrest
    have hcur := run_current (hpre.snoc hs) hrun (current_of_described hs) hpost
    have hcap : ipcCapable = true := by
      generalize hd : (.ok (some d) : Except CudaError (Option CudaBufferDescriptor)) = result at hs
      cases step_cases hs with
      | described _ _ _ _ hcap _ _ _ _ _ => exact (run_ipcCapable hpre).symm.trans hcap
    subst hcap
    exact current_delivered (run_wired hr) (Staleness.run_mirrors hr) (run_offers hr)
      (run_faithful hr hw) hcur hdevice hi
  · intro impl now drawn env hn
    apply createDescriptor_of_outside now drawn
    cases ipcCapable with
    | false => exact .inr (run_ipcCapable hr)
    | true => exact .inl (notPooled_outside (run_faithful hr hw) hn)

open PoolPartition (workingEnv) in
/-- A block that is published and then freed by the publisher. -/
def publishing : List Event :=
  [.allocate 100 5 (workingEnv 3 8192 1), .createDescriptor (bufferAt 8192) describing 6 41,
    .free 0]

lemma publishing_working :
    EveryExec (step 7) Working (initial 4096 (by decide) 0 true) publishing := by
  refine And.intro (fun _ => ?_) (And.intro ⟨rfl, rfl⟩ (And.intro trivial trivial))
  constructor
  · decide
  · rfl
  · rfl
  · intro va hva
    obtain rfl : 8192 = va := Option.some.inj hva
    exact ⟨by decide, fun r hr => absurd hr r.not_lt_zero, fun _ _ he => nomatch he⟩
  · rfl
  · rfl
  · rfl
  · intro fd hfd
    obtain rfl : 3 = fd := Option.some.inj hfd
    exact ⟨by decide, fun r hr => absurd hr r.not_lt_zero⟩
  · rfl
  · rfl
  · rfl

lemma importing_works (s : Exchange) (size : ℕ) : ImportWorks s 1 size (importing 10 32768) := by
  constructor
  · rfl
  · rfl
  · rfl
  · rfl
  · exact ⟨_, _, rfl⟩
  · rfl
  · rfl
  · intro va hva
    obtain rfl : 32768 = va := Option.some.inj hva
    exact ⟨by decide, fun h => absurd h (by decide)⟩
  · rfl
  · rfl
  · rfl

theorem descriptor_round_trip_once :
    ∃ tr s d, Run (step 7) (initial 4096 (by decide) 0 true) tr s ∧
      Delivered 7 s 1 ⟨some 0, importing 10 32768, true⟩ (bufferAt 8192) 0 d := by
  have hrun := run_exec (show (exec (step 7) (initial 4096 (by decide) 0 true) publishing).isSome
    by decide)
  have hw := every_of_exec (Option.some_get (show
    (exec (step 7) (initial 4096 (by decide) 0 true) publishing).isSome by decide)).symm
    publishing_working
  have h := descriptor_round_trip 7 4096 (by decide) 0 true hrun hw
  refine ⟨_, _, _, hrun, h.1 [_] _ _ _ _ ⟨0, 41, true⟩ _ [_] rfl ?_ 1
    ⟨some 0, importing 10 32768, true⟩ rfl (importing_works _ _)⟩
  rintro x hx ⟨log, he⟩
  obtain rfl := List.mem_singleton.mp hx
  exact nomatch he

end RosidlBufferBackends.Cuda.RoundTrip
