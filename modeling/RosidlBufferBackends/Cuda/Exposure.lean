import RosidlBufferBackends.Cuda.Descriptor

/-! What a subscriber process has mapped, and what the buffers that it makes of descriptors
may address. -/

namespace RosidlBufferBackends.Cuda.Exposure

open CudaVmmIPCManager CudaBufferBackend

def Maps (log : List (Action Resource)) (va size : ℕ) : Prop :=
  log.count (.release (.mapping va size)) < log.count (.acquire (.mapping va size))

def Balanced (log : List (Action Resource)) : Prop :=
  ∀ va size, log.count (.release (.mapping va size)) ≤ log.count (.acquire (.mapping va size))

/-- A process that imports; what its cache refers to is mapped. -/
structure Importer where
  cache : ImportCache
  log : List (Action Resource)
  balanced : Balanced log
  mapped : ∀ key entry, cache key = some entry → Maps log entry.va entry.size

/-- `sizeof(uint8_t)` -/
def elementSize : ℕ := 1

/-- The range that `to_cpu` copies, as its first byte and its length. -/
def toCpuCopy (impl : CudaBufferImpl) : Option (ℕ × ℕ) :=
  if 0 < impl.size ∧ 0 < impl.byteSize then some (impl.devicePtr, impl.size * elementSize)
  else none

def cloneCopy (impl : CudaBufferImpl) : Option (ℕ × ℕ) :=
  if 0 < impl.size ∧ 0 < impl.byteSize then some (impl.devicePtr, impl.size * elementSize)
  else none

def resizeCopy (impl : CudaBufferImpl) (n : ℕ) : Option (ℕ × ℕ) :=
  if n = impl.size then none
  else if n = 0 then none
  else if 0 < impl.size ∧ 0 < impl.byteSize then
    some (impl.devicePtr, min n impl.size * elementSize)
  else none

def InRange (va size : ℕ) (copied : Option (ℕ × ℕ)) : Prop :=
  ∀ start length, copied = some (start, length) → va ≤ start ∧ start + length ≤ va + size

/-- The buffer lies in the range that is mapped for the descriptor's block. -/
structure Backed (i : Importer) (d : CudaBufferDescriptor) (impl : CudaBufferImpl)
    (entry : CachedImport) : Prop where
  cached : i.cache (d.vmmPid, d.vmmBlockId) = some entry
  mapped : Maps i.log entry.va entry.size
  devicePtr : impl.devicePtr = entry.va
  fits : impl.size * elementSize ≤ entry.size
  toCpu : InRange entry.va entry.size (toCpuCopy impl)
  clone : InRange entry.va entry.size (cloneCopy impl)
  resize : ∀ n, InRange entry.va entry.size (resizeCopy impl n)

/-- The descriptor is imported. -/
structure Accepted (os : Os) (cache : ImportCache) (env : ReceiveEnv) (d : CudaBufferDescriptor) :
    Prop where
  elementTypeName : d.elementTypeName = typeName
  useIpc : d.useIpc = true
  socketPath : d.vmmSocketPath.isEmpty = false
  device : env.cudaGetDevice = some d.deviceId
  completes : Completes os cache env.importEnv d.importArgs

/-- The length of the range that is mapped for the descriptor's block, or will be. -/
def mappedLength (cache : ImportCache) (d : CudaBufferDescriptor) : ℕ :=
  match cache (d.vmmPid, d.vmmBlockId) with
  | some entry => entry.size
  | none => d.vmmBlockSize

variable {os : Os} {cache : ImportCache} {env : ImportEnv} {args : ImportArgs}

lemma Balanced.append {log log' : List (Action Resource)} (h : Balanced log) (h' : Balanced log') :
    Balanced (log ++ log') := by
  intro va size
  rw [List.count_append, List.count_append]
  exact add_le_add (h va size) (h' va size)

lemma Maps.append {log log' : List (Action Resource)} {va size : ℕ} (h : Maps log va size)
    (h' : Balanced log') : Maps (log ++ log') va size := by
  rw [Maps, List.count_append, List.count_append]
  exact add_lt_add_of_lt_of_le h (h' va size)

lemma Maps.prepend {log log' : List (Action Resource)} {va size : ℕ} (h : Maps log' va size)
    (h' : Balanced log) : Maps (log ++ log') va size := by
  rw [Maps, List.count_append, List.count_append]
  exact add_lt_add_of_le_of_lt (h' va size) h

/-- A log that maps these ranges and unmaps nothing. -/
def MapsOnly (log : List (Action Resource)) (l : List (ℕ × ℕ)) : Prop :=
  ∀ va size, log.count (.acquire (.mapping va size)) = l.count (va, size) ∧
    log.count (.release (.mapping va size)) = 0

lemma MapsOnly.append {log log' : List (Action Resource)} {l l' : List (ℕ × ℕ)}
    (h : MapsOnly log l) (h' : MapsOnly log' l') : MapsOnly (log ++ log') (l ++ l') := by
  intro va size
  obtain ⟨ha, hr⟩ := h va size
  obtain ⟨ha', hr'⟩ := h' va size
  rw [List.count_append, List.count_append, List.count_append, ha, hr, ha', hr']
  exact ⟨rfl, rfl⟩

lemma mapsOnly_single (va size : ℕ) : MapsOnly [.acquire (.mapping va size)] [(va, size)] := by
  intro va' size'
  simp [List.count_cons]

lemma mapsOnly_metadata (os : Os) (env : ImportEnv) (args : ImportArgs) :
    MapsOnly (mapMetadata os env args).2 [] := by
  intro va size
  unfold mapMetadata
  cases env.shmOpen with
  | none => exact ⟨rfl, rfl⟩
  | some fd =>
    cases os.shmNames (shmName args.pid args.blockId) with
    | none => exact ⟨rfl, rfl⟩
    | some seg => cases env.mmap <;> exact ⟨rfl, rfl⟩

lemma mapsOnly_received (os : Os) (env : ImportEnv) (path : String) :
    MapsOnly (receiveFdFromSocket os env path).1 [] := by
  intro va size
  unfold receiveFdFromSocket
  cases env.socket with
  | none => exact ⟨rfl, rfl⟩
  | some sock =>
    cases makeAbstractUnixAddr path with
    | error e => exact ⟨rfl, rfl⟩
    | ok name =>
      dsimp only
      generalize (if env.connect then os.sockets name else none) = listener
      generalize env.recvmsg = outcome
      rcases listener with _ | _ | a <;> rcases outcome with _ | _ | ⟨fd, _ | fd'⟩ | _ <;>
        exact ⟨rfl, rfl⟩

/-- What is unmapped has been mapped before, and what a completed import has mapped stays. -/
structure MapsMore (log : List (Action Resource)) (result : Ending ImportResult) (size : ℕ) :
    Prop where
  balanced : Balanced log
  kept : ∀ imported, result = .ok imported → Maps log imported.va size

lemma mapsMore_failed {log : List (Action Resource)} {held : List Resource} {l : List (ℕ × ℕ)}
    (os : Os) (ipcMeta : Option ℕ) (e : CudaError) (n : ℕ) (h : MapsOnly log l)
    (hheld : ∀ va size, held.count (.mapping va size) = l.count (va, size)) :
    MapsMore (log ++ (cleanupFailedImport os ipcMeta held).2) (.error e) n := by
  refine ⟨?_, nofun⟩
  intro va size
  obtain ⟨hacquired, hreleased⟩ := h va size
  have hcleaned : (held.map Action.release).count (.release (.mapping va size)) =
      held.count (.mapping va size) :=
    List.count_map_of_injective _ _ (fun _ _ he => Action.release.inj he) _
  have hmeta : (ipcMeta.toList.map (fun seg => Action.release (Resource.metadataMapping seg))).count
      (.release (.mapping va size)) = 0 := by
    cases ipcMeta <;> rfl
  rw [cleanupFailedImport, List.count_append, List.count_append, List.count_append, hreleased,
    hcleaned, hmeta, hacquired, hheld]
  omega

lemma importFresh_maps (os : Os) (cache : ImportCache) (env : ImportEnv) (args : ImportArgs) :
    MapsMore (importFresh os cache env args).log (importFresh os cache env args).result
      args.size := by
  have hmeta := mapsOnly_metadata os env args
  have hrecv := mapsOnly_received (retain os (mapMetadata os env args).1) env args.socketPath
  unfold importFresh
  dsimp only
  cases checkUidStaleness (retain os (mapMetadata os env args).1) (mapMetadata os env args).1
      args.expectedUid with
  | error e => exact mapsMore_failed _ _ _ _ hmeta fun _ _ => rfl
  | ok _ =>
    dsimp only
    generalize receiveFdFromSocket (retain os (mapMetadata os env args).1) env args.socketPath =
      received at hrecv
    have haside := hmeta.append hrecv
    obtain ⟨log, result⟩ := received
    match result with
    | .error e => exact ⟨fun va size => (haside va size).2.trans_le (Nat.zero_le _), nofun⟩
    | .waits _ => exact ⟨fun va size => (haside va size).2.trans_le (Nat.zero_le _), nofun⟩
    | .ok none => exact mapsMore_failed _ _ _ _ haside fun _ _ => rfl
    | .ok (some (fd, a)) =>
      dsimp only
      cases env.cuMemImportFromShareableHandle with
      | false =>
        have hclosed : MapsOnly [.release (.receivedFd fd)] [] := fun _ _ => ⟨rfl, rfl⟩
        exact mapsMore_failed _ _ _ _ (haside.append hclosed) fun _ _ => rfl
      | true =>
        have himported : MapsOnly [.acquire (.allocationHandle a), .release (.receivedFd fd)] [] :=
          fun _ _ => ⟨rfl, rfl⟩
        cases env.cuMemAddressReserve with
        | none => exact mapsMore_failed _ _ _ _ (haside.append himported) fun _ _ => rfl
        | some ptr =>
          have hreserved : MapsOnly [.acquire (.addressRange ptr args.size)] [] :=
            fun _ _ => ⟨rfl, rfl⟩
          cases env.cuMemMap with
          | false =>
            exact mapsMore_failed _ _ _ _ ((haside.append himported).append hreserved)
              fun _ _ => rfl
          | true =>
            have hmapped := ((haside.append himported).append hreserved).append
              (mapsOnly_single ptr args.size)
            have hheld : ∀ va size, [Resource.mapping ptr args.size, .addressRange ptr args.size,
                .allocationHandle a].count (.mapping va size) =
                  [(ptr, args.size)].count (va, size) := by
              intro va size
              simp [List.count_cons]
            dsimp only
            cases env.cudaGetDevice with
            | false => exact mapsMore_failed _ _ _ _ hmapped hheld
            | true =>
              cases env.cuMemSetAccess with
              | false => exact mapsMore_failed _ _ _ _ hmapped hheld
              | true =>
                refine ⟨fun va size => (hmapped va size).2.trans_le (Nat.zero_le _), ?_⟩
                intro imported he
                obtain rfl := Ending.ok.inj he
                obtain ⟨hacquired, hreleased⟩ := hmapped ptr args.size
                exact (hreleased.trans_lt (by simp)).trans_eq hacquired.symm

lemma importBlock_balanced (os : Os) (cache : ImportCache) (env : ImportEnv) (args : ImportArgs) :
    Balanced (importBlock os cache env args).log := by
  unfold importBlock
  cases cache (args.pid, args.blockId) with
  | none => exact (importFresh_maps os cache env args).balanced
  | some entry =>
    dsimp only
    unfold importCached
    dsimp only
    split <;> exact fun _ _ => le_rfl

lemma Importer.importBlock_mapped (i : Importer) (os : Os) (env : ImportEnv) (args : ImportArgs)
    {key : ℤ × ℕ} {entry : CachedImport}
    (h : (importBlock os i.cache env args).cache key = some entry) :
    Maps (i.log ++ (importBlock os i.cache env args).log) entry.va entry.size := by
  have hbalanced := importBlock_balanced os i.cache env args
  have ho := importBlock_outcome os i.cache env args
  generalize hc : importBlock os i.cache env args = c at h hbalanced ho ⊢
  cases ho with
  | leaked log e _ => exact (i.mapped key entry h).append hbalanced
  | waiting log _ => exact (i.mapped key entry h).append hbalanced
  | cleaned log e _ _ _ _ => exact (i.mapped key entry h).append hbalanced
  | completed new log _ _ hnew =>
    by_cases hkey : key = (args.pid, args.blockId)
    · subst hkey
      dsimp only at h
      rw [Function.update_self] at h
      obtain rfl := Option.some.inj h
      rcases hnew with ⟨hmiss, -, -, hsize⟩ | hhit
      · have hmaps := importFresh_maps os i.cache env args
        simp only [importBlock, hmiss] at hc
        rw [hc] at hmaps
        rw [hsize]
        exact (hmaps.kept _ rfl).prepend i.balanced
      · exact (i.mapped _ _ hhit).append hbalanced
    · dsimp only at h
      rw [Function.update_of_ne hkey] at h
      exact (i.mapped key entry h).append hbalanced

/-- A descriptor is imported, or makes an empty buffer and leaves the process as it is; the
call may wait for the import. -/
lemma fromDescriptor_cases (os : Os) (cache : ImportCache) (env : ReceiveEnv)
    (d : CudaBufferDescriptor) :
    (fromDescriptorWithEndpoint os cache env d).cache = cache ∧
        (fromDescriptorWithEndpoint os cache env d).log = [] ∧ ¬ Accepted os cache env d ∧
        (∀ impl, (fromDescriptorWithEndpoint os cache env d).result = .ok impl → impl = emptyImpl) ∨
      (fromDescriptorWithEndpoint os cache env d).cache =
          (importBlock os cache env.importEnv d.importArgs).cache ∧
        (fromDescriptorWithEndpoint os cache env d).log =
          (importBlock os cache env.importEnv d.importArgs).log ∧
        (Accepted os cache env d ↔ Completes os cache env.importEnv d.importArgs) ∧
        match (importBlock os cache env.importEnv d.importArgs).result with
        | .error _ => (fromDescriptorWithEndpoint os cache env d).result = .ok emptyImpl
        | .waits ipcMeta => (fromDescriptorWithEndpoint os cache env d).result = .waits ipcMeta
        | .ok imported => ∃ impl, (fromDescriptorWithEndpoint os cache env d).result = .ok impl ∧
            impl.size = d.size ∧ impl.devicePtr = imported.va ∧ impl.byteSize = d.size := by
  unfold fromDescriptorWithEndpoint
  cases hdev : env.cudaGetDevice with
  | none => exact .inl ⟨rfl, rfl, (fun h => nomatch hdev.symm.trans h.device), nofun⟩
  | some dev =>
    dsimp only
    split_ifs with htype hipc hdevice
    · exact .inl ⟨rfl, rfl, fun h => htype h.elementTypeName, nofun⟩
    · refine .inl ⟨rfl, rfl, ?_, fun impl h => (Ending.ok.inj h).symm⟩
      rintro ⟨-, huse, hpath, -, -⟩
      rcases hipc with hipc | hipc
      · exact nomatch hipc.symm.trans huse
      · exact nomatch hipc.symm.trans hpath
    · refine .inl ⟨rfl, rfl, ?_, fun impl h => (Ending.ok.inj h).symm⟩
      intro h
      exact hdevice (Option.some.inj (hdev.symm.trans h.device)).symm
    · have haccepted : Accepted os cache env d ↔
          Completes os cache env.importEnv d.importArgs := by
        refine ⟨Accepted.completes, fun hcomp => ⟨not_not.mp htype, ?_, ?_, ?_, hcomp⟩⟩
        · simpa using (not_or.mp hipc).1
        · simpa using (not_or.mp hipc).2
        · rw [hdev, not_not.mp hdevice]
      refine .inr ?_
      cases (importBlock os cache env.importEnv d.importArgs).result with
      | error e => exact ⟨rfl, rfl, haccepted, rfl⟩
      | waits ipcMeta => exact ⟨rfl, rfl, haccepted, rfl⟩
      | ok imported => exact ⟨rfl, rfl, haccepted, _, rfl, rfl, rfl, rfl⟩

/-- The import of a descriptor in the process. -/
def Importer.receive (i : Importer) (os : Os) (env : ReceiveEnv) (d : CudaBufferDescriptor) :
    Importer × Ending CudaBufferImpl :=
  let c := fromDescriptorWithEndpoint os i.cache env d
  ({ cache := c.cache
     log := i.log ++ c.log
     balanced := by
      rcases fromDescriptor_cases os i.cache env d with ⟨-, hlog, -⟩ | ⟨-, hlog, -⟩
      · rw [hlog, List.append_nil]
        exact i.balanced
      · rw [hlog]
        exact i.balanced.append (importBlock_balanced _ _ _ _)
     mapped := by
      intro key entry h
      rcases fromDescriptor_cases os i.cache env d with ⟨hcache, hlog, -⟩ | ⟨hcache, hlog, -⟩
      · rw [hlog, List.append_nil]
        exact i.mapped key entry (hcache ▸ h)
      · rw [hlog]
        exact i.importBlock_mapped os env.importEnv d.importArgs (hcache ▸ h) },
    c.result)

/-- What `to_cpu`, `clone` and `resize` copy is the buffer or less. -/
lemma inRange_copies {impl : CudaBufferImpl} {va size : ℕ} (hptr : impl.devicePtr = va)
    (h : impl.size * elementSize ≤ size) : InRange va size (toCpuCopy impl) ∧
      InRange va size (cloneCopy impl) ∧ ∀ n, InRange va size (resizeCopy impl n) := by
  have hwhole : InRange va size (toCpuCopy impl) := by
    intro start length he
    unfold toCpuCopy at he
    split_ifs at he
    obtain ⟨rfl, rfl⟩ := Prod.mk.inj (Option.some.inj he)
    exact ⟨hptr.ge, by omega⟩
  refine ⟨hwhole, hwhole, ?_⟩
  intro n start length he
  unfold resizeCopy at he
  split_ifs at he
  obtain ⟨rfl, rfl⟩ := Prod.mk.inj (Option.some.inj he)
  have hle : min n impl.size * elementSize ≤ impl.size * elementSize :=
    Nat.mul_le_mul_right _ (min_le_right _ _)
  exact ⟨hptr.ge, by omega⟩

lemma Importer.received_entry (i : Importer) (os : Os) (env : ReceiveEnv) (d : CudaBufferDescriptor)
    (h : Accepted os i.cache env d) : ∃ entry impl,
      (i.receive os env d).1.cache (d.vmmPid, d.vmmBlockId) = some entry ∧
      entry.size = mappedLength i.cache d ∧ (i.receive os env d).2 = .ok impl ∧
      impl.size = d.size ∧ impl.devicePtr = entry.va := by
  rcases fromDescriptor_cases os i.cache env d with ⟨-, -, hnot, -⟩ | ⟨hcache, -, -, hresult⟩
  · exact absurd h hnot
  · have hcomp := h.completes
    have ho := importBlock_outcome os i.cache env.importEnv d.importArgs
    have hreceived : (i.receive os env d).1.cache =
        (importBlock os i.cache env.importEnv d.importArgs).cache := hcache
    rw [hreceived]
    generalize importBlock os i.cache env.importEnv d.importArgs = c at ho hresult ⊢
    cases ho with
    | leaked log e hskip => exact absurd hcomp hskip.not_completes
    | waiting log hwaits => exact absurd hcomp hwaits.not_completes
    | cleaned log e hnot _ _ _ => exact absurd hcomp hnot
    | completed entry log _ _ hentry =>
      obtain ⟨impl, himpl, hsize, hptr, -⟩ := hresult
      refine ⟨entry, impl, Function.update_self .., ?_, himpl, hsize, hptr⟩
      rcases hentry with ⟨hmiss, -, -, hlen⟩ | hhit
      · have hmiss' : i.cache (d.vmmPid, d.vmmBlockId) = none := hmiss
        rw [mappedLength, hmiss']
        exact hlen
      · have hhit' : i.cache (d.vmmPid, d.vmmBlockId) = some entry := hhit
        rw [mappedLength, hhit']

theorem import_within_range_iff (i : Importer) (os : Os) (env : ReceiveEnv)
    (d : CudaBufferDescriptor) :
    (∀ impl, (i.receive os env d).2 = .ok impl → impl.size ≠ 0 →
        ∃ entry, Backed (i.receive os env d).1 d impl entry) ↔
      (Accepted os i.cache env d → d.size * elementSize ≤ mappedLength i.cache d) := by
  constructor
  · intro hbacked h
    obtain ⟨entry, impl, hentry, hlen, himpl, hsize, -⟩ := i.received_entry os env d h
    rcases Nat.eq_zero_or_pos d.size with hzero | hpos
    · rw [hzero, Nat.zero_mul]
      exact Nat.zero_le _
    · obtain ⟨entry', hb⟩ := hbacked impl himpl (by omega)
      obtain rfl := Option.some.inj (hentry.symm.trans hb.cached)
      rw [← hlen, ← hsize]
      exact hb.fits
  · intro hle impl himpl hne
    by_cases h : Accepted os i.cache env d
    · obtain ⟨entry, impl', hentry, hlen, himpl', hsize, hptr⟩ := i.received_entry os env d h
      obtain rfl := Ending.ok.inj (himpl.symm.trans himpl')
      have hfits : impl.size * elementSize ≤ entry.size := by
        rw [hlen, hsize]
        exact hle h
      obtain ⟨htoCpu, hclone, hresize⟩ := inRange_copies hptr hfits
      exact ⟨entry, hentry, (i.receive os env d).1.mapped _ _ hentry, hptr, hfits, htoCpu, hclone,
        hresize⟩
    · have hempty : impl = emptyImpl := by
        rcases fromDescriptor_cases os i.cache env d with ⟨-, -, -, hall⟩ |
          ⟨-, -, haccepted, hresult⟩
        · exact hall impl himpl
        · have ho := importBlock_outcome os i.cache env.importEnv d.importArgs
          generalize importBlock os i.cache env.importEnv d.importArgs = c at ho hresult
          cases ho with
          | completed entry log hcomp _ _ => exact absurd (haccepted.mpr hcomp) h
          | leaked log e _ => exact Ending.ok.inj (himpl.symm.trans hresult)
          | waiting log _ => exact nomatch himpl.symm.trans hresult
          | cleaned log e _ _ _ _ => exact Ending.ok.inj (himpl.symm.trans hresult)
      exact absurd (congrArg CudaBufferImpl.size hempty) hne

/-- A process that has imported nothing. -/
def fresh : Importer := ⟨fun _ => none, [], fun _ _ => le_rfl, nofun⟩

/-- Every call succeeds, and the socket of the block serves an allocation. -/
def receiving : ReceiveEnv where
  cudaGetDevice := some 0
  importEnv :=
    { shmOpen := none, mmap := true, socket := some 3, connect := true, recvmsg := .rights 4,
      cuMemImportFromShareableHandle := true, cuMemAddressReserve := some 65536, cuMemMap := true,
      cudaGetDevice := true, cuMemSetAccess := true }
  cudaIpcOpenEventHandle := true

def serving : Os :=
  { sockets := fun name => if name = "cuda_vmm_7_0" then some (.serves 1) else none }

/-- The payload and the block of a descriptor. -/
def describing (size vmmBlockSize : ℕ) : CudaBufferDescriptor where
  size := size
  elementTypeName := "h"
  deviceId := 0
  useIpc := true
  vmmPid := 7
  vmmBlockId := 0
  vmmBlockSize := vmmBlockSize
  vmmSocketPath := "cuda_vmm_7_0"
  ipcUid := 0
  ipcEventHandle := zeroEventHandle

/-- A payload that is larger than its block, and one that is larger than the block was when
it was mapped. -/
theorem payload_outside_mapping :
    ¬ (∀ impl, (fresh.receive serving receiving (describing 8192 4096)).2 = .ok impl →
      impl.size ≠ 0 → ∃ entry, Backed (fresh.receive serving receiving (describing 8192 4096)).1
        (describing 8192 4096) impl entry) ∧
    ¬ (∀ impl, ((fresh.receive serving receiving (describing 4096 4096)).1.receive serving receiving
        (describing 8192 8192)).2 = .ok impl → impl.size ≠ 0 → ∃ entry,
      Backed ((fresh.receive serving receiving (describing 4096 4096)).1.receive serving receiving
        (describing 8192 8192)).1 (describing 8192 8192) impl entry) := by
  constructor
  · intro h
    obtain ⟨entry, hb⟩ := h _ rfl (by decide)
    obtain rfl := Option.some.inj hb.cached
    exact absurd hb.fits (by decide)
  · intro h
    obtain ⟨entry, hb⟩ := h _ rfl (by decide)
    obtain rfl := Option.some.inj hb.cached
    exact absurd hb.fits (by decide)

end RosidlBufferBackends.Cuda.Exposure
