import RosidlBufferBackends.Cuda.IpcManager

/-! The outcomes of `importBlock`: it completes, waits for an answer, fails behind its
clean-up, or leaves through the one exception that the clean-up does not catch. -/

namespace RosidlBufferBackends.Cuda

namespace CudaVmmIPCManager

/-- The metadata segment that the call maps, or finds in its cache entry. -/
def consulted (os : Os) (cache : ImportCache) (env : ImportEnv) (args : ImportArgs) : Option ℕ :=
  match cache (args.pid, args.blockId) with
  | some entry => entry.ipcMeta
  | none => (mapMetadata os env args).1

def UidAccepted (os : Os) (ipcMeta : Option ℕ) (expectedUid : ℕ) : Prop :=
  ∀ seg, ipcMeta = some seg → expectedUid = 0 ∨ (os.segments seg).uid = expectedUid

def ValidSocketName (name : String) : Prop :=
  ¬ name.isEmpty ∧ name.utf8ByteSize ≤ sunPathSize - 1

/-- The client is connected to a socket that somebody listens on. -/
structure Connects (os : Os) (env : ImportEnv) (args : ImportArgs) (listener : Listener) :
    Prop where
  socket : env.socket.isSome
  name : ValidSocketName args.socketPath
  connect : env.connect = true
  listening : os.sockets args.socketPath = some listener

/-- The client receives the file of an allocation, and possibly a second file. -/
structure ReceivesFd (os : Os) (env : ImportEnv) (args : ImportArgs) (a : ℕ) (fd : ℤ)
    (second : Option ℤ) : Prop where
  connects : Connects os env args (.serves a)
  recvmsg : env.recvmsg = .rights fd second

/-- The client has no answer and has not been interrupted. -/
structure Unanswered (os : Os) (env : ImportEnv) (args : ImportArgs) : Prop where
  connects : ∃ listener, Connects os env args listener ∧
    (listener = .unserved ∨ env.recvmsg = .waits)
  recvmsg : env.recvmsg ≠ .failed

/-- Every call of a fresh import behind the uid check succeeds. -/
structure Received (os : Os) (env : ImportEnv) (args : ImportArgs) : Prop where
  receivesFd : ∃ a fd second, ReceivesFd os env args a fd second
  cuMemImportFromShareableHandle : env.cuMemImportFromShareableHandle = true
  cuMemAddressReserve : env.cuMemAddressReserve.isSome
  cuMemMap : env.cuMemMap = true
  cudaGetDevice : env.cudaGetDevice = true
  cuMemSetAccess : env.cuMemSetAccess = true

/-- The call is not answered from the cache, and passes the uid check. -/
structure Fresh (os : Os) (cache : ImportCache) (env : ImportEnv) (args : ImportArgs) : Prop where
  miss : cache (args.pid, args.blockId) = none
  accepted : UidAccepted os (consulted os cache env args) args.expectedUid

/-- The condition on the call's inputs under which it returns normally. -/
def Completes (os : Os) (cache : ImportCache) (env : ImportEnv) (args : ImportArgs) : Prop :=
  UidAccepted os (consulted os cache env args) args.expectedUid ∧
    (cache (args.pid, args.blockId) = none → Received os env args)

/-- A client socket has been opened for a name that does not fit an address. -/
def SkipsCleanup (os : Os) (cache : ImportCache) (env : ImportEnv) (args : ImportArgs) : Prop :=
  Fresh os cache env args ∧ env.socket.isSome ∧ ¬ ValidSocketName args.socketPath

/-- The call stays in `recvmsg`. -/
def Waits (os : Os) (cache : ImportCache) (env : ImportEnv) (args : ImportArgs) : Prop :=
  Fresh os cache env args ∧ Unanswered os env args

/-- A call that received two files fails. -/
def Spills (os : Os) (cache : ImportCache) (env : ImportEnv) (args : ImportArgs) : Prop :=
  Fresh os cache env args ∧ (∃ a fd second, ReceivesFd os env args a fd (some second)) ∧
    ¬ Completes os cache env args

lemma ReceivesFd.answered {os : Os} {env : ImportEnv} {args : ImportArgs} {a : ℕ} {fd : ℤ}
    {second : Option ℤ} (h : ReceivesFd os env args a fd second) : ¬ Unanswered os env args := by
  rintro ⟨⟨listener, hc, hl⟩, -⟩
  obtain rfl : listener = .serves a :=
    Option.some.inj (hc.listening.symm.trans h.connects.listening)
  rcases hl with hl | hl
  · exact nomatch hl
  · exact nomatch h.recvmsg.symm.trans hl

lemma ReceivesFd.second_eq {os : Os} {env : ImportEnv} {args : ImportArgs} {a a' : ℕ} {fd fd' : ℤ}
    {second second' : Option ℤ} (h : ReceivesFd os env args a fd second)
    (h' : ReceivesFd os env args a' fd' second') : second = second' := by
  injection h.recvmsg.symm.trans h'.recvmsg

lemma Waits.not_completes {os : Os} {cache : ImportCache} {env : ImportEnv} {args : ImportArgs}
    (h : Waits os cache env args) : ¬ Completes os cache env args := by
  intro hc
  obtain ⟨a, fd, second, hd⟩ := (hc.2 h.1.miss).receivesFd
  exact hd.answered h.2

lemma SkipsCleanup.not_completes {os : Os} {cache : ImportCache} {env : ImportEnv}
    {args : ImportArgs} (h : SkipsCleanup os cache env args) : ¬ Completes os cache env args := by
  intro hc
  obtain ⟨a, fd, second, hd⟩ := (hc.2 h.1.miss).receivesFd
  exact h.2.2 hd.connects.name

lemma makeAbstractUnixAddr_ok {name : String} (h : ValidSocketName name) :
    makeAbstractUnixAddr name = .ok name := by
  have hn : ¬ (name.isEmpty ∨ name.utf8ByteSize > sunPathSize - 1) := by
    rintro (he | hs)
    · exact h.1 he
    · exact absurd h.2 (not_le.mpr hs)
  simp only [makeAbstractUnixAddr, if_neg hn]

lemma makeAbstractUnixAddr_error {name : String} (h : ¬ ValidSocketName name) :
    makeAbstractUnixAddr name = .error (.message "Invalid abstract Unix socket name") := by
  have hn : name.isEmpty ∨ name.utf8ByteSize > sunPathSize - 1 := by
    by_contra hn
    exact h ⟨fun he => hn (.inl he), not_lt.mp fun hs => hn (.inr hs)⟩
  simp only [makeAbstractUnixAddr, if_pos hn]

lemma checkUidStaleness_ok {os : Os} {ipcMeta : Option ℕ} {u : ℕ} (h : UidAccepted os ipcMeta u) :
    checkUidStaleness os ipcMeta u = .ok () := by
  cases ipcMeta with
  | none => rfl
  | some seg =>
    rcases h seg rfl with hu | hu
    · simp [checkUidStaleness, hu]
    · simp [checkUidStaleness, hu]

lemma checkUidStaleness_error {os : Os} {ipcMeta : Option ℕ} {u : ℕ}
    (h : ¬ UidAccepted os ipcMeta u) : checkUidStaleness os ipcMeta u =
      .error (.message "IPC block recycled before import (stale UID)") := by
  cases ipcMeta with
  | none => exact absurd (fun seg hs => nomatch hs) h
  | some seg =>
    have hu : u ≠ 0 ∧ (os.segments seg).uid ≠ u := by
      constructor <;> intro hu <;> refine h fun seg' hs => ?_ <;> obtain rfl := Option.some.inj hs
      · exact .inl hu
      · exact .inr hu
    simp [checkUidStaleness, hu.1, hu.2]

lemma checkUidStaleness_retain (os : Os) (ipcMeta : Option ℕ) (u : ℕ) :
    checkUidStaleness (retain os ipcMeta) ipcMeta u = checkUidStaleness os ipcMeta u := by
  cases ipcMeta <;> simp [checkUidStaleness, retain, IPCMetadata.fetchAdd]

@[simp] lemma dropReference_retain (os : Os) (ipcMeta : Option ℕ) :
    dropReference (retain os ipcMeta) ipcMeta = os := by
  cases ipcMeta with
  | none => rfl
  | some seg => simp [dropReference, retain, Os.modifySegment_modifySegment, Os.modifySegment_id]

@[simp] lemma retain_sockets (os : Os) (ipcMeta : Option ℕ) :
    (retain os ipcMeta).sockets = os.sockets := by
  cases ipcMeta <;> rfl

def mappings (ipcMeta : Option ℕ) : List Resource := ipcMeta.toList.map .metadataMapping

lemma mapMetadata_holds (os : Os) (env : ImportEnv) (args : ImportArgs) :
    Ledger.holds [] (mapMetadata os env args).2 = some (mappings (mapMetadata os env args).1) := by
  unfold mapMetadata
  cases env.shmOpen with
  | none => rfl
  | some fd =>
    cases os.shmNames (shmName args.pid args.blockId) with
    | none => rfl
    | some seg => cases env.mmap <;> simp [Ledger.holds, mappings]

/-- The second of two received files, which nothing closes. -/
def spilled (second : Option ℤ) : List Resource := second.toList.map .receivedFd

lemma erase_received (fd : ℤ) (second : Option ℤ) (held : List Resource) :
    (spilled second ++ .receivedFd fd :: held).erase (.receivedFd fd) = spilled second ++ held := by
  cases second with
  | none => simp [spilled]
  | some fd' =>
    by_cases hfd : fd' = fd
    · simp [spilled, hfd]
    · simp [spilled, hfd]

/-- What a failure with clean-up leaves behind: a second file. -/
lemma cleanup_left {os : Os} {ipcMeta : Option ℕ} {log : List (Action Resource)}
    {held : List Resource} {second : Option ℤ}
    (h : Ledger.holds [] log = some (held ++ (spilled second ++ mappings ipcMeta))) :
    Ledger.holds [] (log ++ (cleanupFailedImport os ipcMeta held).2) = some (spilled second) := by
  have hheld := Ledger.holds_frame (Ledger.holds_release_all held)
    (spilled second ++ mappings ipcMeta)
  have hmeta : Ledger.holds (spilled second ++ mappings ipcMeta)
      ((mappings ipcMeta).map .release) = some (spilled second) := by
    cases ipcMeta <;> cases second <;> simp [mappings, spilled, Ledger.holds]
  have hc : (cleanupFailedImport os ipcMeta held).2 =
      held.map .release ++ (mappings ipcMeta).map .release := by
    simp [cleanupFailedImport, mappings]
  rw [hc, Ledger.holds_append, h, Option.bind_some, Ledger.holds_append, hheld]
  exact hmeta

/-- How a call of `importBlock` ends. -/
inductive Outcome (os : Os) (cache : ImportCache) (env : ImportEnv) (args : ImportArgs) :
    ImportCall → Prop
  | completed (entry : CachedImport) (log : List (Action Resource)) :
      Completes os cache env args → entry.ipcMeta = consulted os cache env args →
      (cache (args.pid, args.blockId) = none ∧
          os.sockets args.socketPath = some (.serves entry.handle) ∧
          env.cuMemAddressReserve = some entry.va ∧ entry.size = args.size ∨
        cache (args.pid, args.blockId) = some entry) →
      Outcome os cache env args
        ⟨retain os entry.ipcMeta, Function.update cache (args.pid, args.blockId) (some entry),
          log, .ok ⟨entry.va, entry.ipcMeta⟩⟩
  | leaked (log : List (Action Resource)) (e : CudaError) :
      SkipsCleanup os cache env args →
      Outcome os cache env args ⟨retain os (consulted os cache env args), cache, log, .error e⟩
  | waiting (log : List (Action Resource)) :
      Waits os cache env args →
      Outcome os cache env args
        ⟨retain os (consulted os cache env args), cache, log, .waits (consulted os cache env args)⟩
  | cleaned (log : List (Action Resource)) (e : CudaError) :
      ¬ Completes os cache env args → ¬ SkipsCleanup os cache env args →
      ¬ Waits os cache env args → (Ledger.Settled log ↔ ¬ Spills os cache env args) →
      Outcome os cache env args ⟨os, cache, log, .error e⟩

lemma importCached_outcome {os : Os} {cache : ImportCache} (env : ImportEnv) {args : ImportArgs}
    {entry : CachedImport} (hc : cache (args.pid, args.blockId) = some entry) :
    Outcome os cache env args (importCached os cache args entry) := by
  have hm : entry.ipcMeta = consulted os cache env args := by simp [consulted, hc]
  by_cases hu : UidAccepted os entry.ipcMeta args.expectedUid
  · have hcache : Function.update cache (args.pid, args.blockId) (some entry) = cache := by
      rw [← hc, Function.update_eq_self]
    have h := @Outcome.completed os cache env args entry []
      ⟨hm ▸ hu, fun hn => nomatch hc.symm.trans hn⟩ hm (.inr hc)
    rw [hcache] at h
    simpa only [importCached, checkUidStaleness_retain, checkUidStaleness_ok hu] using h
  · have h := @Outcome.cleaned os cache env args []
      (.message "IPC block recycled before import (stale UID)") (fun h => hu (hm ▸ h.1))
      (fun h => nomatch hc.symm.trans h.1.miss) (fun h => nomatch hc.symm.trans h.1.miss)
      (iff_of_true rfl fun h => nomatch hc.symm.trans h.1.miss)
    simpa only [importCached, checkUidStaleness_retain, checkUidStaleness_error hu,
      dropReference_retain] using h

lemma receiveFd_cases (os : Os) (env : ImportEnv) (args : ImportArgs) :
    (∃ log, receiveFdFromSocket os env args.socketPath = (log, .ok none) ∧
      (∀ held, Ledger.holds held log = some held) ∧
      (∀ a fd second, ¬ ReceivesFd os env args a fd second) ∧ ¬ Unanswered os env args ∧
      ¬ (env.socket.isSome ∧ ¬ ValidSocketName args.socketPath)) ∨
    (∃ log e, receiveFdFromSocket os env args.socketPath = (log, .error e) ∧
      env.socket.isSome ∧ ¬ ValidSocketName args.socketPath) ∨
    (∃ log, receiveFdFromSocket os env args.socketPath = (log, .waits none) ∧
      Unanswered os env args) ∨
    (∃ log a fd second, receiveFdFromSocket os env args.socketPath = (log, .ok (some (fd, a))) ∧
      (∀ held, Ledger.holds held log = some (spilled second ++ .receivedFd fd :: held)) ∧
      ReceivesFd os env args a fd second) := by
  unfold receiveFdFromSocket
  cases hs : env.socket with
  | none =>
    refine .inl ⟨[], rfl, fun held => rfl, ?_, ?_, by simp⟩
    · exact fun a fd second h => by simpa [hs] using h.connects.socket
    · rintro ⟨⟨_, h, _⟩, -⟩
      simpa [hs] using h.socket
  | some sock =>
    by_cases hn : ValidSocketName args.socketPath
    · have hlost : ∀ held, Ledger.holds held
          [.acquire (Resource.clientSocket sock), .release (.clientSocket sock)] = some held := by
        simp [Ledger.holds]
      have hne : ¬ ((some sock).isSome ∧ ¬ ValidSocketName args.socketPath) := fun h => h.2 hn
      have hsome : env.socket.isSome := by simp [hs]
      simp only [makeAbstractUnixAddr_ok hn]
      cases hc : env.connect with
      | false =>
        refine .inl ⟨_, rfl, hlost, ?_, ?_, hne⟩
        · exact fun a fd second h => absurd (hc.symm.trans h.connects.connect) (by simp)
        · rintro ⟨⟨_, h, _⟩, -⟩
          exact absurd (hc.symm.trans h.connect) (by simp)
      | true =>
        cases ha : os.sockets args.socketPath with
        | none =>
          refine .inl ⟨_, rfl, hlost, ?_, ?_, hne⟩
          · exact fun a fd second h => absurd (ha.symm.trans h.connects.listening) (by simp)
          · rintro ⟨⟨_, h, _⟩, -⟩
            exact absurd (ha.symm.trans h.listening) (by simp)
        | some listener =>
          have hconn : Connects os env args listener := ⟨hsome, hn, hc, ha⟩
          cases hr : env.recvmsg with
          | failed =>
            refine .inl ⟨_, rfl, hlost, ?_, fun h => h.recvmsg hr, hne⟩
            exact fun a fd second h => absurd (hr.symm.trans h.recvmsg) (by simp)
          | waits =>
            refine .inr (.inr (.inl ⟨[.acquire (.clientSocket sock)], ?_,
              ⟨listener, hconn, .inr hr⟩, by simp [hr]⟩))
            cases listener <;> rfl
          | noRights =>
            cases listener with
            | unserved =>
              exact .inr (.inr (.inl ⟨_, rfl, ⟨_, hconn, .inl rfl⟩, by simp [hr]⟩))
            | serves a =>
              refine .inl ⟨_, rfl, hlost, ?_, ?_, hne⟩
              · exact fun a fd second h => absurd (hr.symm.trans h.recvmsg) (by simp)
              · rintro ⟨⟨listener, h, hl⟩, -⟩
                obtain rfl := Option.some.inj (ha.symm.trans h.listening)
                rcases hl with hl | hl
                · exact absurd hl (by simp)
                · exact absurd (hr.symm.trans hl) (by simp)
          | rights fd second =>
            cases listener with
            | unserved =>
              exact .inr (.inr (.inl ⟨_, rfl, ⟨_, hconn, .inl rfl⟩, by simp [hr]⟩))
            | serves a =>
              refine .inr (.inr (.inr ⟨_, a, fd, second, rfl, ?_, hconn, hr⟩))
              intro held
              cases second <;> simp [Ledger.holds, spilled]
    · simp only [makeAbstractUnixAddr_error hn]
      exact .inr (.inl ⟨_, _, rfl, rfl, hn⟩)

lemma importFresh_outcome {os : Os} {cache : ImportCache} {env : ImportEnv} {args : ImportArgs}
    (hc : cache (args.pid, args.blockId) = none) :
    Outcome os cache env args (importFresh os cache env args) := by
  have hm : consulted os cache env args = (mapMetadata os env args).1 := by simp [consulted, hc]
  have hmap := mapMetadata_holds os env args
  -- a failure that runs the clean-up ends in the initial state
  have clean : ∀ log held second e, ¬ Completes os cache env args →
      ¬ SkipsCleanup os cache env args →
      ¬ Waits os cache env args → (second = none ↔ ¬ Spills os cache env args) →
      Ledger.holds [] log = some (held ++
        (spilled second ++ mappings (mapMetadata os env args).1)) →
      Outcome os cache env args
        ⟨(cleanupFailedImport (retain os (mapMetadata os env args).1)
          (mapMetadata os env args).1 held).1, cache,
          log ++ (cleanupFailedImport (retain os (mapMetadata os env args).1)
            (mapMetadata os env args).1 held).2, .error e⟩ := by
    intro log held second e hcomp hskip hwaits hspills hh
    have hos : (cleanupFailedImport (retain os (mapMetadata os env args).1)
        (mapMetadata os env args).1 held).1 = os := dropReference_retain _ _
    rw [hos]
    refine .cleaned _ e hcomp hskip hwaits ?_
    rw [Ledger.Settled, cleanup_left hh, ← hspills]
    cases second <;> simp [spilled]
  unfold importFresh
  simp only [checkUidStaleness_retain]
  by_cases hu : UidAccepted os (mapMetadata os env args).1 args.expectedUid
  · have hfresh : Fresh os cache env args := ⟨hc, hm ▸ hu⟩
    rw [checkUidStaleness_ok hu]
    have hrecv : receiveFdFromSocket (retain os (mapMetadata os env args).1) env args.socketPath =
        receiveFdFromSocket os env args.socketPath := by
      simp only [receiveFdFromSocket, retain_sockets]
    simp only [hrecv]
    have hcomp : ¬ Received os env args → ¬ Completes os cache env args :=
      fun h hcomp => h (hcomp.2 hc)
    rcases receiveFd_cases os env args with ⟨log, hr, hl, hdel, hans, hskip⟩ |
      ⟨log, e, hr, hsock, hn⟩ | ⟨log, hr, hans⟩ | ⟨log, a, fd, second, hr, hl, hd⟩
    · simp only [hr]
      refine clean _ [] none _ (hcomp ?_) (fun h => hskip h.2) (fun h => hans h.2)
        (iff_of_true rfl ?_) ?_
      · rintro ⟨⟨a, fd, second, hd⟩, -⟩
        exact hdel a fd second hd
      · rintro ⟨-, ⟨a, fd, second, hd⟩, -⟩
        exact hdel a fd _ hd
      · simp [Ledger.holds_append, hmap, hl, spilled]
    · simp only [hr]
      rw [← hm]
      exact .leaked _ _ ⟨hfresh, hsock, hn⟩
    · simp only [hr]
      rw [← hm]
      exact .waiting _ ⟨hfresh, hans⟩
    · have hskip : ¬ SkipsCleanup os cache env args := fun h => h.2.2 hd.connects.name
      have hwaits : ¬ Waits os cache env args := fun h => hd.answered h.2
      -- behind the reception a failure keeps the second file
      have fail : ∀ log held e, ¬ Received os env args →
          Ledger.holds [] log =
            some (held ++ (spilled second ++ mappings (mapMetadata os env args).1)) →
          Outcome os cache env args
            ⟨(cleanupFailedImport (retain os (mapMetadata os env args).1)
              (mapMetadata os env args).1 held).1, cache,
              log ++ (cleanupFailedImport (retain os (mapMetadata os env args).1)
                (mapMetadata os env args).1 held).2, .error e⟩ := by
        intro log held e hrec hh
        refine clean log held second e (hcomp hrec) hskip hwaits ?_ hh
        constructor
        · rintro rfl ⟨-, ⟨a', fd', second', hd'⟩, -⟩
          exact absurd (hd.second_eq hd') (by simp)
        · intro hspills
          cases second with
          | none => rfl
          | some fd' => exact absurd ⟨hfresh, ⟨a, fd, fd', hd⟩, hcomp hrec⟩ hspills
      simp only [hr]
      cases hi : env.cuMemImportFromShareableHandle with
      | false =>
        refine fail _ [] _ (fun h => ?_) ?_
        · simpa [hi] using h.cuMemImportFromShareableHandle
        · simp [Ledger.holds_append, Ledger.holds, hmap, hl, erase_received]
      | true =>
        cases hv : env.cuMemAddressReserve with
        | none =>
          refine fail _ _ _ (fun h => ?_) ?_
          · simpa [hv] using h.cuMemAddressReserve
          · simp [Ledger.holds_append, Ledger.holds, hmap, hl, erase_received]
        | some va =>
          cases hmm : env.cuMemMap with
          | false =>
            refine fail _ _ _ (fun h => ?_) ?_
            · simpa [hmm] using h.cuMemMap
            · simp [Ledger.holds_append, Ledger.holds, hmap, hl, erase_received]
          | true =>
            cases hg : env.cudaGetDevice with
            | false =>
              refine fail _ _ _ (fun h => ?_) ?_
              · simpa [hg] using h.cudaGetDevice
              · simp [Ledger.holds_append, Ledger.holds, hmap, hl, erase_received]
            | true =>
              cases hacc : env.cuMemSetAccess with
              | false =>
                refine fail _ _ _ (fun h => ?_) ?_
                · simpa [hacc] using h.cuMemSetAccess
                · simp [Ledger.holds_append, Ledger.holds, hmap, hl, erase_received]
              | true =>
                have hrec : Received os env args :=
                  ⟨⟨a, fd, second, hd⟩, hi, by simp [hv], hmm, hg, hacc⟩
                exact .completed ⟨a, va, args.size, (mapMetadata os env args).1⟩ _
                  ⟨hm ▸ hu, fun _ => hrec⟩ hm.symm (.inl ⟨hc, hd.connects.listening, hv, rfl⟩)
  · rw [checkUidStaleness_error hu]
    have hfresh : ¬ Fresh os cache env args := fun h => hu (hm ▸ h.accepted)
    refine clean _ [] none _ (fun h => hu (hm ▸ h.1)) (fun h => hfresh h.1) (fun h => hfresh h.1)
      (iff_of_true rfl fun h => hfresh h.1) ?_
    simp [hmap, spilled]

lemma importBlock_outcome (os : Os) (cache : ImportCache) (env : ImportEnv) (args : ImportArgs) :
    Outcome os cache env args (importBlock os cache env args) := by
  unfold importBlock
  cases hc : cache (args.pid, args.blockId) with
  | none => exact importFresh_outcome hc
  | some entry => exact importCached_outcome env hc

/-- The call counts the import and caches it, or leaves no trace. A call that waits has
made no import that would be counted. -/
def AllOrNothing (os : Os) (cache : ImportCache) (args : ImportArgs) (seg : ℕ)
    (c : ImportCall) : Prop :=
  match c.result with
  | .ok _ => (c.os.segments seg).refcount.toInt = (os.segments seg).refcount.toInt + 1 ∧
      (c.cache (args.pid, args.blockId)).isSome
  | .error _ => (c.os.segments seg).refcount = (os.segments seg).refcount ∧ c.cache = cache ∧
      Ledger.Settled c.log
  | .waits _ => (c.os.segments seg).refcount = (os.segments seg).refcount

/-- No exception skips the clean-up, no reply brings a second file to a call that fails,
and a completed import has room in the refcount. The call does not wait for ever. -/
structure ImportSafe (os : Os) (cache : ImportCache) (env : ImportEnv) (args : ImportArgs)
    (seg : ℕ) : Prop where
  cleanup : ¬ SkipsCleanup os cache env args
  answered : ¬ Waits os cache env args
  received : ¬ Spills os cache env args
  room : Completes os cache env args → (os.segments seg).refcount.toInt < 2 ^ 31 - 1

lemma allOrNothing_iff {os : Os} {cache : ImportCache} {env : ImportEnv} {args : ImportArgs}
    {seg : ℕ} (hseg : consulted os cache env args = some seg) :
    AllOrNothing os cache args seg (importBlock os cache env args) ↔
      ImportSafe os cache env args seg := by
  have hadd := (os.segments seg).fetchAdd_toInt
  have hne := (os.segments seg).fetchAdd_refcount_ne
  have ho := importBlock_outcome os cache env args
  generalize importBlock os cache env args = c at ho
  cases ho with
  | completed entry log hcomp hm _ =>
    simp only [AllOrNothing, hm, hseg, retain, Os.modifySegment_self, hadd, Function.update_self,
      Option.isSome_some, and_true]
    constructor
    · intro h
      exact ⟨fun hs => hs.not_completes hcomp, fun hw => hw.not_completes hcomp,
        fun hs => hs.2.2 hcomp, fun _ => h⟩
    · exact fun h => h.room hcomp
  | leaked log e hskip =>
    simp only [AllOrNothing, hseg, retain, Os.modifySegment_self]
    exact ⟨fun h => absurd h.1 hne, fun h => absurd hskip h.cleanup⟩
  | waiting log hwaits =>
    simp only [AllOrNothing, hseg, retain, Os.modifySegment_self]
    exact ⟨fun h => absurd h hne, fun h => absurd hwaits h.answered⟩
  | cleaned log e hcomp hskip hwaits hl =>
    constructor
    · exact fun h => ⟨hskip, hwaits, hl.mp h.2.2, fun h => absurd h hcomp⟩
    · exact fun h => ⟨rfl, rfl, hl.mpr h.received⟩

end CudaVmmIPCManager

end RosidlBufferBackends.Cuda
