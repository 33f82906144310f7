import RosidlBufferBackends.Cuda.MemoryPool

/-! Registration of exported blocks with the socket dispatcher, and the import of
a block by a subscriber process. -/

namespace RosidlBufferBackends.Cuda

structure CachedImport where
  handle : ℕ
  va : ℕ
  size : ℕ
  ipcMeta : Option ℕ
  deriving DecidableEq, Repr

/-- Keyed by the publisher's pid and its block id. -/
abbrev ImportCache := ℤ × ℕ → Option CachedImport

structure ImportResult where
  va : ℕ
  ipcMeta : Option ℕ
  deriving DecidableEq, Repr

/-- The control buffer of `recvmsg` has room for two files; a call that `waits` does
not return. -/
inductive RecvOutcome
  | failed
  | noRights
  | rights (fd : ℤ) (second : Option ℤ := none)
  | waits
  deriving DecidableEq, Repr

/-- The results of the calls that `importBlock` makes. -/
structure ImportEnv where
  shmOpen : Option ℤ
  mmap : Bool
  socket : Option ℤ
  connect : Bool
  recvmsg : RecvOutcome
  cuMemImportFromShareableHandle : Bool
  cuMemAddressReserve : Option ℕ
  cuMemMap : Bool
  cudaGetDevice : Bool
  cuMemSetAccess : Bool
  deriving DecidableEq, Repr

structure ImportArgs where
  socketPath : String
  pid : ℤ
  blockId : ℕ
  size : ℕ
  expectedUid : ℕ
  deriving DecidableEq, Repr

structure ImportCall where
  os : Os
  cache : ImportCache
  log : List (Action Resource)
  result : Ending ImportResult

structure RegisterEnv where
  socket : Bool
  bind : Bool
  listen : Bool
  dup : Bool
  epollCtl : Bool
  deriving DecidableEq, Repr

def sunPathSize : ℕ := 108

def makeAbstractUnixAddr (name : String) : Except CudaError String :=
  if name.isEmpty ∨ name.utf8ByteSize > sunPathSize - 1 then
    .error (.message "Invalid abstract Unix socket name")
  else .ok name

def socketName (pid : ℤ) (blockId : ℕ) : String :=
  "cuda_vmm_" ++ pid.repr ++ "_" ++ blockId.repr

namespace CudaVmmIPCManager

def checkUidStaleness (os : Os) (ipcMeta : Option ℕ) (expectedUid : ℕ) : Except CudaError Unit :=
  match ipcMeta with
  | none => .ok ()
  | some seg =>
      if expectedUid = 0 then .ok ()
      else if (os.segments seg).uid ≠ expectedUid then
        .error (.message "IPC block recycled before import (stale UID)")
      else .ok ()

def createFdServerSocket (env : RegisterEnv) (socketPath : String) : Except CudaError Bool :=
  if env.socket = false then .ok false
  else
    match makeAbstractUnixAddr socketPath with
    | .error e => .error e
    | .ok _ => .ok (env.bind && env.listen)

def listenerOf (served : Option ℕ) : Listener := served.elim .unserved .serves

/-- The dispatcher serves a duplicate of the exported file on the socket. When it cannot
duplicate the file or watch the socket, nobody serves the socket, which stays open. -/
def addSocket (os : Os) (env : RegisterEnv) (socketPath : String) (fd : ℤ) : Os :=
  let served := if env.dup && env.epollCtl then os.files fd else none
  { os with sockets := Function.update os.sockets socketPath (some (listenerOf served)) }

def registerBlock (os : Os) (pid : ℤ) (pool : CudaMemoryPool) (env : RegisterEnv) (r : ℕ) :
    Os × CudaMemoryPool × Except CudaError String :=
  let b := pool.block r
  match pool.registeredBlocks b.blockId with
  | some socketPath => (os, pool, .ok socketPath)
  | none =>
      let socketPath := socketName pid b.blockId
      match createFdServerSocket env socketPath with
      | .error e => (os, pool, .error e)
      | .ok false =>
          (os, pool, .error (.message "Failed to create FD server socket for block"))
      | .ok true =>
          (addSocket os env socketPath b.exportedFd,
            { pool with
              registeredBlocks :=
                Function.update pool.registeredBlocks b.blockId (some socketPath) },
            .ok socketPath)

/-- The received file, with the allocation it refers to; `none` stands for -1.
The name is checked after the client socket has been opened, and of two received files
the second is not looked at. -/
def receiveFdFromSocket (os : Os) (env : ImportEnv) (socketPath : String) :
    List (Action Resource) × Ending (Option (ℤ × ℕ)) :=
  match env.socket with
  | none => ([], .ok none)
  | some sock =>
      let opened : List (Action Resource) := [.acquire (.clientSocket sock)]
      let closed : List (Action Resource) := [.release (.clientSocket sock)]
      match makeAbstractUnixAddr socketPath with
      | .error e => (opened, .error e)
      | .ok name =>
          match (if env.connect then os.sockets name else none), env.recvmsg with
          | none, _ => (opened ++ closed, .ok none)
          | some _, .failed => (opened ++ closed, .ok none)
          -- nobody answers; the call returns when it is interrupted or the socket is closed
          | some .unserved, _ => (opened, .waits none)
          | some (.serves _), .waits => (opened, .waits none)
          | some (.serves _), .noRights => (opened ++ closed, .ok none)
          | some (.serves a), .rights fd second =>
              (opened ++ (fd :: second.toList).map (fun fd => .acquire (.receivedFd fd)) ++ closed,
                .ok (some (fd, a)))

/-- The metadata segment of the block, if it can be opened and mapped. -/
def mapMetadata (os : Os) (env : ImportEnv) (args : ImportArgs) :
    Option ℕ × List (Action Resource) :=
  match env.shmOpen, os.shmNames (shmName args.pid args.blockId) with
  | some fd, some seg =>
      if env.mmap then
        (some seg, [.acquire (.shmFd fd), .acquire (.metadataMapping seg), .release (.shmFd fd)])
      else (none, [.acquire (.shmFd fd), .release (.shmFd fd)])
  | _, _ => (none, [])

def retain (os : Os) (ipcMeta : Option ℕ) : Os :=
  match ipcMeta with
  | none => os
  | some seg => os.modifySegment seg IPCMetadata.fetchAdd

def dropReference (os : Os) (ipcMeta : Option ℕ) : Os :=
  match ipcMeta with
  | none => os
  | some seg => os.modifySegment seg IPCMetadata.fetchSub

/-- The clean-up of a failed import that still holds `held`. -/
def cleanupFailedImport (os : Os) (ipcMeta : Option ℕ) (held : List Resource) :
    Os × List (Action Resource) :=
  (dropReference os ipcMeta,
    held.map .release ++ (ipcMeta.toList.map (fun seg => .release (.metadataMapping seg))))

def importFresh (os : Os) (cache : ImportCache) (env : ImportEnv) (args : ImportArgs) :
    ImportCall :=
  let (ipcMeta, log) := mapMetadata os env args
  let os := retain os ipcMeta
  let fail := fun (log : List (Action Resource)) (held : List Resource) (e : CudaError) =>
    let (os, cleanup) := cleanupFailedImport os ipcMeta held
    (⟨os, cache, log ++ cleanup, .error e⟩ : ImportCall)
  match checkUidStaleness os ipcMeta args.expectedUid with
  | .error e => fail log [] e
  | .ok () =>
      let (received, fd) := receiveFdFromSocket os env args.socketPath
      let log := log ++ received
      match fd with
      -- the exception of the address check leaves without the clean-up
      | .error e => ⟨os, cache, log, .error e⟩
      | .waits _ => ⟨os, cache, log, .waits ipcMeta⟩
      | .ok none =>
          fail log [] (.message ("Failed to receive VMM FD from socket: " ++ args.socketPath))
      | .ok (some (fd, a)) =>
          if env.cuMemImportFromShareableHandle = false then
            fail (log ++ [.release (.receivedFd fd)]) []
              (.driver "cuMemImportFromShareableHandle")
          else
            let log := log ++ [.acquire (.allocationHandle a), .release (.receivedFd fd)]
            match env.cuMemAddressReserve with
            | none => fail log [.allocationHandle a] (.driver "cuMemAddressReserve")
            | some va =>
                let log := log ++ [.acquire (.addressRange va args.size)]
                if env.cuMemMap = false then
                  fail log [.addressRange va args.size, .allocationHandle a] (.driver "cuMemMap")
                else
                  let log := log ++ [.acquire (.mapping va args.size)]
                  let held : List Resource :=
                    [.mapping va args.size, .addressRange va args.size, .allocationHandle a]
                  if env.cudaGetDevice = false then fail log held (.runtime "cudaGetDevice")
                  else if env.cuMemSetAccess = false then
                    fail log held (.driver "cuMemSetAccess")
                  else
                    ⟨os, Function.update cache (args.pid, args.blockId)
                      (some ⟨a, va, args.size, ipcMeta⟩), log, .ok ⟨va, ipcMeta⟩⟩

def importCached (os : Os) (cache : ImportCache) (args : ImportArgs) (entry : CachedImport) :
    ImportCall :=
  let os := retain os entry.ipcMeta
  match checkUidStaleness os entry.ipcMeta args.expectedUid with
  | .error e => ⟨dropReference os entry.ipcMeta, cache, [], .error e⟩
  | .ok () => ⟨os, cache, [], .ok ⟨entry.va, entry.ipcMeta⟩⟩

def importBlock (os : Os) (cache : ImportCache) (env : ImportEnv) (args : ImportArgs) :
    ImportCall :=
  match cache (args.pid, args.blockId) with
  | some entry => importCached os cache args entry
  | none => importFresh os cache env args

end CudaVmmIPCManager

end RosidlBufferBackends.Cuda
