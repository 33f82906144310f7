import RosidlBufferBackends.Buffers.CudaBuffer
import RosidlBufferBackends.Cuda.Capacity
import RosidlBufferBackends.Lib.Transfers

/-! `CudaBufferImpl::resize` and `clear` over the pool, one shared access at a time, while the
streams and the recycler go on. Block creation, `cudaStreamWaitEvent` and `cudaMemcpyAsync`
may fail; the streams are usable. Between the calls the buffer is written and read on streams
through handles that are closed again. -/

namespace RosidlBufferBackends.Cuda.Resizing

open Streams

abbrev Bytes := ℕ → UInt8

/-- An event, with the point that it has recorded if it was recorded. -/
abbrev CudaEvent := Option (Point ℕ)

/-- The device pointer is a block of the pool. -/
structure CudaBuffer where
  devicePtr : Option ℕ := none
  size : ℕ := 0
  writeEvent : Option CudaEvent := none
  readEvents : List (Point ℕ) := []
  handleState : Buffers.HandleState := {}
  recycler : Bool := false

structure PendingWork where
  events : List CudaEvent
  devicePtr : Option ℕ

inductive ResizeError
  | allocation (e : CudaError)
  | streamWaitEvent
  | memcpyAsync

/-- What `resize` has done since it allocated the new buffer; the read handle is open in
`reading`, `copied` and `writeClosed`, the write handle in `reading` and `copied`. -/
inductive Stage
  | allocated
  | reaped
  | reading
  | copied (thrown : Option ResizeError)
  | writeClosed (thrown : Option ResizeError)
  | closed (thrown : Option ResizeError)

inductive Call
  | none
  | allocating (n : ℕ)
  | resizing (n : ℕ) (newBuffer : CudaBuffer) (stage : Stage)

/-- The impl, the pool, the recycler's queue and the device that they share. -/
structure State where
  device : Device ℕ ℕ Bytes
  pool : PoolPartition.State
  queue : List PendingWork := []
  size : ℕ := 0
  cudaBuffer : CudaBuffer := {}
  stream : Option ℕ := .none
  call : Call := .none

/-- The results of the calls that one step of `resize` makes. -/
structure Env where
  now : ℕ
  createBlock : CreateBlockEnv
  streamWaitEvent : Bool
  memcpyAsync : Bool

/-- The launches of a write make the bytes of the buffer from what they were. -/
inductive Event
  | resize (n : ℕ)
  | clear
  | write (k : ℕ) (launches : List (Bytes → Bytes))
  | read (k : ℕ)
  | proceed (env : Env)
  | finish (k : ℕ)
  | recycle
  | perturb (segments : ℕ → IPCMetadata)

/-- A call that ends names the block of the buffer that it destroyed. -/
inductive Output
  | quiet
  | returned (abandoned : Option ℕ)
  | threw (e : ResizeError) (abandoned : Option ℕ)
  | recycled (devicePtr : Option ℕ)

def internalStream : ℕ := 0

namespace CudaBuffer

def reap (gpu : Gpu ℕ (Transfer ℕ Bytes)) (buf : CudaBuffer) : CudaBuffer :=
  { buf with readEvents := buf.readEvents.filter fun p => !gpu.passed p }

/-- An open write is finalized: its event is recorded on the stream of the write. -/
def finalizeWrite (gpu : Gpu ℕ (Transfer ℕ Bytes)) (buf : CudaBuffer) : CudaBuffer :=
  if buf.handleState.state = .inUse then
    { buf with
      writeEvent :=
        match buf.handleState.writeStream with
        | some k => buf.writeEvent.map fun _ => some (gpu.here k)
        | none => buf.writeEvent
      handleState := { state := .finalized, writeStream := none } }
  else buf

/-- What `get_write_handle` does when it does not throw. -/
def acquireWrite (k : ℕ) (buf : CudaBuffer) : CudaBuffer :=
  { buf with handleState := { state := .inUse, writeStream := some k } }

def releaseRead (gpu : Gpu ℕ (Transfer ℕ Bytes)) (k : ℕ) (buf : CudaBuffer) : CudaBuffer :=
  { buf with readEvents := buf.readEvents ++ [gpu.here k] }

def eventsToSync (buf : CudaBuffer) : List CudaEvent :=
  buf.writeEvent.toList ++ buf.readEvents.map some

end CudaBuffer

/-- `cudaMemcpyAsync` of the first `count` bytes. -/
def copyBytes (count : ℕ) (source target : Option ℕ) : Transfer ℕ Bytes where
  source := source
  target := target
  effect x y j := if j < count then x.elim (y j) fun bytes => bytes j else y j

/-- A kernel that works on the bytes of the buffer. -/
def launch (target : Option ℕ) (f : Bytes → Bytes) : Transfer ℕ Bytes where
  target := target
  effect _ bytes := f bytes

/-- A kernel that only reads the buffer. -/
def load (source : Option ℕ) : Transfer ℕ Bytes where
  source := source
  effect _ bytes := bytes

def launchAll (k : ℕ) (target : Option ℕ) (launches : List (Bytes → Bytes))
    (device : Device ℕ ℕ Bytes) : Device ℕ ℕ Bytes :=
  launches.foldl (fun d f => d.enqueue k (.work (launch target f))) device

namespace State

def streamOf (s : State) : ℕ := s.stream.getD internalStream

/-- `pool->allocate` -/
def allocate (pid : ℤ) (pool : PoolPartition.State) (byteSize now : ℕ) (env : CreateBlockEnv) :
    Except CudaError ℕ × PoolPartition.State :=
  let c := pool.pool.allocate pool.os pid now env byteSize
  (c.result,
    { os := c.os
      pool := c.pool
      handedOut := PoolPartition.handOut pool.handedOut c.result
      creations := pool.creations + (CudaMemoryPool.findCandidate pool.os pool.pool now
        (pool.pool.roundToGranularity byteSize)).isNone.toNat })

/-- The deleter of a block. -/
def free (s : State) : Option ℕ → State
  | none => s
  | some r =>
    { s with pool := { s.pool with
        pool := s.pool.pool.free r
        handedOut := s.pool.handedOut.erase r } }

/-- `~CudaBuffer`: without events the deleter runs at once. -/
def destroy (s : State) (buf : CudaBuffer) : State :=
  if !buf.eventsToSync.isEmpty && buf.recycler then
    { s with queue := s.queue ++ [⟨buf.eventsToSync, buf.devicePtr⟩] }
  else s.free buf.devicePtr

/-- The temporary buffer takes the storage over and is destroyed. -/
def clear (s : State) : State :=
  { s with
    cudaBuffer := {}
    size := 0 }.destroy s.cudaBuffer

/-- `get_write_handle`, the launches, and the destructor of the handle. The call throws if the
buffer was written before, or if reads of it are not known to be done. -/
def write (s : State) (k : ℕ) (launches : List (Bytes → Bytes)) : State :=
  let buf := s.cudaBuffer.reap s.device.gpu
  if buf.handleState.state = .unset ∧ buf.readEvents = [] then
    let device := launchAll k buf.devicePtr launches s.device
    { s with
      device := device
      cudaBuffer := (buf.acquireWrite k).finalizeWrite device.gpu }
  else { s with cudaBuffer := buf }

/-- `get_read_handle`, a kernel that reads, and the destructor of the handle. -/
def read (s : State) (k : ℕ) : State :=
  let buf := (s.cudaBuffer.reap s.device.gpu).finalizeWrite s.device.gpu
  let ready := buf.writeEvent.join.elim s.device fun p => s.device.enqueue k (.wait p)
  let device := ready.enqueue k (.work (load buf.devicePtr))
  { s with
    device := device
    cudaBuffer := buf.releaseRead device.gpu k }

def allocateBufferInternal (s : State) (pid : ℤ) (width n : ℕ) (env : Env) : Output × State :=
  match allocate pid s.pool (n * width % 2 ^ 64) env.now env.createBlock with
  | (.error e, pool) =>
    (.threw (.allocation e) none,
      { s with
        pool := pool
        call := .none })
  | (.ok r, pool) =>
    (.quiet,
      { s with
        pool := pool
        call := .resizing n
          { devicePtr := some r
            size := n * width % 2 ^ 64
            writeEvent := some none
            recycler := true }
          (if 0 < s.size ∧ 0 < s.cudaBuffer.size then .allocated else .closed none) })

/-- The constructor of the read handle may throw; then the write handle is taken. -/
def getHandles (s : State) (n : ℕ) (newBuffer : CudaBuffer) (env : Env) : State :=
  let buf := s.cudaBuffer.finalizeWrite s.device.gpu
  match buf.writeEvent with
  | none =>
    { s with
      cudaBuffer := buf
      call := .resizing n (newBuffer.acquireWrite s.streamOf) .reading }
  | some event =>
    if env.streamWaitEvent then
      { s with
        device := event.elim s.device fun p => s.device.enqueue s.streamOf (.wait p)
        cudaBuffer := buf
        call := .resizing n (newBuffer.acquireWrite s.streamOf) .reading }
    else
      { s with
        cudaBuffer := buf
        call := .resizing n newBuffer (.closed (some .streamWaitEvent)) }

def copy (s : State) (width n : ℕ) (newBuffer : CudaBuffer) (env : Env) : State :=
  if env.memcpyAsync then
    { s with
      device := s.device.enqueue s.streamOf (.work (copyBytes (min n s.size * width)
        s.cudaBuffer.devicePtr newBuffer.devicePtr))
      call := .resizing n newBuffer (.copied none) }
  else { s with call := .resizing n newBuffer (.copied (some .memcpyAsync)) }

/-- The new buffer is assigned, or lost to an exception; what is left of the two is destroyed. -/
def leave (s : State) (n : ℕ) (newBuffer : CudaBuffer) : Option ResizeError → Output × State
  | none =>
    (.returned s.cudaBuffer.devicePtr,
      { s with
        cudaBuffer := newBuffer
        size := n
        call := .none }.destroy s.cudaBuffer)
  | some e => (.threw e newBuffer.devicePtr, { s with call := .none }.destroy newBuffer)

def proceed (s : State) (pid : ℤ) (width : ℕ) (env : Env) : Option (Output × State) :=
  match s.call with
  | .none => none
  | .allocating n => some (s.allocateBufferInternal pid width n env)
  | .resizing n newBuffer .allocated =>
    some (.quiet,
      { s with
        cudaBuffer := s.cudaBuffer.reap s.device.gpu
        call := .resizing n newBuffer .reaped })
  | .resizing n newBuffer .reaped => some (.quiet, s.getHandles n newBuffer env)
  | .resizing n newBuffer .reading => some (.quiet, s.copy width n newBuffer env)
  | .resizing n newBuffer (.copied thrown) =>
    some (.quiet,
      { s with
        call := .resizing n (newBuffer.finalizeWrite s.device.gpu) (.writeClosed thrown) })
  | .resizing n newBuffer (.writeClosed thrown) =>
    some (.quiet,
      { s with
        cudaBuffer := s.cudaBuffer.releaseRead s.device.gpu s.streamOf
        call := .resizing n newBuffer (.closed thrown) })
  | .resizing n newBuffer (.closed thrown) => some (s.leave n newBuffer thrown)

/-- One turn of `BufferRecycler::run`, which waits for the events of the first item. -/
def recycle (s : State) : Option (Output × State) :=
  match s.queue with
  | [] => none
  | item :: rest =>
    if item.events.all fun event => event.all s.device.gpu.passed then
      some (.recycled item.devicePtr, { s with queue := rest }.free item.devicePtr)
    else none

end State

/-- The elements have `width` bytes each. -/
def step (pid : ℤ) (width : ℕ) (s : State) : Event → Option (Output × State)
  | .resize n =>
    match s.call with
    | .none =>
      if n = s.size then some (.returned none, s)
      else if n = 0 then some (.returned s.cudaBuffer.devicePtr, s.clear)
      else some (.quiet, { s with call := .allocating n })
    | _ => none
  | .clear =>
    match s.call with
    | .none => some (.returned s.cudaBuffer.devicePtr, s.clear)
    | _ => none
  | .write k launches =>
    match s.call with
    | .none => some (.quiet, s.write k launches)
    | _ => none
  | .read k =>
    match s.call with
    | .none => some (.quiet, s.read k)
    | _ => none
  | .proceed env => s.proceed pid width env
  | .finish k =>
    match s.device.finish k with
    | none => none
    | some device => some (.quiet, { s with device := device })
  | .recycle => s.recycle
  | .perturb segments =>
    some (.quiet, { s with pool := { s.pool with os := { s.pool.os with segments := segments } } })

end RosidlBufferBackends.Cuda.Resizing
