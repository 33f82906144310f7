import RosidlBufferBackends.Lib.Streams

/-! `CudaBuffer`, its read and write handles and the recycler, on streams that are
FIFO queues. All CUDA calls succeed. -/

namespace RosidlBufferBackends.Buffers

open Streams

/-- The default stream `nullptr` is `none`. -/
abbrev Stream := Option ℕ

def cudaIsStreamUsable (st : Stream) : Bool := st.isSome

/-- The allocations that a piece of GPU work reads and writes. -/
structure Work where
  source : Option ℕ
  target : Option ℕ
  deriving DecidableEq, Repr

inductive HandleState.State
  | unset
  | inUse
  | finalized
  deriving DecidableEq, Repr

structure HandleState where
  state : HandleState.State := .unset
  writeStream : Stream := none
  deriving DecidableEq, Repr

/-- `readEvents` points into the buffer object of that number. -/
structure ReadHandle where
  dataPtr : Option ℕ := none
  readEvents : Option ℕ := none
  stream : Stream := none
  deriving DecidableEq, Repr

structure WriteHandle where
  dataPtr : Option ℕ := none
  writeEventPtr : Option ℕ := none
  stream : Stream := none
  state : Option ℕ := none
  deriving DecidableEq, Repr

structure CudaBuffer where
  devicePtr : Option ℕ := none
  size : ℕ := 0
  writeEvent : Option ℕ := none
  ownsWriteEvent : Bool := false
  readEvents : List ℕ := []
  handleState : Option ℕ := none
  recycler : Bool := false
  deriving DecidableEq, Repr

structure PendingWork where
  events : List ℕ
  devicePtr : Option ℕ
  deriving DecidableEq, Repr

/-- Its `cuda_buffer_` is the buffer object of the same number. -/
structure CudaBufferImpl where
  size : ℕ
  stream : Stream := none
  deriving DecidableEq, Repr

inductive WriteError
  | alreadyInUse
  | alreadyFinalized
  | readEventsExist
  deriving DecidableEq, Repr

/-- `deleted` counts the runs of an allocation's deleter. -/
structure Process where
  gpu : Gpu Stream Work := {}
  recorded : ℕ → Option (Point Stream) := fun _ => none
  nextEvent : ℕ := 0
  buffers : ℕ → Option CudaBuffer := fun _ => none
  nextBuffer : ℕ := 0
  impls : ℕ → Option CudaBufferImpl := fun _ => none
  nextAllocation : ℕ := 0
  deleted : ℕ → ℕ := fun _ => 0
  states : ℕ → HandleState := fun _ => {}
  nextState : ℕ := 0
  readHandles : ℕ → Option ReadHandle := fun _ => none
  nextRead : ℕ := 0
  writeHandles : ℕ → Option WriteHandle := fun _ => none
  nextWrite : ℕ := 0
  queue : List PendingWork := []

namespace Process

def setBuffer (s : Process) (b : ℕ) (x : Option CudaBuffer) : Process :=
  { s with buffers := Function.update s.buffers b x }

def addBuffer (s : Process) (buf : CudaBuffer) : Process :=
  { s.setBuffer s.nextBuffer (some buf) with nextBuffer := s.nextBuffer + 1 }

def setState (s : Process) (hs : ℕ) (x : HandleState) : Process :=
  { s with states := Function.update s.states hs x }

def setRead (s : Process) (h : ℕ) (x : Option ReadHandle) : Process :=
  { s with readHandles := Function.update s.readHandles h x }

def addRead (s : Process) (rh : ReadHandle) : Process :=
  { s.setRead s.nextRead (some rh) with nextRead := s.nextRead + 1 }

def setWrite (s : Process) (w : ℕ) (x : Option WriteHandle) : Process :=
  { s with writeHandles := Function.update s.writeHandles w x }

def addWrite (s : Process) (wh : WriteHandle) : Process :=
  { s.setWrite s.nextWrite (some wh) with nextWrite := s.nextWrite + 1 }

/-- `cudaEventQuery` succeeds, also for an event that was never recorded. -/
def complete (s : Process) (ev : ℕ) : Bool := (s.recorded ev).all s.gpu.passed

def record (s : Process) (ev : ℕ) (st : Stream) : Process :=
  { s with recorded := Function.update s.recorded ev (some (s.gpu.here st)) }

def enqueue (s : Process) (st : Stream) (op : Op Stream Work) : Process :=
  { s with gpu := s.gpu.enqueue st op }

def streamWaitEvent (s : Process) (st : Stream) (ev : ℕ) : Process :=
  match s.recorded ev with
  | none => s
  | some p => s.enqueue st (.wait p)

def delete (s : Process) (ptr : Option ℕ) : Process :=
  match ptr with
  | none => s
  | some a => { s with deleted := Function.update s.deleted a (s.deleted a + 1) }

def pending (s : Process) (buf : CudaBuffer) : CudaBuffer :=
  { buf with readEvents := buf.readEvents.filter (fun ev => !s.complete ev) }

def reapCompletedReadEvents (s : Process) (b : ℕ) (buf : CudaBuffer) : Process :=
  s.setBuffer b (some (s.pending buf))

def recordWrite (s : Process) (event : Option ℕ) (st : Stream) : Process :=
  match event with
  | none => s
  | some ev => if cudaIsStreamUsable st then s.record ev st else s

def finalizeWriteHandleLocked (s : Process) (buf : CudaBuffer) (hs : ℕ) : Process :=
  if (s.states hs).state = .inUse then
    (s.recordWrite buf.writeEvent (s.states hs).writeStream).setState hs
      { state := .finalized, writeStream := none }
  else s

def finalizeWriteHandle (s : Process) (buf : CudaBuffer) : Process :=
  match buf.handleState with
  | none => s
  | some hs => s.finalizeWriteHandleLocked buf hs

/-- The lock taken by `get_read_handle`. -/
def finalizeOpenWrite (s : Process) (buf : CudaBuffer) : Process :=
  match buf.handleState with
  | none => s
  | some hs => if (s.states hs).state = .inUse then s.finalizeWriteHandleLocked buf hs else s

/-- The constructor of `ReadHandle`. -/
def waitForWrite (s : Process) (buf : CudaBuffer) (st : Stream) : Process :=
  match buf.writeEvent with
  | none => s
  | some ev => if st.isSome then s.streamWaitEvent st ev else s

def getReadHandle (s : Process) (b : ℕ) (buf : CudaBuffer) (st : Stream) : Process :=
  (((s.reapCompletedReadEvents b buf).finalizeOpenWrite buf).waitForWrite buf st).addRead
    { dataPtr := buf.devicePtr, readEvents := some b, stream := st }

/-- The error that `get_write_handle` throws after it has reaped the read events. -/
def refusal (s : Process) (buf : CudaBuffer) : Option WriteError :=
  match buf.handleState.map (fun hs => (s.states hs).state) with
  | some .inUse => some .alreadyInUse
  | some .finalized => some .alreadyFinalized
  | _ => if buf.readEvents.isEmpty then none else some .readEventsExist

def grantWriteHandle (s : Process) (b : ℕ) (buf : CudaBuffer) (st : Stream) (hs : ℕ) : Process :=
  (s.setState hs { state := .inUse, writeStream := st }).addWrite
    { dataPtr := buf.devicePtr, writeEventPtr := some b, stream := st, state := some hs }

def makeHandleState (s : Process) (b : ℕ) (buf : CudaBuffer) : Process :=
  { s.setBuffer b (some { buf with handleState := some s.nextState }) with
    nextState := s.nextState + 1 }

def getWriteHandle (s : Process) (b : ℕ) (buf : CudaBuffer) (st : Stream) :
    Option WriteError × Process :=
  let buf := s.pending buf
  let s := s.setBuffer b (some buf)
  match s.refusal buf with
  | some e => (some e, s)
  | none =>
      match buf.handleState with
      | some hs => (none, s.grantWriteHandle b buf st hs)
      | none => (none, (s.makeHandleState b buf).grantWriteHandle b buf st s.nextState)

/-- `ReadHandle::release`. -/
def releaseRead (s : Process) (rh : ReadHandle) : Process :=
  match rh.readEvents with
  | none => s
  | some b =>
      if cudaIsStreamUsable rh.stream then
        match s.buffers b with
        | none => s
        | some buf =>
            { (s.record s.nextEvent rh.stream).setBuffer b
                (some { buf with readEvents := buf.readEvents ++ [s.nextEvent] }) with
              nextEvent := s.nextEvent + 1 }
      else s

/-- `*write_event_ptr_`. -/
def writeEventAt (s : Process) (wh : WriteHandle) : Option ℕ :=
  (wh.writeEventPtr.bind s.buffers).bind (fun buf => buf.writeEvent)

def writeStreamOf (s : Process) (wh : WriteHandle) (hs : ℕ) : Stream :=
  if (s.states hs).writeStream.isSome then (s.states hs).writeStream else wh.stream

/-- `WriteHandle::release`. -/
def releaseWrite (s : Process) (wh : WriteHandle) : Process :=
  match wh.state with
  | none => s
  | some hs =>
      if (s.states hs).state = .finalized then s
      else
        (s.recordWrite (s.writeEventAt wh) (s.writeStreamOf wh hs)).setState hs
          { state := .finalized, writeStream := none }

def setWriteEvent (s : Process) (b : ℕ) (buf : CudaBuffer) (owns : Bool) : Process :=
  { s.setBuffer b (some { buf with writeEvent := some s.nextEvent, ownsWriteEvent := owns }) with
    nextEvent := s.nextEvent + 1 }

def construct (s : Process) (size : ℕ) : Process :=
  { s.addBuffer { devicePtr := some s.nextAllocation, size := size, recycler := true } with
    nextAllocation := s.nextAllocation + 1 }

def moveConstruct (s : Process) (b : ℕ) (buf : CudaBuffer) : Process :=
  (s.setBuffer b (some {})).addBuffer buf

def swap (s : Process) (b b' : ℕ) (buf buf' : CudaBuffer) : Process :=
  (s.setBuffer b (some buf')).setBuffer b' (some buf)

def eventsToSync (buf : CudaBuffer) : List ℕ :=
  (if buf.ownsWriteEvent then buf.writeEvent.toList else []) ++ buf.readEvents

/-- `~CudaBuffer`: without events the deleter runs at once. -/
def destroy (s : Process) (b : ℕ) (buf : CudaBuffer) : Process :=
  let s := { s.setBuffer b none with impls := Function.update s.impls b none }
  if !(eventsToSync buf).isEmpty && buf.recycler then
    { s with queue := s.queue ++ [⟨eventsToSync buf, buf.devicePtr⟩] }
  else s.delete buf.devicePtr

/-- One turn of `BufferRecycler::run`, which waits for the events of the first
item. -/
def recycle (s : Process) : Option Process :=
  match s.queue with
  | [] => none
  | item :: rest =>
      if item.events.all s.complete then some ({ s with queue := rest }.delete item.devicePtr)
      else none

/-- A read handle points into the object. -/
def readReferenced (s : Process) (b : ℕ) : Bool :=
  (List.range s.nextRead).any (fun h =>
    (s.readHandles h).any (fun rh => decide (rh.readEvents = some b)))

def writeReferenced (s : Process) (b : ℕ) : Bool :=
  (List.range s.nextWrite).any (fun w =>
    (s.writeHandles w).any (fun wh => decide (wh.writeEventPtr = some b)))

def referenced (s : Process) (b : ℕ) : Bool := s.readReferenced b || s.writeReferenced b

/-- A work goes through handles on its own stream. The C++ `to_buffer` takes any stream: a copy on
another one than the handle's is not among the works here. -/
def mayRead (s : Process) (st : Stream) (h : ℕ) : Bool :=
  (s.readHandles h).any (fun rh => decide (rh.stream = st) && rh.dataPtr.isSome)

/-- As for `mayRead`, the stream is that of the handle. -/
def mayWrite (s : Process) (st : Stream) (w : ℕ) : Bool :=
  (s.writeHandles w).any (fun wh => decide (wh.stream = st) && wh.dataPtr.isSome)

def workOf (s : Process) (r w : Option ℕ) : Work :=
  { source := r.bind (fun h => (s.readHandles h).bind (fun rh => rh.dataPtr))
    target := w.bind (fun w => (s.writeHandles w).bind (fun wh => wh.dataPtr)) }

/-- The handle state under which the work writes, while it is in use. -/
def writerOf (s : Process) (w : Option ℕ) : Option ℕ :=
  (w.bind (fun w => (s.writeHandles w).bind (fun wh => wh.state))).filter
    (fun hs => decide ((s.states hs).state = .inUse))

section Frames

/-- Of the recorded points, at most that of the event is new. -/
def Records (s : Process) (event : Option ℕ) (recorded : ℕ → Option (Point Stream)) : Prop :=
  ∀ ev, recorded ev = s.recorded ev ∨
    (event = some ev ∧ ∃ st, recorded ev = some (s.gpu.here st))

lemma records_same (s : Process) (event : Option ℕ) : Records s event s.recorded :=
  fun _ => .inl rfl

lemma recordWrite_frame (s : Process) (event : Option ℕ) (st : Stream) :
    ∃ recorded, s.recordWrite event st = { s with recorded := recorded } ∧
      Records s event recorded := by
  unfold recordWrite
  split
  · exact ⟨s.recorded, rfl, records_same s none⟩
  · rename_i ev
    split_ifs
    · refine ⟨_, rfl, ?_⟩
      intro ev'
      by_cases hev : ev' = ev
      · subst hev
        exact .inr ⟨rfl, st, Function.update_self ..⟩
      · exact .inl (Function.update_of_ne hev _ _)
    · exact ⟨s.recorded, rfl, records_same s _⟩

lemma finalizeWriteHandleLocked_frame (s : Process) (buf : CudaBuffer) (hs : ℕ) :
    ∃ recorded states, s.finalizeWriteHandleLocked buf hs =
        { s with recorded := recorded, states := states } ∧
      Records s buf.writeEvent recorded := by
  unfold finalizeWriteHandleLocked
  split_ifs
  · obtain ⟨recorded, he, hr⟩ := recordWrite_frame s buf.writeEvent (s.states hs).writeStream
    rw [he]
    exact ⟨recorded, _, rfl, hr⟩
  · exact ⟨s.recorded, s.states, rfl, records_same s _⟩

lemma finalizeWriteHandle_frame (s : Process) (buf : CudaBuffer) :
    ∃ recorded states, s.finalizeWriteHandle buf =
        { s with recorded := recorded, states := states } ∧
      Records s buf.writeEvent recorded := by
  unfold finalizeWriteHandle
  split
  · exact ⟨s.recorded, s.states, rfl, records_same s _⟩
  · exact finalizeWriteHandleLocked_frame s buf _

lemma finalizeOpenWrite_frame (s : Process) (buf : CudaBuffer) :
    ∃ recorded states, s.finalizeOpenWrite buf =
        { s with recorded := recorded, states := states } ∧
      Records s buf.writeEvent recorded := by
  unfold finalizeOpenWrite
  split
  · exact ⟨s.recorded, s.states, rfl, records_same s _⟩
  · split_ifs
    · exact finalizeWriteHandleLocked_frame s buf _
    · exact ⟨s.recorded, s.states, rfl, records_same s _⟩

lemma waitForWrite_frame (s : Process) (buf : CudaBuffer) (st : Stream) :
    ∃ gpu, s.waitForWrite buf st = { s with gpu := gpu } ∧
      (gpu = s.gpu ∨ ∃ p, gpu = s.gpu.enqueue st (.wait p)) := by
  unfold waitForWrite
  split
  · exact ⟨s.gpu, rfl, .inl rfl⟩
  · split_ifs
    · unfold streamWaitEvent
      split
      · exact ⟨s.gpu, rfl, .inl rfl⟩
      · exact ⟨_, rfl, .inr ⟨_, rfl⟩⟩
    · exact ⟨s.gpu, rfl, .inl rfl⟩

lemma releaseWrite_frame (s : Process) (wh : WriteHandle) :
    ∃ recorded states, s.releaseWrite wh = { s with recorded := recorded, states := states } ∧
      Records s (s.writeEventAt wh) recorded := by
  unfold releaseWrite
  split
  · exact ⟨s.recorded, s.states, rfl, records_same s _⟩
  · rename_i hs _
    split_ifs
    · exact ⟨s.recorded, s.states, rfl, records_same s _⟩
    · obtain ⟨recorded, he, hr⟩ := recordWrite_frame s (s.writeEventAt wh) (s.writeStreamOf wh hs)
      rw [he]
      exact ⟨recorded, _, rfl, hr⟩

/-- What is left of a read handle is an event in its buffer. -/
lemma releaseRead_cases (s : Process) (rh : ReadHandle) :
    s.releaseRead rh = s ∧ (rh.readEvents.bind s.buffers = none ∨ rh.stream = none) ∨
      ∃ b buf, rh.readEvents = some b ∧ s.buffers b = some buf ∧
        s.releaseRead rh = { s with
          recorded := Function.update s.recorded s.nextEvent (some (s.gpu.here rh.stream))
          nextEvent := s.nextEvent + 1
          buffers := Function.update s.buffers b
            (some { buf with readEvents := buf.readEvents ++ [s.nextEvent] }) } := by
  unfold releaseRead
  split
  · rename_i hnone
    exact .inl ⟨rfl, .inl (by rw [hnone]; rfl)⟩
  · rename_i b hre
    split_ifs with hst
    · split
      · rename_i hnone
        exact .inl ⟨rfl, .inl (by rw [hre]; exact hnone)⟩
      · exact .inr ⟨b, _, hre, ‹_›, rfl⟩
    · exact .inl ⟨rfl, .inr (by simpa [cudaIsStreamUsable] using hst)⟩

lemma getReadHandle_frame (s : Process) (b : ℕ) (x : CudaBuffer) (st : Stream) :
    ∃ gpu recorded states, s.getReadHandle b x st =
        { s with
          gpu := gpu
          recorded := recorded
          states := states
          buffers := Function.update s.buffers b (some (s.pending x))
          readHandles := Function.update s.readHandles s.nextRead
            (some { dataPtr := x.devicePtr, readEvents := some b, stream := st })
          nextRead := s.nextRead + 1 } ∧
      (gpu = s.gpu ∨ ∃ p, gpu = s.gpu.enqueue st (.wait p)) ∧
      Records s x.writeEvent recorded := by
  obtain ⟨recorded, states, he, hr⟩ := finalizeOpenWrite_frame (s.reapCompletedReadEvents b x) x
  obtain ⟨gpu, he', hg⟩ :=
    waitForWrite_frame ((s.reapCompletedReadEvents b x).finalizeOpenWrite x) x st
  unfold getReadHandle
  rw [he', he]
  rw [he] at hg
  exact ⟨gpu, recorded, states, rfl, hg, hr⟩

lemma delete_frame (s : Process) (ptr : Option ℕ) :
    s.delete ptr = { s with deleted := (s.delete ptr).deleted } := by
  cases ptr <;> rfl

lemma destroy_frame (s : Process) (b : ℕ) (x : CudaBuffer) :
    ∃ queue deleted, s.destroy b x =
      { s with
        buffers := Function.update s.buffers b none
        impls := Function.update s.impls b none
        queue := queue
        deleted := deleted } := by
  unfold destroy
  split_ifs
  · exact ⟨_, _, rfl⟩
  · rw [delete_frame]
    exact ⟨_, _, rfl⟩

lemma releaseRead_readHandles (s : Process) (rh : ReadHandle) :
    (s.releaseRead rh).readHandles = s.readHandles ∧
      (s.releaseRead rh).nextRead = s.nextRead := by
  rcases releaseRead_cases s rh with ⟨he, _⟩ | ⟨_, _, _, _, he⟩
  · rw [he]
    exact ⟨rfl, rfl⟩
  · rw [he]
    exact ⟨rfl, rfl⟩

end Frames

end Process

end RosidlBufferBackends.Buffers
