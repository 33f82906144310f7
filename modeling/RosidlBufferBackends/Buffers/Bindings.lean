import RosidlBufferBackends.Buffers.Calls

/-! The Python bindings: `Buffer` objects with their reference counts, the wrappers of read and
write handles that own a reference to one, and the calls that a program makes. The interpreter's
lock is held during a call, so calls follow each other; the streams and the recycler go on
meanwhile. -/

namespace RosidlBufferBackends.Buffers.Bindings

open Streams Runs Process

inductive Error
  | runtimeError (message : String)
  | valueError (message : String)
  | typeError (message : String)
  /-- A `CudaError` with the text of `CUDA_CHECK` -/
  | cudaCheck
  deriving DecidableEq, Repr

/-- The CUDA calls that fail in a call of the bindings: the allocation of the pool, the creation of
the write event, the copy, the synchronisation and `cudaPointerGetAttributes`. -/
structure Faults where
  pool : Bool := false
  event : Bool := false
  copy : Bool := false
  synchronize : Bool := false
  attributes : Bool := false
  deriving DecidableEq, Repr

/-- What a `Buffer` object wraps. -/
inductive Storage
  | host (size : ℕ)
  | cuda (b : ℕ)
  deriving DecidableEq, Repr

/-- `held` of the references are the program's, the others are those of wrappers. -/
structure PyBuffer where
  refs : ℕ
  held : ℕ
  storage : Storage
  deriving DecidableEq, Repr

/-- `CudaReadHandleWrapper` and `CudaWriteHandleWrapper` -/
structure HandleWrapper where
  kind : Kind
  refs : ℕ := 1
  handle : Option ℕ
  owner : Option ℕ
  promoted : Bool := false
  size : ℕ := 0
  stream : Stream := none
  deriving DecidableEq, Repr

/-- The first argument of `to_buffer`: bytes, or an integer. Any integer is taken as a device
pointer: `reader x` is one that the program has got from the read handle of a wrapper, `foreign` is
any other. -/
inductive Source
  | bytes (length : ℕ)
  | null
  | foreign
  | reader (x : ℕ)
  | unsupported
  deriving DecidableEq, Repr

inductive Value
  | none
  | pointer
  | object (o : ℕ)
  | wrapper (x : ℕ)
  deriving DecidableEq, Repr

/-- The stream arguments are Python's: `none` stands for `None`. -/
inductive Event
  | hostBuffer (size : ℕ)
  | allocateBuffer (size : ℕ) (f : Faults)
  | fromOutputBuffer (o : ℕ) (st : Option Stream) (f : Faults)
  | fromInputBuffer (o : ℕ) (st : Option Stream) (f : Faults)
  | fromOutputCpuData (size : ℕ) (st : Option Stream) (f : Faults)
  | fromInputCpuData (size : ℕ) (st : Option Stream) (f : Faults)
  | toBuffer (x : ℕ) (source : Source) (byteCount : ℤ) (st : Option Stream) (f : Faults)
  | getPtr (x : ℕ)
  | getPromotedBuffer (x : ℕ)
  | close (x : ℕ)
  | newRef (o : ℕ)
  | dropRef (o : ℕ)
  | newWrapperRef (x : ℕ)
  | dropWrapperRef (x : ℕ)
  /-- A kernel of the program, with pointers that it has got from handles -/
  | launch (st : Stream) (r w : Option ℕ)
  | proceed
  | finish (st : Stream)
  | recycle
  deriving DecidableEq, Repr

inductive Report
  | returned (x : Value) (did : List (Operation × Output))
  | raised (e : Error) (did : List (Operation × Output))
  | did (o : Operation) (out : Output)
  deriving DecidableEq, Repr

def Report.operations : Report → List (Operation × Output)
  | .returned _ ops | .raised _ ops => ops
  | .did o out => [(o, out)]

/-- The operations that a run has performed. -/
def performed (tr : List (Event × Report)) : List (Operation × Output) :=
  tr.flatMap fun x => x.2.operations

/-- `remaining` is what the running call has still to do. -/
structure Interpreter where
  process : Process := {}
  remaining : List Operation := []
  objects : ℕ → Option PyBuffer := fun _ => none
  nextObject : ℕ := 0
  wrappers : ℕ → Option HandleWrapper := fun _ => none
  nextWrapper : ℕ := 0

def Storage.destructor : Storage → List Operation
  | .host _ => []
  | .cuda b => [.destroy b]

def HandleWrapper.closing (x : HandleWrapper) : List Operation :=
  match x.handle with
  | none => []
  | some h => [x.kind.close h]

def closedError : Kind → Error
  | .read => .runtimeError "CudaReadHandle is closed"
  | .write => .runtimeError "CudaWriteHandle is closed"

def writeError : WriteError → Error
  | .alreadyInUse =>
    .runtimeError "CudaBuffer: write handle already in use; cannot acquire second handle"
  | .alreadyFinalized =>
    .runtimeError "CudaBuffer: write already finalized; cannot acquire write handle"
  | .readEventsExist =>
    .runtimeError "CudaBuffer: read events exist; cannot re-acquire write handle"

/-- `allocate_buffer(size)` as the buffer `b`. Without device memory nothing is left of it. -/
def allocation (b size : ℕ) (f : Faults) : List Operation :=
  [.constructDefault, .makeImpl b size] ++
    if size = 0 then []
    else if f.pool then [.destroy b]
    else if f.event then (Call.allocateBufferInternal b (b + 1) size 1).take 3
    else Call.allocateBufferInternal b (b + 1) size 1

/-- The handle `h` goes into a wrapper, and the wrapper into its Python object. -/
def wrap (k : Kind) (h : ℕ) : List Operation :=
  [k.move h, k.close h, k.move (h + 1), k.close (h + 1)]

/-- The wrapper's constructor throws: its members are destroyed, the owner after the handle. -/
def unwrap (k : Kind) (h : ℕ) (owner : List Operation) : List Operation :=
  [k.move h, k.close (h + 1)] ++ owner ++ [k.close h]

def streamFromPython (st : Option Stream) : Stream := st.getD internalStream

namespace Interpreter

variable (i : Interpreter)

def enqueue (ops : List Operation) : Interpreter := { i with remaining := i.remaining ++ ops }

def addObject (x : PyBuffer) : Interpreter :=
  { i with
    objects := Function.update i.objects i.nextObject (some x)
    nextObject := i.nextObject + 1 }

def addWrapper (x : HandleWrapper) : Interpreter :=
  { i with
    wrappers := Function.update i.wrappers i.nextWrapper (some x)
    nextWrapper := i.nextWrapper + 1 }

def setObject (o : ℕ) (x : Option PyBuffer) : Interpreter :=
  { i with objects := Function.update i.objects o x }

def setWrapper (x : ℕ) (w : Option HandleWrapper) : Interpreter :=
  { i with wrappers := Function.update i.wrappers x w }

/-- `Py_DECREF` -/
def decref (o : ℕ) (obj : PyBuffer) : Interpreter :=
  if obj.refs ≤ 1 then (i.setObject o none).enqueue obj.storage.destructor
  else i.setObject o (some { obj with refs := obj.refs - 1 })

/-- `handle_.reset()` and then `owner_ = None` -/
def closeWrapper (x : ℕ) (w : HandleWrapper) : Interpreter :=
  let i := (i.enqueue w.closing).setWrapper x (some { w with handle := none, owner := none })
  match w.owner with
  | none => i
  | some o =>
    match i.objects o with
    | none => i
    | some obj => i.decref o obj

def raise (e : Error) : Report × Interpreter := (.raised e [], i)

/-- A new `Buffer` object with one reference, the program's or a wrapper's. -/
def allocatePythonBuffer (size : ℕ) (f : Faults) : Report × Interpreter :=
  let b := i.process.nextBuffer
  if size ≠ 0 ∧ f.pool then (i.enqueue (allocation b size f)).raise .cudaCheck
  else (.returned (.object i.nextObject) [],
    (i.enqueue (allocation b size f)).addObject { refs := 1, held := 1, storage := .cuda b })

def promoteOutput (size : ℕ) (st : Stream) (f : Faults) : Report × Interpreter :=
  let b := i.process.nextBuffer
  let w := i.process.nextWrite
  if size = 0 then
    (i.enqueue (allocation b size f ++ [.destroy b])).raise
      (.runtimeError "from_output_buffer called on empty buffer")
  else if f.pool then (i.enqueue (allocation b size f)).raise .cudaCheck
  else if f.attributes then
    (i.enqueue (allocation b size f ++ [.setStream b st, .getWriteHandle b st] ++
      unwrap .write w [.destroy b])).raise .cudaCheck
  else
    let i' := i.enqueue (allocation b size f ++ [.setStream b st, .getWriteHandle b st] ++
      wrap .write w)
    (.returned (.wrapper i.nextWrapper) [],
      (i'.addObject { refs := 1, held := 0, storage := .cuda b }).addWrapper
        { kind := .write, handle := some (w + 2), owner := some i.nextObject, promoted := true,
          size := size, stream := st })

def promoteInput (size : ℕ) (st : Stream) (f : Faults) : Report × Interpreter :=
  let b := i.process.nextBuffer
  let w := i.process.nextWrite
  let h := i.process.nextRead
  let writing := allocation b size f ++ [.setStream b st, .getWriteHandle b st]
  let reading := writing ++ [.launch st none (some w), .closeWrite w, .getReadHandle b st]
  if size = 0 then i.raise (.runtimeError "from_input_buffer called on empty buffer")
  else if f.pool then (i.enqueue (allocation b size f)).raise .cudaCheck
  else if f.copy then (i.enqueue (writing ++ [.closeWrite w, .destroy b])).raise .cudaCheck
  else if f.synchronize then (i.enqueue (reading ++ [.closeRead h, .destroy b])).raise .cudaCheck
  else if f.attributes then
    (i.enqueue (reading ++ [.synchronize st] ++ unwrap .read h [.destroy b])).raise .cudaCheck
  else
    let i' := i.enqueue (reading ++ [.synchronize st] ++ wrap .read h)
    (.returned (.wrapper i.nextWrapper) [],
      (i'.addObject { refs := 1, held := 0, storage := .cuda b }).addWrapper
        { kind := .read, handle := some (h + 2), owner := some i.nextObject, promoted := true,
          stream := st })

/-- The write handle is granted or refused when the call is made. -/
def acquireOutput (o : ℕ) (obj : PyBuffer) (b size : ℕ) (st : Stream) (f : Faults) :
    Option (Report × Interpreter) :=
  let w := i.process.nextWrite
  if size = 0 then some (i.raise (.runtimeError "from_output_buffer called on empty buffer"))
  else
    match i.process.act (.setStream b st) with
    | none => none
    | some (out, s) =>
      match s.act (.getWriteHandle b st) with
      | none => none
      | some (.threw e, s') =>
        some (.raised (writeError e) [(.setStream b st, out), (.getWriteHandle b st, .threw e)],
          { i with process := s' })
      | some (granted, s') =>
        let did := [(.setStream b st, out), (.getWriteHandle b st, granted)]
        let i' := { i with process := s' }
        if f.attributes then some (.raised .cudaCheck did, i'.enqueue (unwrap .write w []))
        else
          some (.returned (.wrapper i.nextWrapper) did,
            ((i'.enqueue (wrap .write w)).setObject o
              (some { obj with refs := obj.refs + 1 })).addWrapper
              { kind := .write, handle := some (w + 2), owner := some o, size := size,
                stream := st })

def acquireInput (o : ℕ) (obj : PyBuffer) (b size : ℕ) (st : Stream) (f : Faults) :
    Report × Interpreter :=
  let h := i.process.nextRead
  if size = 0 then i.raise (.runtimeError "from_input_buffer called on empty buffer")
  else if f.attributes then
    (i.enqueue ([.getReadHandle b st] ++ unwrap .read h [])).raise .cudaCheck
  else
    (.returned (.wrapper i.nextWrapper) [],
      ((i.enqueue ([.getReadHandle b st] ++ wrap .read h)).setObject o
        (some { obj with refs := obj.refs + 1 })).addWrapper
          { kind := .read, handle := some (h + 2), owner := some o, stream := st })

/-- The handle behind a pointer of a copy or a kernel, if it is open on the stream. A pointer of a
handle that is closed or on another stream is memory that nothing keeps for the work. -/
def openHandle (kind : Kind) (st : Stream) (x : ℕ) : Option ℕ :=
  match i.wrappers x with
  | none => none
  | some w => if w.kind = kind ∧ w.stream = st then w.handle else none

/-- `CudaWriteHandleWrapper::copy_from` -/
def copyFrom (w : HandleWrapper) (source : Source) (byteCount : ℤ) (st : Option Stream)
    (f : Faults) : Option (Report × Interpreter) :=
  match w.handle with
  | none => some (i.raise (closedError .write))
  | some k =>
    if byteCount < 0 then some (i.raise (.valueError "byte_count must be nonnegative"))
    else if w.size < byteCount.toNat then
      some (i.raise (.valueError "byte_count exceeds destination size"))
    else if st.any (fun st => st ≠ w.stream) then
      some (i.raise (.valueError "stream must match the write handle's stream"))
    else
      match source with
      | .bytes length =>
        if length < byteCount.toNat then
          some (i.raise (.valueError "byte_count exceeds host source size"))
        else if byteCount.toNat = 0 then some (.returned .none [], i)
        else if f.copy then some (i.raise .cudaCheck)
        else if f.synchronize then
          some ((i.enqueue [.launch w.stream none (some k)]).raise .cudaCheck)
        else
          some (.returned .none [],
            i.enqueue [.launch w.stream none (some k), .synchronize w.stream])
      | .null =>
        if 0 < byteCount.toNat then
          some (i.raise (.valueError "device source pointer must be nonzero"))
        else some (.returned .none [], i)
      | .foreign =>
        if byteCount.toNat = 0 then some (.returned .none [], i)
        else if f.copy then some (i.raise .cudaCheck)
        else some (.returned .none [], i.enqueue [.launch w.stream none (some k)])
      | .reader x =>
        if byteCount.toNat = 0 then some (.returned .none [], i)
        else if f.copy then some (i.raise .cudaCheck)
        else some (.returned .none [],
          i.enqueue [.launch w.stream (i.openHandle .read w.stream x) (some k)])
      | .unsupported =>
        some (i.raise (.typeError "source must be bytes or an integer device pointer"))

def getPromotedBuffer (w : HandleWrapper) : Report × Interpreter :=
  if w.handle.isNone then i.raise (closedError w.kind)
  else if w.promoted then
    match w.owner with
    | none => (.returned .none [], i)
    | some o =>
      match i.objects o with
      | none => (.returned .none [], i)
      | some obj => (.returned (.object o) [],
          i.setObject o (some { obj with refs := obj.refs + 1, held := obj.held + 1 }))
  else (.returned .none [], i)

/-- The program uses an object that it has a reference to. -/
def withObject (o : ℕ) (f : PyBuffer → Option (Report × Interpreter)) :
    Option (Report × Interpreter) :=
  match i.objects o with
  | none => none
  | some obj => if 0 < obj.held then f obj else none

def withWrapper (x : ℕ) (f : HandleWrapper → Option (Report × Interpreter)) :
    Option (Report × Interpreter) :=
  match i.wrappers x with
  | none => none
  | some w => f w

/-- `cpp_buffer->size()` -/
def implSize (b : ℕ) : ℕ := ((i.process.impls b).map CudaBufferImpl.size).getD 0

def launchKernel (st : Stream) (r w : Option ℕ) : Option (Report × Interpreter) :=
  let o := .launch st (r.bind (i.openHandle .read st)) (w.bind (i.openHandle .write st))
  match i.process.act o with
  | none => none
  | some (out, s) => some (.returned .none [(o, out)], { i with process := s })

def perform (o : Operation) (rest : List Operation) : Option (Report × Interpreter) :=
  match i.process.act o with
  | none => none
  | some (out, s) => some (.did o out, { i with process := s, remaining := rest })

/-- A call is made when the one before it has returned. -/
def call : Event → Option (Report × Interpreter)
  | .hostBuffer size => some (.returned (.object i.nextObject) [],
      i.addObject { refs := 1, held := 1, storage := .host size })
  | .allocateBuffer size f => some (i.allocatePythonBuffer size f)
  | .fromOutputBuffer o st f => i.withObject o fun obj =>
      match obj.storage with
      | .host size => some (i.promoteOutput size (streamFromPython st) f)
      | .cuda b => i.acquireOutput o obj b (i.implSize b) (streamFromPython st) f
  | .fromInputBuffer o st f => i.withObject o fun obj =>
      match obj.storage with
      | .host size => some (i.promoteInput size (streamFromPython st) f)
      | .cuda b => some (i.acquireInput o obj b (i.implSize b) (streamFromPython st) f)
  | .fromOutputCpuData size st f => some (i.promoteOutput size (streamFromPython st) f)
  | .fromInputCpuData size st f => some (i.promoteInput size (streamFromPython st) f)
  | .toBuffer x source byteCount st f => i.withWrapper x fun w =>
      if w.kind = .write then i.copyFrom w source byteCount st f else none
  | .getPtr x => i.withWrapper x fun w =>
      if w.handle.isNone then some (i.raise (closedError w.kind))
      else some (.returned .pointer [], i)
  | .getPromotedBuffer x => i.withWrapper x fun w => some (i.getPromotedBuffer w)
  | .close x => i.withWrapper x fun w => some (.returned .none [], i.closeWrapper x w)
  | .newRef o => i.withObject o fun obj => some (.returned .none [],
      i.setObject o (some { obj with refs := obj.refs + 1, held := obj.held + 1 }))
  | .dropRef o => i.withObject o fun obj => some (.returned .none [],
      i.decref o { obj with held := obj.held - 1 })
  | .newWrapperRef x => i.withWrapper x fun w => some (.returned .none [],
      i.setWrapper x (some { w with refs := w.refs + 1 }))
  | .dropWrapperRef x => i.withWrapper x fun w => some (.returned .none [],
      if w.refs ≤ 1 then (i.closeWrapper x w).setWrapper x none
      else i.setWrapper x (some { w with refs := w.refs - 1 }))
  | .launch st r w => i.launchKernel st r w
  | .proceed | .finish _ | .recycle => none

def step (i : Interpreter) : Event → Option (Report × Interpreter)
  | .proceed =>
    match i.remaining with
    | [] => none
    | o :: rest => i.perform o rest
  | .finish st => i.perform (.finish st) i.remaining
  | .recycle => i.perform .recycle i.remaining
  | e => if i.remaining = [] then i.call e else none

end Interpreter

end RosidlBufferBackends.Buffers.Bindings
