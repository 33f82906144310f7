import Mathlib.Algebra.Order.Ring.Int
import RosidlBufferBackends.Buffers.CudaBuffer
import RosidlBufferBackends.Lib.Runs

/-! The calls that a client makes one after the other, the streams that progress
meanwhile, and the thread of the recycler. -/

namespace RosidlBufferBackends.Buffers

open Streams Runs

inductive Operation
  | constructDefault
  | construct (size : ℕ)
  | setWriteEvent (b : ℕ) (owns : Bool)
  | moveConstruct (b : ℕ)
  | moveAssign (b other : ℕ)
  | destroy (b : ℕ)
  | getReadHandle (b : ℕ) (st : Stream)
  | getWriteHandle (b : ℕ) (st : Stream)
  | finalizeWriteHandle (b : ℕ)
  | launch (st : Stream) (r w : Option ℕ)
  | synchronize (st : Stream)
  | moveRead (h : ℕ)
  | assignRead (h other : ℕ)
  | closeRead (h : ℕ)
  | moveWrite (w : ℕ)
  | assignWrite (w other : ℕ)
  | closeWrite (w : ℕ)
  | makeImpl (b size : ℕ)
  | setStream (b : ℕ) (st : Stream)
  | setSize (b size : ℕ)
  | finish (st : Stream)
  | recycle
  deriving DecidableEq, Repr

/-- A launched work is at `p`, and writes under the handle state that was in use;
what is enqueued after a read handle was returned is behind `p`. -/
inductive Output
  | quiet
  | launched (p : Point Stream) (writer : Option ℕ)
  | reading (p : Point Stream) (state event : Option ℕ)
  | writing (state : ℕ)
  | threw (e : WriteError)
  deriving DecidableEq, Repr

/-- The kinds of handles. -/
inductive Kind
  | read
  | write
  deriving DecidableEq, Repr

def Kind.move : Kind → ℕ → Operation
  | .read, h => .moveRead h
  | .write, w => .moveWrite w

def Kind.close : Kind → ℕ → Operation
  | .read, h => .closeRead h
  | .write, w => .closeWrite w

namespace Process

def quietly (s : Process) : Option (Output × Process) := some (.quiet, s)

def withBuffer (s : Process) (b : ℕ) (f : CudaBuffer → Option (Output × Process)) :
    Option (Output × Process) :=
  match s.buffers b with
  | none => none
  | some buf => f buf

def act (s : Process) : Operation → Option (Output × Process)
  | .constructDefault => (s.addBuffer {}).quietly
  | .construct size => (s.construct size).quietly
  | .setWriteEvent b owns => s.withBuffer b (fun buf => (s.setWriteEvent b buf owns).quietly)
  | .moveConstruct b => s.withBuffer b (fun buf => (s.moveConstruct b buf).quietly)
  | .moveAssign b other =>
      s.withBuffer b (fun buf => s.withBuffer other (fun buf' =>
        if b = other then s.quietly else (s.swap b other buf buf').quietly))
  -- no handle outlives its buffer
  | .destroy b =>
      s.withBuffer b (fun buf => if s.referenced b then none else (s.destroy b buf).quietly)
  | .getReadHandle b st =>
      s.withBuffer b (fun buf =>
        some (.reading ((s.getReadHandle b buf st).gpu.here st) buf.handleState buf.writeEvent,
          s.getReadHandle b buf st))
  | .getWriteHandle b st =>
      s.withBuffer b (fun buf =>
        match s.getWriteHandle b buf st with
        | (some e, s') => some (.threw e, s')
        | (none, s') => some (.writing (buf.handleState.getD s.nextState), s'))
  | .finalizeWriteHandle b => s.withBuffer b (fun buf => (s.finalizeWriteHandle buf).quietly)
  | .launch st r w =>
      if r.all (s.mayRead st) && w.all (s.mayWrite st) then
        some (.launched (s.gpu.here st) (s.writerOf w), s.enqueue st (.work (s.workOf r w)))
      else none
  | .synchronize st => if s.gpu.idle st then s.quietly else none
  | .moveRead h =>
      match s.readHandles h with
      | none => none
      | some rh => ((s.setRead h (some {})).addRead rh).quietly
  | .assignRead h other =>
      match s.readHandles h, s.readHandles other with
      | some rh, some rh' =>
          if h = other then s.quietly
          else (((s.releaseRead rh).setRead h (some rh')).setRead other (some {})).quietly
      | _, _ => none
  | .closeRead h =>
      match s.readHandles h with
      | none => none
      | some rh => ((s.releaseRead rh).setRead h none).quietly
  | .moveWrite w =>
      match s.writeHandles w with
      | none => none
      | some wh => ((s.setWrite w (some {})).addWrite wh).quietly
  | .assignWrite w other =>
      match s.writeHandles w, s.writeHandles other with
      | some wh, some wh' =>
          if w = other then s.quietly
          else (((s.releaseWrite wh).setWrite w (some wh')).setWrite other (some {})).quietly
      | _, _ => none
  | .closeWrite w =>
      match s.writeHandles w with
      | none => none
      | some wh => ((s.releaseWrite wh).setWrite w none).quietly
  | .makeImpl b size =>
      s.withBuffer b (fun _ =>
        { s with impls := Function.update s.impls b (some { size := size }) }.quietly)
  | .setStream b st =>
      match s.impls b with
      | none => none
      | some impl =>
          { s with impls := Function.update s.impls b (some { impl with stream := st }) }.quietly
  | .setSize b size =>
      match s.impls b with
      | none => none
      | some impl =>
          { s with impls := Function.update s.impls b (some { impl with size := size }) }.quietly
  | .finish st =>
      match s.gpu.finish st with
      | none => none
      | some gpu => { s with gpu := gpu }.quietly
  | .recycle =>
      match s.recycle with
      | none => none
      | some s' => s'.quietly

/-- What an operation does to the process. -/
inductive Acted (s : Process) : Operation → Output → Process → Prop
  | unchanged {o : Operation} (impls : ℕ → Option CudaBufferImpl) :
      Acted s o .quiet { s with impls := impls }
  | constructDefault : Acted s .constructDefault .quiet (s.addBuffer {})
  | construct (size : ℕ) : Acted s (.construct size) .quiet (s.construct size)
  | setWriteEvent {b : ℕ} {owns : Bool} {buf : CudaBuffer} (hb : s.buffers b = some buf) :
      Acted s (.setWriteEvent b owns) .quiet (s.setWriteEvent b buf owns)
  | moveConstruct {b : ℕ} {buf : CudaBuffer} (hb : s.buffers b = some buf) :
      Acted s (.moveConstruct b) .quiet (s.moveConstruct b buf)
  | moveAssign {b b' : ℕ} {buf buf' : CudaBuffer} (hb : s.buffers b = some buf)
      (hb' : s.buffers b' = some buf') (hne : b ≠ b') :
      Acted s (.moveAssign b b') .quiet (s.swap b b' buf buf')
  | destroy {b : ℕ} {buf : CudaBuffer} (hb : s.buffers b = some buf)
      (href : s.referenced b = false) : Acted s (.destroy b) .quiet (s.destroy b buf)
  | getReadHandle {b : ℕ} {buf : CudaBuffer} {st : Stream} (hb : s.buffers b = some buf) :
      Acted s (.getReadHandle b st)
        (.reading ((s.getReadHandle b buf st).gpu.here st) buf.handleState buf.writeEvent)
        (s.getReadHandle b buf st)
  | refused {b : ℕ} {buf : CudaBuffer} {st : Stream} {e : WriteError}
      (hb : s.buffers b = some buf) :
      Acted s (.getWriteHandle b st) (.threw e) (s.reapCompletedReadEvents b buf)
  | granted {b hs : ℕ} {buf : CudaBuffer} {st : Stream} (hb : s.buffers b = some buf)
      (hreaped : (s.pending buf).readEvents = []) (hhs : buf.handleState = some hs)
      (hunset : (s.states hs).state = .unset) :
      Acted s (.getWriteHandle b st) (.writing hs)
        ((s.reapCompletedReadEvents b buf).grantWriteHandle b (s.pending buf) st hs)
  | grantedFirst {b : ℕ} {buf : CudaBuffer} {st : Stream} (hb : s.buffers b = some buf)
      (hreaped : (s.pending buf).readEvents = []) (hhs : buf.handleState = none) :
      Acted s (.getWriteHandle b st) (.writing s.nextState)
        (((s.reapCompletedReadEvents b buf).makeHandleState b (s.pending buf)).grantWriteHandle b
          (s.pending buf) st s.nextState)
  | finalizeWriteHandle {b : ℕ} {buf : CudaBuffer} (hb : s.buffers b = some buf) :
      Acted s (.finalizeWriteHandle b) .quiet (s.finalizeWriteHandle buf)
  | launch {st : Stream} {r w : Option ℕ} (hr : r.all (s.mayRead st) = true)
      (hw : w.all (s.mayWrite st) = true) :
      Acted s (.launch st r w) (.launched (s.gpu.here st) (s.writerOf w))
        (s.enqueue st (.work (s.workOf r w)))
  | moveRead {h : ℕ} {rh : ReadHandle} (hh : s.readHandles h = some rh) :
      Acted s (.moveRead h) .quiet ((s.setRead h (some {})).addRead rh)
  | assignRead {h h' : ℕ} {rh rh' : ReadHandle} (hh : s.readHandles h = some rh)
      (hh' : s.readHandles h' = some rh') (hne : h ≠ h') :
      Acted s (.assignRead h h') .quiet
        (((s.releaseRead rh).setRead h (some rh')).setRead h' (some {}))
  | closeRead {h : ℕ} {rh : ReadHandle} (hh : s.readHandles h = some rh) :
      Acted s (.closeRead h) .quiet ((s.releaseRead rh).setRead h none)
  | moveWrite {w : ℕ} {wh : WriteHandle} (hw : s.writeHandles w = some wh) :
      Acted s (.moveWrite w) .quiet ((s.setWrite w (some {})).addWrite wh)
  | assignWrite {w w' : ℕ} {wh wh' : WriteHandle} (hw : s.writeHandles w = some wh)
      (hw' : s.writeHandles w' = some wh') (hne : w ≠ w') :
      Acted s (.assignWrite w w') .quiet
        (((s.releaseWrite wh).setWrite w (some wh')).setWrite w' (some {}))
  | closeWrite {w : ℕ} {wh : WriteHandle} (hw : s.writeHandles w = some wh) :
      Acted s (.closeWrite w) .quiet ((s.releaseWrite wh).setWrite w none)
  | finish {st : Stream} {gpu : Gpu Stream Work} (hf : s.gpu.finish st = some gpu) :
      Acted s (.finish st) .quiet { s with gpu := gpu }
  | recycle {item : PendingWork} {rest : List PendingWork} (hq : s.queue = item :: rest)
      (hall : item.events.all s.complete = true) :
      Acted s .recycle .quiet ({ s with queue := rest }.delete item.devicePtr)

lemma withBuffer_some {s s' : Process} {b : ℕ} {f : CudaBuffer → Option (Output × Process)}
    {out : Output} (h : s.withBuffer b f = some (out, s')) :
    ∃ buf, s.buffers b = some buf ∧ f buf = some (out, s') := by
  unfold withBuffer at h
  split at h
  · exact nomatch h
  · exact ⟨_, ‹_›, h⟩

lemma quietly_some {s s' : Process} {out : Output} (h : s.quietly = some (out, s')) :
    out = .quiet ∧ s' = s := by
  obtain ⟨rfl, rfl⟩ := Prod.mk.inj (Option.some.inj h)
  exact ⟨rfl, rfl⟩

lemma getWriteHandle_cases {s s' : Process} {b : ℕ} {buf : CudaBuffer} {st : Stream}
    {out : Output} (hb : s.buffers b = some buf)
    (h : (match s.getWriteHandle b buf st with
      | (some e, s') => some (Output.threw e, s')
      | (none, s') => some (.writing (buf.handleState.getD s.nextState), s')) = some (out, s')) :
    Acted s (.getWriteHandle b st) out s' := by
  unfold getWriteHandle at h
  cases hr : (s.setBuffer b (some (s.pending buf))).refusal (s.pending buf) with
  | some e =>
    simp only [hr] at h
    obtain ⟨rfl, rfl⟩ := Prod.mk.inj (Option.some.inj h)
    exact .refused hb
  | none =>
    simp only [hr] at h
    have hstate : ∀ hs, buf.handleState = some hs → (s.states hs).state = .unset := by
      intro hs hhs
      cases hx : (s.states hs).state with
      | unset => rfl
      | inUse => simp [refusal, pending, setBuffer, hhs, hx] at hr
      | finalized => simp [refusal, pending, setBuffer, hhs, hx] at hr
    have hreaped : (s.pending buf).readEvents = [] := by
      unfold refusal at hr
      split at hr
      · exact nomatch hr
      · exact nomatch hr
      · simpa using hr
    cases hhs : buf.handleState with
    | some hs =>
      have hp : (s.pending buf).handleState = some hs := hhs
      simp only [hp, hhs] at h
      obtain ⟨rfl, rfl⟩ := Prod.mk.inj (Option.some.inj h)
      exact .granted hb hreaped hhs (hstate hs hhs)
    | none =>
      have hp : (s.pending buf).handleState = none := hhs
      simp only [hp, hhs] at h
      obtain ⟨rfl, rfl⟩ := Prod.mk.inj (Option.some.inj h)
      exact .grantedFirst hb hreaped hhs

lemma recycle_cases {s s' : Process} (h : s.recycle = some s') :
    ∃ item rest, s.queue = item :: rest ∧ item.events.all s.complete = true ∧
      s' = { s with queue := rest }.delete item.devicePtr := by
  unfold recycle at h
  split at h
  · exact nomatch h
  · split_ifs at h with hall
    exact ⟨_, _, ‹_›, hall, (Option.some.inj h).symm⟩

lemma act_cases {s s' : Process} {o : Operation} {out : Output} (h : s.act o = some (out, s')) :
    Acted s o out s' := by
  cases o with
  | constructDefault =>
    obtain ⟨rfl, rfl⟩ := quietly_some h
    exact .constructDefault
  | construct size =>
    obtain ⟨rfl, rfl⟩ := quietly_some h
    exact .construct size
  | setWriteEvent b owns =>
    obtain ⟨buf, hb, h⟩ := withBuffer_some h
    obtain ⟨rfl, rfl⟩ := quietly_some h
    exact .setWriteEvent hb
  | moveConstruct b =>
    obtain ⟨buf, hb, h⟩ := withBuffer_some h
    obtain ⟨rfl, rfl⟩ := quietly_some h
    exact .moveConstruct hb
  | moveAssign b other =>
    obtain ⟨buf, hb, h⟩ := withBuffer_some h
    obtain ⟨buf', hb', h⟩ := withBuffer_some h
    split_ifs at h with hne
    · obtain ⟨rfl, rfl⟩ := quietly_some h
      exact .unchanged _
    · obtain ⟨rfl, rfl⟩ := quietly_some h
      exact .moveAssign hb hb' hne
  | destroy b =>
    obtain ⟨buf, hb, h⟩ := withBuffer_some h
    split_ifs at h with href
    obtain ⟨rfl, rfl⟩ := quietly_some h
    exact .destroy hb (Bool.not_eq_true _ ▸ href)
  | getReadHandle b st =>
    obtain ⟨buf, hb, h⟩ := withBuffer_some h
    obtain ⟨rfl, rfl⟩ := Prod.mk.inj (Option.some.inj h)
    exact .getReadHandle hb
  | getWriteHandle b st =>
    obtain ⟨buf, hb, h⟩ := withBuffer_some h
    exact getWriteHandle_cases hb h
  | finalizeWriteHandle b =>
    obtain ⟨buf, hb, h⟩ := withBuffer_some h
    obtain ⟨rfl, rfl⟩ := quietly_some h
    exact .finalizeWriteHandle hb
  | launch st r w =>
    simp only [act] at h
    split_ifs at h with hrw
    obtain ⟨hr, hw⟩ := (Bool.and_eq_true _ _).mp hrw
    obtain ⟨rfl, rfl⟩ := Prod.mk.inj (Option.some.inj h)
    exact .launch hr hw
  | synchronize st =>
    simp only [act] at h
    split_ifs at h
    obtain ⟨rfl, rfl⟩ := quietly_some h
    exact .unchanged _
  | moveRead k =>
    simp only [act] at h
    split at h
    · exact nomatch h
    · obtain ⟨rfl, rfl⟩ := quietly_some h
      exact .moveRead ‹_›
  | assignRead k other =>
    simp only [act] at h
    split at h
    · split_ifs at h with hne
      · obtain ⟨rfl, rfl⟩ := quietly_some h
        exact .unchanged _
      · obtain ⟨rfl, rfl⟩ := quietly_some h
        exact .assignRead ‹_› ‹_› hne
    · exact nomatch h
  | closeRead k =>
    simp only [act] at h
    split at h
    · exact nomatch h
    · obtain ⟨rfl, rfl⟩ := quietly_some h
      exact .closeRead ‹_›
  | moveWrite w =>
    simp only [act] at h
    split at h
    · exact nomatch h
    · obtain ⟨rfl, rfl⟩ := quietly_some h
      exact .moveWrite ‹_›
  | assignWrite w other =>
    simp only [act] at h
    split at h
    · split_ifs at h with hne
      · obtain ⟨rfl, rfl⟩ := quietly_some h
        exact .unchanged _
      · obtain ⟨rfl, rfl⟩ := quietly_some h
        exact .assignWrite ‹_› ‹_› hne
    · exact nomatch h
  | closeWrite w =>
    simp only [act] at h
    split at h
    · exact nomatch h
    · obtain ⟨rfl, rfl⟩ := quietly_some h
      exact .closeWrite ‹_›
  | makeImpl b size =>
    obtain ⟨buf, _, h⟩ := withBuffer_some h
    obtain ⟨rfl, rfl⟩ := quietly_some h
    exact .unchanged _
  | setStream b st =>
    simp only [act] at h
    split at h
    · exact nomatch h
    · obtain ⟨rfl, rfl⟩ := quietly_some h
      exact .unchanged _
  | setSize b size =>
    simp only [act] at h
    split at h
    · exact nomatch h
    · obtain ⟨rfl, rfl⟩ := quietly_some h
      exact .unchanged _
  | finish st =>
    simp only [act] at h
    split at h
    · exact nomatch h
    · obtain ⟨rfl, rfl⟩ := quietly_some h
      exact .finish ‹_›
  | recycle =>
    simp only [act] at h
    split at h
    · exact nomatch h
    · rename_i hr
      obtain ⟨item, rest, hq, hall, rfl⟩ := recycle_cases hr
      obtain ⟨rfl, rfl⟩ := quietly_some h
      exact .recycle hq hall

/-- An operation changes the streams by one wait, one work or one step. -/
lemma act_gpu {s s' : Process} {o : Operation} {out : Output} (h : s.act o = some (out, s')) :
    s'.gpu = s.gpu ∨ (∃ st p, s'.gpu = s.gpu.enqueue st (.wait p)) ∨
      (∃ st r w, o = .launch st r w ∧ r.all (s.mayRead st) = true ∧
        s'.gpu = s.gpu.enqueue st (.work (s.workOf r w))) ∨
      ∃ st, o = .finish st ∧ s.gpu.finish st = some s'.gpu := by
  cases act_cases h with
  | @destroy b buf _ _ =>
    obtain ⟨queue, deleted, he⟩ := destroy_frame s b buf
    rw [he]
    exact .inl rfl
  | @getReadHandle b buf st _ =>
    obtain ⟨gpu, recorded, states, he, hg, _⟩ := getReadHandle_frame s b buf st
    rw [he]
    rcases hg with hg | ⟨p, hg⟩
    · exact .inl hg
    · exact .inr (.inl ⟨st, p, hg⟩)
  | @finalizeWriteHandle b buf _ =>
    obtain ⟨recorded, states, he, _⟩ := finalizeWriteHandle_frame s buf
    rw [he]
    exact .inl rfl
  | @launch st r w hr _ => exact .inr (.inr (.inl ⟨st, r, w, rfl, hr, rfl⟩))
  | @assignRead _ _ rh _ _ _ _ =>
    rcases releaseRead_cases s rh with ⟨he, _⟩ | ⟨_, _, _, _, he⟩
    · rw [he]
      exact .inl rfl
    · rw [he]
      exact .inl rfl
  | @closeRead _ rh _ =>
    rcases releaseRead_cases s rh with ⟨he, _⟩ | ⟨_, _, _, _, he⟩
    · rw [he]
      exact .inl rfl
    · rw [he]
      exact .inl rfl
  | @assignWrite _ _ wh _ _ _ _ =>
    obtain ⟨recorded, states, he, _⟩ := releaseWrite_frame s wh
    rw [he]
    exact .inl rfl
  | @closeWrite _ wh _ =>
    obtain ⟨recorded, states, he, _⟩ := releaseWrite_frame s wh
    rw [he]
    exact .inl rfl
  | @finish st gpu hf => exact .inr (.inr (.inr ⟨st, rfl, hf⟩))
  | @recycle item rest _ _ =>
    rw [delete_frame]
    exact .inl rfl
  | _ => exact .inl rfl

lemma act_extends {s s' : Process} {o : Operation} {out : Output} (h : s.act o = some (out, s')) :
    s.gpu.Extends s'.gpu := by
  rcases act_gpu h with he | ⟨st, p, he⟩ | ⟨st, r, w, _, _, he⟩ | ⟨st, _, hf⟩
  · rw [he]
    exact .refl _
  · rw [he]
    exact Gpu.enqueue_extends _ _ _
  · rw [he]
    exact Gpu.enqueue_extends _ _ _
  · exact Gpu.finish_extends hf

lemma act_orderly {s s' : Process} {o : Operation} {out : Output} (hg : s.gpu.Orderly)
    (h : s.act o = some (out, s')) : s'.gpu.Orderly := by
  rcases act_gpu h with he | ⟨st, p, he⟩ | ⟨st, r, w, _, _, he⟩ | ⟨st, _, hf⟩
  · rwa [he]
  · rw [he]
    exact Gpu.enqueue_orderly hg _ _
  · rw [he]
    exact Gpu.enqueue_orderly hg _ _
  · exact Gpu.finish_orderly hg hf

end Process

def internalStream : Stream := some 0

inductive Call
  | operation (o : Operation)
  | clear (b : ℕ)
  | resize (b n width : ℕ)
  | toCpu (b : ℕ)
  | clone (b width : ℕ)
  deriving DecidableEq, Repr

namespace Call

/-- `cuda_buffer_ = CudaBuffer()`, with the temporary object `tmp`. -/
def clearBuffer (b tmp : ℕ) : List Operation :=
  [.constructDefault, .moveAssign b tmp, .destroy tmp, .setSize b 0]

/-- The assignment of a buffer constructed as `tmp`, and its write event. -/
def allocateBufferInternal (b tmp n width : ℕ) : List Operation :=
  [.construct (n * width % 2 ^ 64), .moveAssign b tmp, .destroy tmp, .setWriteEvent b true]

/-- The copy on the stream `st` from buffer `b` to buffer `dst`, with the handles
`h` and `w`. -/
def copyBuffer (b dst : ℕ) (st : Stream) (h w : ℕ) : List Operation :=
  [.getReadHandle b st, .getWriteHandle dst st, .launch st (some h) (some w), .closeWrite w,
    .closeRead h]

def streamOf (impl : CudaBufferImpl) : Stream :=
  if impl.stream.isSome then impl.stream else internalStream

/-- The operations of the call, where the process is when it is made. -/
def operations (s : Process) : Call → List Operation
  | .operation o => [o]
  | .clear b => clearBuffer b s.nextBuffer
  | .resize b n width =>
      match s.impls b, s.buffers b with
      | some impl, some buf =>
          if n = impl.size then []
          else if n = 0 then clearBuffer b s.nextBuffer
          else
            [.constructDefault] ++
            allocateBufferInternal s.nextBuffer (s.nextBuffer + 1) n width ++
            (if 0 < impl.size ∧ 0 < buf.size then
              copyBuffer b s.nextBuffer (streamOf impl) s.nextRead s.nextWrite else []) ++
            [.moveAssign b s.nextBuffer, .setSize b n, .destroy s.nextBuffer]
      | _, _ => []
  | .toCpu b =>
      match s.impls b, s.buffers b with
      | some impl, some buf =>
          if 0 < impl.size ∧ 0 < buf.size then
            [.getReadHandle b (streamOf impl), .launch (streamOf impl) (some s.nextRead) none,
              .synchronize (streamOf impl), .closeRead s.nextRead]
          else []
      | _, _ => []
  | .clone b width =>
      match s.impls b, s.buffers b with
      | some impl, some buf =>
          [.constructDefault, .makeImpl s.nextBuffer impl.size] ++
          (if 0 < impl.size then
            allocateBufferInternal s.nextBuffer (s.nextBuffer + 1) impl.size width else []) ++
          (if 0 < impl.size ∧ 0 < buf.size then
            copyBuffer b s.nextBuffer (streamOf impl) s.nextRead s.nextWrite else [])
      | _, _ => []

end Call

/-- `remaining` is what the running call has still to do. -/
structure Machine where
  process : Process := {}
  remaining : List Operation := []

namespace Machine

inductive Event
  | call (c : Call)
  | proceed
  | finish (st : Stream)
  | recycle
  deriving DecidableEq, Repr

inductive Report
  | called
  | did (o : Operation) (out : Output)
  deriving DecidableEq, Repr

def perform (m : Machine) (o : Operation) (rest : List Operation) : Option (Report × Machine) :=
  match m.process.act o with
  | none => none
  | some (out, s) => some (.did o out, { process := s, remaining := rest })

def step (m : Machine) : Event → Option (Report × Machine)
  | .call c =>
      if m.remaining = [] then some (.called, { m with remaining := c.operations m.process })
      else none
  | .proceed =>
      match m.remaining with
      | [] => none
      | o :: rest => m.perform o rest
  | .finish st => m.perform (.finish st) m.remaining
  | .recycle => m.perform .recycle m.remaining

/-- The operations that a run has performed. -/
def performed (tr : List (Event × Report)) : List (Operation × Output) :=
  tr.filterMap (fun x =>
    match x.2 with
    | .called => none
    | .did o out => some (o, out))

variable {m m' : Machine} {tr : List (Event × Report)}

lemma perform_run {o : Operation} {rest : List Operation} {r : Report}
    (h : m.perform o rest = some (r, m')) : ∃ out, r = .did o out ∧
      m.process.act o = some (out, m'.process) ∧ m'.remaining = rest := by
  unfold perform at h
  split at h
  · exact nomatch h
  · rename_i out s hs
    obtain ⟨rfl, rfl⟩ := Prod.mk.inj (Option.some.inj h)
    exact ⟨out, rfl, hs, rfl⟩

lemma step_run {e : Event} {r : Report} (h : step m e = some (r, m')) :
    Run Process.act m.process (performed [(e, r)]) m'.process := by
  have hperform : ∀ {o rest}, m.perform o rest = some (r, m') →
      Run Process.act m.process (performed [(e, r)]) m'.process := by
    intro o rest hp
    obtain ⟨out, rfl, hs, -⟩ := perform_run hp
    exact .single hs
  cases e with
  | call c =>
    simp only [step] at h
    split_ifs at h
    obtain ⟨rfl, rfl⟩ := Prod.mk.inj (Option.some.inj h)
    exact .nil
  | proceed =>
    simp only [step] at h
    split at h
    · exact nomatch h
    · exact hperform h
  | finish st => exact hperform h
  | recycle => exact hperform h

lemma run_performed (h : Run step m tr m') :
    Run Process.act m.process (performed tr) m'.process := by
  induction h with
  | nil => exact .nil
  | snoc _ hs ih =>
    rw [performed, List.filterMap_append]
    exact ih.append (step_run hs)

end Machine

end RosidlBufferBackends.Buffers
