import RosidlBufferBackends.Buffers.WriteOrder
import RosidlBufferBackends.Buffers.DeferredRelease

/-! Which buffers and handles there are, as far as the calls alone decide it. Operations that are
permitted by what the calls did are carried out, whatever the streams and the recycler do
meanwhile. -/

namespace RosidlBufferBackends.Buffers

open Streams Runs Process Inventory

/-- The buffer that a handle points into; a handle that was moved from has none. -/
structure Pointer where
  buffer : Option ℕ := none
  stream : Stream := none
  valid : Bool := false
  deriving DecidableEq, Repr

/-- `buffers` tells whether a buffer has device memory. The buffers in `fresh` have never had a
handle. -/
structure Ownership where
  buffers : ℕ → Option Bool := fun _ => none
  nextBuffer : ℕ := 0
  impls : ℕ → Option ℕ := fun _ => none
  fresh : Set ℕ := ∅
  handles : Kind → ℕ → Option Pointer := fun _ _ => none
  nextHandle : Kind → ℕ := fun _ => 0

def ReadHandle.pointer (rh : ReadHandle) : Pointer := ⟨rh.readEvents, rh.stream, rh.dataPtr.isSome⟩

def WriteHandle.pointer (wh : WriteHandle) : Pointer :=
  ⟨wh.writeEventPtr, wh.stream, wh.dataPtr.isSome⟩

namespace Ownership

variable {v : Ownership} {o : Operation} {b h w : ℕ} {st : Stream}

def add (v : Ownership) (stored : Bool) : Ownership :=
  { v with
    buffers := Function.update v.buffers v.nextBuffer (some stored)
    fresh := insert v.nextBuffer v.fresh
    nextBuffer := v.nextBuffer + 1 }

def swap (v : Ownership) (b b' : ℕ) : Ownership :=
  { v with
    buffers := Function.update (Function.update v.buffers b (v.buffers b')) b' (v.buffers b) }

def take (v : Ownership) (b : ℕ) : Ownership :=
  { v with
    buffers := Function.update v.buffers b none
    impls := Function.update v.impls b none }

def setImpl (v : Ownership) (b size : ℕ) : Ownership :=
  { v with impls := Function.update v.impls b (some size) }

def setHandle (v : Ownership) (k : Kind) (h : ℕ) (p : Option Pointer) : Ownership :=
  { v with handles := fun k' h' => if k' = k ∧ h' = h then p else v.handles k' h' }

def addHandle (v : Ownership) (k : Kind) (p : Option Pointer) : Ownership :=
  { v.setHandle k (v.nextHandle k) p with
    nextHandle := Function.update v.nextHandle k (v.nextHandle k + 1) }

/-- A handle on a buffer, which has been used then. -/
def acquire (v : Ownership) (k : Kind) (b : ℕ) (st : Stream) : Ownership :=
  { v.addHandle k (some ⟨some b, st, (v.buffers b).getD false⟩) with fresh := v.fresh \ {b} }

def move (v : Ownership) (k : Kind) (h : ℕ) : Ownership :=
  (v.setHandle k h (some {})).addHandle k (v.handles k h)

def close (v : Ownership) (k : Kind) (h : ℕ) : Ownership :=
  { v.setHandle k h none with
    fresh := {b ∈ v.fresh | ∀ p, v.handles k h = some p → p.buffer ≠ some b} }

def after (v : Ownership) : Operation → Ownership
  | .constructDefault => v.add false
  | .construct _ => v.add true
  | .moveAssign b b' => v.swap b b'
  | .destroy b => v.take b
  | .makeImpl b size => v.setImpl b size
  | .getReadHandle b st => v.acquire .read b st
  | .getWriteHandle b st => v.acquire .write b st
  | .moveRead h => v.move .read h
  | .moveWrite w => v.move .write w
  | .closeRead h => v.close .read h
  | .closeWrite w => v.close .write w
  | _ => v

/-- No handle points into the buffer. -/
def Free (v : Ownership) (b : ℕ) : Prop := ∀ k h p, v.handles k h = some p → p.buffer ≠ some b

def Points (v : Ownership) (k : Kind) (st : Stream) (h : ℕ) : Prop :=
  ∃ p, v.handles k h = some p ∧ p.stream = st ∧ p.valid = true

/-- What an operation needs, if its outcome is not to depend on the streams. -/
def Permits (v : Ownership) : Operation → Prop
  | .constructDefault | .construct _ | .synchronize _ => True
  | .moveAssign b b' => b ≠ b' ∧ b ∈ v.fresh ∧ b' ∈ v.fresh ∧ (v.buffers b).isSome ∧
      (v.buffers b').isSome ∧ v.Free b ∧ v.Free b'
  | .destroy b => (v.buffers b).isSome ∧ v.Free b
  | .setWriteEvent b _ => (v.buffers b).isSome ∧ b ∈ v.fresh
  | .makeImpl b _ => (v.buffers b).isSome
  | .setStream b _ => (v.impls b).isSome
  | .getReadHandle b _ => (v.buffers b).isSome
  | .getWriteHandle b _ => (v.buffers b).isSome ∧ b ∈ v.fresh
  | .moveRead h | .closeRead h => (v.handles .read h).isSome
  | .moveWrite w | .closeWrite w => (v.handles .write w).isSome
  | .launch st r w => (∀ h, r = some h → v.Points .read st h) ∧
    ∀ k, w = some k → v.Points .write st k
  | _ => False

/-- The operations are permitted one after the other. -/
def Permitted : Ownership → List Operation → Prop
  | _, [] => True
  | v, o :: ops => v.Permits o ∧ (v.after o).Permitted ops

def afterAll (v : Ownership) (ops : List Operation) : Ownership := ops.foldl after v

lemma permitted_append (ops ops' : List Operation) :
    v.Permitted (ops ++ ops') ↔ v.Permitted ops ∧ (v.afterAll ops).Permitted ops' := by
  induction ops generalizing v with
  | nil => exact (iff_of_eq (true_and _)).symm
  | cons o ops ih => exact (and_congr_right fun _ => ih).trans and_assoc.symm

lemma afterAll_append (ops ops' : List Operation) :
    v.afterAll (ops ++ ops') = (v.afterAll ops).afterAll ops' := List.foldl_append

lemma permits_move {k : Kind} : v.Permits (k.move h) ↔ (v.handles k h).isSome := by
  cases k <;> exact Iff.rfl

lemma after_move (v : Ownership) (k : Kind) (h : ℕ) : v.after (k.move h) = v.move k h := by
  cases k <;> rfl

lemma permits_close {k : Kind} : v.Permits (k.close h) ↔ (v.handles k h).isSome := by
  cases k <;> exact Iff.rfl

lemma after_close (v : Ownership) (k : Kind) (h : ℕ) : v.after (k.close h) = v.close k h := by
  cases k <;> rfl

/-- What is beyond the counters is not there yet. -/
structure Bounded (v : Ownership) : Prop where
  buffers : ∀ b, v.nextBuffer ≤ b → v.buffers b = none
  impls : ∀ b, v.nextBuffer ≤ b → v.impls b = none
  handles : ∀ k h, v.nextHandle k ≤ h → v.handles k h = none
  pointers : ∀ k h p b, v.handles k h = some p → p.buffer = some b → b < v.nextBuffer

namespace Bounded

lemma lt_of_buffer (hv : Bounded v) (hb : (v.buffers b).isSome) : b < v.nextBuffer := by
  by_contra hle
  rw [hv.buffers b (not_lt.mp hle)] at hb
  cases hb

lemma lt_of_handle (hv : Bounded v) {k : Kind} (hh : (v.handles k h).isSome) :
    h < v.nextHandle k := by
  by_contra hle
  rw [hv.handles k h (not_lt.mp hle)] at hh
  cases hh

lemma free (hv : Bounded v) (hb : v.nextBuffer ≤ b) : v.Free b := by
  intro k h p hp hptr
  exact absurd (hv.pointers k h p b hp hptr) (not_lt.mpr hb)

lemma add (hv : Bounded v) (stored : Bool) : Bounded (v.add stored) := by
  refine ⟨fun b hb => ?_, fun b hb => hv.impls b (Nat.le_of_succ_le hb), hv.handles,
    fun k h p b hp hptr => Nat.lt_succ_of_lt (hv.pointers k h p b hp hptr)⟩
  have hlt : v.nextBuffer < b := hb
  exact (Function.update_of_ne hlt.ne' _ _).trans (hv.buffers b hlt.le)

lemma setHandle (hv : Bounded v) {k : Kind} {p : Option Pointer} (hh : h < v.nextHandle k)
    (hp : ∀ q b, p = some q → q.buffer = some b → b < v.nextBuffer) :
    Bounded (v.setHandle k h p) := by
  refine ⟨hv.buffers, hv.impls, fun k' h' hle => ?_, fun k' h' q b hq hptr => ?_⟩
  · have hne : ¬ (k' = k ∧ h' = h) := by
      rintro ⟨rfl, rfl⟩
      exact absurd hh (not_lt.mpr hle)
    exact (if_neg hne).trans (hv.handles k' h' hle)
  · have hq : (if k' = k ∧ h' = h then p else v.handles k' h') = some q := hq
    split_ifs at hq
    · exact hp q b hq hptr
    · exact hv.pointers k' h' q b hq hptr

lemma addHandle (hv : Bounded v) {k : Kind} {p : Option Pointer}
    (hp : ∀ q b, p = some q → q.buffer = some b → b < v.nextBuffer) :
    Bounded (v.addHandle k p) := by
  have hnext :
      Bounded { v with nextHandle := Function.update v.nextHandle k (v.nextHandle k + 1) } := by
    refine ⟨hv.buffers, hv.impls, fun k' h' hle => hv.handles k' h' ?_, hv.pointers⟩
    by_cases hk : k' = k
    · subst hk
      simp only [Function.update_self] at hle
      omega
    · simpa only [Function.update_of_ne hk] using hle
  exact hnext.setHandle (by simp) hp

lemma less_fresh (hv : Bounded v) (l : Set ℕ) : Bounded { v with fresh := l } :=
  ⟨hv.buffers, hv.impls, hv.handles, hv.pointers⟩

lemma acquire (hv : Bounded v) (k : Kind) (hb : (v.buffers b).isSome) (st : Stream) :
    Bounded (v.acquire k b st) := by
  refine (hv.addHandle (p := some ⟨some b, st, (v.buffers b).getD false⟩) ?_).less_fresh _
  rintro q c ⟨⟩ ⟨⟩
  exact hv.lt_of_buffer hb

lemma move (hv : Bounded v) {k : Kind} (hh : (v.handles k h).isSome) : Bounded (v.move k h) := by
  have hempty : Bounded (v.setHandle k h (some {})) := by
    refine hv.setHandle (hv.lt_of_handle hh) ?_
    rintro q c ⟨⟩ hc
    cases hc
  exact hempty.addHandle fun q c hq hptr => hv.pointers k h q c hq hptr

lemma close (hv : Bounded v) {k : Kind} (hh : (v.handles k h).isSome) : Bounded (v.close k h) := by
  refine (hv.setHandle (p := none) (hv.lt_of_handle hh) ?_).less_fresh _
  intro q c hq
  cases hq

lemma after (hv : Bounded v) (hp : v.Permits o) : Bounded (v.after o) := by
  cases o with
  | constructDefault => exact hv.add false
  | construct _ => exact hv.add true
  | moveAssign b b' =>
    obtain ⟨-, -, -, hb, hb', -, -⟩ := hp
    refine ⟨fun c hc => ?_, hv.impls, hv.handles, hv.pointers⟩
    have hne : c ≠ b := (hv.lt_of_buffer hb |>.trans_le hc).ne'
    have hne' : c ≠ b' := (hv.lt_of_buffer hb' |>.trans_le hc).ne'
    change Function.update (Function.update v.buffers b _) b' _ c = none
    rw [Function.update_of_ne hne', Function.update_of_ne hne, hv.buffers c hc]
  | destroy b =>
    have hlt := hv.lt_of_buffer hp.1
    refine ⟨fun c hc => ?_, fun c hc => ?_, hv.handles, hv.pointers⟩
    · exact (Function.update_of_ne (hlt.trans_le hc).ne' _ _).trans (hv.buffers c hc)
    · exact (Function.update_of_ne (hlt.trans_le hc).ne' _ _).trans (hv.impls c hc)
  | makeImpl b size =>
    have hlt := hv.lt_of_buffer hp
    refine ⟨hv.buffers, fun c hc => ?_, hv.handles, hv.pointers⟩
    exact (Function.update_of_ne (hlt.trans_le hc).ne' _ _).trans (hv.impls c hc)
  | getReadHandle b st => exact hv.acquire .read hp st
  | getWriteHandle b st => exact hv.acquire .write hp.1 st
  | moveRead h => exact hv.move hp
  | moveWrite w => exact hv.move hp
  | closeRead h => exact hv.close hp
  | closeWrite w => exact hv.close hp
  | _ => exact hv

lemma afterAll (hv : Bounded v) {ops : List Operation} (hp : v.Permitted ops) :
    Bounded (v.afterAll ops) := by
  induction ops generalizing v with
  | nil => exact hv
  | cons o ops ih => exact ih (hv.after hp.1) hp.2

end Bounded

end Ownership

/-- The process has the buffers and the handles of the abstract state. -/
structure Abstracts (s : Process) (v : Ownership) : Prop where
  buffers : ∀ b, v.buffers b = (s.buffers b).map fun x => x.devicePtr.isSome
  nextBuffer : v.nextBuffer = s.nextBuffer
  impls : ∀ b, v.impls b = (s.impls b).map CudaBufferImpl.size
  fresh : ∀ b x, b ∈ v.fresh → s.buffers b = some x → x.handleState = none ∧ x.readEvents = []
  reads : ∀ h, v.handles .read h = (s.readHandles h).map ReadHandle.pointer
  nextRead : v.nextHandle .read = s.nextRead
  writes : ∀ w, v.handles .write w = (s.writeHandles w).map WriteHandle.pointer
  nextWrite : v.nextHandle .write = s.nextWrite

namespace Abstracts

variable {s s' : Process} {v : Ownership} {o : Operation} {out : Output} {b h w : ℕ}
  {x : CudaBuffer} {st : Stream}

lemma buffer (ha : Abstracts s v) (hb : (v.buffers b).isSome) :
    ∃ x, s.buffers b = some x ∧ v.buffers b = some x.devicePtr.isSome := by
  rw [ha.buffers, Option.isSome_map, Option.isSome_iff_exists] at hb
  obtain ⟨x, hx⟩ := hb
  exact ⟨x, hx, by rw [ha.buffers, hx]; rfl⟩

lemma readHandle (ha : Abstracts s v) (hr : (v.handles .read h).isSome) :
    ∃ rh, s.readHandles h = some rh ∧ v.handles .read h = some rh.pointer := by
  rw [ha.reads, Option.isSome_map, Option.isSome_iff_exists] at hr
  obtain ⟨rh, hrh⟩ := hr
  exact ⟨rh, hrh, by rw [ha.reads, hrh]; rfl⟩

lemma writeHandle (ha : Abstracts s v) (hw : (v.handles .write w).isSome) :
    ∃ wh, s.writeHandles w = some wh ∧ v.handles .write w = some wh.pointer := by
  rw [ha.writes, Option.isSome_map, Option.isSome_iff_exists] at hw
  obtain ⟨wh, hwh⟩ := hw
  exact ⟨wh, hwh, by rw [ha.writes, hwh]; rfl⟩

lemma unread (ha : Abstracts s v) (hf : v.Free b) : s.readReferenced b = false := by
  by_contra hany
  obtain ⟨k, -, hk⟩ := List.any_eq_true.mp (Bool.not_eq_false _ ▸ hany)
  obtain ⟨rh, hrh, hb⟩ := Option.any_eq_true _ _ |>.mp hk
  exact hf .read k rh.pointer (by rw [ha.reads, hrh]; rfl) (of_decide_eq_true hb)

lemma unwritten (ha : Abstracts s v) (hf : v.Free b) : s.writeReferenced b = false := by
  by_contra hany
  obtain ⟨k, -, hk⟩ := List.any_eq_true.mp (Bool.not_eq_false _ ▸ hany)
  obtain ⟨wh, hwh, hb⟩ := Option.any_eq_true _ _ |>.mp hk
  exact hf .write k wh.pointer (by rw [ha.writes, hwh]; rfl) (of_decide_eq_true hb)

lemma unreferenced (ha : Abstracts s v) (hf : v.Free b) : s.referenced b = false := by
  rw [referenced, ha.unread hf, ha.unwritten hf]
  rfl

lemma unopened (ha : Abstracts s v) (hb : b ∈ v.fresh) : s.writerOpen b = false := by
  unfold writerOpen
  cases hx : s.buffers b with
  | none => rfl
  | some x => simp [(ha.fresh b x hb hx).1]

/-- The work of a permitted operation settles its writers and moves no buffer that is read. -/
lemma careful (ha : Abstracts s v) (hp : v.Permits o) :
    Steady s o out ∧ WriterSettled s o out := by
  cases o with
  | setWriteEvent b owns =>
    refine ⟨trivial, ?_⟩
    change (s.buffers b).all _ = true
    cases hx : s.buffers b with
    | none => rfl
    | some x => simp [(ha.fresh b x hp.2 hx).1]
  | moveAssign b b' =>
    obtain ⟨-, hb, hb', -, -, hf, hf'⟩ := hp
    exact ⟨.inr ⟨ha.unread hf, ha.unread hf'⟩, .inr ⟨ha.unopened hb, ha.unopened hb'⟩⟩
  | moveConstruct b => exact hp.elim
  | _ => exact ⟨trivial, trivial⟩

/-- Streams, events and the recycler are no part of it. -/
lemma frame (ha : Abstracts s v) (hb : s'.buffers = s.buffers) (hn : s'.nextBuffer = s.nextBuffer)
    (hi : ∀ b, (s'.impls b).map CudaBufferImpl.size = (s.impls b).map CudaBufferImpl.size)
    (hr : s'.readHandles = s.readHandles) (hnr : s'.nextRead = s.nextRead)
    (hw : s'.writeHandles = s.writeHandles) (hnw : s'.nextWrite = s.nextWrite) :
    Abstracts s' v := by
  refine ⟨fun b => hb ▸ ha.buffers b, hn ▸ ha.nextBuffer, fun b => (ha.impls b).trans (hi b).symm,
    ?_, fun k => hr ▸ ha.reads k, hnr ▸ ha.nextRead, fun k => hw ▸ ha.writes k, hnw ▸ ha.nextWrite⟩
  intro b x hf hx
  exact ha.fresh b x hf (hb ▸ hx)

lemma update_map {α β : Type*} {f : ℕ → Option α} {g : α → β} {f' : ℕ → Option β}
    (hf : ∀ c, f' c = (f c).map g) (b : ℕ) (x : Option α) {x' : Option β} (hx : x' = x.map g) :
    ∀ c, Function.update f' b x' c = (Function.update f b x c).map g := by
  intro c
  by_cases hc : c = b
  · subst hc
    rw [Function.update_self, Function.update_self, hx]
  · rw [Function.update_of_ne hc, Function.update_of_ne hc, hf c]

lemma added (ha : Abstracts s v) (hx : x.handleState = none ∧ x.readEvents = []) {n : ℕ} :
    Abstracts { s.addBuffer x with nextAllocation := n } (v.add x.devicePtr.isSome) := by
  refine ⟨?_, congrArg (· + 1) ha.nextBuffer, ha.impls, ?_, ha.reads, ha.nextRead, ha.writes,
    ha.nextWrite⟩
  · rw [Ownership.add, ha.nextBuffer]
    exact update_map ha.buffers s.nextBuffer (some x) rfl
  · intro b y hb hy
    rw [Ownership.add, ha.nextBuffer] at hb
    rcases update_some hy with ⟨-, he⟩ | ⟨hne, hy⟩
    · exact Option.some.inj he ▸ hx
    · exact ha.fresh b y ((Set.mem_insert_iff.mp hb).resolve_left hne) hy

/-- A buffer is replaced by one with the same memory. -/
lemma replaced (ha : Abstracts s v) {y : CudaBuffer} (hb : s.buffers b = some x)
    (hptr : y.devicePtr = x.devicePtr)
    (hfresh : b ∈ v.fresh → y.handleState = none ∧ y.readEvents = []) :
    Abstracts (s.setBuffer b (some y)) v := by
  refine ⟨?_, ha.nextBuffer, ha.impls, ?_, ha.reads, ha.nextRead, ha.writes, ha.nextWrite⟩
  · have hsame : v.buffers b = (some y).map fun x => x.devicePtr.isSome := by
      rw [ha.buffers, hb, Option.map_some, Option.map_some, hptr]
    intro c
    rw [← Function.update_eq_self b v.buffers]
    exact update_map ha.buffers b (some y) hsame c
  · intro c z hc hz
    rcases update_some hz with ⟨rfl, he⟩ | ⟨-, hz⟩
    · exact Option.some.inj he ▸ hfresh hc
    · exact ha.fresh c z hc hz

lemma less_fresh (ha : Abstracts s v) {l : Set ℕ} (hl : l ⊆ v.fresh) :
    Abstracts s { v with fresh := l } :=
  ⟨ha.buffers, ha.nextBuffer, ha.impls, fun b x hb hx => ha.fresh b x (hl hb) hx, ha.reads,
    ha.nextRead, ha.writes, ha.nextWrite⟩

lemma swapped (ha : Abstracts s v) {b' : ℕ} {y : CudaBuffer} (hb : s.buffers b = some x)
    (hb' : s.buffers b' = some y) (hf : b ∈ v.fresh) (hf' : b' ∈ v.fresh) :
    Abstracts (s.swap b b' x y) (v.swap b b') := by
  refine ⟨?_, ha.nextBuffer, ha.impls, ?_, ha.reads, ha.nextRead, ha.writes, ha.nextWrite⟩
  · rw [Ownership.swap, ha.buffers b, ha.buffers b', hb, hb']
    exact update_map (update_map ha.buffers b (some y) rfl) b' (some x) rfl
  · intro c z hc hz
    rcases update_some hz with ⟨-, he⟩ | ⟨-, hz⟩
    · exact Option.some.inj he ▸ ha.fresh b x hf hb
    · rcases update_some hz with ⟨-, he⟩ | ⟨-, hz⟩
      · exact Option.some.inj he ▸ ha.fresh b' y hf' hb'
      · exact ha.fresh c z hc hz

lemma destroyed (ha : Abstracts s v) (x : CudaBuffer) : Abstracts (s.destroy b x) (v.take b) := by
  obtain ⟨queue, deleted, he⟩ := destroy_frame s b x
  rw [he]
  refine ⟨update_map ha.buffers b none rfl, ha.nextBuffer, update_map ha.impls b none rfl, ?_,
    ha.reads,
    ha.nextRead, ha.writes, ha.nextWrite⟩
  intro c z hc hz
  rcases update_some hz with ⟨-, he⟩ | ⟨-, hz⟩
  · cases he
  · exact ha.fresh c z hc hz

lemma setRead (ha : Abstracts s v) (h : ℕ) (z : Option ReadHandle) :
    Abstracts (s.setRead h z) (v.setHandle .read h (z.map ReadHandle.pointer)) := by
  refine ⟨ha.buffers, ha.nextBuffer, ha.impls, ha.fresh, fun c => ?_, ha.nextRead, fun c => ?_,
    ha.nextWrite⟩
  · by_cases hc : c = h
    · subst hc
      simp [Ownership.setHandle, Process.setRead]
    · simp [Ownership.setHandle, Process.setRead, hc, ha.reads]
  · simp [Ownership.setHandle, Process.setRead, ha.writes]

lemma setWrite (ha : Abstracts s v) (w : ℕ) (z : Option WriteHandle) :
    Abstracts (s.setWrite w z) (v.setHandle .write w (z.map WriteHandle.pointer)) := by
  refine ⟨ha.buffers, ha.nextBuffer, ha.impls, ha.fresh, fun c => ?_, ha.nextRead, fun c => ?_,
    ha.nextWrite⟩
  · simp [Ownership.setHandle, Process.setWrite, ha.reads]
  · by_cases hc : c = w
    · subst hc
      simp [Ownership.setHandle, Process.setWrite]
    · simp [Ownership.setHandle, Process.setWrite, hc, ha.writes]

lemma addRead (ha : Abstracts s v) (rh : ReadHandle) :
    Abstracts (s.addRead rh) (v.addHandle .read (some rh.pointer)) := by
  have hset := ha.setRead s.nextRead (some rh)
  rw [← ha.nextRead] at hset
  rw [Process.addRead, ← ha.nextRead]
  refine ⟨hset.buffers, hset.nextBuffer, hset.impls, hset.fresh, hset.reads, ?_, hset.writes, ?_⟩
  · simp [Ownership.addHandle]
  · have hother : (v.addHandle .read (some rh.pointer)).nextHandle .write =
      v.nextHandle .write := by
      simp [Ownership.addHandle, Ownership.setHandle]
    exact hother.trans ha.nextWrite

lemma addWrite (ha : Abstracts s v) (wh : WriteHandle) :
    Abstracts (s.addWrite wh) (v.addHandle .write (some wh.pointer)) := by
  have hset := ha.setWrite s.nextWrite (some wh)
  rw [← ha.nextWrite] at hset
  rw [Process.addWrite, ← ha.nextWrite]
  refine ⟨hset.buffers, hset.nextBuffer, hset.impls, hset.fresh, hset.reads, ?_, hset.writes, ?_⟩
  · have hother : (v.addHandle .write (some wh.pointer)).nextHandle .read = v.nextHandle .read := by
      simp [Ownership.addHandle, Ownership.setHandle]
    exact hother.trans ha.nextRead
  · simp [Ownership.addHandle]

lemma getReadHandle (ha : Abstracts s v) (hb : s.buffers b = some x) :
    Abstracts (s.getReadHandle b x st) (v.acquire .read b st) := by
  obtain ⟨gpu, recorded, states, he, -⟩ := getReadHandle_frame s b x st
  have hreaped : Abstracts (s.setBuffer b (some (s.pending x))) { v with fresh := v.fresh \ {b} } :=
    (ha.less_fresh Set.sdiff_subset).replaced hb rfl fun hf => absurd rfl hf.2
  have hadd := hreaped.addRead { dataPtr := x.devicePtr, readEvents := some b, stream := st }
  rw [he, Ownership.acquire, ha.buffers b, hb]
  exact hadd.frame rfl rfl (fun _ => rfl) rfl rfl rfl rfl

lemma acquireWrite (ha : Abstracts s v) {hs : ℕ}
    (hact : s.act (.getWriteHandle b st) = some (.writing hs, s')) :
    Abstracts s' (v.acquire .write b st) := by
  have hless : Abstracts s { v with fresh := v.fresh \ {b} } := ha.less_fresh Set.sdiff_subset
  have hgrant : ∀ {x} y {u}, s.buffers b = some x → y.devicePtr = x.devicePtr →
      u.buffers = Function.update s.buffers b (some y) → u.nextBuffer = s.nextBuffer →
      u.impls = s.impls → u.readHandles = s.readHandles → u.nextRead = s.nextRead →
      u.writeHandles = Function.update s.writeHandles s.nextWrite (some
        { dataPtr := x.devicePtr, writeEventPtr := some b, stream := st, state := some hs }) →
      u.nextWrite = s.nextWrite + 1 → Abstracts u (v.acquire .write b st) := by
    intro x y u hb hptr hbuffers hn hi hr hnr hw hnw
    have hput := hless.replaced hb hptr fun hf => absurd rfl hf.2
    have hadd := hput.addWrite
      { dataPtr := x.devicePtr, writeEventPtr := some b, stream := st, state := some hs }
    rw [Ownership.acquire, ha.buffers b, hb]
    exact hadd.frame hbuffers hn (fun _ => by rw [hi]; rfl) hr hnr hw hnw
  generalize hout : Output.writing hs = out at hact
  cases act_cases hact with
  | unchanged _ => cases hout
  | refused _ => cases hout
  | @granted _ _ x _ hb _ _ _ =>
    cases hout
    exact hgrant (s.pending x) hb rfl rfl rfl rfl rfl rfl rfl rfl
  | @grantedFirst _ x _ hb _ _ =>
    cases hout
    exact hgrant { s.pending x with handleState := some s.nextState } hb rfl
      (Function.update_idem ..) rfl rfl rfl rfl rfl rfl

lemma refuseWrite (ha : Abstracts s v) {e : WriteError}
    (hact : s.act (.getWriteHandle b st) = some (.threw e, s')) :
    Abstracts s' { v with fresh := v.fresh \ {b} } := by
  generalize hout : Output.threw e = out at hact
  cases act_cases hact with
  | unchanged _ => cases hout
  | refused hb => exact (ha.less_fresh Set.sdiff_subset).replaced hb rfl fun hf => absurd rfl hf.2
  | granted _ _ _ _ => cases hout
  | grantedFirst _ _ _ => cases hout

/-- Nobody else has had a handle of the buffer. -/
lemma getWriteHandle (ha : Abstracts s v) (hb : s.buffers b = some x) (hf : b ∈ v.fresh) :
    ∃ s', s.act (.getWriteHandle b st) = some (.writing s.nextState, s') := by
  obtain ⟨hstate, hread⟩ := ha.fresh b x hf hb
  have hpending : s.pending x = x := by
    rw [pending, hread, List.filter_nil, ← hread]
  have hrefuse : (s.setBuffer b (some x)).refusal x = none := by
    rw [refusal, hstate, hread]
    rfl
  have hget : s.getWriteHandle b x st = (none,
      ((s.setBuffer b (some x)).makeHandleState b x).grantWriteHandle b x st s.nextState) := by
    rw [Process.getWriteHandle]
    simp only [hpending]
    rw [hrefuse]
    simp only [hstate]
    rfl
  refine ⟨((s.setBuffer b (some x)).makeHandleState b x).grantWriteHandle b x st s.nextState, ?_⟩
  rw [act, withBuffer, hb]
  simp only [hget, hstate]
  rfl

lemma moveRead (ha : Abstracts s v) {rh : ReadHandle} (hh : s.readHandles h = some rh) :
    Abstracts ((s.setRead h (some {})).addRead rh) (v.move .read h) := by
  have hadd := (ha.setRead h (some {})).addRead rh
  rw [Ownership.move, ha.reads h, hh]
  exact hadd

lemma moveWrite (ha : Abstracts s v) {wh : WriteHandle} (hw : s.writeHandles w = some wh) :
    Abstracts ((s.setWrite w (some {})).addWrite wh) (v.move .write w) := by
  have hadd := (ha.setWrite w (some {})).addWrite wh
  rw [Ownership.move, ha.writes w, hw]
  exact hadd

lemma closeRead (ha : Abstracts s v) {rh : ReadHandle} (hh : s.readHandles h = some rh) :
    Abstracts ((s.releaseRead rh).setRead h none) (v.close .read h) := by
  have hpointer : v.handles .read h = some rh.pointer := by rw [ha.reads, hh]; rfl
  have hless : Abstracts s { v with fresh := (v.close .read h).fresh } :=
    ha.less_fresh fun b hb => hb.1
  rcases releaseRead_cases s rh with ⟨he, -⟩ | ⟨b, x, hptr, hb, he⟩
  · rw [he]
    exact hless.setRead h none
  · -- the event goes to a buffer that is not fresh
    have hput := hless.replaced (y := { x with readEvents := x.readEvents ++ [s.nextEvent] }) hb rfl
      fun hf => absurd hptr (hf.2 rh.pointer hpointer)
    have hset := hput.setRead h none
    rw [he]
    exact hset.frame rfl rfl (fun _ => rfl) rfl rfl rfl rfl

lemma closeWrite (ha : Abstracts s v) (wh : WriteHandle) :
    Abstracts ((s.releaseWrite wh).setWrite w none) (v.close .write w) := by
  obtain ⟨recorded, states, he, -⟩ := releaseWrite_frame s wh
  have hless : Abstracts s { v with fresh := (v.close .write w).fresh } :=
    ha.less_fresh fun b hb => hb.1
  have hset := hless.setWrite w none
  rw [he]
  exact hset.frame rfl rfl (fun _ => rfl) rfl rfl rfl rfl

/-- A permitted operation is carried out, or waits for its stream. -/
lemma act_permitted (ha : Abstracts s v) (hp : v.Permits o) :
    (∃ st, o = .synchronize st ∧ s.gpu.idle st = false) ∨
      ∃ out s', s.act o = some (out, s') ∧ Abstracts s' (v.after o) := by
  cases o with
  | constructDefault => exact .inr ⟨.quiet, s.addBuffer {}, rfl, ha.added (x := {}) ⟨rfl, rfl⟩⟩
  | construct size => exact .inr ⟨.quiet, s.construct size, rfl, ha.added (by exact ⟨rfl, rfl⟩)⟩
  | setWriteEvent b owns =>
    obtain ⟨x, hb, -⟩ := ha.buffer hp.1
    refine .inr ⟨.quiet, s.setWriteEvent b x owns, by rw [act, withBuffer, hb]; rfl, ?_⟩
    have hput := ha.replaced
      (y := { x with writeEvent := some s.nextEvent, ownsWriteEvent := owns })
      hb rfl fun hf => ha.fresh b x hf hb
    exact hput.frame rfl rfl (fun _ => rfl) rfl rfl rfl rfl
  | moveAssign b b' =>
    obtain ⟨hne, hf, hf', hb, hb', -, -⟩ := hp
    obtain ⟨x, hx, -⟩ := ha.buffer hb
    obtain ⟨y, hy, -⟩ := ha.buffer hb'
    refine .inr ⟨.quiet, s.swap b b' x y, ?_, ha.swapped hx hy hf hf'⟩
    simp only [act, withBuffer, hx, hy]
    rw [if_neg hne]
    rfl
  | destroy b =>
    obtain ⟨x, hb, -⟩ := ha.buffer hp.1
    refine .inr ⟨.quiet, s.destroy b x, ?_, ha.destroyed x⟩
    simp only [act, withBuffer, hb]
    rw [if_neg (by rw [ha.unreferenced hp.2]; exact Bool.false_ne_true)]
    rfl
  | getReadHandle b st =>
    obtain ⟨x, hb, -⟩ := ha.buffer hp
    exact .inr ⟨_, _, by rw [act, withBuffer, hb], ha.getReadHandle hb⟩
  | getWriteHandle b st =>
    obtain ⟨x, hb, -⟩ := ha.buffer hp.1
    obtain ⟨s', hs⟩ := ha.getWriteHandle hb hp.2
    exact .inr ⟨_, s', hs, ha.acquireWrite hs⟩
  | launch st r w =>
    obtain ⟨hr, hw⟩ := hp
    have hread : r.all (s.mayRead st) = true := by
      cases r with
      | none => rfl
      | some h =>
        obtain ⟨p, hh, hst, hvalid⟩ := hr h rfl
        obtain ⟨rh, hrh, hpointer⟩ := ha.readHandle (Option.isSome_of_eq_some hh)
        obtain rfl := Option.some.inj (hh.symm.trans hpointer)
        change (s.readHandles h).any _ = true
        rw [hrh, Option.any_some, Bool.and_eq_true]
        exact ⟨decide_eq_true hst, hvalid⟩
    have hwrite : w.all (s.mayWrite st) = true := by
      cases w with
      | none => rfl
      | some k =>
        obtain ⟨p, hk, hst, hvalid⟩ := hw k rfl
        obtain ⟨wh, hwh, hpointer⟩ := ha.writeHandle (Option.isSome_of_eq_some hk)
        obtain rfl := Option.some.inj (hk.symm.trans hpointer)
        change (s.writeHandles k).any _ = true
        rw [hwh, Option.any_some, Bool.and_eq_true]
        exact ⟨decide_eq_true hst, hvalid⟩
    refine .inr ⟨_, _, by rw [act, hread, hwrite]; rfl, ?_⟩
    exact ha.frame rfl rfl (fun _ => rfl) rfl rfl rfl rfl
  | synchronize st =>
    cases hidle : s.gpu.idle st with
    | false => exact .inl ⟨st, rfl, hidle⟩
    | true => exact .inr ⟨.quiet, s, by rw [act, hidle]; rfl, ha⟩
  | moveRead h =>
    obtain ⟨rh, hh, -⟩ := ha.readHandle hp
    exact .inr ⟨_, _, by simp only [act, hh]; rfl, ha.moveRead hh⟩
  | closeRead h =>
    obtain ⟨rh, hh, -⟩ := ha.readHandle hp
    exact .inr ⟨_, _, by simp only [act, hh]; rfl, ha.closeRead hh⟩
  | moveWrite w =>
    obtain ⟨wh, hw, -⟩ := ha.writeHandle hp
    exact .inr ⟨_, _, by simp only [act, hw]; rfl, ha.moveWrite hw⟩
  | closeWrite w =>
    obtain ⟨wh, hw, -⟩ := ha.writeHandle hp
    exact .inr ⟨_, _, by simp only [act, hw]; rfl, ha.closeWrite wh⟩
  | makeImpl b size =>
    obtain ⟨x, hb, -⟩ := ha.buffer hp
    refine .inr ⟨_, _, by rw [act, withBuffer, hb]; rfl, ?_⟩
    exact ⟨ha.buffers, ha.nextBuffer, update_map ha.impls b (some { size := size }) rfl, ha.fresh,
      ha.reads, ha.nextRead, ha.writes, ha.nextWrite⟩
  | setStream b st =>
    have hp : (v.impls b).isSome := hp
    rw [ha.impls, Option.isSome_map, Option.isSome_iff_exists] at hp
    obtain ⟨impl, hi⟩ := hp
    refine .inr ⟨_, _, by simp only [act, hi]; rfl, ?_⟩
    refine ha.frame rfl rfl (fun c => ?_) rfl rfl rfl rfl
    by_cases hc : c = b
    · subst hc
      simp [hi]
    · simp [Function.update_of_ne hc]
  | finalizeWriteHandle b | moveConstruct b | setSize b size | recycle | finish st => exact hp.elim
  | assignRead b b' | assignWrite b b' => exact hp.elim

lemma launch (ha : Abstracts s v) {r w : Option ℕ} (h : s.act (.launch st r w) = some (out, s')) :
    Abstracts s' v := by
  simp only [act] at h
  split_ifs at h
  obtain ⟨-, rfl⟩ := Prod.mk.inj (Option.some.inj h)
  exact ha.frame rfl rfl (fun _ => rfl) rfl rfl rfl rfl

/-- What the device and the recycler do meanwhile. -/
lemma progress (ha : Abstracts s v) (ho : o = .recycle ∨ ∃ st, o = .finish st)
    (h : s.act o = some (out, s')) : Abstracts s' v := by
  obtain rfl | ⟨st, rfl⟩ := ho
  · simp only [act] at h
    split at h
    · cases h
    · rename_i hr
      obtain ⟨item, rest, -, -, rfl⟩ := recycle_cases hr
      obtain ⟨-, rfl⟩ := quietly_some h
      rw [delete_frame]
      exact ha.frame rfl rfl (fun _ => rfl) rfl rfl rfl rfl
  · simp only [act] at h
    split at h
    · cases h
    · obtain ⟨-, rfl⟩ := quietly_some h
      exact ha.frame rfl rfl (fun _ => rfl) rfl rfl rfl rfl

end Abstracts

end RosidlBufferBackends.Buffers
