import RosidlBufferBackends.Buffers.BindingsSafety
import RosidlBufferBackends.Buffers.WriteRelease

/-! What holds of every Python program: its calls are never stuck on anything but a busy stream, the
references balance, and device memory outlives what the streams do with it through open
handles. -/

namespace RosidlBufferBackends.Buffers.Bindings

open Streams Runs Process Inventory

variable {v : Ownership} {i : Interpreter} {tr : List (Event × Report)} {a hs : ℕ} {st : Stream}
  {p : Point Stream} {x : CudaBuffer} {k : Kind} {h : ℕ}

def pointer (s : Process) : Kind → ℕ → Option Pointer
  | .read, h => (s.readHandles h).map ReadHandle.pointer
  | .write, w => (s.writeHandles w).map WriteHandle.pointer

/-- The running call goes on, or waits for a stream. -/
def Interpreter.Proceeds (i : Interpreter) : Prop :=
  ∀ o rest, i.remaining = o :: rest →
    (i.step .proceed).isSome = true ∨ ∃ st, o = .synchronize st ∧ i.process.gpu.idle st = false

/-- The buffers and handles of the process are those of the program's objects and wrappers. -/
structure Interpreter.Balanced (i : Interpreter) : Prop where
  buffers : ∀ b, (i.process.buffers b).isSome → ∃! o, i.storageOf o = some (.cuda b)
  storage : ∀ o b, i.storageOf o = some (.cuda b) → ∃ x impl, i.process.buffers b = some x ∧
    i.process.impls b = some impl ∧ x.devicePtr.isSome = decide (0 < impl.size)
  handles : ∀ k h, (pointer i.process k h).isSome →
    ∃! x, ∃ w, i.wrappers x = some w ∧ w.kind = k ∧ w.handle = some h
  points : ∀ x w h, i.wrappers x = some w → w.handle = some h → ∃ o b, w.owner = some o ∧
    i.storageOf o = some (.cuda b) ∧ pointer i.process w.kind h = some ⟨some b, w.stream, true⟩
  closed : ∀ x w, i.wrappers x = some w → w.handle = none → w.owner = none
  references : ∀ o obj, i.objects o = some obj → obj.refs = obj.held + i.owners o ∧ 0 < obj.refs

/-- Nothing is left on the device but what the recycler has. -/
structure Interpreter.Released (i : Interpreter) : Prop where
  buffers : ∀ b, i.process.buffers b = none
  handles : ∀ k h, pointer i.process k h = none
  allocations : ∀ a < i.process.nextAllocation,
    i.process.queued (PendingWork.holds a) + i.process.deleted a = 1

lemma abstracts_pointer (ha : Abstracts i.process v) (k : Kind) (h : ℕ) :
    pointer i.process k h = v.handles k h := by
  cases k with
  | read => exact (ha.reads h).symm
  | write => exact (ha.writes h).symm

lemma Sound.proceeds (hs : Sound v i none) : i.Proceeds := by
  intro o rest hrem
  have hperm := hs.permitted
  rw [hrem] at hperm
  refine (hs.abstracts.act_permitted hperm.1).symm.imp_left ?_
  rintro ⟨out, s, hact, -⟩
  simp only [Interpreter.step, hrem, Interpreter.perform, hact]
  rfl

lemma Sound.balanced (hs : Sound v i none) (hrem : i.remaining = []) : i.Balanced := by
  have hc := hs.idle hrem
  have hbuffer : ∀ b, (i.process.buffers b).isSome = (v.buffers b).isSome := by
    intro b
    rw [hs.abstracts.buffers, Option.isSome_map]
  refine ⟨fun b hb => ?_, fun o b ho => ?_, fun k h hh => ?_, fun x w h hx hh => ?_,
    hc.wrapped.closed, fun o obj ho => ⟨?_, hc.tallied.alive o obj ho⟩⟩
  · obtain ⟨o, ho⟩ := hc.stored.owned b (hbuffer b ▸ hb)
    exact ⟨o, ho, fun o' ho' => hc.stored.unshared o' o b ho' ho⟩
  · obtain ⟨size, himpl, hbuf⟩ := hc.stored.backed o b ho
    rw [hs.abstracts.impls] at himpl
    rw [hs.abstracts.buffers] at hbuf
    obtain ⟨impl, hi, rfl⟩ := Option.map_eq_some_iff.mp himpl
    obtain ⟨x, hx, hstored⟩ := Option.map_eq_some_iff.mp hbuf
    exact ⟨x, impl, hx, hi, hstored⟩
  · rw [abstracts_pointer hs.abstracts] at hh
    obtain ⟨x, w, hx, hk, hw⟩ := hc.wrapped.wrapped k h hh
    refine ⟨x, ⟨w, hx, hk, hw⟩, ?_⟩
    rintro y ⟨u, hy, hk', hu⟩
    exact hc.wrapped.distinct y x u w h hy hx (hk'.trans hk.symm) hu hw
  · rw [abstracts_pointer hs.abstracts]
    exact hc.wrapped.points x w h hx hh
  · rw [hc.tallied.counted o obj ho, if_neg (Option.some_ne_none o).symm, Nat.add_zero]

lemma Sound.released (hs : Sound v i none) (hrem : i.remaining = []) (hst : Stocked i.process)
    (hnone : ∀ o, i.objects o = none) : i.Released := by
  have hb := hs.balanced hrem
  have hstorage : ∀ o, i.storageOf o = none := fun o => by rw [Interpreter.storageOf, hnone o]; rfl
  have hbuffers : ∀ b, i.process.buffers b = none := by
    intro b
    by_contra hne
    obtain ⟨o, ho, -⟩ := hb.buffers b (Option.isSome_iff_ne_none.mpr hne)
    rw [hstorage o] at ho
    cases ho
  refine ⟨hbuffers, fun k h => ?_, fun a ha => ?_⟩
  · by_contra hne
    obtain ⟨x, ⟨w, hx, -, hh⟩, -⟩ := hb.handles k h (Option.isSome_iff_ne_none.mpr hne)
    obtain ⟨o, b, -, ho, -⟩ := hb.points x w h hx hh
    rw [hstorage o] at ho
    cases ho
  · have hempty : i.process.stock (CudaBuffer.holds a) = 0 := by
      refine List.sum_eq_zero fun n hn => ?_
      obtain ⟨b, -, rfl⟩ := List.mem_map.mp hn
      rw [hbuffers b]
      rfl
    have hcustody := hst.custody a
    rw [hempty, if_pos ha, Nat.zero_add] at hcustody
    exact hcustody

/-- In every state of every program the running call is stuck on nothing but a busy stream, and
between calls the tables balance: what no object holds is gone. -/
theorem programs_balance (hr : Run Interpreter.step {} tr i) :
    i.Proceeds ∧ (i.remaining = [] → i.Balanced ∧ ((∀ o, i.objects o = none) → i.Released)) := by
  obtain ⟨⟨hrun, -⟩, v, hs⟩ := run_sound hr
  exact ⟨hs.proceeds, fun hrem => ⟨hs.balanced hrem, hs.released hrem (run_stocked hrun)⟩⟩

/-- A buffer is written, read by a kernel on the same stream, and dropped. -/
def writtenAndRead : List Event :=
  [.allocateBuffer 16 {}] ++ List.replicate 6 .proceed ++
  [.fromOutputBuffer 0 (some (some 1)) {}] ++ List.replicate 4 .proceed ++
  [.toBuffer 0 (.bytes 16) 16 none {}, .proceed, .finish (some 1), .proceed, .close 0, .proceed,
    .fromInputBuffer 0 (some (some 1)) {}] ++ List.replicate 5 .proceed ++
  [.launch (some 1) (some 1) none, .close 1, .proceed, .dropRef 0, .proceed]

theorem programs_balance_once : ∃ tr i, Run Interpreter.step {} tr i ∧
    i.process.nextAllocation = 1 ∧ i.Proceeds ∧ i.Balanced ∧ i.Released := by
  have hlast : (exec Interpreter.step {} writtenAndRead).any (fun x =>
      decide (x.2.remaining = [] ∧ x.2.process.nextAllocation = 1 ∧ x.2.nextObject = 1 ∧
        x.2.objects 0 = none)) = true := by
    decide +kernel
  obtain ⟨⟨tr, i⟩, hx, hp⟩ := Option.any_eq_true _ _ |>.mp hlast
  obtain ⟨hrem, halloc, hnext, hnone⟩ := of_decide_eq_true hp
  have hr := exec_run hx
  obtain ⟨-, v, hs⟩ := run_sound hr
  obtain ⟨hproceeds, hbalanced⟩ := programs_balance hr
  refine ⟨tr, i, hr, halloc, hproceeds, (hbalanced hrem).1, (hbalanced hrem).2 fun o => ?_⟩
  refine Option.eq_none_iff_forall_not_mem.mpr fun obj ho => ?_
  obtain rfl : o = 0 := Nat.lt_one_iff.mp (hnext ▸ hs.coherent.tallied.objects o obj ho)
  rw [hnone] at ho
  cases ho

/-- A write into the allocation `a` through a handle in use, of a buffer with its own event. -/
structure Writes (s : Process) (o : Operation) (out : Output) (a : ℕ) (p : Point Stream) :
    Prop where
  stream : p.stream ≠ none
  launched : ∃ r w hs b x, o = .launch p.stream r w ∧ out = .launched p (some hs) ∧
    s.buffers b = some x ∧ x.handleState = some hs ∧ x.devicePtr = some a ∧
    x.ownsWriteEvent = true ∧ x.writeEvent ≠ none

/-- What a program makes a stream other than the default one read or write, through a handle that is
open on that stream when the work is launched, is done before the memory is released. -/
theorem programs_outlived (hr : Run Interpreter.step {} tr i) :
    (∀ p wk a, p.stream ≠ none → (i.process.gpu.queue p.stream)[p.position]? = some (.work wk) →
      wk.source = some a → i.process.deleted a ≠ 0 → i.process.done p = true) ∧
    ∀ pre o out post t a p, performed tr = pre ++ (o, out) :: post → Run act {} pre t →
      Writes t o out a p →
        (∃ src, (i.process.gpu.queue p.stream)[p.position]? = some (.work ⟨src, some a⟩)) ∧
          (i.process.deleted a ≠ 0 → i.process.done p = true) := by
  obtain ⟨⟨hrun, hcareful⟩, -⟩ := run_sound hr
  refine ⟨fun p wk a hne hwork hsource hdeleted => ?_, ?_⟩
  · obtain ⟨hst, -, hguard⟩ := run_readsGuarded hrun (hcareful.mono fun _ _ _ h => h.1)
    have hdone := (hguard p wk a hne hwork hsource).resolve_right
      (not_shielded_of_deleted hst hdeleted)
    exact decide_eq_true hdone
  · rintro pre o out post t a p htr ht ⟨hne, r, w, hs, b, x, rfl, rfl, hb, hx, hptr, howns, hev⟩
    exact run_write_released hrun (hcareful.mono fun _ _ _ h => h.2) htr ht hb hx hptr howns hev hne

theorem programs_outlived_once : ∃ tr i, Run Interpreter.step {} tr i ∧
    i.process.deleted 0 = 1 ∧ i.process.done ⟨some 1, 2⟩ = true := by
  have hlast : (exec Interpreter.step {} (writtenAndRead ++
      [.finish (some 1), .finish (some 1), .recycle])).any (fun x =>
      decide (x.2.process.deleted 0 = 1) &&
      decide ((x.2.process.gpu.queue (some 1))[2]? = some (.work ⟨some 0, none⟩))) = true := by
    decide +kernel
  obtain ⟨⟨tr, i⟩, hx, hp⟩ := Option.any_eq_true _ _ |>.mp hlast
  obtain ⟨hdeleted, hwork⟩ := (Bool.and_eq_true _ _).mp hp
  have hdeleted := of_decide_eq_true hdeleted
  refine ⟨tr, i, exec_run hx, hdeleted, ?_⟩
  exact (programs_outlived (exec_run hx)).1 ⟨some 1, 2⟩ _ 0 (Option.some_ne_none 1)
    (of_decide_eq_true hwork) rfl (by rw [hdeleted]; exact Nat.one_ne_zero)

end RosidlBufferBackends.Buffers.Bindings
