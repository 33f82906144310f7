import RosidlBufferBackends.Buffers.PythonPrograms
import RosidlBufferBackends.Lib.Progress

/-! The streams of a process never wait for each other in a circle, so every call of a program
returns, and what it has released is freed. -/

namespace RosidlBufferBackends.Buffers

open Streams Runs Process

variable {s s' : Process} {o : Operation} {out : Output} {st : Stream} {x : CudaBuffer} {b : ℕ}

section Waits

/-- An operation changes the streams by a reached wait, a work or a step. -/
def Extended (s s' : Process) (o : Operation) : Prop :=
  s'.gpu = s.gpu ∨
    (∃ st p, s'.gpu = s.gpu.enqueue st (.wait p) ∧ p.position ≤ (s.gpu.queue p.stream).length) ∨
    (∃ st w, s'.gpu = s.gpu.enqueue st (.work w)) ∨
      ∃ st, o = .finish st ∧ s.gpu.finish st = some s'.gpu

lemma waitForWrite_reached (h : Reached s) (x : CudaBuffer) (st : Stream) :
    (s.waitForWrite x st).gpu = s.gpu ∨
      ∃ p, (s.waitForWrite x st).gpu = s.gpu.enqueue st (.wait p) ∧
      p.position ≤ (s.gpu.queue p.stream).length := by
  unfold waitForWrite
  split
  · exact .inl rfl
  · split_ifs
    · unfold streamWaitEvent
      split
      · exact .inl rfl
      · exact .inr ⟨_, rfl, h _ _ ‹_›⟩
    · exact .inl rfl

lemma getReadHandle_extended (h : Reached s) : Extended s (s.getReadHandle b x st) o := by
  obtain ⟨recorded, states, he, hrec⟩ := finalizeOpenWrite_frame (s.reapCompletedReadEvents b x) x
  have hreached : Reached ((s.reapCompletedReadEvents b x).finalizeOpenWrite x) := by
    rw [he]
    exact reached_of (s := s) h (.refl _) fun ev => (hrec ev).imp_right And.right
  have hgpu : ((s.reapCompletedReadEvents b x).finalizeOpenWrite x).gpu = s.gpu := by rw [he]; rfl
  have hwait := waitForWrite_reached hreached x st
  rw [hgpu] at hwait
  exact hwait.imp_right fun ⟨p, hp⟩ => .inl ⟨st, p, hp⟩

lemma releaseRead_gpu (s : Process) (rh : ReadHandle) : (s.releaseRead rh).gpu = s.gpu := by
  rcases releaseRead_cases s rh with ⟨he, -⟩ | ⟨_, _, _, _, he⟩ <;> rw [he]

lemma releaseWrite_gpu (s : Process) (wh : WriteHandle) : (s.releaseWrite wh).gpu = s.gpu := by
  obtain ⟨_, _, he, -⟩ := releaseWrite_frame s wh
  rw [he]

lemma act_extended (h : Reached s) (ha : s.act o = some (out, s')) : Extended s s' o := by
  cases act_cases ha with
  | @destroy b buf _ _ =>
    obtain ⟨queue, deleted, he⟩ := destroy_frame s b buf
    rw [he]
    exact .inl rfl
  | getReadHandle _ => exact getReadHandle_extended h
  | @finalizeWriteHandle b buf _ =>
    obtain ⟨recorded, states, he, -⟩ := finalizeWriteHandle_frame s buf
    rw [he]
    exact .inl rfl
  | @launch st r w _ _ => exact .inr (.inr (.inl ⟨st, _, rfl⟩))
  | assignRead _ _ _ => exact .inl (releaseRead_gpu _ _)
  | closeRead _ => exact .inl (releaseRead_gpu _ _)
  | assignWrite _ _ _ => exact .inl (releaseWrite_gpu _ _)
  | closeWrite _ => exact .inl (releaseWrite_gpu _ _)
  | @finish st gpu hf => exact .inr (.inr (.inr ⟨st, rfl, hf⟩))
  | recycle _ _ =>
    rw [delete_frame]
    exact .inl rfl
  | _ => exact .inl rfl

lemma act_acyclic (h : Reached s) (hg : s.gpu.Acyclic) (ha : s.act o = some (out, s')) :
    s'.gpu.Acyclic := by
  rcases act_extended h ha with he | ⟨st, p, he, hp⟩ | ⟨st, w, he⟩ | ⟨st, -, hf⟩
  · rwa [he]
  · rw [he]
    refine hg.enqueue st ?_
    rintro _ ⟨⟩
    exact hp
  · rw [he]
    refine hg.enqueue st ?_
    rintro _ ⟨⟩
  · exact hg.of_queue (by rw [(Gpu.finish_cases hf).1]; rfl)

/-- What the streams need to finish everything. -/
structure Drainable (s : Process) : Prop where
  reached : Reached s
  orderly : s.gpu.Orderly
  acyclic : s.gpu.Acyclic

lemma drainable_initial : Drainable {} := by
  refine ⟨by rintro _ _ ⟨⟩, ⟨fun _ => le_rfl, fun _ _ _ hi => absurd hi (Nat.not_lt_zero _)⟩,
    fun _ _ => 0, 0, fun _ _ hi => absurd hi (Nat.not_lt_zero _),
    fun _ _ _ _ hj => absurd hj (Nat.not_lt_zero _), ?_, ?_⟩
  · rintro _ _ _ ⟨⟩
  · rintro _ _ _ ⟨⟩

lemma run_drainable {tr : List (Operation × Output)} (hr : Run act {} tr s) : Drainable s := by
  refine hr.invariant drainable_initial fun t o out u h ha => ?_
  exact ⟨reached_of h.reached (act_extends ha) (act_recorded ha), act_orderly h.orderly ha,
    act_acyclic h.reached h.acyclic ha⟩

lemma recycle_ready {item : PendingWork} {rest : List PendingWork} (hq : s.queue = item :: rest)
    (hall : item.events.all s.complete = true) :
    s.act .recycle = some (.quiet, { s with queue := rest }.delete item.devicePtr) := by
  simp only [act, Process.recycle, hq]
  rw [if_pos hall]
  rfl

/-- The recycler's next item is freed, once the device has got there. -/
lemma Drainable.recycle (h : Drainable s) {item : PendingWork} {rest : List PendingWork}
    (hq : s.queue = item :: rest) : ∃ g, s.gpu.Finishes g ∧ { s with gpu := g }.act .recycle =
      some (.quiet, { s with gpu := g, queue := rest }.delete item.devicePtr) := by
  obtain ⟨g, hf, hpassed⟩ := h.acyclic.pass_all h.orderly (item.events.filterMap s.recorded) <| by
    intro p hp
    obtain ⟨ev, -, hev⟩ := List.mem_filterMap.mp hp
    exact h.reached ev p hev
  refine ⟨g, hf, recycle_ready (s := { s with gpu := g }) hq ?_⟩
  refine List.all_eq_true.mpr fun ev hev => ?_
  rw [complete]
  cases hr : s.recorded ev with
  | none => rfl
  | some p => exact hpassed p (List.mem_filterMap.mpr ⟨ev, hev, hr⟩)

end Waits

namespace Bindings

variable {v : Ownership} {i i' : Interpreter} {tr : List (Event × Report)}

/-- What goes on without the program: the running call, the device and the recycler. -/
def Event.internal : Event → Bool
  | .proceed | .finish _ | .recycle => true
  | _ => false

/-- The interpreter gets there without the program. -/
def Settles (i i' : Interpreter) : Prop :=
  ∃ tr, Run Interpreter.step i tr i' ∧ ∀ x ∈ tr, x.1.internal = true

namespace Settles

lemma refl (i : Interpreter) : Settles i i := ⟨[], .nil, by simp⟩

lemma trans {i'' : Interpreter} (h : Settles i i') (h' : Settles i' i'') : Settles i i'' := by
  obtain ⟨tr, hr, hi⟩ := h
  obtain ⟨tr', hr', hi'⟩ := h'
  refine ⟨tr ++ tr', hr.append hr', fun x hx => ?_⟩
  exact (List.mem_append.mp hx).elim (hi x) (hi' x)

lemma single {e : Event} {r : Report} (hs : i.step e = some (r, i')) (he : e.internal = true) :
    Settles i i' := by
  refine ⟨[(e, r)], .single hs, fun x hx => ?_⟩
  rw [List.mem_singleton.mp hx]
  exact he

/-- The device goes on. -/
lemma finishes {g : Streams.Gpu Stream Work} (hf : i.process.gpu.Finishes g) :
    Settles i { i with process := { i.process with gpu := g } } := by
  generalize hg : i.process.gpu = g₀ at hf
  induction hf with
  | refl =>
    subst hg
    exact .refl i
  | @tail g' g'' k _ hfin ih =>
    refine ih.trans (single (e := .finish k) (r := .did (.finish k) .quiet) ?_ rfl)
    simp only [Interpreter.step, Interpreter.perform, act, hfin, quietly]

end Settles

/-- The tables of the program are as they were. -/
structure SameTables (i i' : Interpreter) : Prop where
  objects : i'.objects = i.objects
  wrappers : i'.wrappers = i.wrappers

lemma SameTables.trans {i'' : Interpreter} (h : SameTables i i') (h' : SameTables i' i'') :
    SameTables i i'' :=
  ⟨h'.objects.trans h.objects, h'.wrappers.trans h.wrappers⟩

lemma proceed_one {op : Operation} {rest : List Operation} (hrem : i.remaining = op :: rest)
    (hs : (i.step .proceed).isSome = true) :
    ∃ i', Settles i i' ∧ i'.remaining = rest ∧ SameTables i i' := by
  obtain ⟨⟨r, i'⟩, hstep⟩ := Option.isSome_iff_exists.mp hs
  have hperform := hstep
  simp only [Interpreter.step, hrem] at hperform
  obtain ⟨out, t, -, -, rfl⟩ := perform_some hperform
  exact ⟨_, .single hstep rfl, rfl, rfl, rfl⟩

/-- The operations of the running call are performed one by one, the streams that it waits for
drained first. -/
lemma returns (hr : Run Interpreter.step {} tr i) :
    ∃ i', Settles i i' ∧ i'.remaining = [] ∧ SameTables i i' := by
  induction hrem : i.remaining generalizing i tr with
  | nil => exact ⟨i, .refl i, hrem, rfl, rfl⟩
  | cons op rest ih =>
    have hnext : ∀ {j}, Settles i j → SameTables i j → j.remaining = op :: rest →
        (j.step .proceed).isSome = true →
        ∃ i', Settles i i' ∧ i'.remaining = [] ∧ SameTables i i' := by
      intro j hij hsame hj hs
      obtain ⟨j', hjj', hj', hsame'⟩ := proceed_one hj hs
      obtain ⟨tr', hr', -⟩ := hij.trans hjj'
      obtain ⟨i', hset, hdone, hlast⟩ := ih (hr.append hr') hj'
      exact ⟨i', (hij.trans hjj').trans hset, hdone, (hsame.trans hsame').trans hlast⟩
    obtain ⟨⟨hrun, -⟩, v, hsound⟩ := run_sound hr
    rcases hsound.proceeds op rest hrem with hs | ⟨st, rfl, -⟩
    · exact hnext (.refl i) ⟨rfl, rfl⟩ hrem hs
    · have hd := run_drainable hrun
      obtain ⟨g, hf, hidle⟩ := hd.acyclic.drain hd.orderly st
      refine hnext (.finishes hf) ⟨rfl, rfl⟩ hrem ?_
      simp only [Interpreter.step, hrem, Interpreter.perform, act, hidle, if_true, quietly]
      rfl

lemma recycles (hr : Run Interpreter.step {} tr i) :
    ∃ i', Settles i i' ∧ i'.remaining = i.remaining ∧ i'.process.queue = [] ∧ SameTables i i' := by
  induction hq : i.process.queue generalizing i tr with
  | nil => exact ⟨i, .refl i, rfl, hq, rfl, rfl⟩
  | cons item rest ih =>
    obtain ⟨⟨hrun, -⟩, -⟩ := run_sound hr
    obtain ⟨g, hf, hact⟩ := (run_drainable hrun).recycle hq
    have hstep : Interpreter.step { i with process := { i.process with gpu := g } } .recycle =
        some (.did .recycle .quiet, { i with process :=
          { i.process with gpu := g, queue := rest }.delete item.devicePtr }) := by
      simp only [Interpreter.step, Interpreter.perform, hact]
    have hset := (Settles.finishes hf).trans (.single hstep rfl)
    obtain ⟨tr', hr', -⟩ := hset
    have hrest : ({ i.process with gpu := g, queue := rest }.delete item.devicePtr).queue =
        rest := by
      rw [delete_frame]
    obtain ⟨i', hlast, hrem, hempty, hsame⟩ := ih (hr.append hr') hrest
    exact ⟨i', ((Settles.finishes hf).trans (.single hstep rfl)).trans hlast, hrem, hempty,
      hsame.objects, hsame.wrappers⟩

/-- From every state the running call returns and the recycler empties its queue, without the
program; then each allocation of a program that has dropped everything has been freed once. -/
theorem calls_return (hr : Run Interpreter.step {} tr i) :
    ∃ i', Settles i i' ∧ i'.remaining = [] ∧ i'.process.queue = [] ∧ i'.objects = i.objects ∧
      i'.wrappers = i.wrappers ∧
      ((∀ o, i.objects o = none) → ∀ a < i'.process.nextAllocation, i'.process.deleted a = 1) := by
  obtain ⟨j, hij, hj, hsame⟩ := returns hr
  obtain ⟨tr', hr', hinternal⟩ := hij
  obtain ⟨i', hji', hrem, hempty, hsame'⟩ := recycles (hr.append hr')
  obtain ⟨tr'', hr'', hinternal'⟩ := hji'
  obtain ⟨⟨hrun, -⟩, v, hs⟩ := run_sound ((hr.append hr').append hr'')
  have hall := hsame.trans hsame'
  refine ⟨i', .trans ⟨tr', hr', hinternal⟩ ⟨tr'', hr'', hinternal'⟩, hrem.trans hj, hempty,
    hall.objects, hall.wrappers, ?_⟩
  intro hnone a ha
  have hreleased := hs.released (hrem.trans hj) (run_stocked hrun) fun o => by
    rw [hall.objects, hnone o]
  have hone := hreleased.allocations a ha
  rwa [queued, hempty, List.map_nil, List.sum_nil, Nat.zero_add] at hone

/-- The call that copies waits for its stream. -/
theorem calls_return_once : ∃ tr i i', Run Interpreter.step {} tr i ∧
    i.remaining = [.synchronize (some 1)] ∧ i.step .proceed = none ∧ Settles i i' ∧
    i'.remaining = [] := by
  have hlast : (exec Interpreter.step {} (writtenAndRead.take 14)).any (fun x =>
      decide (x.2.remaining = [.synchronize (some 1)]) && (x.2.step .proceed).isNone) = true := by
    decide +kernel
  obtain ⟨⟨tr, i⟩, hx, hp⟩ := Option.any_eq_true _ _ |>.mp hlast
  obtain ⟨hrem, hblocked⟩ := (Bool.and_eq_true _ _).mp hp
  obtain ⟨i', hset, hdone, -⟩ := calls_return (exec_run hx)
  exact ⟨tr, i, i', exec_run hx, of_decide_eq_true hrem,
    Option.isNone_iff_eq_none.mp hblocked, hset,
    hdone⟩

end Bindings

end RosidlBufferBackends.Buffers
