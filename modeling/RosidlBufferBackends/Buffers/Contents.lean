import RosidlBufferBackends.Buffers.Conflicts

/-! Works run on several streams and finish in any order that the events allow. In a disciplined
program each of them finds what it would if the works were run one after the other, as they were
launched. -/

namespace RosidlBufferBackends.Buffers

open Streams Runs Process Inventory

variable {ν : Type*} {s s' : Process} {o : Operation} {out : Output} {st : Stream}
  {p : Point Stream} {wk : Work}

/-- The work at the point makes the new contents of its target from those of its source and the
old ones. -/
def transferAt (effect : Point Stream → Option ν → ν → ν) (p : Point Stream) (wk : Work) :
    Transfer ℕ ν :=
  { source := wk.source, target := wk.target, effect := effect p }

/-- A process and the contents of its allocations. -/
structure Execution (ν : Type*) where
  process : Process := {}
  contents : Contents Stream ℕ ν

namespace Execution

variable {effect : Point Stream → Option ν → ν → ν} {e e' : Execution ν}

def start (memory : ℕ → ν) : Execution ν :=
  { contents := { device := memory, sequential := memory } }

def contentsAfter (effect : Point Stream → Option ν → ν → ν) (e : Execution ν) :
    Operation → Contents Stream ℕ ν
  | .launch st r w =>
      e.contents.launch (e.process.gpu.here st)
        (transferAt effect (e.process.gpu.here st) (e.process.workOf r w))
  | .finish st =>
      match (e.process.gpu.queue st)[e.process.gpu.finished st]? with
      | some (.work wk) =>
          e.contents.finish ⟨st, e.process.gpu.finished st⟩
            (transferAt effect ⟨st, e.process.gpu.finished st⟩ wk)
      | _ => e.contents
  | _ => e.contents

def act (effect : Point Stream → Option ν → ν → ν) (e : Execution ν) (o : Operation) :
    Option (Output × Execution ν) :=
  match e.process.act o with
  | none => none
  | some (out, s) => some (out, { process := s, contents := e.contentsAfter effect o })

/-- The works that conflict are ordered as they were launched. -/
structure Faithful (effect : Point Stream → Option ν → ν → ν) (e : Execution ν) : Prop where
  regular : Regular e.process
  separated : Separated e.process
  serial : ∃ l, Serial e.process.gpu (transferAt effect) e.contents l

lemma act_some (h : e.process.act o = some (out, s)) :
    e.act effect o = some (out, { process := s, contents := e.contentsAfter effect o }) := by
  rw [act, h]

lemma contentsAfter_other (hl : ∀ st r w, o ≠ .launch st r w) (hf : ∀ st, o ≠ .finish st) :
    e.contentsAfter effect o = e.contents := by
  cases o with
  | launch st r w => exact absurd rfl (hl st r w)
  | finish st => exact absurd rfl (hf st)
  | _ => rfl

lemma faithful_start (effect : Point Stream → Option ν → ν → ν) (memory : ℕ → ν) :
    Faithful effect (start memory) :=
  ⟨regular_initial, separated_initial, [], serial_initial _ memory⟩

lemma finish_gpu (ha : s.act (.finish st) = some (out, s')) : s.gpu.finish st = some s'.gpu := by
  simp only [Process.act] at ha
  split at ha
  · cases ha
  · rename_i gpu hf
    obtain ⟨-, rfl⟩ := quietly_some ha
    exact hf

lemma finish_serial {l : List (Point Stream × Transfer ℕ ν)}
    (hs : Serial e.process.gpu (transferAt effect) e.contents l) (ho : e.process.gpu.Orderly)
    (hf : e.process.gpu.finish st = some s.gpu) :
    ∃ l, Serial s.gpu (transferAt effect) (e.contentsAfter effect (.finish st)) l := by
  obtain ⟨-, op, hop, -⟩ := Gpu.finish_cases hf
  rw [contentsAfter, hop]
  cases op with
  | work wk => exact hs.finish_work ho hf hop
  | wait awaited => exact ⟨l, hs.finish_wait hf hop⟩

lemma act_faithful (h : Faithful effect e) (hg : Disciplined e.process o out)
    (ha : e.process.act o = some (out, s)) :
    Faithful effect { process := s, contents := e.contentsAfter effect o } := by
  obtain ⟨l, hs⟩ := h.serial
  refine ⟨act_regular h.regular hg ha, act_separated h.regular h.separated hg ha, ?_⟩
  by_cases hl : ∃ st r w, o = .launch st r w
  · obtain ⟨st, r, w, rfl⟩ := hl
    obtain ⟨-, -, rfl, rfl⟩ := launch_some ha
    refine ⟨_, hs.launch h.regular.orderly st (e.process.workOf r w) fun p wk hp hc => ?_⟩
    exact launch_before h.regular h.separated hg.handles ha hp hc
  · by_cases hf : ∃ st, o = .finish st
    · obtain ⟨st, rfl⟩ := hf
      exact finish_serial hs h.regular.orderly (finish_gpu ha)
    · rw [contentsAfter_other (fun st r w ho => hl ⟨st, r, w, ho⟩) fun st ho => hf ⟨st, ho⟩]
      rcases act_gpu ha with he | ⟨st, awaited, he⟩ | ⟨st, r, w, ho, -⟩ | ⟨st, ho, -⟩
      · rw [he]
        exact ⟨l, hs⟩
      · rw [he]
        exact ⟨l, hs.wait h.regular.orderly st awaited⟩
      · exact absurd ⟨st, r, w, ho⟩ hl
      · exact absurd ⟨st, ho⟩ hf

/-- The run of a process, with the contents of its allocations. -/
lemma run_faithful {tr : List (Operation × Output)} (h : Faithful effect e)
    (hr : Run Process.act e.process tr s) (hg : Every Process.act Disciplined e.process tr) :
    ∃ e', Run (act effect) e tr e' ∧ e'.process = s ∧ Faithful effect e' := by
  refine hr.induction_every
    (P := fun tr s => ∃ e', Run (act effect) e tr e' ∧ e'.process = s ∧ Faithful effect e') hg
    ⟨e, .nil, rfl, h⟩ ?_
  rintro tr s o out s' - ⟨e', hrun, rfl, hfaithful⟩ hgood ha
  exact ⟨_, hrun.snoc (act_some ha), rfl, act_faithful hfaithful hgood ha⟩

lemma Faithful.found_eq {a : ℕ} (h : Faithful effect e)
    (hw : (e.process.gpu.queue p.stream)[p.position]? = some (.work wk))
    (hs : wk.source = some a) (hd : e.process.done p = true) :
    ∃ v, e.contents.found p = some v ∧ e.contents.expected p = some v := by
  obtain ⟨l, hl⟩ := h.serial
  exact hl.found_eq hw hs (of_decide_eq_true hd)

lemma Faithful.device_eq {a : ℕ} (h : Faithful effect e)
    (hno : ∀ p wk, e.process.gpu.Pending p wk → wk.target ≠ some a) :
    e.contents.device a = e.contents.sequential a := by
  obtain ⟨l, hl⟩ := h.serial
  exact hl.device_eq hno

end Execution

/-- Every work that is done has found in its source what the works that were launched before it
make of it one after the other, and so has an allocation that no work will write any more. -/
theorem sequentially_consistent {m : Machine} {tr : List (Machine.Event × Machine.Report)}
    (hr : Run Machine.step {} tr m) (hg : Every act Disciplined {} (Machine.performed tr))
    (effect : Point Stream → Option ν → ν → ν) (memory : ℕ → ν) :
    ∃ e, Run (Execution.act effect) (Execution.start memory) (Machine.performed tr) e ∧
      e.process = m.process ∧
      (∀ p wk a, (m.process.gpu.queue p.stream)[p.position]? = some (.work wk) →
        wk.source = some a → m.process.done p = true →
        ∃ v, e.contents.found p = some v ∧ e.contents.expected p = some v) ∧
      ∀ a, (∀ p wk, m.process.gpu.Pending p wk → wk.target ≠ some a) →
        e.contents.device a = e.contents.sequential a := by
  obtain ⟨e, hrun, he, hfaithful⟩ := Execution.run_faithful
    (Execution.faithful_start effect memory) (Machine.run_performed hr) hg
  refine ⟨e, hrun, he, fun p wk a hw hs hd => ?_, fun a hno => ?_⟩
  · exact hfaithful.found_eq (he ▸ hw) hs (he ▸ hd)
  · exact hfaithful.device_eq fun p wk hp => hno p wk (he ▸ hp)

instance (s : Process) (o : Operation) : Decidable (UnderHandles s o) :=
  match o with
  | .launch st _ w =>
      inferInstanceAs (Decidable (st ≠ none ∧ (w.isSome → (s.writerOf w).isSome)))
  | .getWriteHandle b _ => inferInstanceAs
      (Decidable (∀ buf ∈ s.buffers b, buf.devicePtr.isSome → buf.writeEvent.isSome))
  | .constructDefault | .construct _ | .setWriteEvent _ _ | .moveConstruct _ | .moveAssign _ _
  | .destroy _ | .getReadHandle _ _ | .finalizeWriteHandle _ | .synchronize _
  | .moveRead _ | .assignRead _ _ | .closeRead _ | .moveWrite _ | .assignWrite _ _
  | .closeWrite _ | .makeImpl _ _ | .setStream _ _ | .setSize _ _ | .finish _ | .recycle =>
      .isTrue trivial

instance (s : Process) (o : Operation) (out : Output) : Decidable (Disciplined s o out) :=
  decidable_of_iff
    (Steady s o out ∧ WriterSettled s o out ∧ ReadersClosed s o out ∧ UnderHandles s o)
    ⟨fun ⟨h₁, h₂, h₃, h₄⟩ => ⟨h₁, h₂, h₃, h₄⟩, fun h => ⟨h.steady, h.settled, h.readers, h.handles⟩⟩

/-- The second buffer is written, and then overwritten with the first one, on stream 2. Its first
write is done before that of the first buffer, which was launched earlier. -/
def writtenThenCopied : List Operation :=
  [.construct 16, .setWriteEvent 0 true, .construct 16, .setWriteEvent 1 true,
    .getWriteHandle 0 (some 1), .launch (some 1) none (some 0), .getWriteHandle 1 (some 2),
    .launch (some 2) none (some 1), .closeWrite 0, .getReadHandle 0 (some 2),
    .launch (some 2) (some 0) (some 1), .finish (some 2), .finish (some 1), .finish (some 2),
    .finish (some 2)]

theorem sequentially_consistent_once : ∃ tr m e, Run Machine.step {} tr m ∧
    Run (Execution.act (fun p source _ => source.getD (p.stream.getD 0)))
      (Execution.start fun _ => 9) (Machine.performed tr) e ∧
    e.contents.found ⟨some 2, 2⟩ = some 1 ∧ e.contents.expected ⟨some 2, 2⟩ = some 1 := by
  let effect : Point Stream → Option ℕ → ℕ → ℕ := fun p source _ => source.getD (p.stream.getD 0)
  have hlast : (exec Machine.step {} (calling writtenThenCopied)).any (fun x =>
      decide ((exec act {} writtenThenCopied).map Prod.fst = some (Machine.performed x.1)) &&
      decide ((x.2.process.gpu.queue (some 2))[2]? = some (.work ⟨some 0, some 1⟩)) &&
      x.2.process.done ⟨some 2, 2⟩) = true := by
    decide +kernel
  have hfound : (exec (Execution.act effect) (Execution.start fun _ => 9) writtenThenCopied).any
      (fun x => decide ((exec act {} writtenThenCopied).map Prod.fst = some x.1) &&
        decide (x.2.contents.found ⟨some 2, 2⟩ = some 1)) = true := by
    decide +kernel
  obtain ⟨⟨tr, m⟩, hx, hp⟩ := Option.any_eq_true _ _ |>.mp hlast
  simp only [Bool.and_eq_true, decide_eq_true_eq] at hp
  obtain ⟨⟨hops, hwork⟩, hdone⟩ := hp
  obtain ⟨⟨tr', s⟩, hs, rfl⟩ := Option.map_eq_some_iff.mp hops
  obtain ⟨⟨tr'', e'⟩, hx', hp'⟩ := Option.any_eq_true _ _ |>.mp hfound
  simp only [Bool.and_eq_true, decide_eq_true_eq] at hp'
  obtain ⟨hsame, hone⟩ := hp'
  have hg : Every act Disciplined {} (Machine.performed tr) :=
    every_of_exec hs (by decide +kernel)
  obtain ⟨e, hrun, -, hall, -⟩ := sequentially_consistent (exec_run hx) hg effect fun _ => 9
  obtain rfl : Machine.performed tr = tr'' := Option.some.inj (hops.symm.trans hsame)
  obtain rfl := hrun.unique (exec_run hx')
  obtain ⟨v, hv, hv'⟩ := hall ⟨some 2, 2⟩ _ 0 hwork rfl hdone
  obtain rfl := Option.some.inj (hone.symm.trans hv)
  exact ⟨tr, m, e, exec_run hx, hrun, hone, hv'⟩

end RosidlBufferBackends.Buffers
