import RosidlBufferBackends.Buffers.Contents

/-! What `to_cpu` copies to the host, while the streams and the recycler go on. -/

namespace RosidlBufferBackends.Buffers

open Streams Runs Process Inventory

variable {ν : Type*} {s s' : Process} {o : Operation} {out : Output} {a b : ℕ} {st : Stream}
  {p : Point Stream} {buf : CudaBuffer}

/-- The operation is one of the device or of the recycler. -/
def Background : Operation → Prop
  | .finish _ | .recycle => True
  | _ => False

section Machine

variable {m t t' v : Machine} {o' : Operation} {out' : Output} {rest : List Operation}
  {post post' : List (Machine.Event × Machine.Report)}

/-- The device and the recycler take the steps `quiet`, and then the call goes on with `o`. -/
structure Resumes (t m : Machine) (post : List (Machine.Event × Machine.Report)) (o : Operation)
    (rest : List Operation) (quiet : List (Operation × Output)) (out : Output)
    (post' : List (Machine.Event × Machine.Report)) (u : Process) (v : Machine) : Prop where
  performed : Machine.performed post = quiet ++ (o, out) :: Machine.performed post'
  background : ∀ x ∈ quiet, Background x.1
  waited : Run act t.process quiet u
  acted : u.act o = some (out, v.process)
  remaining : v.remaining = rest
  ran : Run Machine.step v post' m
  calls : ∀ c r, (Machine.Event.call c, r) ∉ post'

lemma Resumes.cons {quiet : List (Operation × Output)} {u : Process}
    (h : Resumes t' m post o rest quiet out post' u v) (hb : Background o')
    (ha : t.process.act o' = some (out', t'.process)) (e : Machine.Event) :
    Resumes t m ((e, .did o' out') :: post) o rest ((o', out') :: quiet) out post' u v := by
  refine { h with performed := ?_, background := ?_, waited := ?_ }
  · exact congrArg (List.cons (o', out')) h.performed
  · exact List.forall_mem_cons.mpr ⟨hb, h.background⟩
  · exact run_cons_iff.mpr ⟨t'.process, ha, h.waited⟩

/-- Until the call goes on, only the device and the recycler do. -/
lemma run_resumes (hr : Run Machine.step t post m) (hrest : t.remaining = o :: rest)
    (hdone : m.remaining = []) (hcalls : ∀ c r, (Machine.Event.call c, r) ∉ post) :
    ∃ quiet out post' u v, Resumes t m post o rest quiet out post' u v := by
  induction post generalizing t with
  | nil =>
    obtain rfl := run_nil_iff.mp hr
    cases hrest.symm.trans hdone
  | cons x post ih =>
    obtain ⟨e, r⟩ := x
    obtain ⟨t', hs, hpost⟩ := run_cons_iff.mp hr
    have hlater : ∀ c r, (Machine.Event.call c, r) ∉ post :=
      fun c r hmem => hcalls c r (List.mem_cons_of_mem _ hmem)
    cases e with
    | call c => exact absurd List.mem_cons_self (hcalls c r)
    | proceed =>
      simp only [Machine.step, hrest] at hs
      obtain ⟨out, rfl, ha, hkept⟩ := Machine.perform_run hs
      exact ⟨[], out, post, t.process, t', rfl, List.forall_mem_nil _, .nil, ha, hkept,
        hpost, hlater⟩
    | finish st =>
      have hbackground : Background (.finish st) := trivial
      obtain ⟨out', rfl, ha, hkept⟩ := Machine.perform_run hs
      obtain ⟨quiet, out, post', u, v, h⟩ := ih hpost (hkept.trans hrest) hlater
      exact ⟨_, out, post', u, v, h.cons hbackground ha _⟩
    | recycle =>
      have hbackground : Background .recycle := trivial
      obtain ⟨out', rfl, ha, hkept⟩ := Machine.perform_run hs
      obtain ⟨quiet, out, post', u, v, h⟩ := ih hpost (hkept.trans hrest) hlater
      exact ⟨_, out, post', u, v, h.cons hbackground ha _⟩

end Machine

namespace Execution

variable {effect : Point Stream → Option ν → ν → ν} {e e' : Execution ν}
  {tr : List (Operation × Output)}

/-- The buffers, the readers and what the launched works make of the memory are as they were. -/
structure Waits (e e' : Execution ν) : Prop where
  buffers : e'.process.buffers = e.process.buffers
  readHandles : e'.process.readHandles = e.process.readHandles
  nextRead : e'.process.nextRead = e.process.nextRead
  sequential : e'.contents.sequential = e.contents.sequential

lemma Waits.trans {e₁ e₂ e₃ : Execution ν} (h : Waits e₁ e₂) (h' : Waits e₂ e₃) : Waits e₁ e₃ :=
  ⟨h'.buffers.trans h.buffers, h'.readHandles.trans h.readHandles, h'.nextRead.trans h.nextRead,
    h'.sequential.trans h.sequential⟩

lemma waits_of_background (hb : Background o) (ha : e.process.act o = some (out, s)) :
    Waits e { process := s, contents := e.contentsAfter effect o } := by
  cases o with
  | finish st =>
    have hcontents : (e.contentsAfter effect (.finish st)).sequential = e.contents.sequential := by
      rw [contentsAfter]
      split
      · rfl
      · rfl
    cases act_cases ha with
    | unchanged impls => exact ⟨rfl, rfl, rfl, hcontents⟩
    | finish _ => exact ⟨rfl, rfl, rfl, hcontents⟩
  | recycle =>
    cases act_cases ha with
    | unchanged impls => exact ⟨rfl, rfl, rfl, rfl⟩
    | recycle _ _ =>
      rw [delete_frame]
      exact ⟨rfl, rfl, rfl, rfl⟩
  | _ => exact hb.elim

lemma run_waits (h : Faithful effect e) (hr : Run Process.act e.process tr s)
    (hg : Every Process.act Disciplined e.process tr) (hb : ∀ x ∈ tr, Background x.1) :
    ∃ e', Run (act effect) e tr e' ∧ e'.process = s ∧ Faithful effect e' ∧ Waits e e' := by
  refine hr.induction_every (P := fun tr s => ∃ e', Run (act effect) e tr e' ∧ e'.process = s ∧
    Faithful effect e' ∧ Waits e e') (hg.with_mem hb)
    ⟨e, .nil, rfl, h, rfl, rfl, rfl, rfl⟩ ?_
  rintro tr s o out s' - ⟨e', hrun, rfl, hfaithful, hwaits⟩ ⟨hgood, hback⟩ ha
  exact ⟨_, hrun.snoc (act_some ha), rfl, act_faithful hfaithful hgood ha,
    hwaits.trans (waits_of_background hback ha)⟩

lemma act_process (ha : act effect e o = some (out, e')) :
    e.process.act o = some (out, e'.process) ∧ e'.contents = e.contentsAfter effect o := by
  rw [act] at ha
  split at ha
  · cases ha
  · rename_i out s hs
    obtain ⟨rfl, rfl⟩ := Prod.mk.inj (Option.some.inj ha)
    exact ⟨hs, rfl⟩

lemma run_process (hr : Run (act effect) e tr e') :
    Run Process.act e.process tr e'.process := by
  induction hr with
  | nil => exact .nil
  | snoc _ ha ih => exact ih.snoc (act_process ha).1

/-- What a work is expected to find is settled when it is launched. -/
lemma run_expected (hr : Run (act effect) e tr e')
    (hp : p.position < (e.process.gpu.queue p.stream).length) :
    e'.contents.expected p = e.contents.expected p := by
  induction hr with
  | nil => rfl
  | @snoc e₁ e₂ tr o out hrun ha ih =>
    obtain ⟨-, hcontents⟩ := act_process ha
    rw [hcontents, ← ih]
    cases o with
    | launch st r w =>
      have hne : p ≠ e₁.process.gpu.here st := by
        rintro rfl
        exact absurd ((run_extends (run_process hrun)).length_le st) (Nat.not_le.mpr hp)
      exact Function.update_of_ne hne _ _
    | finish st =>
      rw [contentsAfter]
      split
      · rfl
      · rfl
    | _ => rfl

/-- The running call goes on with `o`, after the execution has waited for it. -/
structure Proceeds (effect : Point Stream → Option ν → ν → ν) (e : Execution ν)
    (post : List (Machine.Event × Machine.Report)) (m : Machine) (o : Operation)
    (rest : List Operation) (waiting : Execution ν) (out : Output) (v : Machine)
    (post' : List (Machine.Event × Machine.Report)) : Prop where
  waits : Waits e waiting
  quiet : ∃ quiet, Machine.performed post = quiet ++ (o, out) :: Machine.performed post' ∧
    Run (act effect) e quiet waiting
  acted : waiting.process.act o = some (out, v.process)
  faithful : Faithful effect
    { process := v.process, contents := waiting.contentsAfter effect o }
  remaining : v.remaining = rest
  ran : Run Machine.step v post' m
  disciplined : Every Process.act Disciplined v.process (Machine.performed post')
  calls : ∀ c r, (Machine.Event.call c, r) ∉ post'

section Proceeds

variable {m t v : Machine} {post post' : List (Machine.Event × Machine.Report)}
  {rest : List Operation} {waiting : Execution ν}

lemma run_proceeds (h : Faithful effect e) (hr : Run Machine.step t post m)
    (he : e.process = t.process) (hrest : t.remaining = o :: rest) (hdone : m.remaining = [])
    (hcalls : ∀ c r, (Machine.Event.call c, r) ∉ post)
    (hg : Every Process.act Disciplined t.process (Machine.performed post)) :
    ∃ waiting out v post', Proceeds effect e post m o rest waiting out v post' := by
  obtain ⟨quiet, out, post', u, v, hresumes⟩ := run_resumes hr hrest hdone hcalls
  have hwaited := hresumes.waited
  rw [hresumes.performed] at hg
  rw [← he] at hwaited hg
  obtain ⟨waiting, hrun, rfl, hfaithful, hwaits⟩ :=
    run_waits h hwaited hg.init hresumes.background
  obtain ⟨hgood, htail⟩ := (hg.suffix hwaited).cons hresumes.acted
  exact ⟨waiting, out, v, post', hwaits, ⟨quiet, hresumes.performed, hrun⟩, hresumes.acted,
    act_faithful hfaithful hgood hresumes.acted, hresumes.remaining, hresumes.ran, htail,
    hresumes.calls⟩

namespace Proceeds

variable (h : Proceeds effect e post m o rest waiting out v post')
include h

lemma run (hr : Run (act effect)
    { process := v.process, contents := waiting.contentsAfter effect o }
    (Machine.performed post') e') : Run (act effect) e (Machine.performed post) e' := by
  obtain ⟨quiet, hperf, hrun⟩ := h.quiet
  rw [hperf]
  exact hrun.append (run_cons_iff.mpr ⟨_, act_some h.acted, hr⟩)

lemma mem : (o, out) ∈ Machine.performed post := by
  obtain ⟨quiet, hperf, -⟩ := h.quiet
  rw [hperf]
  exact List.mem_append_right _ List.mem_cons_self

lemma mem_later {x : Operation × Output} (hx : x ∈ Machine.performed post') :
    x ∈ Machine.performed post := by
  obtain ⟨quiet, hperf, -⟩ := h.quiet
  rw [hperf]
  exact List.mem_append_right _ (List.mem_cons_of_mem _ hx)

lemma extends_waiting : e.process.gpu.Extends waiting.process.gpu := by
  obtain ⟨quiet, -, hrun⟩ := h.quiet
  exact run_extends (run_process hrun)

end Proceeds

end Proceeds

end Execution

section Copies

variable {e : Execution ν} {effect : Point Stream → Option ν → ν → ν} {h i : ℕ} {rh : ReadHandle}

lemma readHandles_of_read (hb : s.buffers b = some buf)
    (ha : s.act (.getReadHandle b st) = some (out, s')) :
    s'.readHandles s.nextRead =
      some { dataPtr := buf.devicePtr, readEvents := some b, stream := st } := by
  obtain ⟨buf', hb', hread⟩ := withBuffer_some ha
  obtain rfl := Option.some.inj (hb.symm.trans hb')
  obtain ⟨-, rfl⟩ := Prod.mk.inj (Option.some.inj hread)
  obtain ⟨gpu, recorded, states, he, -⟩ := getReadHandle_frame s b buf st
  rw [he]
  exact Function.update_self ..

lemma workOf_read (hh : s.readHandles h = some rh) (hp : rh.dataPtr = some a) :
    s.workOf (some h) none = ⟨some a, none⟩ := by
  simp [workOf, hh, hp]

lemma queue_of_launch {r w : Option ℕ} (ha : s.act (.launch st r w) = some (out, s')) :
    (s'.gpu.queue st)[(s.gpu.here st).position]? = some (.work (s.workOf r w)) := by
  obtain ⟨-, -, -, rfl⟩ := launch_some ha
  simp [enqueue, Gpu.enqueue, Gpu.here]

lemma expected_of_launch (hh : e.process.readHandles h = some rh) (hp : rh.dataPtr = some a) :
    (e.contentsAfter effect (.launch st (some h) none)).expected (e.process.gpu.here st) =
      some (e.contents.sequential a) := by
  refine (Function.update_self ..).trans ?_
  rw [workOf_read hh hp]
  rfl

lemma done_of_synchronize (ha : s.act (.synchronize st) = some (out, s'))
    (hi : i < (s.gpu.queue st).length) : s'.done ⟨st, i⟩ = true := by
  simp only [act] at ha
  split_ifs at ha with hidle
  obtain ⟨-, rfl⟩ := quietly_some ha
  exact decide_eq_true (hi.trans_le (of_decide_eq_true hidle))

end Copies

/-- `to_cpu` copies what the works that were launched before the call leave in the storage of the
buffer one after the other, whatever of them is done by then. -/
theorem to_cpu_reads {t m : Machine} {pre post : List (Machine.Event × Machine.Report)}
    {impl : CudaBufferImpl}
    (hr : Run Machine.step {} (pre ++ (.call (.toCpu b), .called) :: post) m)
    (hg : Every act Disciplined {}
      (Machine.performed (pre ++ (.call (.toCpu b), .called) :: post)))
    (ht : Run Machine.step {} pre t) (himpl : t.process.impls b = some impl)
    (hb : t.process.buffers b = some buf) (hsize : 0 < impl.size ∧ 0 < buf.size)
    (hptr : buf.devicePtr = some a) (hcalls : ∀ c r, (Machine.Event.call c, r) ∉ post)
    (hdone : m.remaining = []) (effect : Point Stream → Option ν → ν → ν) (memory : ℕ → ν) :
    ∃ p before after, Run (Execution.act effect) (Execution.start memory)
        (Machine.performed pre) before ∧ before.process = t.process ∧
      Run (Execution.act effect) before (Machine.performed post) after ∧
      after.process = m.process ∧
      (.launch (Call.streamOf impl) (some t.process.nextRead) none, .launched p none) ∈
        Machine.performed post ∧
      after.contents.found p = some (before.contents.sequential a) := by
  obtain ⟨t', hpre, hrest⟩ := run_append_iff.mp hr
  obtain rfl := hpre.unique ht
  obtain ⟨t₁, hcall, hpost⟩ := run_cons_iff.mp hrest
  simp only [Machine.step] at hcall
  split_ifs at hcall
  obtain ⟨-, rfl⟩ := Prod.mk.inj (Option.some.inj hcall)
  have hperformed : Machine.performed (pre ++ (.call (.toCpu b), .called) :: post) =
      Machine.performed pre ++ Machine.performed post := List.filterMap_append
  have hoperations : (Call.toCpu b).operations t'.process =
      [.getReadHandle b (Call.streamOf impl),
        .launch (Call.streamOf impl) (some t'.process.nextRead) none,
        .synchronize (Call.streamOf impl), .closeRead t'.process.nextRead] := by
    simp only [Call.operations, himpl, hb, if_pos hsize]
  rw [hperformed] at hg
  obtain ⟨before, hbefore, hprocess, hfaithful⟩ := Execution.run_faithful
    (Execution.faithful_start effect memory) (Machine.run_performed ht) hg.init
  obtain ⟨w₁, out₁, v₁, post₁, h₁⟩ := Execution.run_proceeds hfaithful hpost hprocess hoperations
    hdone hcalls (hg.suffix (Machine.run_performed ht))
  obtain ⟨w₂, out₂, v₂, post₂, h₂⟩ := Execution.run_proceeds h₁.faithful h₁.ran rfl h₁.remaining
    hdone h₁.calls h₁.disciplined
  obtain ⟨w₃, out₃, v₃, post₃, h₃⟩ := Execution.run_proceeds h₂.faithful h₂.ran rfl h₂.remaining
    hdone h₂.calls h₂.disciplined
  obtain ⟨after, hafter, hend, hlast⟩ := Execution.run_faithful h₃.faithful
    (Machine.run_performed h₃.ran) h₃.disciplined
  have hhandle : w₂.process.readHandles t'.process.nextRead =
      some { dataPtr := buf.devicePtr, readEvents := some b, stream := Call.streamOf impl } := by
    rw [h₂.waits.readHandles, ← hprocess, ← h₁.waits.nextRead]
    exact readHandles_of_read ((congrFun h₁.waits.buffers b).trans (hprocess ▸ hb)) h₁.acted
  have hwork := queue_of_launch h₂.acted
  rw [workOf_read hhandle hptr] at hwork
  have hlt := (List.getElem?_eq_some_iff.mp hwork).1
  have hrun := h₃.run hafter
  have hfinal := run_extends (Execution.run_process hrun)
  have hdone₃ := done_of_synchronize h₃.acted (hlt.trans_le (h₃.extends_waiting.length_le _))
  have hstays := (run_extends (Execution.run_process hafter)).finished (Call.streamOf impl)
  refine ⟨w₂.process.gpu.here (Call.streamOf impl), before, after, hbefore, hprocess,
    h₁.run (h₂.run hrun), hend, ?_, ?_⟩
  · obtain ⟨-, -, hout, -⟩ := launch_some h₂.acted
    exact h₁.mem_later (hout ▸ h₂.mem)
  · obtain ⟨v, hfound, hexpected⟩ := hlast.found_eq
      (p := w₂.process.gpu.here (Call.streamOf impl)) (hfinal.getElem hwork) rfl
      (decide_eq_true ((of_decide_eq_true hdone₃).trans_le hstays))
    rw [hfound, ← hexpected, Execution.run_expected hrun hlt, expected_of_launch hhandle hptr,
      h₂.waits.sequential]
    exact congrArg (fun memory => some (memory a)) h₁.waits.sequential

/-- The buffer is written on stream 1. -/
def handedOver : List Operation :=
  [.construct 16, .setWriteEvent 0 true, .makeImpl 0 16, .getWriteHandle 0 (some 1),
    .launch (some 1) none (some 0), .closeWrite 0]

/-- The write is done while the call synchronizes with its stream. -/
def copying : List Machine.Event :=
  [.proceed, .proceed, .finish (some 1), .finish internalStream, .finish internalStream, .proceed,
    .proceed]

theorem to_cpu_reads_once : ∃ p pre post before after,
    Run (Execution.act (fun p source _ => source.getD (p.stream.getD 0)))
      (Execution.start fun _ => 9) pre before ∧
    Run (Execution.act (fun p source _ => source.getD (p.stream.getD 0))) before post after ∧
    before.contents.device 0 = 9 ∧ after.contents.found p = some 1 := by
  let effect : Point Stream → Option ℕ → ℕ → ℕ := fun p source _ => source.getD (p.stream.getD 0)
  have hcalled : (exec Machine.step {} (calling handedOver)).any (fun x =>
      decide (x.2.process.impls 0 = some { size := 16 }) &&
      (x.2.process.buffers 0).any (fun buf => decide (0 < buf.size) &&
        decide (buf.devicePtr = some 0)) &&
      (exec Machine.step x.2 (.call (.toCpu 0) :: copying)).any (fun y =>
        decide (y.2.remaining = []) &&
        decide (y.1.map Prod.fst = .call (.toCpu 0) :: copying) &&
        decide ((exec act {} (handedOver ++ [.getReadHandle 0 internalStream,
          .launch internalStream (some 0) none, .finish (some 1), .finish internalStream,
          .finish internalStream, .synchronize internalStream, .closeRead 0])).map Prod.fst =
            some (Machine.performed (x.1 ++ y.1)))) &&
      (exec (Execution.act effect) (Execution.start fun _ => 9) handedOver).any (fun z =>
        decide (z.1 = Machine.performed x.1) && decide (z.2.contents.device 0 = 9) &&
        decide (z.2.contents.sequential 0 = 1))) = true := by
    decide +kernel
  obtain ⟨⟨pre, t⟩, hx, hcall⟩ := Option.any_eq_true _ _ |>.mp hcalled
  simp only [Bool.and_eq_true, decide_eq_true_eq, Option.any_eq_true] at hcall
  obtain ⟨⟨⟨himpl, buf, hb, hsize, hptr⟩, ⟨tr, m⟩, hy, ⟨hdone, hevents⟩, hops⟩,
    ⟨tr', e⟩, hz, ⟨rfl, hnine⟩, hone⟩ := hcall
  obtain ⟨r, t', post, rfl, hstep, -⟩ := exec_cons hy
  obtain rfl : r = .called := by
    simp only [Machine.step] at hstep
    split_ifs at hstep
    exact (Prod.mk.inj (Option.some.inj hstep)).1.symm
  obtain ⟨⟨tr'', s⟩, hs, hperformed⟩ := Option.map_eq_some_iff.mp hops
  have hg : Every act Disciplined {} tr'' := every_of_exec hs (by decide +kernel)
  rw [show tr'' = _ from hperformed] at hg
  have hcalls : ∀ c r, (Machine.Event.call c, r) ∉ post := by
    intro c r hmem
    have hcall : Machine.Event.call c ∈ post.map Prod.fst := List.mem_map_of_mem hmem
    rw [(List.cons.inj hevents).2] at hcall
    simp [copying] at hcall
  obtain ⟨p, before, after, hbefore, -, hafter, -, -, hfound⟩ :=
    to_cpu_reads ((exec_run hx).append (exec_run hy)) hg (exec_run hx) himpl hb
      ⟨by decide, hsize⟩ hptr hcalls hdone effect fun _ => 9
  obtain rfl := hbefore.unique (exec_run hz)
  exact ⟨p, _, _, before, after, hbefore, hafter, hnine, hfound.trans (congrArg some hone)⟩

end RosidlBufferBackends.Buffers
