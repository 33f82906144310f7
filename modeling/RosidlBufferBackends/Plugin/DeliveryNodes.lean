import RosidlBufferBackends.Buffers.ExclusiveWrite
import RosidlBufferBackends.Plugin.DeliverySteps

/-! What a step does to the buffers and the streams of each process. -/

namespace RosidlBufferBackends.Plugin.Delivery

open Registry Buffers Streams Runs

variable {home : ℕ → ℕ} {s u : Network} {e : Event} {o : Output} {pid q ev : ℕ}

namespace Network

/-- No write handle is taken of a buffer that has an event of another process, and no other
event is set. -/
def spares (s : Network) (pid : ℕ) : Buffers.Operation → Bool
  | .getWriteHandle b _ | .setWriteEvent b _ =>
      ((s.nodes pid).process.buffers b).all (fun buf =>
        buf.writeEvent.all (fun ev => ((s.nodes pid).imported ev).isNone))
  | _ => true

end Network

open Network

/-- The handle of an event is not all zero, and is opened in every process but that of the
event. -/
def CudaWorks (s : Network) (e : Event) (_ : Output) : Prop :=
  match e with
  | .createDescriptorWithEndpoint _ _ _ args =>
      args.cudaIpcGetEventHandle.all (fun handle => handle.any (fun x => x ≠ 0)) = true
  | .fromDescriptorWithEndpoint pid k _ _ env =>
      env.cudaIpcOpenEventHandle = (s.messages k).all (fun m => m.sender ≠ pid)
  | _ => True

def Settles (s : Network) (e : Event) (_ : Output) : Prop :=
  match e with
  | .operate pid o => WriterSettled (s.nodes pid).process o .quiet
  | _ => True

/-- The buffers that come from another process are only read. -/
def Spares (s : Network) (e : Event) (_ : Output) : Prop :=
  match e with
  | .operate pid o => s.spares pid o = true
  | _ => True

def Conforms (s : Network) (e : Event) (o : Output) : Prop :=
  CudaWorks s e o ∧ Settles s e o ∧ Spares s e o

/-- What a step does to one process. -/
inductive NodeStep (s : Network) (e : Event) (o : Output) (q : ℕ) (u : Network) : Prop
  | same (hp : (u.nodes q).process = (s.nodes q).process)
      (hi : (u.nodes q).imported = (s.nodes q).imported)
      (hw : (u.nodes q).remoteWaits = (s.nodes q).remoteWaits)
  | operated (op : Buffers.Operation) (out : Buffers.Output) (he : e = .operate q op)
      (ho : o = .operated out (storageOf (s.nodes q).process op))
      (hm : s.mayPerform q op = true)
      (ha : (s.nodes q).process.act op = some (out, (u.nodes q).process))
      (hi : (u.nodes q).imported = (s.nodes q).imported)
      (hu : u = (s.setProcess q (u.nodes q).process).waiting q op)
  | finalized (b : ℕ) (buf : CudaBuffer) (hb : (s.nodes q).process.buffers b = some buf)
      (hp : (u.nodes q).process = (s.nodes q).process.finalizeWriteHandle buf)
      (hi : (u.nodes q).imported = (s.nodes q).imported)
      (hw : (u.nodes q).remoteWaits = (s.nodes q).remoteWaits)
  | received (m : Message) (impl : Cuda.CudaBufferImpl) (hr : Receives s q m impl o u)

section Nodes

@[simp] lemma setNode_node (s : Network) (pid : ℕ) (n : Node) :
    (s.setNode pid n).nodes pid = n := Function.update_self ..

lemma setNode_other (s : Network) {pid q : ℕ} (n : Node) (h : q ≠ pid) :
    (s.setNode pid n).nodes q = s.nodes q := Function.update_of_ne h _ _

/-- What only the classifications and the host know of a process. -/
def Noted (n n' : Node) : Prop :=
  n'.process = n.process ∧ n'.imported = n.imported ∧ n'.remoteWaits = n.remoteWaits

lemma setNode_noted (q : ℕ) {n : Node} (h : Noted (s.nodes pid) n) :
    Noted (s.nodes q) ((s.setNode pid n).nodes q) := by
  by_cases hq : q = pid
  · subst hq
    rwa [setNode_node]
  · rw [setNode_other s n hq]
    exact ⟨rfl, rfl, rfl⟩

lemma noted_node (s : Network) (e : Host.Event) (q : ℕ) :
    Noted (s.nodes q) ((s.noted e).nodes q) := by
  cases e with
  | start pid =>
    apply setNode_noted
    exact ⟨rfl, rfl, rfl⟩
  | construct pid k deviceId uid =>
    apply setNode_noted
    exact ⟨rfl, rfl, rfl⟩
  | _ => exact ⟨rfl, rfl, rfl⟩

lemma decided_node (s : Network) (call : Call) (peer : LocalityInfo) (m : HostEndpointManager)
    (q : ℕ) : Noted (s.nodes q) ((s.decided call peer m).nodes q) := by
  unfold Network.decided
  split
  · apply setNode_noted
    exact ⟨rfl, rfl, rfl⟩
  · exact ⟨rfl, rfl, rfl⟩

lemma waiting_other (s : Network) (op : Buffers.Operation) (h : q ≠ pid) :
    (s.waiting pid op).nodes q = s.nodes q := by
  unfold Network.waiting
  split
  · split
    · rfl
    · exact setNode_other s _ h
  · rfl

/-- Of the process that an operation was performed by, only the waits change further. -/
lemma waiting_node (s : Network) (pid : ℕ) (op : Buffers.Operation) :
    ((s.waiting pid op).nodes pid).process = (s.nodes pid).process ∧
      ((s.waiting pid op).nodes pid).imported = (s.nodes pid).imported := by
  unfold Network.waiting
  split
  · split
    · exact ⟨rfl, rfl⟩
    · rw [Network.addWait, setNode_node]
      exact ⟨rfl, rfl⟩
  · exact ⟨rfl, rfl⟩

lemma NodeStep.of_noted (h : Noted (s.nodes q) (u.nodes q)) : NodeStep s e o q u :=
  .same h.1 h.2.1 h.2.2

lemma step_node (hs : s.step home e = some (o, u)) (q : ℕ) : NodeStep s e o q u := by
  cases step_cases hs with
  | host _ _ => exact .of_noted (noted_node s _ q)
  | @operated pid op out process hm ha =>
    by_cases hq : q = pid
    · subst hq
      obtain ⟨hp, hi⟩ := waiting_node (s.setProcess q process) q op
      rw [Network.setProcess, setNode_node] at hp hi
      refine .operated op out rfl rfl hm ?_ hi ?_
      · rw [Network.setProcess, hp]
        exact ha
      · rw [Network.setProcess, hp]
        rfl
    · refine .of_noted ?_
      rw [waiting_other _ op hq]
      exact setNode_other s _ hq ▸ ⟨rfl, rfl, rfl⟩
  | classified _ _ _ _ => exact .of_noted (decided_node s _ _ _ q)
  | @finalized c b call args d buf _ _ hb =>
    by_cases hq : q = call.pid
    · subst hq
      have hn : (s.setProcess call.pid ((s.nodes call.pid).process.finalizeWriteHandle buf)).nodes
          call.pid = { s.nodes call.pid with
            process := (s.nodes call.pid).process.finalizeWriteHandle buf } := setNode_node ..
      refine .finalized b buf hb ?_ ?_ ?_
      · exact congrArg Node.process hn
      · exact (congrArg Node.imported hn).trans rfl
      · exact (congrArg Node.remoteWaits hn).trans rfl
    · refine .of_noted ?_
      exact (setNode_other s _ hq).symm ▸ ⟨rfl, rfl, rfl⟩
  | @received pid k os cache env m manager impl o u _ _ _ _ hr =>
    have hreceives := receive_cases hr
    by_cases hq : q = pid
    · subst hq
      exact .received m impl hreceives
    · refine .of_noted ?_
      rw [hreceives.same]
      exact (setNode_other s _ hq).symm ▸ ⟨rfl, rfl, rfl⟩
  | _ => exact .same rfl rfl rfl

end Nodes

section Local

/-- The events of the process that come from another one. -/
def Foreign (s : Network) (q ev : ℕ) : Prop := ((s.nodes q).imported ev).isSome

lemma operate_careful {op : Buffers.Operation} (h : Conforms s (.operate q op) o)
    (out : Buffers.Output) : Careful (Foreign s q) (s.nodes q).process op out := by
  refine ⟨h.2.1, ?_⟩
  intro ev hev b x hb hx
  have hspares : s.spares q op = true := h.2.2
  constructor
  · rintro st rfl
    simp only [spares, hb, hx, Option.all_some] at hspares
    rw [Option.isNone_iff_eq_none] at hspares
    rw [Foreign, hspares] at hev
    cases hev
  · rintro owns rfl
    simp only [spares, hb, hx, Option.all_some] at hspares
    rw [Option.isNone_iff_eq_none] at hspares
    rw [Foreign, hspares] at hev
    cases hev

lemma act_finalizeWriteHandle {P : Process} {b : ℕ} {buf : CudaBuffer}
    (hb : P.buffers b = some buf) :
    P.act (.finalizeWriteHandle b) = some (.quiet, P.finalizeWriteHandle buf) := by
  simp [Process.act, Process.withBuffer, hb, Process.quietly]

/-- For a process a step is a run of careful operations. -/
lemma step_local (hs : s.step home e = some (o, u)) (hg : Conforms s e o) (q : ℕ) :
    ∃ tr, Run Process.act (s.nodes q).process tr (u.nodes q).process ∧
      Every Process.act (Careful (Foreign s q)) (s.nodes q).process tr := by
  cases step_node hs q with
  | same hp _ _ => exact ⟨[], hp ▸ .nil, every_nil⟩
  | operated op out he _ _ ha _ _ =>
    subst he
    exact ⟨_, .single ha, every_cons ha (operate_careful hg out) every_nil⟩
  | finalized b buf hb hp _ _ =>
    have ha := act_finalizeWriteHandle hb
    rw [← hp] at ha
    refine ⟨_, .single ha, every_cons ha ⟨trivial, fun _ _ _ _ _ _ => ⟨?_, ?_⟩⟩ every_nil⟩
    · exact fun _ h => by cases h
    · exact fun _ h => by cases h
  | received m impl hr =>
    obtain ⟨tr, hrun, hcareful⟩ := hr.run
    exact ⟨tr, hrun, hcareful _⟩

lemma step_extends (hs : s.step home e = some (o, u)) (hg : Conforms s e o) (q : ℕ) :
    (s.nodes q).process.gpu.Extends (u.nodes q).process.gpu := by
  obtain ⟨tr, hrun, -⟩ := step_local hs hg q
  exact run_extends hrun

lemma step_imported (hs : s.step home e = some (o, u)) (hev : ev < (s.nodes q).process.nextEvent) :
    (u.nodes q).imported ev = (s.nodes q).imported ev := by
  cases step_node hs q with
  | same _ hi _ => rw [hi]
  | operated _ _ _ _ _ _ hi _ => rw [hi]
  | finalized _ _ _ _ hi _ => rw [hi]
  | received m impl hr =>
    rw [hr.imported]
    split
    · exact Function.update_of_ne hev.ne _ _
    · rfl

end Local

/-- What is behind a wait in its queue is done after what was waited for. -/
def Waited (s : Network) (q : ℕ) : Prop :=
  ∀ w ∈ (s.nodes q).remoteWaits,
    w.point.position < (s.nodes q).process.gpu.finished w.point.stream →
      s.passed w.pid w.target = true

structure Sane (s : Network) (q : ℕ) : Prop where
  healthy : Healthy (s.nodes q).process
  used : Used (s.nodes q).process
  foreign : ∀ ev, Foreign s q ev →
    Resting (s.nodes q).process ev ∧ (s.nodes q).process.recorded ev = none
  waited : Waited s q

section Sanity

lemma sane_initial (q : ℕ) : Sane {} q := by
  refine ⟨healthy_initial, ?_, ?_, ?_⟩
  · intro b buf hs hb
    cases hb
  · intro ev hev
    cases hev
  · intro w hw
    cases hw

lemma step_healthy (h : Healthy (s.nodes q).process) (hs : s.step home e = some (o, u))
    (hg : Conforms s e o) : Healthy (u.nodes q).process := by
  obtain ⟨tr, hrun, hcareful⟩ := step_local hs hg q
  exact run_healthy h hrun hcareful

/-- The event of a buffer that was received is not recorded by the process. -/
lemma received_rests {m : Message} {impl : Cuda.CudaBufferImpl} (h : Healthy (s.nodes q).process)
    (hr : Receives s q m impl o u) (hevent : impl.writeEvent = true) :
    Resting (u.nodes q).process (s.nodes q).process.nextEvent ∧
      (u.nodes q).process.recorded (s.nodes q).process.nextEvent = none := by
  refine ⟨⟨?_, ?_⟩, ?_⟩
  · rw [hr.made.nextEvent, if_pos hevent]
    exact Nat.lt_succ_self _
  · intro b x hs hb hx hstate
    rw [hr.made.buffers] at hb
    rcases Inventory.update_some hb with ⟨-, hmade⟩ | ⟨-, hold⟩
    · obtain rfl := Option.some.inj hmade
      rw [made] at hstate
      split at hstate
      · cases hstate
      · cases hstate
    · exact absurd (h.stocked.event_lt hold hx) (lt_irrefl _)
  · rw [hr.made.recorded]
    exact h.unrecorded _ le_rfl

lemma step_foreign (h : Sane s q) (hs : s.step home e = some (o, u)) (hg : Conforms s e o)
    (hev : Foreign u q ev) :
    Resting (u.nodes q).process ev ∧ (u.nodes q).process.recorded ev = none := by
  have hkeep : Foreign s q ev →
      Resting (u.nodes q).process ev ∧ (u.nodes q).process.recorded ev = none := by
    intro hold
    obtain ⟨hrest, hnone⟩ := h.foreign ev hold
    obtain ⟨tr, hrun, hcareful⟩ := step_local hs hg q
    obtain ⟨hrest', hsame⟩ := run_reads h.healthy hrun hcareful hold hrest
    exact ⟨hrest', hsame.trans hnone⟩
  rw [Foreign] at hev
  cases step_node hs q with
  | same _ hi _ => exact hkeep (by rwa [Foreign, ← hi])
  | operated _ _ _ _ _ _ hi _ => exact hkeep (by rwa [Foreign, ← hi])
  | finalized _ _ _ _ hi _ => exact hkeep (by rwa [Foreign, ← hi])
  | received m impl hr =>
    rw [hr.imported] at hev
    split at hev
    · rename_i hevent
      by_cases hnew : ev = (s.nodes q).process.nextEvent
      · subst hnew
        exact received_rests h.healthy hr hevent
      · rw [Function.update_of_ne hnew] at hev
        exact hkeep hev
    · exact hkeep hev

lemma waiting_waits {op : Buffers.Operation} {w : RemoteWait}
    (hw : w ∈ ((s.waiting q op).nodes q).remoteWaits) :
    w ∈ (s.nodes q).remoteWaits ∨ ∃ st, w.point = (s.nodes q).process.gpu.here st := by
  unfold Network.waiting at hw
  split at hw
  · rename_i b st
    split at hw
    · exact .inl hw
    · rename_i x hx
      rw [Network.addWait, setNode_node] at hw
      rcases List.mem_cons.mp hw with rfl | hw
      · refine .inr ⟨st, ?_⟩
        unfold Network.remoteWait at hx
        split at hx
        · cases hx
        · split at hx
          · cases hx
          · split_ifs at hx
            obtain rfl := Option.some.inj hx
            rfl
      · exact .inl hw
  · exact .inl hw

/-- A stream gets beyond a wait only when what it waits for is done. -/
lemma operated_waited (h : Sane s q) {op : Buffers.Operation} {out : Buffers.Output} {P : Process}
    (hm : s.mayPerform q op = true) (ha : (s.nodes q).process.act op = some (out, P))
    {w : RemoteWait} (hw : w ∈ (s.nodes q).remoteWaits)
    (hlt : w.point.position < P.gpu.finished w.point.stream) : s.passed w.pid w.target = true := by
  rcases Process.act_gpu ha with he | ⟨st, p, he⟩ | ⟨st, r, k, _, _, he⟩ | ⟨st, rfl, hf⟩
  · rw [he] at hlt
    exact h.waited w hw hlt
  · rw [he] at hlt
    exact h.waited w hw hlt
  · rw [he] at hlt
    exact h.waited w hw hlt
  · obtain ⟨hbump, -⟩ := Gpu.finish_cases hf
    rw [hbump] at hlt
    by_cases hst : w.point.stream = st
    · have hmay := List.all_eq_true.mp hm w hw
      have hle : w.point.position ≤ (s.nodes q).process.gpu.finished st := by
        rw [hst] at hlt
        simp only [Gpu.bump, Function.update_self] at hlt
        exact Nat.le_of_lt_succ hlt
      simpa [hst, hle] using hmay
    · refine h.waited w hw ?_
      simpa only [Gpu.bump, Function.update_of_ne hst] using hlt

lemma step_waited (h : ∀ q, Sane s q) (hs : s.step home e = some (o, u)) (hg : Conforms s e o)
    (q : ℕ) : Waited u q := by
  have hpassed : ∀ {w : RemoteWait}, s.passed w.pid w.target = true →
      u.passed w.pid w.target = true :=
    fun {w} hp => (step_extends hs hg w.pid).passed hp
  intro w hw hlt
  cases step_node hs q with
  | same hp _ hwaits =>
    rw [hp] at hlt
    rw [hwaits] at hw
    exact hpassed ((h q).waited w hw hlt)
  | operated op out he ho hm ha hi hu =>
    have horderly := (step_healthy (h q).healthy hs hg).orderly
    rw [hu] at hw
    rcases waiting_waits hw with hold | ⟨st, hpoint⟩
    · rw [Network.setProcess, setNode_node] at hold
      exact hpassed (operated_waited (h q) hm ha hold hlt)
    · rw [Network.setProcess, setNode_node] at hpoint
      rw [hpoint] at hlt
      exact absurd (horderly.bounded st) (not_le.mpr hlt)
  | finalized b buf _ hp _ hwaits =>
    obtain ⟨recorded, states, hframe, -⟩ :=
      Process.finalizeWriteHandle_frame (s.nodes q).process buf
    rw [hp, hframe] at hlt
    rw [hwaits] at hw
    exact hpassed ((h q).waited w hw hlt)
  | received m impl hr =>
    rw [hr.made.gpu] at hlt
    rw [hr.same, setNode_node] at hw
    exact hpassed ((h q).waited w hw hlt)

lemma step_sane (h : ∀ q, Sane s q) (hs : s.step home e = some (o, u)) (hg : Conforms s e o)
    (q : ℕ) : Sane u q := by
  obtain ⟨tr, hrun, -⟩ := step_local hs hg q
  refine ⟨step_healthy (h q).healthy hs hg, run_used (h q).used hrun, ?_, step_waited h hs hg q⟩
  exact fun _ hev => step_foreign (h q) hs hg hev

end Sanity

end RosidlBufferBackends.Plugin.Delivery
