import RosidlBufferBackends.Buffers.Lineage
import RosidlBufferBackends.Plugin.Delivery

/-! What the steps of the processes do, and what they leave unchanged. -/

namespace RosidlBufferBackends.Plugin.Delivery

open Registry Buffers Streams

variable {home : ℕ → ℕ} {s u : Network} {e : Event} {o : Output} {c pid : ℕ} {call : Call}

/-- The state and the peer of the call decide that the publisher waits. -/
def Synchronizes (peer : LocalityInfo) (d : Described) : Prop :=
  peer.found = true ∧ peer.locality = .intraProcess ∧ d.event.isSome = true

/-- The steps of a call that change nothing else. -/
inductive Proceeds (s : Network) (call : Call) : Pc → Prop
  | decided {b : ℕ} {args : Publication} : call.pc = .lookup b args →
      (s.nodes call.pid).ipcDecisionCache call.gid = some true → Proceeds s call (.publish b args)
  | undecided {b : ℕ} {args : Publication} : call.pc = .lookup b args →
      Proceeds s call (.refresh (.createDescriptorWithEndpoint b args))
  | queried {r : Request} {t : ℕ} {m : HostEndpointManager} : call.pc = .refreshing r t →
      s.host.managers call.pid = some m → Proceeds s call (.classified r (m.cache.query call.gid))
  | published {b : ℕ} {args : Publication} {d : Cuda.CudaBufferDescriptor} :
      call.pc = .publish b args → Proceeds s call (.finalize b args d)
  | synchronizing {args : Publication} {d : Described} : call.pc = .locality args d →
      Proceeds s call
        (.synchronize args d (d.event.bind (s.nodes call.pid).process.recorded))
  | unsynchronized {args : Publication} {d : Described} {m : HostEndpointManager} :
      call.pc = .locality args d → s.host.managers call.pid = some m →
      ¬ Synchronizes (m.cache.query call.gid) d → Proceeds s call (.eventHandle args d)
  | synchronized {args : Publication} {d : Described} {point : Option (Point Stream)} :
      call.pc = .synchronize args d point → point.all (s.passed call.pid) = true →
      Proceeds s call (.eventHandle args d)

/-- What is left of a call that has classified its endpoint. -/
inductive Classifies (call : Call) (peer : LocalityInfo) (m : HostEndpointManager) :
    Option Call → Prop
  | over : Classifies call peer m none
  | importable {b : ℕ} {args : Publication} :
      call.pc = .classified (.createDescriptorWithEndpoint b args) peer →
      canImportDescriptor peer m = true →
      Classifies call peer m (some { call with pc := .publish b args })

def message (call : Call) (d : Described) (handle : List UInt8) : Message :=
  { d with
    descriptor := { d.descriptor with ipcEventHandle := handle }
    sender := call.pid
    gid := call.gid }

inductive StepCase (home : ℕ → ℕ) (s : Network) : Event → Output → Network → Prop
  | host {e : Host.Event} {o : Host.Output} {host : Host} : s.admits home e = true →
      s.host.step e = some (o, host) →
      StepCase home s (.host e) (.host o) { s.noted e with host := host }
  | operated {pid : ℕ} {o : Buffers.Operation} {out : Buffers.Output} {process : Process} :
      s.mayPerform pid o = true → (s.nodes pid).process.act o = some (out, process) →
      StepCase home s (.operate pid o) (.operated out (storageOf (s.nodes pid).process o))
        ((s.setProcess pid process).waiting pid o)
  | dismissed {pid gid : ℕ} {supportsCuda poolIpcCapable : Bool} :
      StepCase home s (.onDiscoveringEndpoint pid gid supportsCuda poolIpcCapable)
        (.discovered false) s
  | discovering {pid gid : ℕ} {supportsCuda poolIpcCapable : Bool} {m : HostEndpointManager} :
      s.host.managers pid = some m →
      StepCase home s (.onDiscoveringEndpoint pid gid supportsCuda poolIpcCapable) .quiet
        (s.spawn ⟨pid, gid, .refresh .onDiscoveringEndpoint⟩)
  | creating {pid gid b : ℕ} {args : Publication} {m : HostEndpointManager} :
      s.host.managers pid = some m →
      StepCase home s (.createDescriptorWithEndpoint pid gid b args) .quiet
        (s.spawn ⟨pid, gid, .lookup b args⟩)
  | ended {c : ℕ} {call : Call}
      {result : Except Cuda.CudaError (Option Cuda.CudaBufferDescriptor)} :
      s.calls c = some call → StepCase home s (.proceed c) (.created result) (s.setCall c none)
  | proceeded {c : ℕ} {call : Call} {pc : Pc} : s.calls c = some call → Proceeds s call pc →
      StepCase home s (.proceed c) .quiet (s.goto c call pc)
  | refreshing {c : ℕ} {call : Call} {r : Request} {o : Host.Output} {host : Host} :
      s.calls c = some call → call.pc = .refresh r →
      s.host.step (.refreshFromRemote call.pid) = some (o, host) →
      StepCase home s (.proceed c) .quiet
        ({ s with host := host }.goto c call (.refreshing r s.host.nextThread))
  | classified {c : ℕ} {call : Call} {r : Request} {peer : LocalityInfo}
      {m : HostEndpointManager} {x : Option Call} {o : Output} : s.calls c = some call →
      call.pc = .classified r peer → s.host.managers call.pid = some m →
      Classifies call peer m x →
        StepCase home s (.proceed c) o ((s.decided call peer m).setCall c x)
  | finalized {c b : ℕ} {call : Call} {args : Publication} {d : Cuda.CudaBufferDescriptor}
      {buf : CudaBuffer} : s.calls c = some call → call.pc = .finalize b args d →
      (s.nodes call.pid).process.buffers b = some buf →
      StepCase home s (.proceed c) .quiet
        ((s.setProcess call.pid ((s.nodes call.pid).process.finalizeWriteHandle buf)).goto c call
          (.locality args ⟨d, buf.writeEvent, buf.handleState⟩))
  | sent {c : ℕ} {call : Call} {args : Publication} {d : Described} {handle : List UInt8} :
      s.calls c = some call → call.pc = .eventHandle args d →
      eventHandle args d.event = .ok handle →
      StepCase home s (.proceed c) (.created (.ok (some (message call d handle).descriptor)))
        ((s.send (message call d handle)).setCall c none)
  | rejected {pid k : ℕ} {os : Cuda.Os} {cache : Cuda.ImportCache} {env : Cuda.ReceiveEnv}
      {m : Message} {e : Cuda.CudaError} :
      StepCase home s (.fromDescriptorWithEndpoint pid k os cache env) (.received m (.error e)) s
  | received {pid k : ℕ} {os : Cuda.Os} {cache : Cuda.ImportCache} {env : Cuda.ReceiveEnv}
      {m : Message} {manager : HostEndpointManager} {impl : Cuda.CudaBufferImpl} {o : Output}
      {u : Network} : s.messages k = some m → s.host.managers pid = some manager →
      manager.identity.instanceId = home m.gid →
      (Cuda.CudaBufferBackend.fromDescriptorWithEndpoint os cache env m.descriptor).result =
        .ok impl →
      s.receive pid m impl = some (o, u) →
      StepCase home s (.fromDescriptorWithEndpoint pid k os cache env) o u

open Network

lemma query_some {gid : ℕ} {peer : LocalityInfo}
    (h : s.host.queryEndpointLocality pid gid = some peer) :
    ∃ m, s.host.managers pid = some m ∧ m.cache.query gid = peer :=
  Option.map_eq_some_iff.mp h

lemma advance_cases (hc : s.calls c = some call) (hs : s.advance c call = some (o, u)) :
    StepCase home s (.proceed c) o u := by
  have hinj : ∀ {x : Output × Network}, some x = some (o, u) → x.1 = o ∧ x.2 = u :=
    fun h => Prod.mk.inj (Option.some.inj h)
  simp only [advance] at hs
  cases hpc : call.pc with
  | lookup b args =>
    simp only [hpc] at hs
    split at hs
    · obtain ⟨rfl, rfl⟩ := hinj hs
      exact .ended hc
    · obtain ⟨rfl, rfl⟩ := hinj hs
      exact .proceeded hc (.decided hpc ‹_›)
    · obtain ⟨rfl, rfl⟩ := hinj hs
      exact .proceeded hc (.undecided hpc)
  | refresh r =>
    simp only [hpc] at hs
    split at hs
    · exact nomatch hs
    · obtain ⟨rfl, rfl⟩ := hinj hs
      exact .refreshing hc hpc ‹_›
  | refreshing r t =>
    simp only [hpc] at hs
    split_ifs at hs
    split at hs
    · exact nomatch hs
    · rename_i peer hquery
      obtain ⟨rfl, rfl⟩ := hinj hs
      obtain ⟨m, hm, rfl⟩ := query_some hquery
      exact .proceeded hc (.queried hpc hm)
  | classified r peer =>
    simp only [hpc] at hs
    split at hs
    · exact nomatch hs
    · rename_i m hm
      cases r with
      | onDiscoveringEndpoint =>
        obtain ⟨rfl, rfl⟩ := hinj hs
        exact .classified hc hpc hm .over
      | createDescriptorWithEndpoint b args =>
        simp only at hs
        split_ifs at hs with hcan
        · obtain ⟨rfl, rfl⟩ := hinj hs
          exact .classified hc hpc hm (.importable hpc hcan)
        · obtain ⟨rfl, rfl⟩ := hinj hs
          exact .classified hc hpc hm .over
  | publish b args =>
    simp only [hpc] at hs
    split at hs
    · obtain ⟨rfl, rfl⟩ := hinj hs
      exact .ended hc
    · obtain ⟨rfl, rfl⟩ := hinj hs
      exact .ended hc
    · obtain ⟨rfl, rfl⟩ := hinj hs
      exact .proceeded hc (.published hpc)
  | finalize b args d =>
    simp only [hpc] at hs
    split at hs
    · exact nomatch hs
    · obtain ⟨rfl, rfl⟩ := hinj hs
      exact .finalized hc hpc ‹_›
  | locality args d =>
    simp only [hpc] at hs
    split at hs
    · exact nomatch hs
    · rename_i peer hquery
      obtain ⟨m, hm, rfl⟩ := query_some hquery
      split_ifs at hs with hsync
      · obtain ⟨rfl, rfl⟩ := hinj hs
        exact .proceeded hc (.synchronizing hpc)
      · obtain ⟨rfl, rfl⟩ := hinj hs
        exact .proceeded hc (.unsynchronized hpc hm hsync)
  | synchronize args d point =>
    simp only [hpc] at hs
    split_ifs at hs with hall
    obtain ⟨rfl, rfl⟩ := hinj hs
    exact .proceeded hc (.synchronized hpc hall)
  | eventHandle args d =>
    simp only [hpc] at hs
    split at hs
    · obtain ⟨rfl, rfl⟩ := hinj hs
      exact .ended hc
    · obtain ⟨rfl, rfl⟩ := hinj hs
      exact .sent hc hpc ‹_›

lemma step_cases (hs : s.step home e = some (o, u)) : StepCase home s e o u := by
  have hinj : ∀ {x : Output × Network}, some x = some (o, u) → x.1 = o ∧ x.2 = u :=
    fun h => Prod.mk.inj (Option.some.inj h)
  have hattached : ∀ {pid}, s.attached pid = true → ∃ m, s.host.managers pid = some m := by
    intro pid ha
    exact Option.isSome_iff_exists.mp ((Bool.and_eq_true _ _).mp ha).2
  cases e with
  | host e =>
    simp only [step] at hs
    split_ifs at hs with hadmits
    split at hs
    · exact nomatch hs
    · obtain ⟨rfl, rfl⟩ := hinj hs
      exact .host hadmits ‹_›
  | operate pid op =>
    simp only [step, perform] at hs
    split_ifs at hs with _ hmay
    split at hs
    · exact nomatch hs
    · obtain ⟨rfl, rfl⟩ := hinj hs
      exact .operated hmay ‹_›
  | onDiscoveringEndpoint pid gid supportsCuda poolIpcCapable =>
    simp only [step] at hs
    split_ifs at hs with ha
    · obtain ⟨rfl, rfl⟩ := hinj hs
      exact .dismissed
    · obtain ⟨m, hm⟩ := hattached ha
      obtain ⟨rfl, rfl⟩ := hinj hs
      exact .discovering hm
  | createDescriptorWithEndpoint pid gid b args =>
    simp only [step] at hs
    split_ifs at hs with ha
    obtain ⟨m, hm⟩ := hattached ha
    obtain ⟨rfl, rfl⟩ := hinj hs
    exact .creating hm
  | proceed c =>
    simp only [step] at hs
    split at hs
    · exact nomatch hs
    · rename_i call hc
      split_ifs at hs
      exact advance_cases hc hs
  | fromDescriptorWithEndpoint pid k os cache env =>
    simp only [step] at hs
    split at hs
    · exact nomatch hs
    · rename_i m hk
      split_ifs at hs with hmanager
      obtain ⟨manager, hm, hhome⟩ := Option.any_eq_true _ _ |>.mp hmanager
      split at hs
      · obtain ⟨rfl, rfl⟩ := hinj hs
        exact .rejected
      · exact nomatch hs
      · exact .received hk hm (of_decide_eq_true hhome) ‹_› hs

section Receiving

open Runs

variable {process process' : Process} {impl : Cuda.CudaBufferImpl}
  {tr : List (Buffers.Operation × Buffers.Output)}

/-- The buffer of a received descriptor. -/
def made (process : Process) (impl : Cuda.CudaBufferImpl) : CudaBuffer :=
  if impl = Cuda.CudaBufferBackend.emptyImpl then {}
  else
    { devicePtr := some process.nextAllocation
      size := impl.byteSize
      recycler := true
      writeEvent := if impl.writeEvent then some process.nextEvent else none
      ownsWriteEvent := impl.writeEvent }

/-- What the process is when it has made the buffer. -/
structure Made (process : Process) (impl : Cuda.CudaBufferImpl) (process' : Process) : Prop where
  gpu : process'.gpu = process.gpu
  recorded : process'.recorded = process.recorded
  buffers : process'.buffers =
    Function.update process.buffers process.nextBuffer (some (made process impl))
  nextEvent : process'.nextEvent =
    if impl.writeEvent then process.nextEvent + 1 else process.nextEvent
  nextAllocation : impl ≠ Cuda.CudaBufferBackend.emptyImpl →
    process'.nextAllocation = process.nextAllocation + 1

lemma act_makeImpl {s t : Process} {b size : ℕ} {out : Buffers.Output}
    (h : s.act (.makeImpl b size) = some (out, t)) :
    t = { s with impls := Function.update s.impls b (some { size := size }) } := by
  obtain ⟨_, _, h⟩ := Process.withBuffer_some h
  exact (Process.quietly_some h).2

lemma exec_last {s t : Process} {o : Buffers.Operation}
    (h : exec Process.act s [o] = some (tr, t)) : ∃ out, s.act o = some (out, t) := by
  obtain ⟨out, v, tr', _, hs, hn⟩ := exec_cons h
  obtain ⟨_, rfl⟩ := Prod.mk.inj (Option.some.inj hn)
  exact ⟨out, hs⟩

lemma receiving_made
    (hx : exec Process.act process (receiving process impl) = some (tr, process')) :
    Made process impl process' := by
  unfold receiving at hx
  split_ifs at hx with hempty hevent
  · obtain ⟨_, t, _, _, hs, hx⟩ := exec_cons hx
    obtain ⟨_, hlast⟩ := exec_last hx
    obtain rfl := (Process.quietly_some hs).2
    obtain rfl := act_makeImpl hlast
    subst hempty
    exact ⟨rfl, rfl, rfl, rfl, fun hne => absurd rfl hne⟩
  · obtain ⟨_, t, _, _, hs, hx⟩ := exec_cons hx
    obtain ⟨_, t', _, _, hs', hx⟩ := exec_cons hx
    obtain ⟨_, hlast⟩ := exec_last hx
    obtain rfl := (Process.quietly_some hs).2
    obtain ⟨buf, hbuf, hs'⟩ := Process.withBuffer_some hs'
    obtain rfl := (Process.quietly_some hs').2
    obtain rfl := act_makeImpl hlast
    have hmade := (Function.update_self process.nextBuffer _ process.buffers).symm.trans hbuf
    obtain rfl := Option.some.inj hmade
    refine ⟨rfl, rfl, ?_, by rw [if_pos hevent]; rfl, fun _ => rfl⟩
    rw [made, if_neg hempty, if_pos hevent, hevent]
    exact Function.update_idem ..
  · obtain ⟨_, t, _, _, hs, hx⟩ := exec_cons hx
    obtain ⟨_, hlast⟩ := exec_last hx
    obtain rfl := (Process.quietly_some hs).2
    obtain rfl := act_makeImpl hlast
    refine ⟨rfl, rfl, ?_, by rw [if_neg hevent]; rfl, fun _ => rfl⟩
    rw [made, if_neg hempty, if_neg hevent, (Bool.not_eq_true _).mp hevent]
    rfl

/-- The operations of a reception do nothing to a buffer that was there. -/
lemma receiving_careful {imported : ℕ → Prop}
    (hx : exec Process.act process (receiving process impl) = some (tr, process')) :
    Every Process.act (Careful imported) process tr := by
  have hplain : ∀ {s : Process} {o : Buffers.Operation} {out : Buffers.Output},
      WriterSettled s o out → (∀ b st, o ≠ .getWriteHandle b st) →
      (∀ b owns, o ≠ .setWriteEvent b owns) →
      Careful imported s o out :=
    fun hw hget hset => ⟨hw, fun _ _ b _ _ _ => ⟨hget b, hset b⟩⟩
  unfold receiving at hx
  split_ifs at hx with hempty hevent
  · obtain ⟨_, t, _, rfl, hs, hx⟩ := exec_cons hx
    obtain ⟨_, t', _, rfl, hs', hx⟩ := exec_cons hx
    obtain ⟨rfl, -⟩ := Prod.mk.inj (Option.some.inj hx)
    exact every_cons hs (hplain trivial nofun nofun)
      (every_cons hs' (hplain trivial nofun nofun) every_nil)
  · obtain ⟨_, t, _, rfl, hs, hx⟩ := exec_cons hx
    obtain ⟨_, t', _, rfl, hs', hx⟩ := exec_cons hx
    obtain ⟨_, t'', _, rfl, hs'', hx⟩ := exec_cons hx
    obtain ⟨rfl, -⟩ := Prod.mk.inj (Option.some.inj hx)
    refine every_cons hs (hplain trivial nofun nofun) (every_cons hs' ?_
      (every_cons hs'' (hplain trivial nofun nofun) every_nil))
    obtain rfl := (Process.quietly_some hs).2
    have hnew := Function.update_self process.nextBuffer
      (some { devicePtr := some process.nextAllocation, size := impl.byteSize, recycler := true })
      process.buffers
    constructor
    · exact (congrArg (fun x => x.all (fun buf => buf.handleState.isNone)) hnew).trans rfl
    · rintro ev _ b x hb hev
      refine ⟨nofun, ?_⟩
      rintro owns ⟨rfl⟩
      obtain rfl := Option.some.inj (hnew.symm.trans hb)
      exact nomatch hev
  · obtain ⟨_, t, _, rfl, hs, hx⟩ := exec_cons hx
    obtain ⟨_, t', _, rfl, hs', hx⟩ := exec_cons hx
    obtain ⟨rfl, -⟩ := Prod.mk.inj (Option.some.inj hx)
    exact every_cons hs (hplain trivial nofun nofun)
      (every_cons hs' (hplain trivial nofun nofun) every_nil)

/-- A reception only makes a buffer, and notes where its event was opened from. -/
structure Receives (s : Network) (pid : ℕ) (m : Message) (impl : Cuda.CudaBufferImpl) (o : Output)
    (u : Network) : Prop where
  output : o = .received m (.ok (if impl = Cuda.CudaBufferBackend.emptyImpl then none
    else some (s.nodes pid).process.nextAllocation))
  run : ∃ tr, Run Process.act (s.nodes pid).process tr (u.nodes pid).process ∧
    ∀ imported, Every Process.act (Careful imported) (s.nodes pid).process tr
  made : Made (s.nodes pid).process impl (u.nodes pid).process
  imported : (u.nodes pid).imported = if impl.writeEvent then
      Function.update (s.nodes pid).imported (s.nodes pid).process.nextEvent
        (m.event.map (fun ev => (m.sender, ev)))
    else (s.nodes pid).imported
  same : u = s.setNode pid { s.nodes pid with
    process := (u.nodes pid).process
    imported := (u.nodes pid).imported }

lemma receive_cases {m : Message} (hs : s.receive pid m impl = some (o, u)) :
    Receives s pid m impl o u := by
  simp only [receive] at hs
  split at hs
  · exact nomatch hs
  · rename_i tr process' hx
    obtain ⟨rfl, rfl⟩ := Prod.mk.inj (Option.some.inj hs)
    refine ⟨rfl, ⟨tr, ?_, fun imported => ?_⟩, ?_, ?_, ?_⟩
    · simpa [setNode] using exec_run hx
    · exact receiving_careful hx
    · simpa [setNode] using receiving_made hx
    · simp [setNode]
    · simp [setNode]

end Receiving

end RosidlBufferBackends.Plugin.Delivery
