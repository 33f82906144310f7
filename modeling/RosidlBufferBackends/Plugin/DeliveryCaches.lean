import RosidlBufferBackends.Plugin.DeliveryNodes
import RosidlBufferBackends.Registry.Homes

/-! An endpoint that was found importable is in the cache of its manager from then on. -/

namespace RosidlBufferBackends.Plugin.Delivery

open Registry Buffers Streams Runs

variable {home : ℕ → ℕ} {s u : Network} {e : Event} {o : Output} {c p gid : ℕ} {call : Call}
  {host : Host}

def Request.args : Request → Option Publication
  | .onDiscoveringEndpoint => none
  | .createDescriptorWithEndpoint _ args => some args

namespace Pc

def args : Pc → Option Publication
  | .lookup _ args | .publish _ args | .finalize _ args _ | .locality args _
  | .synchronize args _ _ | .eventHandle args _ => some args
  | .refresh r | .refreshing r _ | .classified r _ => r.args

/-- The endpoint has been found in the cache. -/
def found : Pc → Bool
  | .publish _ _ | .finalize _ _ _ | .locality _ _ | .synchronize _ _ _ | .eventHandle _ _ => true
  | .classified _ peer => peer.found
  | .lookup _ _ | .refresh _ | .refreshing _ _ => false

end Pc

def Nonzero (handle : List UInt8) : Prop := handle.any (fun x => x ≠ 0) = true

structure Grounded (host : Host) (call : Call) : Prop where
  found : call.pc.found = true → ∀ m, host.managers call.pid = some m → (m.cache call.gid).isSome
  handle : ∀ args handle, call.pc.args = some args → args.cudaIpcGetEventHandle = some handle →
    Nonzero handle

/-- The process has never had a manager. -/
structure Unattached (s : Network) (p : ℕ) : Prop where
  decision : ∀ gid, (s.nodes p).ipcDecisionCache gid ≠ some true
  calls : ∀ c call, s.calls c = some call → call.pid ≠ p
  messages : ∀ k m, s.messages k = some m → m.sender ≠ p

/-- The process makes calls, or can make them. -/
def Owner (s : Network) (p : ℕ) : Prop :=
  (∃ c call, s.calls c = some call ∧ call.pid = p) ∨ (s.host.managers p).isSome

structure Known (home : ℕ → ℕ) (s : Network) : Prop where
  homed : Homed home s.host
  calls_lt : ∀ c call, s.calls c = some call → c < s.nextCall
  messages_lt : ∀ k m, s.messages k = some m → k < s.nextMessage
  absent : ∀ p, (s.nodes p).constructed = false →
    s.host.managers p = none ∧ ¬ Attaching s.host p ∧ Unattached s p
  attaching : ∀ p, Attaching s.host p → Unattached s p
  decided : ∀ p gid m, s.host.managers p = some m →
    (s.nodes p).ipcDecisionCache gid = some true → (m.cache gid).isSome
  grounded : ∀ c call, s.calls c = some call → Grounded s.host call
  handles : ∀ k m, s.messages k = some m → m.event.isSome → Nonzero m.descriptor.ipcEventHandle

/-- What a step does to the managers. -/
structure HostMoves (home : ℕ → ℕ) (s u : Network) : Prop where
  homed : Homed home u.host
  manager : ∀ p m', u.host.managers p = some m' →
    Attaching s.host p ∨ ∃ m, s.host.managers p = some m ∧ Outlives m m'
  attaching : ∀ p, Attaching u.host p →
    Attaching s.host p ∨ ((s.nodes p).constructed = false ∧ (u.nodes p).constructed = true)
  constructed : ∀ p, (u.nodes p).constructed = false → (s.nodes p).constructed = false

lemma unattached_initial (p : ℕ) : Unattached {} p := by
  refine ⟨?_, ?_, ?_⟩
  · intro gid hd
    cases hd
  · intro c call hc
    cases hc
  · intro k m hk
    cases hk

lemma known_initial : Known home {} := by
  have hidle : ∀ p, ¬ Attaching ({} : Host) p := by
    rintro p ⟨t, th, ht, -⟩
    cases ht
  refine ⟨homed_initial, ?_, ?_, ?_, ?_, ?_, ?_, ?_⟩
  · intro c call hc
    cases hc
  · intro k m hk
    cases hk
  · intro p _
    exact ⟨rfl, hidle p, unattached_initial p⟩
  · intro p hat
    exact absurd hat (hidle p)
  · intro p gid m hm
    cases hm
  · intro c call hc
    cases hc
  · intro k m hk
    cases hk

section Hosts

lemma hostMoves_same (h : Known home s) (hhost : u.host = s.host)
    (hc : ∀ p, (u.nodes p).constructed = (s.nodes p).constructed) : HostMoves home s u := by
  refine ⟨hhost ▸ h.homed, fun p m' hm => ?_, fun p ha => .inl (hhost ▸ ha), fun p hp => hc p ▸ hp⟩
  rw [hhost] at hm
  exact .inr ⟨m', hm, .refl m'⟩

lemma registersOwn_of_admits {e : Host.Event} (ha : s.admits home e = true) :
    RegistersOwn home s.host e := by
  cases e with
  | registerEndpoint pid gid type =>
    intro m hm
    simpa [Network.admits, hm] using ha
  | _ => trivial

lemma noted_constructed (s : Network) (e : Host.Event) (p : ℕ) :
    ((s.noted e).nodes p).constructed = (s.nodes p).constructed ∨
      ((s.noted e).nodes p).constructed = true := by
  cases e with
  | start pid =>
    left
    by_cases hp : p = pid
    · subst hp
      rw [Network.noted, setNode_node]
    · rw [Network.noted, setNode_other s _ hp]
  | construct pid k deviceId uid =>
    by_cases hp : p = pid
    · subst hp
      right
      rw [Network.noted, setNode_node]
    · left
      rw [Network.noted, setNode_other s _ hp]
  | _ => exact .inl rfl

lemma hostMoves_step {e : Host.Event} {out : Host.Output} (h : Known home s)
    (ha : s.admits home e = true) (hs : s.host.step e = some (out, host)) :
    HostMoves home s { s.noted e with host := host } := by
  refine ⟨step_homed h.homed (registersOwn_of_admits ha) hs, fun p m' hm => step_manager hs hm,
    fun p hat => ?_, fun p hp => ?_⟩
  · rcases step_attaching hs hat with hat | ⟨k, deviceId, uid, rfl⟩
    · exact .inl hat
    · right
      refine ⟨?_, congrArg Node.constructed (setNode_node ..)⟩
      simpa [Network.admits] using ha
  · rcases noted_constructed s e p with he | he
    · exact he ▸ hp
    · cases he.symm.trans hp

/-- Only a manager that has been there since can call. -/
lemma Grounded.moves (hg : Grounded s.host call) (h : Known home s) (hm : HostMoves home s u)
    (hc : s.calls c = some call) : Grounded u.host call := by
  refine ⟨fun hf m' hm' => ?_, hg.handle⟩
  rcases hm.manager call.pid m' hm' with hat | ⟨m, hmanager, hout⟩
  · exact absurd rfl ((h.attaching _ hat).calls c call hc)
  · exact hout.cache _ (hg.found hf m hmanager)

lemma Unattached.not_owner (h : Unattached s p) (hm : s.host.managers p = none) : ¬ Owner s p := by
  rintro (⟨c, call, hc, hp⟩ | hmanager)
  · exact h.calls c call hc hp
  · rw [hm] at hmanager
    cases hmanager

/-- What the calls and the messages of a step come from. -/
lemma known_of (h : Known home s) (hm : HostMoves home s u)
    (hcalls : ∀ c call, u.calls c = some call →
      c < u.nextCall ∧ Owner s call.pid ∧ Grounded u.host call)
    (hmessages : ∀ k m, u.messages k = some m → k < u.nextMessage ∧
      ((∃ k' m', s.messages k' = some m' ∧ m'.sender = m.sender) ∨ Owner s m.sender) ∧
      (m.event.isSome → Nonzero m.descriptor.ipcEventHandle))
    (hdecided : ∀ p gid, (u.nodes p).ipcDecisionCache gid = some true →
      (s.nodes p).ipcDecisionCache gid = some true ∨
        (Owner s p ∧ ∀ m, u.host.managers p = some m → (m.cache gid).isSome)) : Known home u := by
  have hunattached : ∀ {p}, Unattached s p → s.host.managers p = none → Unattached u p := by
    intro p hp hnone
    have howner := hp.not_owner hnone
    refine ⟨fun gid hd => ?_, fun c call hc he => ?_, fun k m hk he => ?_⟩
    · rcases hdecided p gid hd with hold | ⟨hown, -⟩
      · exact hp.decision gid hold
      · exact howner hown
    · exact howner (he ▸ (hcalls c call hc).2.1)
    · rcases (hmessages k m hk).2.1 with ⟨k', m', hk', he'⟩ | hown
      · exact hp.messages k' m' hk' (he'.trans he)
      · exact howner (he ▸ hown)
  have hattaching : ∀ {p}, Attaching s.host p → Unattached u p :=
    fun ha => hunattached (h.attaching _ ha) (ha.manager h.homed)
  constructor
  · exact hm.homed
  · exact fun c call hc => (hcalls c call hc).1
  · exact fun k m hk => (hmessages k m hk).1
  · intro p hp
    obtain ⟨hnone, hno, hun⟩ := h.absent p (hm.constructed p hp)
    refine ⟨?_, ?_, hunattached hun hnone⟩
    · refine Option.eq_none_iff_forall_ne_some.mpr fun m' hm' => ?_
      rcases hm.manager p m' hm' with hat | ⟨m, hmanager, -⟩
      · exact hno hat
      · cases hnone.symm.trans hmanager
    · intro hat
      rcases hm.attaching p hat with hat | ⟨-, hset⟩
      · exact hno hat
      · cases hset.symm.trans hp
  · intro p hat
    rcases hm.attaching p hat with hat | ⟨hclear, -⟩
    · exact hattaching hat
    · obtain ⟨hnone, -, hun⟩ := h.absent p hclear
      exact hunattached hun hnone
  · intro p gid m' hm' hd
    rcases hdecided p gid hd with hold | ⟨-, hcache⟩
    · rcases hm.manager p m' hm' with hat | ⟨m, hmanager, hout⟩
      · exact absurd hold ((h.attaching p hat).decision gid)
      · exact hout.cache _ (h.decided p gid m hmanager hold)
    · exact hcache m' hm'
  · exact fun c call hc => (hcalls c call hc).2.2
  · exact fun k m hk => (hmessages k m hk).2.2

lemma Known.call_kept (h : Known home s) (hm : HostMoves home s u) (hn : s.nextCall ≤ u.nextCall)
    (hc : s.calls c = some call) :
    c < u.nextCall ∧ Owner s call.pid ∧ Grounded u.host call :=
  ⟨(h.calls_lt c call hc).trans_le hn, .inl ⟨c, call, hc, rfl⟩,
    (h.grounded c call hc).moves h hm hc⟩

lemma Known.message_kept (h : Known home s) (hn : s.nextMessage ≤ u.nextMessage) {k : ℕ}
    {m : Message} (hk : s.messages k = some m) : k < u.nextMessage ∧
      ((∃ k' m', s.messages k' = some m' ∧ m'.sender = m.sender) ∨ Owner s m.sender) ∧
      (m.event.isSome → Nonzero m.descriptor.ipcEventHandle) :=
  ⟨(h.messages_lt k m hk).trans_le hn, .inl ⟨k, m, hk, rfl⟩, h.handles k m hk⟩

end Hosts

/-- The processes keep what they have decided, and the host is the same. -/
structure Keeps (s u : Network) : Prop where
  host : u.host = s.host
  constructed : ∀ p, (u.nodes p).constructed = (s.nodes p).constructed
  decisions : ∀ p, (u.nodes p).ipcDecisionCache = (s.nodes p).ipcDecisionCache

section Steps

lemma Keeps.trans {t : Network} (h : Keeps s t) (h' : Keeps t u) : Keeps s u := by
  refine ⟨h'.host.trans h.host, fun p => ?_, fun p => ?_⟩
  · exact (h'.constructed p).trans (h.constructed p)
  · exact (h'.decisions p).trans (h.decisions p)

lemma setNode_decisions {n : Node} (hd : n.ipcDecisionCache = (s.nodes p).ipcDecisionCache)
    (q : ℕ) : ((s.setNode p n).nodes q).ipcDecisionCache = (s.nodes q).ipcDecisionCache := by
  by_cases hq : q = p
  · subst hq
    rwa [setNode_node]
  · rw [setNode_other s n hq]

lemma setNode_keeps {n : Node} (hc : n.constructed = (s.nodes p).constructed)
    (hd : n.ipcDecisionCache = (s.nodes p).ipcDecisionCache) : Keeps s (s.setNode p n) := by
  refine ⟨rfl, fun q => ?_, setNode_decisions hd⟩
  by_cases hq : q = p
  · subst hq
    rwa [setNode_node]
  · rw [setNode_other s n hq]

lemma known_keeps (h : Known home s) (hm : HostMoves home s u)
    (hd : ∀ q, (u.nodes q).ipcDecisionCache = (s.nodes q).ipcDecisionCache)
    (hc : u.calls = s.calls) (hn : u.nextCall = s.nextCall) (hs : u.messages = s.messages)
    (hns : u.nextMessage = s.nextMessage) : Known home u := by
  refine known_of h hm ?_ ?_ ?_
  · intro c call hcall
    rw [hc] at hcall
    exact h.call_kept hm hn.ge hcall
  · intro k m hmessage
    rw [hs] at hmessage
    exact h.message_kept hns.ge hmessage
  · intro q gid hdecided
    rw [hd q] at hdecided
    exact .inl hdecided

lemma known_setCall (h : Known home s) (hm : HostMoves home s u)
    (hd : ∀ q, (u.nodes q).ipcDecisionCache = (s.nodes q).ipcDecisionCache) {x : Option Call}
    (hc : u.calls = Function.update s.calls c x) (hn : s.nextCall ≤ u.nextCall)
    (hs : u.messages = s.messages) (hns : u.nextMessage = s.nextMessage)
    (hx : ∀ call, x = some call → c < u.nextCall ∧ Owner s call.pid ∧ Grounded u.host call) :
    Known home u := by
  refine known_of h hm ?_ ?_ ?_
  · intro c' call hcall
    rw [hc] at hcall
    rcases Inventory.update_some hcall with ⟨rfl, he⟩ | ⟨-, hold⟩
    · exact hx call he
    · exact h.call_kept hm hn hold
  · intro k m hmessage
    rw [hs] at hmessage
    exact h.message_kept hns.ge hmessage
  · intro q gid hdecided
    rw [hd q] at hdecided
    exact .inl hdecided

lemma waiting_keeps (s : Network) (p : ℕ) (op : Buffers.Operation) : Keeps s (s.waiting p op) := by
  unfold Network.waiting
  split
  · split
    · exact ⟨rfl, fun _ => rfl, fun _ => rfl⟩
    · exact setNode_keeps rfl rfl
  · exact ⟨rfl, fun _ => rfl, fun _ => rfl⟩

lemma operated_keeps (s : Network) (p : ℕ) (process : Process) (op : Buffers.Operation) :
    Keeps s ((s.setProcess p process).waiting p op) := by
  have hset : Keeps s (s.setProcess p process) := setNode_keeps rfl rfl
  exact hset.trans (waiting_keeps _ p op)

lemma decided_host (s : Network) (call : Call) (peer : LocalityInfo) (m : HostEndpointManager) :
    (s.decided call peer m).host = s.host ∧ (s.decided call peer m).calls = s.calls ∧
      ∀ q, ((s.decided call peer m).nodes q).constructed = (s.nodes q).constructed := by
  unfold Network.decided
  split
  · refine ⟨rfl, rfl, fun q => ?_⟩
    by_cases hq : q = call.pid
    · subst hq
      rw [Network.cacheDecision, setNode_node]
    · rw [Network.cacheDecision, setNode_other s _ hq]
  · exact ⟨rfl, rfl, fun _ => rfl⟩

/-- Only an endpoint that was found is decided on. -/
lemma decided_decision {peer : LocalityInfo} {m : HostEndpointManager} {q : ℕ}
    (hd : ((s.decided call peer m).nodes q).ipcDecisionCache gid = some true) :
    (s.nodes q).ipcDecisionCache gid = some true ∨
      q = call.pid ∧ gid = call.gid ∧ peer.found = true := by
  unfold Network.decided at hd
  split at hd
  · rename_i hfound
    by_cases hq : q = call.pid
    · subst hq
      rw [Network.cacheDecision, setNode_node] at hd
      by_cases hgid : gid = call.gid
      · exact .inr ⟨rfl, hgid, hfound⟩
      · exact .inl ((Function.update_of_ne hgid _ _).symm.trans hd)
    · rw [Network.cacheDecision, setNode_other s _ hq] at hd
      exact .inl hd
  · exact .inl hd

lemma Grounded.proceeds {pc : Pc} (hg : Grounded s.host call) (h : Known home s)
    (hp : Proceeds s call pc) : Grounded s.host { call with pc := pc } := by
  have hfound : call.pc.found = true → ∀ m, s.host.managers call.pid = some m →
      (m.cache call.gid).isSome := hg.found
  have hhandle : ∀ args handle, call.pc.args = some args →
      args.cudaIpcGetEventHandle = some handle → Nonzero handle := hg.handle
  cases hp with
  | decided hpc hd =>
    rw [hpc] at hhandle
    exact ⟨fun _ m hm => h.decided _ _ m hm hd, hhandle⟩
  | undecided hpc =>
    rw [hpc] at hhandle
    exact ⟨(fun hf => by cases hf), hhandle⟩
  | queried hpc hm =>
    rw [hpc] at hhandle
    refine ⟨fun hf m' hm' => ?_, hhandle⟩
    obtain rfl := Option.some.inj (hm.symm.trans hm')
    exact (query_found _ _).symm.trans hf
  | published hpc =>
    rw [hpc] at hfound hhandle
    exact ⟨fun _ => hfound rfl, hhandle⟩
  | synchronizing hpc =>
    rw [hpc] at hfound hhandle
    exact ⟨fun _ => hfound rfl, hhandle⟩
  | unsynchronized hpc _ _ =>
    rw [hpc] at hfound hhandle
    exact ⟨fun _ => hfound rfl, hhandle⟩
  | synchronized hpc _ =>
    rw [hpc] at hfound hhandle
    exact ⟨fun _ => hfound rfl, hhandle⟩

lemma noted_frame (s : Network) (e : Host.Event) : ∃ nodes, s.noted e = { s with nodes := nodes } ∧
    ∀ q, (nodes q).ipcDecisionCache = (s.nodes q).ipcDecisionCache := by
  cases e with
  | start pid => exact ⟨_, rfl, setNode_decisions rfl⟩
  | construct pid k deviceId uid => exact ⟨_, rfl, setNode_decisions rfl⟩
  | _ => exact ⟨_, rfl, fun _ => rfl⟩

lemma waiting_frame (s : Network) (p : ℕ) (op : Buffers.Operation) :
    ∃ nodes, s.waiting p op = { s with nodes := nodes } := by
  unfold Network.waiting
  split
  · split
    · exact ⟨_, rfl⟩
    · exact ⟨_, rfl⟩
  · exact ⟨_, rfl⟩

lemma decided_messages (s : Network) (call : Call) (peer : LocalityInfo)
    (m : HostEndpointManager) : (s.decided call peer m).messages = s.messages ∧
      (s.decided call peer m).nextMessage = s.nextMessage ∧
      (s.decided call peer m).nextCall = s.nextCall := by
  unfold Network.decided
  split
  · exact ⟨rfl, rfl, rfl⟩
  · exact ⟨rfl, rfl, rfl⟩

lemma known_classified {r : Request} {peer : LocalityInfo} {m : HostEndpointManager}
    {x : Option Call} (h : Known home s)
    (hm : HostMoves home s ((s.decided call peer m).setCall c x)) (hc : s.calls c = some call)
    (hpc : call.pc = .classified r peer) (hx : Classifies call peer m x) :
    Known home ((s.decided call peer m).setCall c x) := by
  obtain ⟨-, hcalls, -⟩ := decided_host s call peer m
  obtain ⟨hmessages, hnextMessage, hnextCall⟩ := decided_messages s call peer m
  obtain ⟨hfound, hhandle⟩ := (h.grounded c call hc).moves h hm hc
  refine known_of h hm ?_ ?_ ?_
  · intro c' call' hcall'
    rcases Inventory.update_some hcall' with ⟨rfl, he⟩ | ⟨-, hold⟩
    · cases hx with
      | @importable b args hpc' hcan =>
        obtain rfl := Option.some.inj he
        refine ⟨hnextCall.symm ▸ h.calls_lt c' call hc, .inl ⟨c', call, hc, rfl⟩, ?_⟩
        rw [hpc'] at hfound hhandle
        refine ⟨fun _ => hfound ?_, hhandle⟩
        simp only [Pc.found]
        by_contra hno
        simp [canImportDescriptor, hno] at hcan
      | _ => cases he
    · rw [hcalls] at hold
      exact h.call_kept hm hnextCall.ge hold
  · intro k m' hk
    have hk : (s.decided call peer m).messages k = some m' := hk
    rw [hmessages] at hk
    exact h.message_kept hnextMessage.ge hk
  · intro q gid hd
    rcases decided_decision hd with hold | ⟨rfl, rfl, hpeer⟩
    · exact .inl hold
    · refine .inr ⟨.inl ⟨c, call, hc, rfl⟩, hfound ?_⟩
      rw [hpc]
      exact hpeer

lemma eventHandle_some {args : Publication} {event : Option ℕ} {handle : List UInt8}
    (he : event.isSome) (hh : eventHandle args event = .ok handle) :
    args.cudaIpcGetEventHandle = some handle := by
  unfold eventHandle Cuda.CudaBufferBackend.writeEventHandle at hh
  simp only [he, if_true] at hh
  split at hh
  · cases hh
  · rename_i handle' hget
    rw [hget]
    exact congrArg some (Except.ok.inj hh)

lemma step_moves (h : Known home s) (hs : s.step home e = some (o, u)) : HostMoves home s u := by
  cases step_cases hs with
  | host ha hstep => exact hostMoves_step h ha hstep
  | @operated pid op out process _ _ =>
    have hkeep := operated_keeps s pid process op
    exact hostMoves_same h hkeep.host hkeep.constructed
  | @refreshing c call r o host _ _ hstep =>
    have hm : HostMoves home s { s with host := host } := hostMoves_step h rfl hstep
    exact ⟨hm.homed, hm.manager, hm.attaching, hm.constructed⟩
  | @classified c call _ peer m _ _ _ _ _ _ =>
    obtain ⟨hhost, -, hconstructed⟩ := decided_host s call peer m
    exact hostMoves_same h hhost hconstructed
  | @finalized c b call args d buf _ _ _ =>
    have hkeep := setNode_keeps (p := call.pid) (n := { s.nodes call.pid with
      process := (s.nodes call.pid).process.finalizeWriteHandle buf }) rfl rfl
    exact hostMoves_same h rfl hkeep.constructed
  | @received pid k os cache env m manager impl o u _ _ _ _ hr =>
    have hkeep := setNode_keeps (s := s) (p := pid) (n := { s.nodes pid with
      process := (u.nodes pid).process
      imported := (u.nodes pid).imported }) rfl rfl
    rw [(receive_cases hr).same]
    exact hostMoves_same h rfl hkeep.constructed
  | _ => exact hostMoves_same h rfl fun _ => rfl

lemma step_known (h : Known home s) (hs : s.step home e = some (o, u)) (hg : Conforms s e o) :
    Known home u := by
  have hm := step_moves h hs
  cases step_cases hs with
  | @host e out host _ _ =>
    obtain ⟨nodes, hnoted, hdecisions⟩ := noted_frame s e
    rw [hnoted] at hm ⊢
    refine known_of h hm ?_ ?_ ?_
    · intro c call hc
      exact h.call_kept hm le_rfl hc
    · intro k m hk
      exact h.message_kept le_rfl hk
    · intro q gid hd
      exact .inl ((congrFun (hdecisions q) gid).symm.trans hd)
  | @operated pid op out process _ _ =>
    have hkeep := operated_keeps s pid process op
    obtain ⟨nodes, he⟩ := waiting_frame (s.setProcess pid process) pid op
    rw [he] at hm hkeep ⊢
    exact known_keeps h hm hkeep.decisions rfl rfl rfl rfl
  | dismissed => exact h
  | @discovering pid gid _ _ m hmanager =>
    refine known_setCall (c := s.nextCall) h hm (fun _ => rfl) rfl (Nat.le_succ _) rfl rfl ?_
    intro call he
    obtain rfl := Option.some.inj he
    refine ⟨Nat.lt_succ_self _, .inr (hmanager ▸ rfl), ?_, ?_⟩
    · intro hf
      cases hf
    · intro args handle hargs
      cases hargs
  | @creating pid gid b args m hmanager =>
    refine known_setCall (c := s.nextCall) h hm (fun _ => rfl) rfl (Nat.le_succ _) rfl rfl ?_
    intro call he
    obtain rfl := Option.some.inj he
    refine ⟨Nat.lt_succ_self _, .inr (hmanager ▸ rfl), ?_, ?_⟩
    · intro hf
      cases hf
    · intro args' handle hargs hhandle
      obtain rfl := Option.some.inj hargs
      have hg : args.cudaIpcGetEventHandle.all (fun handle => handle.any (fun x => x ≠ 0)) = true :=
        hg.1
      rwa [hhandle] at hg
  | @ended c call _ hc =>
    refine known_setCall (c := c) (x := none) h hm (fun _ => rfl) rfl le_rfl rfl rfl ?_
    intro call he
    cases he
  | @proceeded c call pc hc hp =>
    refine known_setCall (c := c) h hm (fun _ => rfl) rfl le_rfl rfl rfl ?_
    intro call' he
    obtain rfl := Option.some.inj he
    exact ⟨h.calls_lt c call hc, .inl ⟨c, call, hc, rfl⟩, (h.grounded c call hc).proceeds h hp⟩
  | @refreshing c call r o host hc hpc _ =>
    obtain ⟨-, hhandle⟩ := h.grounded c call hc
    rw [hpc] at hhandle
    refine known_setCall (c := c) h hm (fun _ => rfl) rfl le_rfl rfl rfl ?_
    intro call' he
    obtain rfl := Option.some.inj he
    refine ⟨h.calls_lt c call hc, .inl ⟨c, call, hc, rfl⟩, ?_, hhandle⟩
    intro hf
    cases hf
  | classified hc hpc _ hx => exact known_classified h hm hc hpc hx
  | @finalized c b call args d buf hc hpc _ =>
    obtain ⟨hfound, hhandle⟩ := h.grounded c call hc
    rw [hpc] at hfound hhandle
    refine known_setCall (c := c) h hm (setNode_decisions rfl) rfl le_rfl rfl rfl ?_
    intro call' he
    obtain rfl := Option.some.inj he
    exact ⟨h.calls_lt c call hc, .inl ⟨c, call, hc, rfl⟩, fun _ => hfound rfl, hhandle⟩
  | @sent c call args d handle hc hpc hh =>
    obtain ⟨-, hhandle⟩ := h.grounded c call hc
    rw [hpc] at hhandle
    refine known_of h hm ?_ ?_ fun _ _ hd => .inl hd
    · intro c' call' hcall'
      rcases Inventory.update_some hcall' with ⟨-, he⟩ | ⟨-, hold⟩
      · cases he
      · exact h.call_kept hm le_rfl hold
    · intro k m hk
      rcases Inventory.update_some hk with ⟨rfl, he⟩ | ⟨-, hold⟩
      · obtain rfl := Option.some.inj he
        refine ⟨Nat.lt_succ_self _, .inr (.inl ⟨c, call, hc, rfl⟩), fun hevent => ?_⟩
        exact hhandle args handle rfl (eventHandle_some hevent hh)
      · exact h.message_kept (Nat.le_succ _) hold
  | rejected => exact h
  | @received pid k os cache env m manager impl o u _ _ _ _ hr =>
    have hkeep := setNode_decisions (s := s) (p := pid) (n := { s.nodes pid with
      process := (u.nodes pid).process
      imported := (u.nodes pid).imported }) rfl
    rw [(receive_cases hr).same] at hm ⊢
    exact known_keeps h hm hkeep rfl rfl rfl rfl

end Steps

end RosidlBufferBackends.Plugin.Delivery
