import RosidlBufferBackends.Plugin.DeliveryCaches

/-! What a process has published of a buffer, from the end of its writer on. -/

namespace RosidlBufferBackends.Plugin.Delivery

open Registry Buffers Streams Runs

variable {home : ℕ → ℕ} {s u : Network} {e : Event} {o : Output} {c k q hs ev : ℕ} {call : Call}
  {P : Process} {b : ℕ} {buf : CudaBuffer} {w : Point Stream}

/-- What the call describes, once it has finalized the writer. -/
def Pc.described : Pc → Option Described
  | .locality _ d | .synchronize _ d _ | .eventHandle _ d => some d
  | _ => none

/-- Where a call of the next state comes from. -/
inductive CallStems (s u : Network) (call : Call) : Prop
  | kept {c : ℕ} (hc : s.calls c = some call)
  | early (hd : call.pc.described = none)
  | proceeded {c : ℕ} {call₀ : Call} {pc : Pc} (hc : s.calls c = some call₀)
      (hp : Proceeds s call₀ pc) (hcall : call = { call₀ with pc := pc })
      (hu : u.nodes = s.nodes)
  | finalized {c b : ℕ} {call₀ : Call} {args : Publication} {d : Cuda.CudaBufferDescriptor}
      {buf : CudaBuffer} (hc : s.calls c = some call₀)
      (hb : (s.nodes call₀.pid).process.buffers b = some buf)
      (hcall : call = { call₀ with pc := .locality args ⟨d, buf.writeEvent, buf.handleState⟩ })
      (hu : (u.nodes call₀.pid).process = (s.nodes call₀.pid).process.finalizeWriteHandle buf)

section Stems

lemma stems_setCall {x : Option Call}
    (hc : (Function.update s.calls c x) k = some call)
    (hx : ∀ call, x = some call → CallStems s u call) : CallStems s u call := by
  rcases Inventory.update_some hc with ⟨-, he⟩ | ⟨-, hold⟩
  · exact hx call he
  · exact .kept hold

lemma step_call (hs : s.step home e = some (o, u)) (hc : u.calls c = some call) :
    CallStems s u call := by
  cases step_cases hs with
  | @host e _ _ _ _ =>
    obtain ⟨nodes, hnoted, -⟩ := noted_frame s e
    rw [hnoted] at hc
    exact .kept hc
  | @operated pid op _ process _ _ =>
    obtain ⟨nodes, he⟩ := waiting_frame (s.setProcess pid process) pid op
    rw [he] at hc
    exact .kept hc
  | dismissed => exact .kept hc
  | discovering _ =>
    refine stems_setCall hc fun call he => ?_
    obtain rfl := Option.some.inj he
    exact .early rfl
  | creating _ =>
    refine stems_setCall hc fun call he => ?_
    obtain rfl := Option.some.inj he
    exact .early rfl
  | ended _ =>
    refine stems_setCall hc fun call he => ?_
    cases he
  | proceeded hc₀ hp =>
    refine stems_setCall hc fun call he => ?_
    exact .proceeded hc₀ hp (Option.some.inj he).symm rfl
  | refreshing _ _ _ =>
    refine stems_setCall hc fun call he => ?_
    obtain rfl := Option.some.inj he
    exact .early rfl
  | @classified c₀ call₀ _ peer m x _ _ _ _ hx =>
    have hc : Function.update (s.decided call₀ peer m).calls c₀ x c = some call := hc
    rw [(decided_host s call₀ peer m).2.1] at hc
    refine stems_setCall hc fun call he => ?_
    cases hx with
    | importable _ _ =>
      obtain rfl := Option.some.inj he
      exact .early rfl
    | _ => cases he
  | finalized hc₀ _ hb =>
    refine stems_setCall hc fun call he => ?_
    refine .finalized hc₀ hb (Option.some.inj he).symm ?_
    exact congrArg Node.process (setNode_node ..)
  | sent _ _ _ =>
    refine stems_setCall hc fun call he => ?_
    cases he
  | rejected => exact .kept hc
  | received _ _ _ _ hr =>
    rw [(receive_cases hr).same] at hc
    exact .kept hc

lemma step_message {m : Message} (hs : s.step home e = some (o, u)) (hk : u.messages k = some m) :
    s.messages k = some m ∨ ∃ c call args d handle, s.calls c = some call ∧
      call.pc = .eventHandle args d ∧ m = message call d handle := by
  cases step_cases hs with
  | @host e _ _ _ _ =>
    obtain ⟨nodes, hnoted, -⟩ := noted_frame s e
    rw [hnoted] at hk
    exact .inl hk
  | @operated pid op _ process _ _ =>
    obtain ⟨nodes, he⟩ := waiting_frame (s.setProcess pid process) pid op
    rw [he] at hk
    exact .inl hk
  | @classified c call _ peer manager _ _ _ _ _ _ =>
    have hk : (s.decided call peer manager).messages k = some m := hk
    rw [(decided_messages s call peer manager).1] at hk
    exact .inl hk
  | @sent c call args d handle hc hpc _ =>
    rcases Inventory.update_some hk with ⟨-, he⟩ | ⟨-, hold⟩
    · exact .inr ⟨c, call, args, d, handle, hc, hpc, (Option.some.inj he).symm⟩
    · exact .inl hold
  | received _ _ _ _ hr =>
    rw [(receive_cases hr).same] at hk
    exact .inl hk
  | _ => exact .inl hk

end Stems

/-- No more writes are made under the handle state. -/
def Ended (P : Process) (state : Option ℕ) : Prop :=
  ∀ hs, state = some hs → hs < P.nextState ∧ (P.states hs).state = .finalized

/-- The writers of what a process has described are finalized. -/
structure Settled (s : Network) (q : ℕ) : Prop where
  calls : ∀ c call d, s.calls c = some call → call.pid = q → call.pc.described = some d →
    Ended (s.nodes q).process d.state
  messages : ∀ k m, s.messages k = some m → m.sender = q → Ended (s.nodes q).process m.state

/-- The event is recorded behind the write, and will not be recorded again. -/
structure Marked (P : Process) (ev : ℕ) (w : Point Stream) : Prop where
  resting : Resting P ev
  written : Written P ev
  stamped : ∃ k, P.recorded ev = some ⟨w.stream, k⟩ ∧ w.position < k

section Marks

lemma finalizeWriteHandle_ends (h : Healthy P) (hused : Used P) (hb : P.buffers b = some buf) :
    Ended (P.finalizeWriteHandle buf) buf.handleState := by
  intro hs hhs
  have hlt := h.stocked.state_lt hb hhs
  unfold Process.finalizeWriteHandle
  simp only [hhs]
  unfold Process.finalizeWriteHandleLocked
  split_ifs with hin
  · rw [recordWrite_eq]
    exact ⟨hlt, by simp [Process.setState]⟩
  · refine ⟨hlt, ?_⟩
    cases hx : (P.states hs).state with
    | unset => exact absurd hx (hused b buf hs hb hhs)
    | inUse => exact absurd hx hin
    | finalized => rfl

lemma finalizeWriteHandle_marks (h : Healthy P) (hused : Used P) (ha : Awaits P hs w)
    (hw : w.stream ≠ none) (hb : P.buffers b = some buf) (hhs : buf.handleState = some hs)
    (hev : buf.writeEvent = some ev) : Marked (P.finalizeWriteHandle buf) ev w := by
  obtain ⟨-, hfinal⟩ := finalizeWriteHandle_ends h hused hb hs hhs
  have hact := act_finalizeWriteHandle hb
  have ha' := act_awaits (o := .finalizeWriteHandle b) h.stocked h.writers trivial hact ha
  have hst' := act_stocked h.stocked hact
  obtain ⟨recorded, states, hframe, -⟩ := Process.finalizeWriteHandle_frame P buf
  have hb' : (P.finalizeWriteHandle buf).buffers b = some buf := by
    rw [hframe]
    exact hb
  obtain ⟨-, hstamped⟩ := ha'.cases.resolve_left fun hin => by
    cases hfinal.symm.trans hin.1
  have hsame : ∀ b' x, (P.finalizeWriteHandle buf).buffers b' = some x → x.writeEvent = some ev →
      x = buf := by
    intro b' x hx he
    obtain rfl := hst'.event_unique hx hb' he hev
    exact Option.some.inj (hx.symm.trans hb')
  refine ⟨⟨hst'.event_lt hb' hev, ?_⟩, ?_, hstamped hw b buf ev hb' hhs hev⟩
  · intro b' x hs' hx he hxs
    obtain rfl := hsame b' x hx he
    obtain rfl := Option.some.inj (hhs.symm.trans hxs)
    exact hfinal
  · intro b' x hx he
    obtain rfl := hsame b' x hx he
    rw [hhs]
    exact fun hnone => by cases hnone

variable (hs' : s.step home e = some (o, u)) (hg : Conforms s e o) (h : Sane s q)

include hs' hg h

lemma step_ended {state : Option ℕ} (he : Ended (s.nodes q).process state) :
    Ended (u.nodes q).process state := by
  obtain ⟨tr, hrun, hcareful⟩ := step_local hs' hg q
  intro hs hhs
  obtain ⟨hlt, hfinal⟩ := he hs hhs
  exact run_finalized h.healthy hrun hcareful hlt hfinal

lemma step_marked (hm : Marked (s.nodes q).process ev w) : Marked (u.nodes q).process ev w := by
  obtain ⟨tr, hrun, hcareful⟩ := step_local hs' hg q
  obtain ⟨hresting, hwritten, hsame⟩ := run_rests h.healthy hrun hcareful hm.resting hm.written
  obtain ⟨k, hrec, hk⟩ := hm.stamped
  exact ⟨hresting, hwritten, k, hsame.trans hrec, hk⟩

lemma step_settled (hset : Settled s q) : Settled u q := by
  constructor
  · rintro c call d hc rfl hd
    cases step_call hs' hc with
    | kept hold => exact step_ended hs' hg h (hset.calls _ call d hold rfl hd)
    | early hnone => cases hnone.symm.trans hd
    | @proceeded c₀ call₀ pc hold hp hcall hu =>
      subst hcall
      have hprev : ∀ d₀, call₀.pc.described = some d₀ →
          Ended (s.nodes call₀.pid).process d₀.state :=
        fun d₀ hd₀ => hset.calls c₀ call₀ d₀ hold rfl hd₀
      rw [hu]
      cases hp with
      | synchronizing hpc =>
        rw [hpc] at hprev
        exact hprev d hd
      | unsynchronized hpc _ _ =>
        rw [hpc] at hprev
        exact hprev d hd
      | synchronized hpc _ =>
        rw [hpc] at hprev
        exact hprev d hd
      | _ => cases hd
    | @finalized c₀ b call₀ args d₀ buf hold hb hcall hu =>
      subst hcall
      obtain rfl := Option.some.inj hd
      rw [hu]
      exact finalizeWriteHandle_ends h.healthy h.used hb
  · rintro k m hk rfl
    rcases step_message hs' hk with hold | ⟨c, call, args, d, handle, hc, hpc, rfl⟩
    · exact step_ended hs' hg h (hset.messages k m hold rfl)
    · exact step_ended hs' hg h (hset.calls c call d hc rfl (by rw [hpc]; rfl))

end Marks

/-- The endpoint belongs to the manager of the process. -/
def Own (home : ℕ → ℕ) (s : Network) (q gid : ℕ) : Prop :=
  ∃ m, s.host.managers q = some m ∧ home gid = m.identity.instanceId

/-- A descriptor that leaves is marked, and for an endpoint of the process itself the write is
done. -/
def Released (P : Process) (own : Prop) (hs : ℕ) (w : Point Stream) (d : Described) : Prop :=
  ∀ ev, d.event = some ev → d.state = some hs → Marked P ev w ∧ (own → P.done w = true)

/-- What each step of a call has made sure of. -/
def Pc.Covers (P : Process) (own : Prop) (hs : ℕ) (w : Point Stream) : Pc → Prop
  | .locality _ d => ∀ ev, d.event = some ev → d.state = some hs → Marked P ev w
  | .synchronize _ d point => ∀ ev, d.event = some ev → d.state = some hs →
      Marked P ev w ∧ ∃ k, point = some ⟨w.stream, k⟩ ∧ w.position < k
  | .eventHandle _ d => Released P own hs w d
  | _ => True

/-- A write under the handle state, with all that has been published of its buffer. -/
structure Covered (home : ℕ → ℕ) (s : Network) (q hs : ℕ) (w : Point Stream) : Prop where
  awaits : Awaits (s.nodes q).process hs w
  calls : ∀ c call, s.calls c = some call → call.pid = q →
    call.pc.Covers (s.nodes q).process (Own home s q call.gid) hs w
  messages : ∀ k m, s.messages k = some m → m.sender = q →
    Released (s.nodes q).process (Own home s q m.gid) hs w m.toDescribed

section Covers

variable {P' : Process} {own own' : Prop} {d : Described} {pc : Pc} {gid : ℕ}

lemma done_of_extends (h : P.gpu.Extends P'.gpu) (hd : P.done w = true) : P'.done w = true :=
  decide_eq_true ((of_decide_eq_true hd).trans_le (h.finished _))

lemma Released.mono (h : Released P own hs w d) (hm : ∀ ev, Marked P ev w → Marked P' ev w)
    (hd : P.done w = true → P'.done w = true) (ho : own' → own) : Released P' own' hs w d := by
  intro ev hev hstate
  obtain ⟨hmarked, hdone⟩ := h ev hev hstate
  exact ⟨hm ev hmarked, fun hown => hd (hdone (ho hown))⟩

lemma Pc.Covers.mono (h : pc.Covers P own hs w) (hm : ∀ ev, Marked P ev w → Marked P' ev w)
    (hd : P.done w = true → P'.done w = true) (ho : own' → own) : pc.Covers P' own' hs w := by
  cases pc with
  | locality args d => exact fun ev hev hstate => hm ev (h ev hev hstate)
  | synchronize args d point =>
    intro ev hev hstate
    obtain ⟨hmarked, hpoint⟩ := h ev hev hstate
    exact ⟨hm ev hmarked, hpoint⟩
  | eventHandle args d => exact Released.mono h hm hd ho
  | _ => trivial

lemma Pc.covers_other (h : ∀ d, pc.described = some d → d.state ≠ some hs) :
    pc.Covers P own hs w := by
  cases pc with
  | locality args d => exact fun _ _ hstate => absurd hstate (h d rfl)
  | synchronize args d point => exact fun _ _ hstate => absurd hstate (h d rfl)
  | eventHandle args d => exact fun _ _ hstate => absurd hstate (h d rfl)
  | _ => trivial

/-- A point behind the write is passed only when the write is done. -/
lemma done_of_passed {k : ℕ} (hk : w.position < k) (hp : P.gpu.passed ⟨w.stream, k⟩ = true) :
    P.done w = true :=
  decide_eq_true (hk.trans_le (of_decide_eq_true hp))

/-- The manager finds its own endpoints in the process. -/
lemma synchronizes_of_own (hk : Known home s) (hc : s.calls c = some call)
    (hf : call.pc.found = true) {m : HostEndpointManager} (hm : s.host.managers call.pid = some m)
    (ho : Own home s call.pid call.gid) (hev : d.event.isSome = true) :
    Synchronizes (m.cache.query call.gid) d := by
  obtain ⟨m', hm', hhome⟩ := ho
  obtain rfl := Option.some.inj (hm.symm.trans hm')
  obtain ⟨info, hinfo⟩ := Option.isSome_iff_exists.mp ((hk.grounded c call hc).found hf m hm)
  have hlocality := (hk.homed.manager _ _ hm).2 call.gid info hinfo hhome
  refine ⟨?_, ?_, hev⟩
  · simp [Cache.query, hinfo]
  · simp [Cache.query, hinfo, hlocality]

lemma step_own (hk : Known home s) (hm : HostMoves home s u) (hq : ¬ Unattached s q)
    (ho : Own home u q gid) : Own home s q gid := by
  obtain ⟨m', hm', hhome⟩ := ho
  rcases hm.manager q m' hm' with hat | ⟨m, hmanager, hout⟩
  · exact absurd (hk.attaching q hat) hq
  · exact ⟨m, hmanager, hhome.trans (congrArg Identity.instanceId hout.identity)⟩

lemma proceeds_covers (hk : Known home s) (hc : s.calls c = some call) (hp : Proceeds s call pc)
    (hr : call.pc.Covers (s.nodes call.pid).process (Own home s call.pid call.gid) hs w) :
    pc.Covers (s.nodes call.pid).process (Own home s call.pid call.gid) hs w := by
  cases hp with
  | @synchronizing args d hpc =>
    rw [hpc] at hr
    intro ev hev hstate
    have hmarked := hr ev hev hstate
    obtain ⟨k, hrec, hlt⟩ := hmarked.stamped
    exact ⟨hmarked, k, by rw [hev]; exact hrec, hlt⟩
  | @unsynchronized args d m hpc hm hno =>
    rw [hpc] at hr
    intro ev hev hstate
    refine ⟨hr ev hev hstate, fun hown => ?_⟩
    have hsync := synchronizes_of_own (d := d) hk hc (by rw [hpc]; rfl) hm hown (by rw [hev]; rfl)
    exact absurd hsync hno
  | @synchronized args d point hpc hall =>
    rw [hpc] at hr
    intro ev hev hstate
    obtain ⟨hmarked, k, rfl, hlt⟩ := hr ev hev hstate
    exact ⟨hmarked, fun _ => done_of_passed hlt hall⟩
  | _ => trivial

variable (hs' : s.step home e = some (o, u)) (hg : Conforms s e o) (h : Sane s q)
  (hk : Known home s)

include hs' hg h hk

lemma step_released (hq : ¬ Unattached s q)
    (hr : Released (s.nodes q).process (Own home s q gid) hs w d) :
    Released (u.nodes q).process (Own home u q gid) hs w d :=
  hr.mono (fun _ => step_marked hs' hg h) (done_of_extends (step_extends hs' hg q))
    (step_own hk (step_moves hk hs') hq)

lemma step_covers (hq : ¬ Unattached s q)
    (hr : pc.Covers (s.nodes q).process (Own home s q gid) hs w) :
    pc.Covers (u.nodes q).process (Own home u q gid) hs w :=
  hr.mono (fun _ => step_marked hs' hg h) (done_of_extends (step_extends hs' hg q))
    (step_own hk (step_moves hk hs') hq)

lemma step_covered (hw : w.stream ≠ none) (hc : Covered home s q hs w) :
    Covered home u q hs w := by
  obtain ⟨tr, hrun, hcareful⟩ := step_local hs' hg q
  refine ⟨run_awaiting h.healthy hrun hcareful hc.awaits, ?_, ?_⟩
  · rintro c call hcall rfl
    have hattached : ∀ {c₀ call₀}, s.calls c₀ = some call₀ → call₀.pid = call.pid →
        ¬ Unattached s call.pid :=
      fun hold he hun => hun.calls _ _ hold he
    cases step_call hs' hcall with
    | kept hold =>
      exact step_covers hs' hg h hk (hattached hold rfl) (hc.calls _ call hold rfl)
    | early hnone => exact Pc.covers_other fun d hd => by cases hnone.symm.trans hd
    | @proceeded c₀ call₀ pc hold hp he _ =>
      subst he
      have hnext := proceeds_covers hk hold hp (hc.calls c₀ call₀ hold rfl)
      exact step_covers hs' hg h hk (hattached hold rfl) hnext
    | @finalized c₀ b call₀ args d buf hold hb he hu =>
      subst he
      intro ev hev hstate
      rw [hu]
      exact finalizeWriteHandle_marks h.healthy h.used hc.awaits hw hb hstate hev
  · rintro k m hm rfl
    rcases step_message hs' hm with hold | ⟨c, call, args, d, handle, hcall, hpc, rfl⟩
    · exact step_released hs' hg h hk (fun hun => hun.messages k m hold rfl)
        (hc.messages k m hold rfl)
    · have hreleased := hc.calls c call hcall rfl
      rw [hpc] at hreleased
      exact step_released hs' hg h hk (fun hun => hun.calls c call hcall rfl) hreleased

end Covers

/-- When the write is made, nothing has been published under its handle state. -/
lemma launched_covered {op : Buffers.Operation} {storage : Option ℕ} (h : Sane s q)
    (hset : Settled s q)
    (hs' : s.step home (.operate q op) = some (.operated (.launched w (some hs)) storage, u)) :
    Covered home u q hs w := by
  generalize ho : Output.operated (.launched w (some hs)) storage = o at hs'
  cases step_cases hs' with
  | @operated _ _ out process _ ha =>
    obtain ⟨rfl, -⟩ := Output.operated.inj ho
    have hopen : ∀ {state}, Ended (s.nodes q).process state → state ≠ some hs := by
      rintro _ hended rfl
      cases (launched_inUse ha).symm.trans (hended hs rfl).2
    have hp : (((s.setProcess q process).waiting q op).nodes q).process = process :=
      (waiting_node _ q op).1.trans (congrArg Node.process (setNode_node ..))
    obtain ⟨nodes, he⟩ := waiting_frame (s.setProcess q process) q op
    have hawaits := launched_awaits h.healthy.writers ha
    rw [← hp] at hawaits
    rw [he] at hawaits ⊢
    refine ⟨hawaits, ?_, ?_⟩
    · intro c call hc hq
      exact Pc.covers_other fun d hd => hopen (hset.calls c call d hc hq hd)
    · intro k m hk hq ev _ hstate
      exact absurd hstate (hopen (hset.messages k m hk hq))

end RosidlBufferBackends.Plugin.Delivery
