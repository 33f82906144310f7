import RosidlBufferBackends.Plugin.Agreement
import RosidlBufferBackends.Plugin.DeliveryTraffic

/-! What a reader of a received buffer sees of the writes of the publisher. -/

namespace RosidlBufferBackends.Plugin.Delivery

open Registry Buffers Streams Runs Network

variable {home : ℕ → ℕ} {s u : Network} {e : Event} {o : Output} {k q pid hs ev a : ℕ}
  {tr : List (Event × Output)} {w r x : Point Stream}

structure Sound (home : ℕ → ℕ) (s : Network) : Prop where
  known : Known home s
  sane : ∀ q, Sane s q
  settled : ∀ q, Settled s q

/-- The storage comes from another process, with an event that is marked there. -/
def Imports (s : Network) (pid a q : ℕ) (w : Point Stream) : Prop :=
  ∃ ev ev', (s.nodes pid).imported ev = some (q, ev') ∧ ev < (s.nodes pid).process.nextEvent ∧
    Carries (s.nodes pid).process a ev ∧ Marked (s.nodes q).process ev' w

/-- What is behind `r` waits for a point behind the write. -/
def Waits (s : Network) (pid q : ℕ) (r w : Point Stream) : Prop :=
  ∃ x ∈ (s.nodes pid).remoteWaits,
    x.point = r ∧ x.pid = q ∧ x.target.stream = w.stream ∧ w.position < x.target.position

section Runs

lemma sound_initial : Sound home {} := by
  refine ⟨known_initial, sane_initial, fun q => ⟨?_, ?_⟩⟩
  · intro c call d hc
    cases hc
  · intro k m hk
    cases hk

lemma step_sound (h : Sound home s) (hs : s.step home e = some (o, u)) (hg : Conforms s e o) :
    Sound home u :=
  ⟨step_known h.known hs hg, step_sane h.sane hs hg,
    fun q => step_settled hs hg (h.sane q) (h.settled q)⟩

lemma run_sound (h : Sound home s) (hr : Run (step home) s tr u)
    (hg : Every (step home) Conforms s tr) : Sound home u :=
  hr.induction_every (P := fun _ t => Sound home t) hg h
    fun _ _ _ _ _ _ ht hgood hs => step_sound ht hs hgood

lemma run_keeps {Q : Network → Prop}
    (hQ : ∀ s e o u, Sound home s → Conforms s e o → s.step home e = some (o, u) → Q s → Q u)
    (h : Sound home s) (hs : Q s) (hr : Run (step home) s tr u)
    (hg : Every (step home) Conforms s tr) : Q u := by
  refine (hr.induction_every (P := fun _ t => Sound home t ∧ Q t) hg ⟨h, hs⟩ ?_).2
  rintro _ t e o t' _ ⟨ht, hq⟩ hgood hstep
  exact ⟨step_sound ht hstep hgood, hQ t e o t' ht hgood hstep hq⟩

lemma run_covered (h : Sound home s) (hr : Run (step home) s tr u)
    (hg : Every (step home) Conforms s tr) (hw : w.stream ≠ none) (hc : Covered home s q hs w) :
    Covered home u q hs w :=
  run_keeps (Q := fun t => Covered home t q hs w)
    (fun _ _ _ _ ht hgood hstep hc => step_covered hstep hgood (ht.sane q) ht.known hw hc)
    h hc hr hg

lemma run_done (h : Sound home s) (hr : Run (step home) s tr u)
    (hg : Every (step home) Conforms s tr) (hd : (s.nodes q).process.done w = true) :
    (u.nodes q).process.done w = true :=
  run_keeps (Q := fun t => (t.nodes q).process.done w = true)
    (fun _ _ _ _ _ hgood hstep => done_of_extends (step_extends hstep hgood q)) h hd hr hg

lemma step_imports (hs : s.step home e = some (o, u)) (hg : Conforms s e o) (h : Sound home s)
    (hi : Imports s pid a q w) : Imports u pid a q w := by
  obtain ⟨ev, ev', himported, hlt, hcarries, hmarked⟩ := hi
  obtain ⟨tr, hrun, hcareful⟩ := step_local hs hg pid
  have hcarries' := run_carries (h.sane pid).healthy hrun hcareful
    (show Foreign s pid ev by rw [Foreign, himported]; rfl) hcarries
  have himported' := (step_imported hs hlt).trans himported
  have hforeign : Foreign u pid ev := by
    rw [Foreign, himported']
    rfl
  refine ⟨ev, ev', himported', ?_, hcarries', step_marked hs hg (h.sane q) hmarked⟩
  exact ((step_sound h hs hg).sane pid).foreign ev hforeign |>.1.lt

lemma run_imports (h : Sound home s) (hr : Run (step home) s tr u)
    (hg : Every (step home) Conforms s tr) (hi : Imports s pid a q w) : Imports u pid a q w :=
  run_keeps (Q := fun t => Imports t pid a q w)
    (fun _ _ _ _ ht hgood hstep hi => step_imports hstep hgood ht hi) h hi hr hg

lemma waiting_keeps_wait {t : Network} {op : Buffers.Operation} {x : RemoteWait}
    (hx : x ∈ (t.nodes pid).remoteWaits) : x ∈ ((t.waiting pid op).nodes pid).remoteWaits := by
  unfold Network.waiting
  split
  · split
    · exact hx
    · rw [Network.addWait, setNode_node]
      exact List.mem_cons_of_mem _ hx
  · exact hx

/-- The waits of a process are never given up. -/
lemma step_waits (hs : s.step home e = some (o, u)) (hx : Waits s pid q r w) :
    Waits u pid q r w := by
  obtain ⟨x, hmem, hrest⟩ := hx
  refine ⟨x, ?_, hrest⟩
  cases step_node hs pid with
  | same _ _ hw => rwa [hw]
  | operated op out _ _ _ _ _ hu =>
    rw [hu]
    apply waiting_keeps_wait
    rw [Network.setProcess, setNode_node]
    exact hmem
  | finalized _ _ _ _ _ hw => rwa [hw]
  | received m impl hr =>
    rw [hr.same, setNode_node]
    exact hmem

lemma run_waits (hr : Run (step home) s tr u) (hx : Waits s pid q r w) : Waits u pid q r w :=
  hr.invariant hx fun _ _ _ _ ht hs => step_waits hs ht

lemma Sound.done_of_waits (h : Sound home s) (hx : Waits s pid q r w)
    (hstream : x.stream = r.stream) (hle : r.position ≤ x.position)
    (hd : (s.nodes pid).process.done x = true) : (s.nodes q).process.done w = true := by
  obtain ⟨y, hmem, rfl, rfl, htarget, hlt⟩ := hx
  have hfin : x.position < (s.nodes pid).process.gpu.finished y.point.stream :=
    hstream ▸ of_decide_eq_true hd
  have hpassed := (h.sane pid).waited y hmem (hle.trans_lt hfin)
  have htarget' : y.target.position ≤ (s.nodes y.pid).process.gpu.finished w.stream :=
    htarget ▸ of_decide_eq_true hpassed
  exact decide_eq_true (hlt.trans_le htarget')

end Runs

section Receptions

variable {os : Cuda.Os} {cache : Cuda.ImportCache} {env : Cuda.ReceiveEnv} {m : Message}

/-- An event that could be exported is opened in any other process. -/
lemma opened_event {d : Cuda.CudaBufferDescriptor} {impl : Cuda.CudaBufferImpl}
    (hr : (Cuda.CudaBufferBackend.fromDescriptorWithEndpoint os cache env d).result = .ok impl)
    (hne : impl ≠ Cuda.CudaBufferBackend.emptyImpl) (hd : Nonzero d.ipcEventHandle)
    (hopen : env.cudaIpcOpenEventHandle = true) : impl.writeEvent = true := by
  unfold Cuda.CudaBufferBackend.fromDescriptorWithEndpoint at hr
  split at hr
  · cases hr
  · split_ifs at hr
    · exact absurd (Cuda.Ending.ok.inj hr).symm hne
    · exact absurd (Cuda.Ending.ok.inj hr).symm hne
    · simp only at hr
      split at hr
      · exact absurd (Cuda.Ending.ok.inj hr).symm hne
      · cases hr
      · obtain rfl := Cuda.Ending.ok.inj hr
        simp only [hopen, Bool.and_true]
        exact hd

lemma received_imports (h : Sound home s)
    (hs' : s.step home (.fromDescriptorWithEndpoint pid k os cache env) =
      some (.received m (.ok (some a)), u))
    (hg : Conforms s (.fromDescriptorWithEndpoint pid k os cache env)
      (.received m (.ok (some a)))) (hc : Covered home s m.sender hs w)
    (hstate : m.state = some hs) (hev : m.event = some ev) :
    (u.nodes m.sender).process.done w = true ∨
      pid ≠ m.sender ∧ Imports u pid a m.sender w := by
  have hopen : env.cudaIpcOpenEventHandle = (s.messages k).all (fun m => m.sender ≠ pid) := hg.1
  have hext := step_extends hs' hg m.sender
  have hsound := step_sound h hs' hg
  have hmarks : ∀ ev', Marked (s.nodes m.sender).process ev' w →
      Marked (u.nodes m.sender).process ev' w := fun _ => step_marked hs' hg (h.sane m.sender)
  generalize ho : Output.received m (.ok (some a)) = o at hs'
  cases step_cases hs' with
  | rejected => cases ho
  | @received _ _ _ _ _ m' manager impl o u hk hm hhome hresult hr =>
    have hreceives := receive_cases hr
    obtain ⟨rfl, hstorage⟩ := Output.received.inj (ho.trans hreceives.output)
    obtain ⟨hmarked, hdone⟩ := hc.messages k m hk rfl ev hev hstate
    by_cases hpid : pid = m.sender
    · subst hpid
      exact .inl (done_of_extends hext (hdone ⟨manager, hm, hhome.symm⟩))
    · right
      have hne : impl ≠ Cuda.CudaBufferBackend.emptyImpl := by
        rintro rfl
        cases hstorage
      rw [if_neg hne] at hstorage
      obtain rfl := Option.some.inj (Except.ok.inj hstorage)
      have hevent : impl.writeEvent = true := by
        refine opened_event hresult hne (h.known.handles k m hk (by rw [hev]; rfl)) ?_
        rw [hopen, hk]
        exact decide_eq_true (Ne.symm hpid)
      refine ⟨hpid, (s.nodes pid).process.nextEvent, ev, ?_, ?_, ?_, hmarks ev hmarked⟩
      · rw [hreceives.imported, if_pos hevent, Function.update_self, hev]
        rfl
      · rw [hreceives.made.nextEvent, if_pos hevent]
        exact Nat.lt_succ_self _
      · refine ⟨?_, ?_⟩
        · rw [hreceives.made.nextAllocation hne]
          exact Nat.lt_succ_self _
        · intro b y hb hptr
          rw [hreceives.made.buffers] at hb
          rcases Inventory.update_some hb with ⟨-, he⟩ | ⟨-, hold⟩
          · obtain rfl := Option.some.inj he
            rw [made, if_neg hne, if_pos hevent]
          · exact absurd ((h.sane pid).healthy.stocked.allocation_lt hold hptr) (lt_irrefl _)

end Receptions

section Reading

variable {op : Buffers.Operation} {state event : Option ℕ}

lemma reading_buffer {P P' : Process} (ha : P.act op = some (.reading r state event, P'))
    (hsto : storageOf P op = some a) : ∃ b buf, op = .getReadHandle b r.stream ∧
      P.buffers b = some buf ∧ buf.devicePtr = some a ∧
      P'.buffers b = some (P.pending buf) ∧ r = P'.gpu.here r.stream := by
  cases Process.act_cases ha with
  | @getReadHandle b buf st hb =>
    have hptr : (P.buffers b).bind (fun buf => buf.devicePtr) = some a := hsto
    rw [hb, Option.bind_some] at hptr
    refine ⟨b, buf, rfl, hb, hptr, ?_, rfl⟩
    obtain ⟨gpu, recorded, states, he, -⟩ := Process.getReadHandle_frame P b buf st
    rw [he]
    exact Function.update_self ..

lemma addWait_waits {t : Network} {b k : ℕ} {st : Stream}
    (hwait : t.remoteWait pid b st = some { point := r, pid := q, target := ⟨w.stream, k⟩ })
    (hk : w.position < k) : Waits (t.waiting pid (.getReadHandle b st)) pid q r w := by
  refine ⟨{ point := r, pid := q, target := ⟨w.stream, k⟩ }, ?_, rfl, rfl, rfl, hk⟩
  simp only [Network.waiting, hwait]
  rw [Network.addWait, setNode_node]
  exact List.mem_cons_self

/-- A read handle of a received buffer waits for the event of the publisher. -/
lemma reading_waits (h : Sound home s) (hi : Imports s pid a q w) (hpid : pid ≠ q)
    (hr : r.stream ≠ none)
    (hs : s.step home (.operate pid op) = some (.operated (.reading r state event) (some a), u))
    (hg : Conforms s (.operate pid op) (.operated (.reading r state event) (some a))) :
    Waits u pid q r w := by
  obtain ⟨ev, ev', himported, hlt, hcarries, hmarked⟩ := hi
  obtain ⟨k, hrecorded, hk⟩ := hmarked.stamped
  have hforeign : Foreign u pid ev := by
    rw [Foreign, step_imported hs hlt, himported]
    rfl
  have hnone := (((step_sound h hs hg).sane pid).foreign ev hforeign).2
  generalize ho : Output.operated (.reading r state event) (some a) = o at hs
  cases step_cases hs with
  | @operated _ _ out process _ ha =>
    obtain ⟨rfl, hsto⟩ := Output.operated.inj ho
    obtain ⟨b, buf, rfl, hb, hptr, hb', hpoint⟩ := reading_buffer ha hsto.symm
    have hp : ((s.setProcess pid process).nodes pid).process = process :=
      congrArg Node.process (setNode_node ..)
    rw [(waiting_node _ pid _).1, hp] at hnone
    refine addWait_waits (k := k) ?_ hk
    have hevent : (Process.pending (s.nodes pid).process buf).writeEvent = some ev :=
      hcarries.event b buf hb hptr
    have hat : (s.setProcess pid process).recordedAt pid ev = some (q, ⟨w.stream, k⟩) := by
      have hother : (s.setProcess pid process).nodes q = s.nodes q := setNode_other s _ hpid.symm
      have himported' : ((s.setProcess pid process).nodes pid).imported ev = some (q, ev') := by
        rw [Network.setProcess, setNode_node]
        exact himported
      simp only [Network.recordedAt, hp, hnone, himported', hother, hrecorded, Option.map_some]
    simp only [Network.remoteWait, hp, hb', hevent, Option.bind_some, hat, ← hpoint]
    exact if_pos ⟨hpid.symm, hr⟩

lemma operated_act {out : Buffers.Output} {storage : Option ℕ}
    (hs : s.step home (.operate pid op) = some (.operated out storage, u)) :
    (s.nodes pid).process.act op = some (out, (u.nodes pid).process) := by
  generalize ho : Output.operated out storage = o at hs
  cases step_cases hs with
  | @operated _ _ out' process _ ha =>
    obtain ⟨rfl, -⟩ := Output.operated.inj ho
    rwa [(waiting_node _ pid op).1, Network.setProcess, setNode_node]

lemma run_gpu (h : Sound home s) (hr : Run (step home) s tr u)
    (hg : Every (step home) Conforms s tr) (pid : ℕ) :
    (s.nodes pid).process.gpu.Extends (u.nodes pid).process.gpu :=
  run_keeps (Q := fun t => (s.nodes pid).process.gpu.Extends (t.nodes pid).process.gpu)
    (fun _ _ _ _ _ hgood hstep hext => hext.trans (step_extends hstep hgood pid)) h (.refl _) hr hg

end Reading

/-- The write at `w` is made under the handle that is finalized for a descriptor, and the work
at `x` is enqueued behind a read handle of the buffer that is made of the descriptor. -/
inductive Follows (tr : List (Event × Output)) (q pid : ℕ) (w x : Point Stream) : Prop
  | intro {pre mid mid' mid'' post : List (Event × Output)}
      {launch read launch' : Buffers.Operation} {k hs a : ℕ} {os : Cuda.Os}
      {cache : Cuda.ImportCache} {env : Cuda.ReceiveEnv} {m : Message} {r : Point Stream}
      {storage storage' state event writer : Option ℕ}
      (htr : tr = pre ++ (.operate q launch, .operated (.launched w (some hs)) storage) ::
        (mid ++ (.fromDescriptorWithEndpoint pid k os cache env, .received m (.ok (some a))) ::
          (mid' ++ (.operate pid read, .operated (.reading r state event) (some a)) ::
            (mid'' ++ (.operate pid launch', .operated (.launched x writer) storage') :: post))))
      (hsender : m.sender = q) (hstate : m.state = some hs) (hevent : m.event ≠ none)
      (hw : w.stream ≠ none) (hr : r.stream ≠ none) (hx : x.stream = r.stream)

/-- What a reader of a received buffer enqueues on its stream is done after what the publisher
has written under the handle that was finalized for the descriptor. -/
theorem remote_read_after_write (hr : Run (step home) {} tr s)
    (hg : Every (step home) Conforms {} tr) (hf : Follows tr q pid w x)
    (hdone : (s.nodes pid).process.done x = true) : (s.nodes q).process.done w = true := by
  obtain ⟨htr, hsender, hstate, hevent, hw, hstream, hx⟩ := hf
  subst htr hsender
  obtain ⟨ev, hev⟩ := Option.ne_none_iff_exists'.mp hevent
  obtain ⟨s₁, hpre, hrest⟩ := run_append_iff.mp hr
  obtain ⟨s₂, hwrite, hrest⟩ := run_cons_iff.mp hrest
  obtain ⟨s₃, hmid, hrest⟩ := run_append_iff.mp hrest
  obtain ⟨s₄, hreceive, hafter⟩ := run_cons_iff.mp hrest
  obtain ⟨s₅, hmid', hrest⟩ := run_append_iff.mp hafter
  obtain ⟨s₆, hread, hrest⟩ := run_cons_iff.mp hrest
  obtain ⟨s₇, hmid'', hrest⟩ := run_append_iff.mp hrest
  obtain ⟨s₈, hlaunch, hpost⟩ := run_cons_iff.mp hrest
  obtain ⟨hgwrite, hg₂⟩ := (hg.suffix hpre).cons hwrite
  obtain ⟨hgreceive, hg₄⟩ := (hg₂.suffix hmid).cons hreceive
  obtain ⟨hgread, hg₆⟩ := (hg₄.suffix hmid').cons hread
  obtain ⟨hglaunch, hg₈⟩ := (hg₆.suffix hmid'').cons hlaunch
  have h₁ := run_sound sound_initial hpre hg.init
  have h₂ := step_sound h₁ hwrite hgwrite
  have h₃ := run_sound h₂ hmid hg₂.init
  have h₄ := step_sound h₃ hreceive hgreceive
  have h₅ := run_sound h₄ hmid' hg₄.init
  have h₆ := step_sound h₅ hread hgread
  have h₇ := run_sound h₆ hmid'' hg₆.init
  have h₈ := step_sound h₇ hlaunch hglaunch
  have hlaunched := launched_covered (h₁.sane _) (h₁.settled _) hwrite
  have hcovered := run_covered h₂ hmid hg₂.init hw hlaunched
  rcases received_imports h₃ hreceive hgreceive hcovered hstate hev with hd | ⟨hpid, himports⟩
  · exact run_done h₄ hafter hg₄ hd
  · have himported := run_imports h₄ hmid' hg₄.init himports
    have hwaits := reading_waits h₅ himported hpid hstream hread hgread
    have hlast := run_waits (hmid''.append ((Run.single hlaunch).append hpost)) hwaits
    refine (run_sound h₈ hpost hg₈).done_of_waits hlast hx ?_ hdone
    rw [act_reading (operated_act hread), (act_launched (operated_act hlaunch)).1, hx]
    exact (run_gpu h₆ hmid'' hg₆.init pid).length_le _

section Cases

instance (s : Network) (e : Event) (o : Output) : Decidable (CudaWorks s e o) :=
  match e with
  | .createDescriptorWithEndpoint _ _ _ _ => inferInstanceAs (Decidable (_ = true))
  | .fromDescriptorWithEndpoint _ _ _ _ _ => inferInstanceAs (Decidable (_ = _))
  | .host _ | .operate _ _ | .onDiscoveringEndpoint _ _ _ _ | .proceed _ => .isTrue trivial

instance (s : Network) (e : Event) (o : Output) : Decidable (Settles s e o) :=
  match e with
  | .operate _ _ => inferInstanceAs (Decidable (WriterSettled _ _ .quiet))
  | .host _ | .onDiscoveringEndpoint _ _ _ _ | .createDescriptorWithEndpoint _ _ _ _ | .proceed _
  | .fromDescriptorWithEndpoint _ _ _ _ _ => .isTrue trivial

instance (s : Network) (e : Event) (o : Output) : Decidable (Spares s e o) :=
  match e with
  | .operate _ _ => inferInstanceAs (Decidable (_ = true))
  | .host _ | .onDiscoveringEndpoint _ _ _ _ | .createDescriptorWithEndpoint _ _ _ _ | .proceed _
  | .fromDescriptorWithEndpoint _ _ _ _ _ => .isTrue trivial

instance (s : Network) (e : Event) (o : Output) : Decidable (Conforms s e o) :=
  inferInstanceAs (Decidable (_ ∧ _))

/-- The steps of a thread of the host. -/
def advances (t n : ℕ) : List Event := List.replicate n (.host (.advance t))

/-- Process 7 has a write handle of a buffer, and process 9 has registered its endpoint. -/
def attaching : List Event :=
  [.host (.start 7), .host (.start 9), .host (.construct 7 0 0 1000)] ++ advances 0 7 ++
  [.host (.construct 9 0 0 1000)] ++ advances 1 7 ++
  [.host (.setIpcCapable 9 true), .host (.registerEndpoint 9 5 .subscription)] ++ advances 2 5 ++
  [.operate 7 (.construct 16), .operate 7 (.setWriteEvent 0 true),
    .operate 7 (.getWriteHandle 0 (some 1))]

/-- A buffer whose block is exported by descriptor 3. -/
def exported : Publication :=
  { Plugin.publishing with
    os := { files := fun fd => if fd = 3 then some 1 else none }
    cudaIpcGetEventHandle := some [1] }

def sending (b : ℕ) : List Event :=
  [.createDescriptorWithEndpoint 7 5 b exported, .proceed 0, .proceed 0] ++ advances 3 4 ++
  List.replicate 6 (.proceed 0)

def reception : Event :=
  .fromDescriptorWithEndpoint 9 0
    { sockets := fun name => if name = "cuda_vmm_7_0" then some (.serves 1) else none }
      (fun _ => none)
    { cudaGetDevice := some 0
      importEnv := Cuda.Exchange.importing 10 32768
      cudaIpcOpenEventHandle := true }

/-- A write of process 7, and a read of process 9 of the buffer that it has received. -/
def passing (published between after : List Event) : List Event :=
  attaching ++ .operate 7 (.launch (some 1) none (some 0)) ::
    (published ++ reception ::
      (between ++ .operate 9 (.getReadHandle 0 (some 2)) ::
        ([] ++ .operate 9 (.launch (some 2) (some 0) none) :: after)))

/-- What the outputs of such a run say. -/
def launches (w : Point Stream) (writer : Option ℕ) : Output → Bool
  | .operated out _ => decide (out = .launched w writer)
  | _ => false

def reads (r : Point Stream) (a : ℕ) : Output → Bool
  | .operated (.reading r' _ _) storage => decide (r' = r ∧ storage = some a)
  | _ => false

def receives (q hs a : ℕ) : Output → Bool
  | .received m (.ok storage) =>
      decide (m.sender = q ∧ m.state = some hs ∧ m.event.isSome ∧ storage = some a)
  | _ => false

lemma launches_some {writer : Option ℕ} (h : launches w writer o = true) :
    ∃ storage, o = .operated (.launched w writer) storage := by
  unfold launches at h
  split at h
  · exact ⟨_, by rw [of_decide_eq_true h]⟩
  · cases h

lemma reads_some (h : reads r a o = true) :
    ∃ state event, o = .operated (.reading r state event) (some a) := by
  unfold reads at h
  split at h
  · obtain ⟨rfl, rfl⟩ := of_decide_eq_true h
    exact ⟨_, _, rfl⟩
  · cases h

lemma receives_some (h : receives q hs a o = true) :
    ∃ m : Message, o = .received m (.ok (some a)) ∧ m.sender = q ∧ m.state = some hs ∧
      m.event ≠ none := by
  unfold receives at h
  split at h
  · obtain ⟨hq, hstate, hevent, rfl⟩ := of_decide_eq_true h
    exact ⟨_, rfl, hq, hstate, Option.isSome_iff_ne_none.mp hevent⟩
  · cases h

/-- The four outputs are in their places. -/
def inPlace (tr : List (Event × Output)) (n n' p : ℕ) : Bool :=
  (tr[attaching.length]?).any (fun y => launches ⟨some 1, 0⟩ (some 0) y.2) &&
  (tr[attaching.length + 1 + n]?).any (fun y => receives 7 0 0 y.2) &&
  (tr[attaching.length + 1 + (n + 1 + n')]?).any (fun y => reads ⟨some 2, p⟩ 0 y.2) &&
  (tr[attaching.length + 1 + (n + 1 + (n' + 1 + 0))]?).any
    (fun y => launches ⟨some 2, p⟩ none y.2)

lemma passing_follows {published between after : List Event} {p : ℕ}
    (hx : exec (step home) {} (passing published between after) = some (tr, s))
    (hp : inPlace tr published.length between.length p = true) :
    Follows tr 7 9 ⟨some 1, 0⟩ ⟨some 2, p⟩ := by
  simp only [inPlace, Bool.and_eq_true] at hp
  obtain ⟨⟨⟨hwrite, hreceive⟩, hread⟩, hlaunch⟩ := hp
  obtain ⟨pre, o₁, t₁, tr₁, rfl, ho₁, hx₁, hi₁⟩ := exec_at hx hwrite
  rw [hi₁] at hreceive hread hlaunch
  obtain ⟨mid, o₂, t₂, tr₂, rfl, ho₂, hx₂, hi₂⟩ := exec_at hx₁ hreceive
  rw [hi₂] at hread hlaunch
  obtain ⟨mid', o₃, t₃, tr₃, rfl, ho₃, hx₃, hi₃⟩ := exec_at hx₂ hread
  rw [hi₃] at hlaunch
  obtain ⟨mid'', o₄, t₄, post, rfl, ho₄, -, -⟩ := exec_at hx₃ hlaunch
  obtain ⟨storage, rfl⟩ := launches_some ho₁
  obtain ⟨m, rfl, hsender, hstate, hevent⟩ := receives_some ho₂
  obtain ⟨state, event, rfl⟩ := reads_some ho₃
  obtain ⟨storage', rfl⟩ := launches_some ho₄
  refine .intro rfl hsender hstate hevent ?_ ?_ rfl
  · exact Option.some_ne_none _
  · exact Option.some_ne_none _

/-- Every endpoint is one of process 9. -/
def ofReader (_ : ℕ) : ℕ := makeInstanceId 9 0

theorem remote_read_after_write_once : ∃ tr s, Run (step ofReader) {} tr s ∧
    (s.nodes 9).process.done ⟨some 2, 0⟩ = true ∧ (s.nodes 7).process.done ⟨some 1, 0⟩ = true := by
  have hlast : (exec (step ofReader) {}
      (passing (sending 0) [] [.operate 7 (.finish (some 1)), .operate 9 (.finish (some 2))])).any
      (fun x => inPlace x.1 (sending 0).length 0 0 &&
        (x.2.nodes 9).process.done ⟨some 2, 0⟩) = true := by
    decide +kernel
  obtain ⟨⟨tr, s⟩, hx, hp⟩ := Option.any_eq_true _ _ |>.mp hlast
  obtain ⟨hpassed, hdone⟩ := (Bool.and_eq_true _ _).mp hp
  have hg : Every (step ofReader) Conforms {} tr := every_of_exec hx (by decide +kernel)
  refine ⟨tr, s, exec_run hx, hdone, ?_⟩
  exact remote_read_after_write (exec_run hx) hg (passing_follows hx hpassed) hdone

/-- The subscriber takes a write handle of the buffer that it has received. -/
def rewriting : List Event := [.operate 9 (.getWriteHandle 0 (some 3)), .operate 9 (.closeWrite 0)]

/-- The buffer is moved before its write handle is closed. -/
def moving : List Event := [.operate 7 (.moveConstruct 0), .operate 7 (.closeWrite 0)]

/-- The work at `x` is done, and not the write that it follows. -/
def Overtakes (tr : List (Event × Output)) (s : Network) (w x : Point Stream) : Prop :=
  Run (step ofReader) {} tr s ∧ Every (step ofReader) CudaWorks {} tr ∧ Follows tr 7 9 w x ∧
    (s.nodes 9).process.done x = true ∧ (s.nodes 7).process.done w = false

lemma exec_overtakes (published between after : List Event) {p : ℕ}
    (h : (exec (step ofReader) {} (passing published between after)).any (fun x =>
      inPlace x.1 published.length between.length p && (x.2.nodes 9).process.done ⟨some 2, p⟩ &&
        !(x.2.nodes 7).process.done ⟨some 1, 0⟩) = true)
    (hg : EveryExec (step ofReader) CudaWorks {} (passing published between after)) :
    ∃ tr s, exec (step ofReader) {} (passing published between after) = some (tr, s) ∧
      Overtakes tr s ⟨some 1, 0⟩ ⟨some 2, p⟩ := by
  obtain ⟨⟨tr, s⟩, hx, hp⟩ := Option.any_eq_true _ _ |>.mp h
  simp only [Bool.and_eq_true] at hp
  obtain ⟨⟨hplace, hdone⟩, hnot⟩ := hp
  refine ⟨tr, s, hx, exec_run hx, every_of_exec hx hg, passing_follows hx hplace, hdone, ?_⟩
  exact (Bool.not_eq_true' _).mp hnot

/-- Nothing waits for the write when the subscriber has recorded the event again, or the
publisher has not recorded it. -/
theorem read_overtakes_write :
    (∃ tr s, Overtakes tr s ⟨some 1, 0⟩ ⟨some 2, 1⟩ ∧ Every (step ofReader) Settles {} tr) ∧
      ∃ tr s, Overtakes tr s ⟨some 1, 0⟩ ⟨some 2, 0⟩ ∧ Every (step ofReader) Spares {} tr := by
  constructor
  · obtain ⟨tr, s, hx, ho⟩ := exec_overtakes (sending 0) rewriting
      [.operate 9 (.finish (some 2)), .operate 9 (.finish (some 2))] (p := 1) (by decide +kernel)
      (by decide +kernel)
    exact ⟨tr, s, ho, every_of_exec hx (by decide +kernel)⟩
  · obtain ⟨tr, s, hx, ho⟩ := exec_overtakes (moving ++ sending 1) []
      [.operate 9 (.finish (some 2))] (p := 0) (by decide +kernel) (by decide +kernel)
    exact ⟨tr, s, ho, every_of_exec hx (by decide +kernel)⟩

end Cases

end RosidlBufferBackends.Plugin.Delivery
