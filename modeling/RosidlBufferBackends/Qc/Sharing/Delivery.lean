import RosidlBufferBackends.Qc.Sharing.System

/-! An import gets the dma-buf of the descriptor, if the broker that looks up the uid is that
of the process that made the descriptor. -/

namespace RosidlBufferBackends.Qc.Sharing

open Holdings Inventory Runs

variable {w v : ℕ → Option ℕ} {t t' : Task} {a : TaskEvent} {qc : QcBuffer}
  {c i k p m ptr size uid : ℕ} {fd : ℤ} {r : Resource} {dmabuf : ℕ}

/-- What a step changes of the buffers that there have been, and of the handlers. -/
inductive Changes (t : Task) (a : TaskEvent) (t' : Task) : Prop
  | nothing : t'.process.counter = t.process.counter → t'.backing = t.backing →
      t'.handlers = t.handlers → Changes t a t'
  | buffer (dmabuf : ℕ) : t'.process.counter = t.process.counter + 1 →
      t'.backing = Function.update t.backing t.process.counter (some dmabuf) →
      t'.handlers = t.handlers → Changes t a t'
  | handler (c : ℕ) (x : Option Handler) : t'.process.counter = t.process.counter →
      t'.backing = t.backing → t'.handlers = Function.update t.handlers c x →
      (∀ uid, x = some (.lookup uid) → a = .recvRequest c (some uid)) → Changes t a t'

lemma reset_changes (t : Task) (qc : QcBuffer) : (t.reset qc).process = t.process ∧
    (t.reset qc).backing = t.backing ∧ (t.reset qc).handlers = t.handlers := by
  unfold Task.reset
  by_cases hp : qc.ptr = 0
  · rw [if_pos hp]
    exact ⟨rfl, rfl, rfl⟩
  · rw [if_neg hp]
    cases qc.origin with
    | rpcmem =>
      dsimp only
      rw [rpcmemFree_eq]
      exact ⟨rfl, rfl, rfl⟩
    | mmap =>
      simp only [Task.munmap]
      split_ifs <;> exact ⟨rfl, rfl, rfl⟩

lemma allocate_changes (hs : t.allocate k size ptr fd dmabuf = some t') : Changes t a t' := by
  unfold Task.allocate at hs
  split at hs
  · obtain rfl := Option.some.inj hs
    rename_i hmade
    refine .nothing ?_ rfl rfl
    dsimp only
    rcases allocate_unmade hmade with hcase | hcase <;> rw [hcase]
    rfl
  · split at hs
    · exact nomatch hs
    · split at hs
      · obtain rfl := Option.some.inj hs
        rw [rpcmemFree_eq]
        exact .nothing rfl rfl rfl
      · split at hs
        · exact nomatch hs
        · obtain rfl := Option.some.inj hs
          exact .buffer dmabuf rfl rfl rfl

lemma adopt_changes (hs : t.adopt k ptr size fd r = some t') : Changes t a t' := by
  unfold Task.adopt at hs
  split at hs
  · exact nomatch hs
  · split at hs
    · exact nomatch hs
    · split at hs
      · obtain rfl := Option.some.inj hs
        exact .buffer _ rfl rfl rfl
      · split at hs
        · exact nomatch hs
        · obtain rfl := Option.some.inj hs
          exact .buffer _ rfl rfl rfl

lemma createDescriptor_changes {impl : Option QcBufferImpl} {dup : Option ℕ}
    (hs : t.createDescriptorWithEndpoint impl dup = some t') : Changes t a t' := by
  unfold Task.createDescriptorWithEndpoint at hs
  split at hs
  · exact nomatch hs
  · rcases createDescriptor_cases t.process impl dup with hnone | ⟨n, j, qc, -, -, -, hsome⟩
    · rw [hnone] at hs
      obtain rfl := Option.some.inj hs
      exact .nothing rfl rfl rfl
    · rw [hsome] at hs
      simp only [Task.register] at hs
      split at hs
      · split at hs
        · split at hs
          · exact nomatch hs
          · obtain rfl := Option.some.inj hs
            exact .nothing rfl rfl rfl
        · exact nomatch hs
      · obtain rfl := Option.some.inj hs
        exact .nothing rfl rfl rfl

lemma lookup_changes {dup : Option ℕ} (hs : t.lookup c uid dup = some t') : Changes t a t' := by
  unfold Task.lookup at hs
  split at hs
  · split at hs
    · exact nomatch hs
    · split at hs
      · exact nomatch hs
      · obtain rfl := Option.some.inj hs
        exact .handler c _ rfl rfl rfl nofun
  · obtain rfl := Option.some.inj hs
    exact .handler c none rfl rfl rfl nofun

lemma map_changes {n : ℕ} (hs : t.map i k ptr size n = some t') : Changes t a t' := by
  unfold Task.map at hs
  split at hs
  · exact nomatch hs
  · split at hs
    · exact nomatch hs
    · obtain rfl := Option.some.inj hs
      exact .buffer _ rfl rfl rfl

lemma step_changes (hs : t.step a = some t') : Changes t a t' := by
  cases a with
  | constructBroker socket listening =>
    simp only [Task.step] at hs
    split at hs
    · cases hs
    · split at hs <;> obtain rfl := Option.some.inj hs <;> exact .nothing rfl rfl rfl
  | allocate k byteSize ptr fd dmabuf =>
    simp only [Task.step] at hs
    split at hs
    · cases hs
    · exact allocate_changes hs
  | adopt k ptr size fd source =>
    simp only [Task.step] at hs
    split at hs
    · cases hs
    · exact adopt_changes hs
  | moveConstruct k other =>
    simp only [Task.step, Process.step] at hs
    split at hs
    · obtain rfl := Option.some.inj hs
      exact .nothing rfl rfl rfl
    · cases hs
  | moveAssign k other =>
    simp only [Task.step, Process.step] at hs
    cases hk : t.process.buffers k with
    | none =>
      rw [hk] at hs
      cases hs
    | some qc =>
      cases ho : t.process.buffers other with
      | none =>
        rw [hk, ho] at hs
        cases hs
      | some qc' =>
        rw [hk, ho] at hs
        obtain ⟨-, hbacking, hhandlers⟩ := reset_changes t qc
        by_cases hne : k = other
        · simp only [if_pos hne] at hs
          obtain rfl := Option.some.inj hs
          exact .nothing rfl rfl rfl
        · simp only [if_neg hne] at hs
          obtain rfl := Option.some.inj hs
          exact .nothing rfl hbacking hhandlers
  | destroy k =>
    simp only [Task.step, Process.step] at hs
    cases hk : t.process.buffers k with
    | none =>
      rw [hk] at hs
      cases hs
    | some qc =>
      rw [hk] at hs
      obtain rfl := Option.some.inj hs
      obtain ⟨-, hbacking, hhandlers⟩ := reset_changes t qc
      exact .nothing rfl hbacking hhandlers
  | createDescriptorWithEndpoint impl dup => exact createDescriptor_changes hs
  | accept c =>
    simp only [Task.step] at hs
    split at hs
    · cases hs
    · obtain rfl := Option.some.inj hs
      exact .handler c _ rfl rfl rfl (fun _ h => by cases h)
  | recvRequest c uid =>
    simp only [Task.step] at hs
    split at hs
    · obtain rfl := Option.some.inj hs
      refine .handler c _ rfl rfl rfl ?_
      intro uid' hu
      obtain rfl := Handler.lookup.inj (Option.some.inj hu)
      rfl
    · obtain rfl := Option.some.inj hs
      exact .handler c none rfl rfl rfl (fun _ h => by cases h)
    · cases hs
  | lookup c dup =>
    simp only [Task.step] at hs
    split at hs
    · exact lookup_changes hs
    · cases hs
  | sendmsg c sent =>
    simp only [Task.step] at hs
    split at hs
    · obtain rfl := Option.some.inj hs
      exact .handler c _ rfl rfl rfl (fun _ h => by cases h)
    · cases hs
  | finish c =>
    simp only [Task.step] at hs
    split at hs
    · obtain rfl := Option.some.inj hs
      exact .handler c none rfl rfl rfl (fun _ h => by cases h)
    · cases hs
  | stop =>
    simp only [Task.step] at hs
    split at hs
    · cases hs
    · obtain rfl := Option.some.inj hs
      exact .nothing rfl rfl rfl
  | join =>
    simp only [Task.step] at hs
    split at hs
    · cases hs
    · obtain rfl := Option.some.inj hs
      exact .nothing rfl rfl rfl
  | teardown =>
    simp only [Task.step] at hs
    split at hs
    · cases hs
    · obtain rfl := Option.some.inj hs
      exact .nothing rfl rfl rfl
  | importFailed m =>
    obtain rfl := Option.some.inj hs
    exact .nothing rfl rfl rfl
  | connect i m =>
    simp only [Task.step] at hs
    split at hs
    · cases hs
    · obtain rfl := Option.some.inj hs
      exact .nothing rfl rfl rfl
  | sendUid i sent =>
    simp only [Task.step] at hs
    split at hs
    · obtain rfl := Option.some.inj hs
      exact .nothing rfl rfl rfl
    · cases hs
  | recvReply i received =>
    simp only [Task.step] at hs
    split at hs
    · obtain rfl := Option.some.inj hs
      exact .nothing rfl rfl rfl
    · split at hs
      · cases hs
      · obtain rfl := Option.some.inj hs
        exact .nothing rfl rfl rfl
    · cases hs
  | map i k ptr size =>
    simp only [Task.step] at hs
    split at hs
    · split at hs
      · cases hs
      · exact map_changes hs
    · cases hs
  | mapFailed i =>
    simp only [Task.step] at hs
    split at hs
    · obtain rfl := Option.some.inj hs
      exact .nothing rfl rfl rfl
    · cases hs

lemma backing_kept (hs : t.step a = some t') (hu : uid < t.process.counter) :
    uid < t'.process.counter ∧ t'.backing uid = t.backing uid := by
  cases step_changes hs with
  | nothing hcounter hbacking _ => exact ⟨hcounter ▸ hu, congrFun hbacking uid⟩
  | buffer _ hcounter hbacking _ =>
    refine ⟨hcounter ▸ hu.trans (Nat.lt_succ_self _), ?_⟩
    rw [hbacking, Function.update_of_ne hu.ne]
  | handler _ _ hcounter hbacking _ _ => exact ⟨hcounter ▸ hu, congrFun hbacking uid⟩

lemma lookup_asked (hs : t.step a = some t') (hc : t'.handlers c = some (.lookup uid)) :
    t.handlers c = some (.lookup uid) ∨ a = .recvRequest c (some uid) := by
  cases step_changes hs with
  | nothing _ _ hhandlers => exact .inl (hhandlers ▸ hc)
  | buffer _ _ _ hhandlers => exact .inl (hhandlers ▸ hc)
  | handler d x _ _ hhandlers hx =>
    rw [hhandlers] at hc
    rcases update_some hc with ⟨rfl, hnew⟩ | ⟨-, hold⟩
    · exact .inr (hx uid hnew)
    · exact .inl hold

/-- The dma-buf of the descriptor that the connection is for. -/
def System.value (s : System) (c : ℕ) : Option ℕ := (s.messageOf c).bind Message.dmabuf

/-- The process whose broker looks up a uid, and the connection that it does it for. -/
def lookedUp : SystemEvent → Option (ℕ × ℕ)
  | .act p (.lookup c _) => some (p, c)
  | _ => none

/-- A broker that looks up the uid of a descriptor is that of the process that created the
descriptor, or has no entry for the uid. -/
def Current (s : System) (e : SystemEvent) (_ : SystemOutput) : Prop :=
  ∀ x ∈ lookedUp e, ∀ t ∈ s.tasks x.1, ∀ msg ∈ s.messageOf x.2,
    msg.creator = x.1 ∨ t.process.broker.table msg.descriptor.uid = none

instance (s : System) (e : SystemEvent) (o : SystemOutput) : Decidable (Current s e o) :=
  inferInstanceAs (Decidable (∀ x ∈ lookedUp e, ∀ t ∈ s.tasks x.1, ∀ msg ∈ s.messageOf x.2, _ ∨ _))

/-- The request and the reply are those of the message. -/
structure Carries (x : Connection) (msg : Message) : Prop where
  request : ∀ uid, x.request = some uid → msg.descriptor.uid = uid
  reply : ∀ dmabuf, x.reply = some dmabuf → msg.dmabuf = some dmabuf

structure Matched (s : System) : Prop where
  fresh : ∀ p, s.nextTask ≤ p → s.tasks p = none
  sound : ∀ p t, s.tasks p = some t → Sound s.value s.value t
  published : ∀ m msg, s.messages m = some msg → m < s.nextMessage ∧ msg.creator < s.nextTask
  backed : ∀ m msg t, s.messages m = some msg → s.tasks msg.creator = some t →
    msg.descriptor.uid < t.process.counter ∧ t.backing msg.descriptor.uid = msg.dmabuf
  asked : ∀ p t c uid, s.tasks p = some t → t.handlers c = some (.lookup uid) →
    ∃ msg, s.messageOf c = some msg ∧ msg.descriptor.uid = uid
  connected : ∀ c x, s.connections c = some x →
    ∃ msg, s.messages x.message = some msg ∧ Carries x msg

variable {s u : System} {x : Connection} {msg : Message} {e : SystemEvent} {o : SystemOutput}

lemma messageOf_eq (hx : s.connections c = some x) : s.messageOf c = s.messages x.message := by
  rw [System.messageOf, hx]
  rfl

lemma value_eq (hm : s.messageOf c = some msg) : s.value c = msg.dmabuf := by
  rw [System.value, hm]
  rfl

lemma serverOf_message {q : ℕ} (hq : s.serverOf m = some q) :
    ∃ msg, s.messages m = some msg := by
  unfold System.serverOf at hq
  split at hq
  · exact nomatch hq
  · exact ⟨_, ‹_›⟩

namespace Matched

lemma empty : Matched {} where
  fresh _ _ := rfl
  sound _ _ h := nomatch h
  published _ _ h := nomatch h
  backed _ _ _ h := nomatch h
  asked _ _ _ _ h := nomatch h
  connected _ _ h := nomatch h

lemma start (h : Matched s) (pid : ℕ) (available : Bool) : Matched { s with
    tasks := Function.update s.tasks s.nextTask
      (some { process := { pid := pid, available := available, broker := {} } })
    nextTask := s.nextTask + 1 } where
  fresh p hp := (Function.update_of_ne (Nat.lt_of_succ_le hp).ne' _ _).trans
    (h.fresh p (Nat.le_of_succ_le hp))
  sound p t hp := by
    rcases update_some hp with ⟨-, hnew⟩ | ⟨-, hp⟩
    · exact Option.some.inj hnew ▸ sound_start _ _ _ _
    · exact h.sound p t hp
  published m msg hm := (h.published m msg hm).imp_right fun hc => hc.trans (Nat.lt_succ_self _)
  backed m msg t hm hp := by
    rcases update_some hp with ⟨hc, -⟩ | ⟨-, hp⟩
    · exact absurd hc (h.published m msg hm).2.ne
    · exact h.backed m msg t hm hp
  asked p t c uid hp hc := by
    rcases update_some hp with ⟨-, hnew⟩ | ⟨-, hp⟩
    · obtain rfl := Option.some.inj hnew
      exact nomatch hc
    · exact h.asked p t c uid hp hc
  connected := h.connected

lemma exit (h : Matched s) (p : ℕ) :
    Matched { s with tasks := Function.update s.tasks p none } := by
  have hleft : ∀ q t, Function.update s.tasks p none q = some t → s.tasks q = some t := by
    intro q t hq
    rcases update_some hq with ⟨-, hnone⟩ | ⟨-, hq⟩
    · exact nomatch hnone
    · exact hq
  refine ⟨?_, fun q t hq => h.sound q t (hleft q t hq), h.published, ?_, ?_, h.connected⟩
  · intro q hq
    dsimp only
    rw [Function.update_apply]
    split_ifs
    · rfl
    · exact h.fresh q hq
  · exact fun m msg t hm hq => h.backed m msg t hm (hleft _ t hq)
  · exact fun q t c uid hq => h.asked q t c uid (hleft q t hq)

lemma act (h : Matched s) (hp : s.tasks p = some t) (hs : t.step a = some t')
    (ha : Agrees s.value s.value t a)
    (hr : ∀ c uid, a = .recvRequest c (some uid) →
      ∃ msg, s.messageOf c = some msg ∧ msg.descriptor.uid = uid) :
    Matched { s with tasks := Function.update s.tasks p (some t') } where
  fresh q hq := by
    have hne : q ≠ p := by
      rintro rfl
      exact nomatch (h.fresh q hq).symm.trans hp
    exact (Function.update_of_ne hne _ _).trans (h.fresh q hq)
  sound q t₀ hq := by
    rcases update_some hq with ⟨-, hnew⟩ | ⟨-, hq⟩
    · exact Option.some.inj hnew ▸ (h.sound p t hp).step ha hs
    · exact h.sound q t₀ hq
  published := h.published
  backed m msg t₀ hm hq := by
    rcases update_some hq with ⟨hc, hnew⟩ | ⟨-, hq⟩
    · obtain rfl := Option.some.inj hnew
      obtain ⟨hlt, hbacking⟩ := h.backed m msg t hm (hc ▸ hp)
      obtain ⟨hlt', hkept⟩ := backing_kept hs hlt
      exact ⟨hlt', hkept.trans hbacking⟩
    · exact h.backed m msg t₀ hm hq
  asked q t₀ c uid hq hc := by
    rcases update_some hq with ⟨-, hnew⟩ | ⟨-, hq⟩
    · obtain rfl := Option.some.inj hnew
      rcases lookup_asked hs hc with hold | hask
      · exact h.asked p t c uid hp hold
      · exact hr c uid hask
    · exact h.asked q t₀ c uid hq hc
  connected := h.connected

lemma grow (h : Matched s) (ht : u.tasks = s.tasks) (hn : u.nextTask = s.nextTask)
    (hof : ∀ c msg, s.messageOf c = some msg → u.messageOf c = some msg)
    (hpublished : ∀ m msg, u.messages m = some msg →
      m < u.nextMessage ∧ msg.creator < u.nextTask)
    (hbacked : ∀ m msg t, u.messages m = some msg → s.tasks msg.creator = some t →
      msg.descriptor.uid < t.process.counter ∧ t.backing msg.descriptor.uid = msg.dmabuf)
    (hconnected : ∀ c x, u.connections c = some x →
      ∃ msg, u.messages x.message = some msg ∧ Carries x msg) : Matched u := by
  have hvalue : ∀ c, s.value c ≠ none → u.value c = s.value c := by
    intro c hc
    cases hm : s.messageOf c with
    | none => exact absurd (congrArg (fun x => Option.bind x _) hm) hc
    | some msg => rw [value_eq hm, value_eq (hof c msg hm)]
  refine ⟨?_, ?_, hpublished, ?_, ?_, hconnected⟩
  · rw [ht, hn]
    exact h.fresh
  · intro p t hp
    have hsound := h.sound p t (ht ▸ hp)
    exact hsound.congr (fun c hc => hvalue c (hsound.accounts.worth_ne_none hc))
      fun i hi => hvalue i (hsound.accounts.worth_ne_none hi)
  · exact fun m msg t hm hp => hbacked m msg t hm (ht ▸ hp)
  · intro p t c uid hp hc
    obtain ⟨msg, hm, hu⟩ := h.asked p t c uid (ht ▸ hp) hc
    exact ⟨msg, hof c msg hm, hu⟩

lemma publish (h : Matched s) (hp : s.tasks p = some t) {d : QcBufferDescriptor}
    {dmabuf : Option ℕ} (hd : d.uid < t.process.counter) (hb : t.backing d.uid = dmabuf) :
    Matched { s with
      messages := Function.update s.messages s.nextMessage (some ⟨d, p, dmabuf⟩)
      nextMessage := s.nextMessage + 1 } := by
  have hkept : ∀ m msg, s.messages m = some msg →
      Function.update s.messages s.nextMessage (some ⟨d, p, dmabuf⟩) m = some msg :=
    fun m msg hm => (Function.update_of_ne (h.published m msg hm).1.ne _ _).trans hm
  have hlt : p < s.nextTask := by
    by_contra hle
    exact nomatch (h.fresh p (not_lt.mp hle)).symm.trans hp
  refine h.grow rfl rfl ?_ ?_ ?_ ?_
  · intro c msg hm
    obtain ⟨x, hx, hm⟩ := Option.bind_eq_some_iff.mp hm
    exact Option.bind_eq_some_iff.mpr ⟨x, hx, hkept _ _ hm⟩
  · intro m msg hm
    rcases update_some hm with ⟨rfl, hnew⟩ | ⟨-, hold⟩
    · obtain rfl := Option.some.inj hnew
      exact ⟨Nat.lt_succ_self _, hlt⟩
    · exact (h.published m msg hold).imp_left fun hm => hm.trans (Nat.lt_succ_self _)
  · intro m msg t₀ hm hq
    rcases update_some hm with ⟨-, hnew⟩ | ⟨-, hold⟩
    · obtain rfl := Option.some.inj hnew
      obtain rfl := Option.some.inj (hp.symm.trans hq)
      exact ⟨hd, hb⟩
    · exact h.backed m msg t₀ hold hq
  · intro c x hx
    obtain ⟨msg, hm, hcarries⟩ := h.connected c x hx
    exact ⟨msg, hkept _ _ hm, hcarries⟩

lemma setConnection (h : Matched s) (hm : s.messages x.message = some msg) (hx : Carries x msg)
    (hold : ∀ y, s.connections c = some y → y.message = x.message) :
    Matched (s.setConnection c x) := by
  refine h.grow rfl rfl ?_ h.published h.backed ?_
  · intro d msg' hm'
    obtain ⟨y, hy, hm'⟩ := Option.bind_eq_some_iff.mp hm'
    by_cases hd : d = c
    · subst hd
      refine Option.bind_eq_some_iff.mpr ⟨x, Function.update_self .., ?_⟩
      exact hold y hy ▸ hm'
    · exact Option.bind_eq_some_iff.mpr ⟨y, (Function.update_of_ne hd _ _).trans hy, hm'⟩
  · intro d y hy
    rcases update_some hy with ⟨-, hnew⟩ | ⟨-, hy⟩
    · exact Option.some.inj hnew ▸ ⟨msg, hm, hx⟩
    · exact h.connected d y hy

lemma replaceConnection (h : Matched s) {y : Connection} (hx : s.connections c = some x)
    (hy : y.message = x.message)
    (hcarries : ∀ msg, s.messages x.message = some msg → Carries x msg → Carries y msg) :
    Matched (s.setConnection c y) := by
  obtain ⟨msg, hm, hmsg⟩ := h.connected c x hx
  refine h.setConnection (hy ▸ hm) (hcarries msg hm hmsg) ?_
  intro z hz
  rw [hy, Option.some.inj (hz.symm.trans hx)]

lemma setBound (h : Matched s) (bound : String → Option ℕ) (nextDmabuf : ℕ) : Matched { s with
    bound := bound
    nextDmabuf := nextDmabuf } :=
  h.grow rfl rfl (fun _ _ hm => hm) h.published h.backed h.connected

/-- The handlers get the dma-bufs of their descriptors, and so do the imports. -/
lemma agrees (h : Matched s) (hp : s.tasks p = some t) (hpermits : s.permits p a = true)
    (hc : Current s (.act p a) o) : Agrees s.value s.value t a := by
  cases a with
  | lookup c dup =>
    intro uid hlookup hentry
    obtain ⟨msg, hm, rfl⟩ := h.asked p t c uid hp hlookup
    rcases hc (p, c) rfl t hp msg hm with rfl | hnone
    · obtain ⟨x, hx, hmsg⟩ := Option.bind_eq_some_iff.mp hm
      exact (value_eq hm).trans (h.backed _ msg t hmsg hp).2.symm
    · rw [hnone] at hentry
      exact nomatch hentry
  | recvReply i received =>
    cases received with
    | none => trivial
    | some y =>
      obtain ⟨x, hx, hreply⟩ := Option.any_eq_true _ _ |>.mp hpermits
      obtain ⟨msg, hm, hcarries⟩ := h.connected i x hx
      have hreply : x.reply = some y.2 := by
        have hand : x.client = p ∧ some y.2 = x.reply := by simpa using hreply
        exact hand.2.symm
      exact (value_eq ((messageOf_eq hx).trans hm)).trans (hcarries.reply _ hreply)
  | _ => trivial

lemma requested (h : Matched s) (hpermits : s.permits p (.recvRequest c (some uid)) = true) :
    ∃ msg, s.messageOf c = some msg ∧ msg.descriptor.uid = uid := by
  obtain ⟨x, hx, hrequest⟩ := Option.any_eq_true _ _ |>.mp hpermits
  obtain ⟨msg, hm, hcarries⟩ := h.connected c x hx
  have hrequest : x.request = some uid := by
    have hand : x.server = p ∧ some uid = x.request := by simpa using hrequest
    exact hand.2.symm
  exact ⟨msg, (messageOf_eq hx).trans hm, hcarries.request uid hrequest⟩

lemma step_act (h : Matched s) (hp : s.tasks p = some t) (hs : t.step a = some t')
    (hpermits : s.permits p a = true) (hc : Current s (.act p a) o) :
    Matched { (s.effect p t t' a).2 with tasks := Function.update s.tasks p (some t') } := by
  have hagrees := h.agrees hp hpermits hc
  have hacted := h.act hp hs hagrees fun c uid ha => h.requested (ha ▸ hpermits)
  have hp' : Function.update s.tasks p (some t') p = some t' := Function.update_self ..
  cases a with
  | constructBroker socket listening =>
    cases socket with
    | false => exact hacted
    | true => exact hacted.setBound _ _
  | stop => exact hacted.setBound _ _
  | allocate k byteSize ptr fd dmabuf => exact hacted.setBound _ _
  | createDescriptorWithEndpoint impl dup =>
    rcases createDescriptor_cases t.process impl dup with hnone | ⟨n, k, qc, hk, hfd, -, hsome⟩
    · simp only [System.effect, hnone]
      exact hacted
    · simp only [System.effect, hsome]
      have hsound := h.sound p t hp
      have hmem : Resource.fd qc.fd.toNat ∈ t.held (.buffer k) :=
        Sound.held_buffer hk ▸ Sound.mem_fd ((hsound.labelled k qc hk).nonempty hfd) hfd
      obtain ⟨dmabuf, hworth, -⟩ := hsound.accounts.valued _ _ hmem
      rw [Sound.worth_buffer hk] at hworth
      obtain ⟨hlt, hkept⟩ := backing_kept hs (hsound.bounded qc.uid (by simp [hworth]))
      exact hacted.publish hp' hlt hkept
  | connect i m =>
    simp only [System.effect]
    split
    · exact hacted
    · rename_i q hq
      have hnew : s.connections i = none := by
        simp only [System.permits, Bool.and_eq_true, Option.isNone_iff_eq_none] at hpermits
        exact hpermits.1
      obtain ⟨msg, hm⟩ := serverOf_message hq
      refine hacted.setConnection (x := { server := q, client := p, message := m }) hm
        ⟨(fun _ h => by cases h), (fun _ h => by cases h)⟩ ?_
      intro y hy
      cases hnew.symm.trans hy
  | accept c =>
    simp only [System.effect]
    split
    · exact hacted
    · rename_i x hx
      exact hacted.replaceConnection (c := c) (x := x) hx rfl
        fun msg _ hm => ⟨hm.request, hm.reply⟩
  | sendmsg c sent =>
    simp only [System.effect]
    split
    · rename_i x tmpFd hx hsend
      split
      · refine hacted.replaceConnection (c := c) (x := x) hx rfl fun msg hm hcarries =>
          ⟨hcarries.request, ?_⟩
        intro dmabuf hget
        have hmem : Resource.fd tmpFd ∈ t.held (.handler c) :=
          Sound.held_handler hsend ▸ List.mem_cons_self
        have hworth := (h.sound p t hp).accounts.worth_of_get hmem hget
        exact (value_eq ((messageOf_eq hx).trans hm)).symm.trans hworth
      · exact hacted
    · exact hacted
  | sendUid i sent =>
    simp only [System.effect]
    split
    · rename_i x msg hx hm
      split
      · refine hacted.replaceConnection (c := i) (x := x) hx rfl fun msg' hm' hcarries =>
          ⟨?_, hcarries.reply⟩
        have hsame : msg' = msg :=
          Option.some.inj (hm'.symm.trans ((messageOf_eq hx).symm.trans hm))
        exact fun uid hu => hsame ▸ Option.some.inj hu
      · exact hacted
    · exact hacted
  | recvReply i received =>
    cases received with
    | none =>
      simp only [System.effect]
      split <;> exact hacted
    | some y => exact hacted
  | mapFailed i =>
    simp only [System.effect]
    split <;> exact hacted
  | map i k ptr size =>
    simp only [System.effect]
    split <;> exact hacted
  | _ => exact hacted

lemma step (h : Matched s) (hc : Current s e o) (hs : s.step e = some (o, u)) : Matched u := by
  rcases System.step_cases hs with ⟨pid, available, -, -, rfl⟩ | ⟨p, t, -, -, -, rfl⟩ |
    ⟨p, a, t, t', rfl, hp, ht, hpermits, -, rfl⟩
  · exact h.start pid available
  · exact h.exit p
  · exact h.step_act hp ht hpermits hc

lemma effect_messages (h : Matched s) (hm : s.messages m = some msg) :
    (s.effect p t t' a).2.messages m = some msg := by
  cases a with
  | constructBroker socket listening => cases socket <;> exact hm
  | createDescriptorWithEndpoint impl dup =>
    simp only [System.effect]
    split
    · exact hm
    · exact (Function.update_of_ne (h.published m msg hm).1.ne _ _).trans hm
  | connect i m =>
    simp only [System.effect]
    split <;> exact hm
  | accept c =>
    simp only [System.effect]
    split <;> exact hm
  | sendmsg c sent =>
    simp only [System.effect]
    split
    · split <;> exact hm
    · exact hm
  | sendUid i sent =>
    simp only [System.effect]
    split
    · split <;> exact hm
    · exact hm
  | recvReply i received =>
    cases received with
    | none =>
      simp only [System.effect]
      split <;> exact hm
    | some y => exact hm
  | mapFailed i =>
    simp only [System.effect]
    split <;> exact hm
  | map i k ptr size =>
    simp only [System.effect]
    split <;> exact hm
  | _ => exact hm

lemma step_messages (h : Matched s) (hs : s.step e = some (o, u)) (hm : s.messages m = some msg) :
    u.messages m = some msg := by
  rcases System.step_cases hs with ⟨pid, available, -, -, rfl⟩ | ⟨p, t, -, -, -, rfl⟩ |
    ⟨p, a, t, t', rfl, -, -, -, -, rfl⟩
  · exact hm
  · exact hm
  · exact h.effect_messages hm

lemma map_imported {n : ℕ} (hs : t.map i k ptr size n = some t') :
    t'.table.get (.mapping ptr) = t.table.get (.fd n) := by
  unfold Task.map at hs
  split at hs
  · exact nomatch hs
  · rename_i dmabuf hget
    split at hs
    · exact nomatch hs
    · obtain rfl := Option.some.inj hs
      rw [hget]
      exact (Table.get_acquire _).trans (if_pos rfl)

lemma effect_imported (h : Matched s) (hp : s.tasks p = some t) (hs : t.step a = some t')
    (ho : (s.effect p t t' a).1 = .imported m (some dmabuf)) :
    ∃ msg, s.messages m = some msg ∧ msg.dmabuf = some dmabuf := by
  cases a with
  | map i k ptr size =>
    simp only [System.effect] at ho
    split at ho
    · cases ho
    · rename_i x hx
      obtain ⟨rfl, hget⟩ := SystemOutput.imported.inj ho
      simp only [Task.step] at hs
      split at hs
      · rename_i n hi
        split at hs
        · cases hs
        · rw [map_imported hs] at hget
          obtain ⟨msg, hm, -⟩ := h.connected i x hx
          have hmem : Resource.fd n ∈ t.held (.importer i) :=
            Sound.held_importer hi ▸ List.mem_cons_self
          have hworth := (h.sound p t hp).accounts.worth_of_get hmem hget
          exact ⟨msg, hm, (value_eq ((messageOf_eq hx).trans hm)).symm.trans hworth⟩
      · cases hs
  | constructBroker socket listening => cases socket <;> cases ho
  | createDescriptorWithEndpoint impl dup =>
    simp only [System.effect] at ho
    split at ho <;> cases ho
  | connect i m =>
    simp only [System.effect] at ho
    split at ho <;> cases ho
  | accept c =>
    simp only [System.effect] at ho
    split at ho <;> cases ho
  | sendmsg c sent =>
    simp only [System.effect] at ho
    split at ho
    · split at ho <;> cases ho
    · cases ho
  | sendUid i sent =>
    simp only [System.effect] at ho
    split at ho
    · split at ho <;> cases ho
    · cases ho
  | recvReply i received =>
    cases received with
    | none =>
      simp only [System.effect] at ho
      split at ho <;> cases ho
    | some y => cases ho
  | mapFailed i =>
    simp only [System.effect] at ho
    split at ho <;> cases ho
  | _ => cases ho

lemma step_imported (h : Matched s) (hs : s.step e = some (.imported m (some dmabuf), u)) :
    ∃ msg, s.messages m = some msg ∧ msg.dmabuf = some dmabuf := by
  rcases System.step_cases hs with ⟨_, _, -, ho, -⟩ | ⟨_, _, -, -, ho, -⟩ |
    ⟨p, a, t, t', -, hp, ht, -, ho, -⟩
  · exact nomatch ho
  · exact nomatch ho
  · exact h.effect_imported hp ht ho.symm

end Matched

theorem imported_memory_matches {tr : List (SystemEvent × SystemOutput)}
    (hr : Run System.step {} tr s) (hc : Every System.step Current {} tr) :
    ∀ e m dmabuf, (e, .imported m (some dmabuf)) ∈ tr →
      ∃ msg, s.messages m = some msg ∧ msg.dmabuf = some dmabuf := by
  refine (hr.induction_every (P := fun tr s => Matched s ∧ ∀ e m dmabuf,
    (e, SystemOutput.imported m (some dmabuf)) ∈ tr →
      ∃ msg, s.messages m = some msg ∧ msg.dmabuf = some dmabuf) hc
    ⟨Matched.empty, fun _ _ _ h => nomatch h⟩ ?_).2
  rintro tr s e o u - ⟨h, ih⟩ hcurrent hs
  refine ⟨h.step hcurrent hs, ?_⟩
  intro e' m dmabuf hmem
  rcases List.mem_append.mp hmem with hold | hnew
  · obtain ⟨msg, hm, hd⟩ := ih e' m dmabuf hold
    exact ⟨msg, h.step_messages hs hm, hd⟩
  · obtain ⟨rfl, rfl⟩ := Prod.mk.inj (List.mem_singleton.mp hnew)
    obtain ⟨msg, hm, hd⟩ := h.step_imported hs
    exact ⟨msg, h.step_messages hs hm, hd⟩

theorem imported_memory_matches_once : ∃ tr s msg, Run System.step {} tr s ∧
    s.messages 0 = some msg ∧ msg.dmabuf = some 0 := by
  let evs := publishFrom 0 7 0 ++ [.start 8 true] ++ importFrom 0 1 0
  have hlast : (exec System.step {} evs).any (fun x =>
      (.act 1 (.map 0 0 8192 8), .imported 0 (some 0)) ∈ x.1) = true := by decide +kernel
  have hevery : EveryExec System.step Current {} evs := by decide +kernel
  obtain ⟨⟨tr, s⟩, hx, hlast⟩ := Option.any_eq_true _ _ |>.mp hlast
  obtain ⟨msg, hm, hd⟩ := imported_memory_matches (exec_run hx) (every_of_exec hx hevery) _ _ _
    (of_decide_eq_true hlast)
  exact ⟨tr, s, msg, exec_run hx, hm, hd⟩

/-- The process that made the descriptor has exited, and a new one got its pid. -/
theorem stale_descriptor_imported : ∃ tr s msg, Run System.step {} tr s ∧
    (.act 1 (.map 0 0 8192 8), .imported 0 (some 1)) ∈ tr ∧
      s.messages 0 = some msg ∧ msg.dmabuf = some 0 := by
  let evs := publishFrom 0 7 0 ++ [.start 8 true, .exit 0] ++ publishFrom 2 7 1 ++ importFrom 2 1 1
  have hlast : (exec System.step {} evs).any (fun x => (x.2.messages 0).any (fun msg =>
      (.act 1 (.map 0 0 8192 8), .imported 0 (some 1)) ∈ x.1 ∧ msg.dmabuf = some 0)) = true := by
    decide +kernel
  obtain ⟨⟨tr, s⟩, hx, hlast⟩ := Option.any_eq_true _ _ |>.mp hlast
  obtain ⟨msg, hm, hlast⟩ := Option.any_eq_true _ _ |>.mp hlast
  obtain ⟨hmem, hd⟩ := of_decide_eq_true hlast
  exact ⟨tr, s, msg, exec_run hx, hmem, hm, hd⟩

end RosidlBufferBackends.Qc.Sharing
