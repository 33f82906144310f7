import RosidlBufferBackends.Buffers.WriteOrder

/-! When a write handle is granted. -/

namespace RosidlBufferBackends.Buffers

open Streams Runs Process Inventory

variable {s s' t u : Process} {o : Operation} {out : Output} {b b' hs a : ℕ} {x y : CudaBuffer}
  {st : Stream} {tr : List (Operation × Output)}

/-- The operation does not move a buffer. -/
def Stays : Operation → Prop
  | .moveConstruct _ | .moveAssign _ _ => False
  | _ => True

/-- The buffer has not been written, no reader is open, and what was read under the
closed ones is done. -/
structure Exclusive (s : Process) (b : ℕ) (pre : List (Operation × Output)) : Prop where
  first : ∀ st hs, (Operation.getWriteHandle b st, Output.writing hs) ∉ pre
  readers : s.readReferenced b = false
  reads : ∀ buf a p wk, s.buffers b = some buf → buf.devicePtr = some a → p.stream ≠ none →
    (s.gpu.queue p.stream)[p.position]? = some (.work wk) → wk.source = some a → Done s p

/-- No reader is open when `get_write_handle` finds nothing else to object to. -/
def ReadersClosed (s : Process) (o : Operation) (_ : Output) : Prop :=
  match o with
  | .getWriteHandle b _ => ∀ buf ∈ s.buffers b, buf.handleState = none →
      (s.pending buf).readEvents = [] → s.readReferenced b = false
  | _ => True

/-- A handle state is made when it is used, and a buffer keeps it. -/
structure Advances (s s' : Process) : Prop where
  next : s.nextBuffer ≤ s'.nextBuffer
  states : ∀ hs, (s.states hs).state ≠ .unset → (s'.states hs).state ≠ .unset
  buffers : ∀ b y, s'.buffers b = some y → s.nextBuffer ≤ b ∧ y.handleState = none ∨
    (∃ x, s.buffers b = some x ∧ y.handleState = x.handleState) ∨
    ∃ hs, y.handleState = some hs ∧ (s'.states hs).state ≠ .unset

namespace Advances

lemma of_eq (hb : s'.buffers = s.buffers) (hn : s'.nextBuffer = s.nextBuffer)
    (hs : s'.states = s.states) : Advances s s' :=
  ⟨hn.ge, fun _ h => hs ▸ h, fun _ y hy => .inr (.inl ⟨y, hb ▸ hy, rfl⟩)⟩

lemma trans (h : Advances s t) (h' : Advances t u) : Advances s u := by
  refine ⟨h.next.trans h'.next, fun hs hne => h'.states hs (h.states hs hne), ?_⟩
  intro b z hz
  rcases h'.buffers b z hz with ⟨hle, hnone⟩ | ⟨y, hy, hzy⟩ | hset
  · exact .inl ⟨h.next.trans hle, hnone⟩
  · rcases h.buffers b y hy with ⟨hle, hnone⟩ | ⟨x, hx, hyx⟩ | ⟨hs, hyhs, hne⟩
    · exact .inl ⟨hle, hzy.trans hnone⟩
    · exact .inr (.inl ⟨x, hx, hzy.trans hyx⟩)
    · exact .inr (.inr ⟨hs, hzy.trans hyhs, h'.states hs hne⟩)
  · exact .inr (.inr hset)

lemma replace (hb : s.buffers b = some x)
    (hu : s'.buffers = Function.update s.buffers b (some y)) (hy : y.handleState = x.handleState)
    (hn : s'.nextBuffer = s.nextBuffer) (hs : s'.states = s.states) : Advances s s' := by
  refine ⟨hn.ge, fun _ h => hs ▸ h, ?_⟩
  intro b' z hz
  rw [hu] at hz
  by_cases hx : b' = b
  · subst hx
    rw [Function.update_self] at hz
    obtain rfl := Option.some.inj hz
    exact .inr (.inl ⟨x, hb, hy⟩)
  · rw [Function.update_of_ne hx] at hz
    exact .inr (.inl ⟨z, hz, rfl⟩)

lemma remove (hu : s'.buffers = Function.update s.buffers b none)
    (hn : s'.nextBuffer = s.nextBuffer) (hs : s'.states = s.states) : Advances s s' := by
  refine ⟨hn.ge, fun _ h => hs ▸ h, ?_⟩
  intro b' z hz
  rw [hu] at hz
  by_cases hx : b' = b
  · subst hx
    rw [Function.update_self] at hz
    exact nomatch hz
  · rw [Function.update_of_ne hx] at hz
    exact .inr (.inl ⟨z, hz, rfl⟩)

lemma added (hu : s'.buffers = Function.update s.buffers s.nextBuffer (some y))
    (hy : y.handleState = none) (hn : s'.nextBuffer = s.nextBuffer + 1)
    (hs : s'.states = s.states) : Advances s s' := by
  refine ⟨hn ▸ Nat.le_succ _, fun _ h => hs ▸ h, ?_⟩
  intro b' z hz
  rw [hu] at hz
  by_cases hx : b' = s.nextBuffer
  · subst hx
    rw [Function.update_self] at hz
    obtain rfl := Option.some.inj hz
    exact .inl ⟨le_rfl, hy⟩
  · rw [Function.update_of_ne hx] at hz
    exact .inr (.inl ⟨z, hz, rfl⟩)

lemma setState {z : HandleState} (hz : z.state ≠ .unset) : Advances s (s.setState hs z) := by
  refine ⟨le_rfl, ?_, fun _ y hy => .inr (.inl ⟨y, hy, rfl⟩)⟩
  intro hs' hne
  by_cases hx : hs' = hs
  · subst hx
    simpa [Process.setState] using hz
  · simpa [Process.setState, Function.update_of_ne hx] using hne

lemma recordWrite (s : Process) (event : Option ℕ) (st : Stream) :
    Advances s (s.recordWrite event st) := by
  obtain ⟨recorded, he, _⟩ := recordWrite_frame s event st
  rw [he]
  exact of_eq rfl rfl rfl

lemma finalizeWriteHandle (s : Process) (y : CudaBuffer) :
    Advances s (s.finalizeWriteHandle y) := by
  unfold Process.finalizeWriteHandle
  split
  · exact of_eq rfl rfl rfl
  · unfold finalizeWriteHandleLocked
    split_ifs
    · exact (recordWrite s _ _).trans (setState nofun)
    · exact of_eq rfl rfl rfl

lemma releaseWrite (s : Process) (wh : WriteHandle) : Advances s (s.releaseWrite wh) := by
  unfold Process.releaseWrite
  split
  · exact of_eq rfl rfl rfl
  · split_ifs
    · exact of_eq rfl rfl rfl
    · exact (recordWrite s _ _).trans (setState nofun)

lemma releaseRead (s : Process) (rh : ReadHandle) : Advances s (s.releaseRead rh) := by
  rcases releaseRead_cases s rh with ⟨he, _⟩ | ⟨b, x, _, hb, he⟩
  · rw [he]
    exact of_eq rfl rfl rfl
  · rw [he]
    exact replace hb rfl rfl rfl rfl

lemma reap (hb : s.buffers b = some x) : Advances s (s.reapCompletedReadEvents b x) :=
  replace hb rfl rfl rfl rfl

lemma getReadHandle (hb : s.buffers b = some x) : Advances s (s.getReadHandle b x st) := by
  obtain ⟨gpu, he, _⟩ :=
    waitForWrite_frame ((s.reapCompletedReadEvents b x).finalizeOpenWrite x) x st
  have hwaited : Advances ((s.reapCompletedReadEvents b x).finalizeOpenWrite x)
      (s.getReadHandle b x st) := by
    unfold Process.getReadHandle
    rw [he]
    exact of_eq rfl rfl rfl
  rw [finalizeOpenWrite_eq] at hwaited
  exact ((reap hb).trans (finalizeWriteHandle _ x)).trans hwaited

lemma grantWriteHandle (s : Process) (b : ℕ) (y : CudaBuffer) (st : Stream) (hs : ℕ) :
    Advances s (s.grantWriteHandle b y st hs) := by
  have hset : Advances s (s.setState hs { state := .inUse, writeStream := st }) := setState nofun
  exact hset.trans (of_eq rfl rfl rfl)

lemma grantedFirst (s : Process) (b : ℕ) (x : CudaBuffer) (st : Stream) :
    Advances s (((s.reapCompletedReadEvents b x).makeHandleState b (s.pending x)).grantWriteHandle b
      (s.pending x) st s.nextState) := by
  have hset : Advances s (s.setState s.nextState { state := .inUse, writeStream := st }) :=
    setState nofun
  refine ⟨le_rfl, hset.states, ?_⟩
  intro b' z hz
  have hz : Function.update (Function.update s.buffers b (some (s.pending x))) b
    (some { s.pending x with handleState := some s.nextState }) b' = some z := hz
  rw [Function.update_idem] at hz
  by_cases hx : b' = b
  · subst hx
    rw [Function.update_self] at hz
    obtain rfl := Option.some.inj hz
    refine .inr (.inr ⟨s.nextState, rfl, ?_⟩)
    simp [Process.grantWriteHandle, Process.setState, addWrite, setWrite]
  · rw [Function.update_of_ne hx] at hz
    exact .inr (.inl ⟨z, hz, rfl⟩)

lemma act (hstays : Stays o) (ha : s.act o = some (out, s')) : Advances s s' := by
  cases act_cases ha with
  | constructDefault => exact added rfl rfl rfl rfl
  | construct size => exact added rfl rfl rfl rfl
  | setWriteEvent hb => exact replace hb rfl rfl rfl rfl
  | moveConstruct _ => exact hstays.elim
  | moveAssign _ _ _ => exact hstays.elim
  | @destroy b x _ _ =>
    obtain ⟨queue, deleted, he⟩ := destroy_frame s b x
    rw [he]
    exact remove rfl rfl rfl
  | getReadHandle hb => exact getReadHandle hb
  | refused hb => exact reap hb
  | granted hb _ _ _ => exact (reap hb).trans (grantWriteHandle _ _ _ _ _)
  | grantedFirst _ _ _ => exact grantedFirst _ _ _ _
  | finalizeWriteHandle _ => exact finalizeWriteHandle s _
  | assignRead _ _ _ => exact (releaseRead s _).trans (of_eq rfl rfl rfl)
  | closeRead _ => exact (releaseRead s _).trans (of_eq rfl rfl rfl)
  | assignWrite _ _ _ => exact (releaseWrite s _).trans (of_eq rfl rfl rfl)
  | closeWrite _ => exact (releaseWrite s _).trans (of_eq rfl rfl rfl)
  | recycle _ _ =>
    rw [delete_frame]
    exact of_eq rfl rfl rfl
  | _ => exact of_eq rfl rfl rfl

end Advances

def Used (s : Process) : Prop := ∀ b buf hs, s.buffers b = some buf → buf.handleState = some hs →
  (s.states hs).state ≠ .unset

/-- A write handle of the buffer has been granted. -/
structure Spent (s : Process) (b : ℕ) : Prop where
  lt : b < s.nextBuffer
  state : ∀ buf, s.buffers b = some buf → buf.handleState ≠ none

lemma Used.advance (h : Used s) (ha : Advances s s') : Used s' := by
  intro b y hs hy hhs
  rcases ha.buffers b y hy with ⟨_, hnone⟩ | ⟨x, hx, hyx⟩ | ⟨hs', hhs', hne⟩
  · exact nomatch hnone.symm.trans hhs
  · exact ha.states hs (h b x hs hx (hyx.symm.trans hhs))
  · obtain rfl := Option.some.inj (hhs.symm.trans hhs')
    exact hne

/-- A buffer that moves takes its handle state with it. -/
lemma act_used (h : Used s) (ha : s.act o = some (out, s')) : Used s' := by
  by_cases hstays : Stays o
  · exact h.advance (.act hstays ha)
  · cases act_cases ha with
    | unchanged impls => exact h
    | @moveConstruct b x hb =>
      intro b' y hs hy hhs
      rcases update_some hy with ⟨_, he⟩ | ⟨_, hy⟩
      · obtain rfl := Option.some.inj he
        exact h b x hs hb hhs
      · rcases update_some hy with ⟨_, he⟩ | ⟨_, hy⟩
        · obtain rfl := Option.some.inj he
          cases hhs
        · exact h b' y hs hy hhs
    | @moveAssign b b' x x' hb hb' _ =>
      intro b₁ y hs hy hhs
      rcases update_some hy with ⟨_, he⟩ | ⟨_, hy⟩
      · obtain rfl := Option.some.inj he
        exact h b x hs hb hhs
      · rcases update_some hy with ⟨_, he⟩ | ⟨_, hy⟩
        · obtain rfl := Option.some.inj he
          exact h b' x' hs hb' hhs
        · exact h b₁ y hs hy hhs
    | _ => exact absurd trivial hstays

lemma run_used (h : Used s) (hr : Run act s tr u) : Used u :=
  hr.invariant h fun _ _ _ _ ht ha => act_used ht ha

lemma Spent.advance (h : Spent s b) (ha : Advances s s') : Spent s' b := by
  refine ⟨h.lt.trans_le ha.next, ?_⟩
  intro y hy
  rcases ha.buffers b y hy with ⟨hle, _⟩ | ⟨x, hx, hyx⟩ | ⟨hs, hhs, _⟩
  · exact absurd h.lt (not_lt.mpr hle)
  · rw [hyx]
    exact h.state x hx
  · rw [hhs]
    exact nofun

section Grants

lemma grant_cases (hused : Used s) (hb : s.buffers b = some x)
    (ha : s.act (.getWriteHandle b st) = some (.writing hs, s')) :
    x.handleState = none ∧ (s.pending x).readEvents = [] ∧ hs = s.nextState := by
  generalize ho : Operation.getWriteHandle b st = o at ha
  generalize hout : Output.writing hs = out at ha
  cases act_cases ha with
  | granted hb' hreaped hhs hunset =>
    exact absurd hunset (hused _ _ _ hb' hhs)
  | grantedFirst hb' hreaped hhs =>
    obtain ⟨rfl, -⟩ := Operation.getWriteHandle.inj ho
    obtain rfl := Option.some.inj (hb.symm.trans hb')
    exact ⟨hhs, hreaped, Output.writing.inj hout⟩
  | _ => exact nomatch hout

lemma grant_of_ready (hb : s.buffers b = some x) (hnone : x.handleState = none)
    (hreaped : (s.pending x).readEvents = []) :
    ∃ s', s.act (.getWriteHandle b st) = some (.writing s.nextState, s') := by
  have hx : (s.pending x).handleState = none := hnone
  simp [act, withBuffer, hb, getWriteHandle, refusal, hx, hnone, hreaped]

lemma spent_of_grant (hst : Stocked s) (hused : Used s)
    (ha : s.act (.getWriteHandle b st) = some (.writing hs, s')) : Spent s' b := by
  obtain ⟨x, hb, -⟩ := withBuffer_some ha
  obtain ⟨hnone, hreaped, rfl⟩ := grant_cases hused hb ha
  generalize ho : Operation.getWriteHandle b st = o at ha
  generalize hout : Output.writing s.nextState = out at ha
  cases act_cases ha with
  | granted hb' _ hhs hunset => exact absurd hunset (hused _ _ _ hb' hhs)
  | grantedFirst hb' _ _ =>
    obtain ⟨rfl, rfl⟩ := Operation.getWriteHandle.inj ho
    refine ⟨hst.placed b x hb, ?_⟩
    intro y hy
    have hy : Function.update (Function.update s.buffers b _) b _ b = some y := hy
    rw [Function.update_self] at hy
    obtain rfl := Option.some.inj hy
    exact nofun
  | _ => exact nomatch hout

lemma run_spent (hr : Run act {} tr s) (hstays : ∀ x ∈ tr, Stays x.1) : Used s ∧
    ∀ b st hs, (Operation.getWriteHandle b st, Output.writing hs) ∈ tr → Spent s b := by
  induction hr with
  | nil => exact ⟨fun _ _ _ h => absurd h nofun, fun _ _ _ h => absurd h List.not_mem_nil⟩
  | snoc hr ha ih =>
    obtain ⟨hused, hspent⟩ := ih fun x hx => hstays x (List.mem_append_left _ hx)
    have hadv := Advances.act (hstays _ (List.mem_append_right _ (List.mem_singleton_self _))) ha
    refine ⟨hused.advance hadv, ?_⟩
    intro b st hs hmem
    rcases List.mem_append.mp hmem with hmem | hmem
    · exact (hspent b st hs hmem).advance hadv
    · obtain ⟨rfl, rfl⟩ := Prod.mk.inj (List.mem_singleton.mp hmem)
      exact spent_of_grant (run_stocked hr) hused ha

end Grants

section Reads

lemma Stocked.holder_unique (h : Stocked s) (hb : s.buffers b = some x)
    (hb' : s.buffers b' = some y) (hx : x.devicePtr = some a) (hy : y.devicePtr = some a) :
    b = b' := by
  have hone : s.stock (CudaBuffer.holds a) ≤ 1 := by
    have hc := h.custody a
    split_ifs at hc <;> omega
  apply unique_of_total_le_one hone (h.placed b x hb) (h.placed b' y hb')
  · rw [hb, Option.elim_some, CudaBuffer.holds, if_pos hx]
    exact Nat.one_pos
  · rw [hb', Option.elim_some, CudaBuffer.holds, if_pos hy]
    exact Nat.one_pos

lemma Stocked.allocation_lt (h : Stocked s) (hb : s.buffers b = some x)
    (hx : x.devicePtr = some a) : a < s.nextAllocation := by
  have hc := h.custody a
  have hstock := le_total (f := s.buffers) (w := CudaBuffer.holds a) (h.placed b x hb)
  rw [hb, Option.elim_some, CudaBuffer.holds, if_pos hx] at hstock
  by_contra hlt
  rw [if_neg hlt] at hc
  unfold stock at hc
  omega

lemma Stocked.not_queued (h : Stocked s) (hb : s.buffers b = some x)
    (hx : x.devicePtr = some a) {item : PendingWork} (hitem : item ∈ s.queue) :
    item.devicePtr ≠ some a := by
  intro hptr
  have hc := h.custody a
  have hstock := le_total (f := s.buffers) (w := CudaBuffer.holds a) (h.placed b x hb)
  have hqueue := le_queued (v := PendingWork.holds a) hitem
  rw [hb, Option.elim_some, CudaBuffer.holds, if_pos hx] at hstock
  rw [PendingWork.holds, if_pos hptr] at hqueue
  unfold stock at hc
  split_ifs at hc <;> omega

lemma reads_done (hst : Stocked s) (hat : Attached s) (hg : ReadsGuarded s)
    (hb : s.buffers b = some x) (hreaped : (s.pending x).readEvents = [])
    (hf : s.readReferenced b = false) {p : Point Stream} {wk : Work} (hx : x.devicePtr = some a)
    (hne : p.stream ≠ none) (hw : (s.gpu.queue p.stream)[p.position]? = some (.work wk))
    (hs : wk.source = some a) : Done s p := by
  rcases hg p wk a hne hw hs with hd | ⟨k, rh, hk, -, b', y, hre, hb', hy⟩ |
    ⟨ev, k, hguard, hrec, hlt⟩
  · exact hd
  · obtain rfl := hst.holder_unique hb hb' hx hy
    exact absurd hre (hat.not_read hf hk)
  · rcases hguard with ⟨b', y, hb', hy, hmem⟩ | ⟨item, hitem, hptr, -⟩
    · obtain rfl := hst.holder_unique hb hb' hx hy
      obtain rfl := Option.some.inj (hb.symm.trans hb')
      have hc : s.complete ev = true := by
        simpa using (List.filter_eq_nil_iff.mp hreaped) ev hmem
      have hle : k ≤ s.gpu.finished p.stream := by
        simpa [complete, hrec, Gpu.passed] using hc
      exact hlt.trans_le hle
    · exact absurd hptr (hst.not_queued hb hx hitem)

end Reads

lemma every_steady (hr : Run act {} tr s) (hstays : ∀ x ∈ tr, Stays x.1) :
    Every act Steady {} tr := by
  rintro pre o out post t rfl _
  have ho := hstays (o, out) (List.mem_append_right _ List.mem_cons_self)
  cases o <;> trivial

/-- `get_write_handle` grants exclusive access in exactly the runs in which no reader
is open whenever it finds nothing else to object to. -/
theorem write_exclusive_iff (hr : Run act {} tr s) (hstays : ∀ x ∈ tr, Stays x.1) :
    (∀ pre b st hs post t, tr = pre ++ (.getWriteHandle b st, .writing hs) :: post →
      Run act {} pre t → Exclusive t b pre) ↔ Every act ReadersClosed {} tr := by
  constructor
  · rintro hexclusive pre o out post t rfl ht
    cases o with
    | getWriteHandle b st =>
      intro x hb hnone hreaped
      obtain ⟨t', ht', hrest⟩ := run_append_iff.mp hr
      obtain rfl := ht.unique ht'
      obtain ⟨u, ha, -⟩ := run_cons_iff.mp hrest
      obtain ⟨s', hgrant⟩ : ∃ s', Process.act t (.getWriteHandle b st) =
          some (.writing t.nextState, s') := grant_of_ready hb hnone hreaped
      obtain ⟨rfl, -⟩ := Prod.mk.inj (Option.some.inj (ha.symm.trans hgrant))
      exact (hexclusive pre b st _ post t rfl ht).readers
    | _ => trivial
  · rintro hclosed pre b st hs post t rfl ht
    obtain ⟨t', ht', hrest⟩ := run_append_iff.mp hr
    obtain rfl := ht.unique ht'
    obtain ⟨u, ha, -⟩ := run_cons_iff.mp hrest
    have hpre : ∀ x ∈ pre, Stays x.1 := fun x hx => hstays x (List.mem_append_left _ hx)
    obtain ⟨hused, hspent⟩ := run_spent ht hpre
    obtain ⟨hst, hat, hg⟩ := run_readsGuarded ht (every_steady ht hpre)
    obtain ⟨x, hb, -⟩ := withBuffer_some ha
    obtain ⟨hnone, hreaped, -⟩ := grant_cases hused hb ha
    have hf := hclosed pre _ _ post t rfl ht x hb hnone hreaped
    refine ⟨?_, hf, ?_⟩
    · intro st' hs' hmem
      exact (hspent b st' hs' hmem).state x hb hnone
    · intro y a p wk hb' hy hne hw hsrc
      obtain rfl := Option.some.inj (hb.symm.trans hb')
      exact reads_done hst hat hg hb hreaped hf hy hne hw hsrc

instance (o : Operation) : Decidable (Stays o) :=
  match o with
  | .moveConstruct _ | .moveAssign _ _ => .isFalse id
  | .constructDefault | .construct _ | .setWriteEvent _ _ | .destroy _ | .getReadHandle _ _
  | .getWriteHandle _ _ | .finalizeWriteHandle _ | .launch _ _ _ | .synchronize _ | .moveRead _
  | .assignRead _ _ | .closeRead _ | .moveWrite _ | .assignWrite _ _ | .closeWrite _
  | .makeImpl _ _ | .setStream _ _ | .setSize _ _ | .finish _ | .recycle => .isTrue trivial

instance (s : Process) (o : Operation) (out : Output) : Decidable (ReadersClosed s o out) :=
  match o with
  | .getWriteHandle b _ => inferInstanceAs (Decidable (∀ buf ∈ s.buffers b,
      buf.handleState = none → (s.pending buf).readEvents = [] → s.readReferenced b = false))
  | .constructDefault | .construct _ | .setWriteEvent _ _ | .moveConstruct _ | .moveAssign _ _
  | .destroy _ | .getReadHandle _ _ | .finalizeWriteHandle _ | .launch _ _ _ | .synchronize _
  | .moveRead _ | .assignRead _ _ | .closeRead _ | .moveWrite _ | .assignWrite _ _
  | .closeWrite _ | .makeImpl _ _ | .setStream _ _ | .setSize _ _ | .finish _ | .recycle =>
      .isTrue trivial

theorem write_exclusive_once : ∃ pre s t, Run act {} pre t ∧
    Run act {} (pre ++ [(.getWriteHandle 0 (some 2), .writing 0)]) s ∧ Exclusive t 0 pre := by
  let ops : List Operation := [.construct 16, .getReadHandle 0 (some 1),
    .launch (some 1) (some 0) none, .closeRead 0, .finish (some 1), .getWriteHandle 0 (some 2)]
  have hlast : (exec act {} ops).any (fun x =>
      decide (x.1.getLast? = some (.getWriteHandle 0 (some 2), .writing 0) ∧
        ∀ y ∈ x.1, Stays y.1)) = true := by decide +kernel
  have hclosed : EveryExec act ReadersClosed {} ops := by decide +kernel
  obtain ⟨⟨tr, s⟩, hx, hlast⟩ := Option.any_eq_true _ _ |>.mp hlast
  obtain ⟨hlast, hstays⟩ := of_decide_eq_true hlast
  obtain ⟨pre, rfl⟩ := List.getLast?_eq_some_iff.mp hlast
  have hr := exec_run hx
  obtain ⟨t, ht, -⟩ := run_append_iff.mp hr
  exact ⟨pre, s, t, ht, hr,
    (write_exclusive_iff hr hstays).mpr (every_of_exec hx hclosed) pre 0 _ 0 [] t rfl ht⟩

/-- A write handle is granted while a reader is open and its read is pending. -/
theorem write_granted_beside_reader : ∃ pre s t, Run act {} pre t ∧ (∀ x ∈ pre, Stays x.1) ∧
    Run act t [(.getWriteHandle 0 (some 2), .writing 0)] s ∧ t.readReferenced 0 = true ∧
    ¬ Exclusive t 0 pre := by
  let ops : List Operation := [.construct 16, .getReadHandle 0 (some 1),
    .launch (some 1) (some 0) none]
  have hlast : (exec act {} ops).any (fun x => decide (∀ y ∈ x.1, Stays y.1) &&
      x.2.readReferenced 0 && (exec act x.2 [.getWriteHandle 0 (some 2)]).any (fun y =>
        decide (y.1 = [(.getWriteHandle 0 (some 2), .writing 0)]))) = true := by decide +kernel
  obtain ⟨⟨pre, t⟩, hx, hlast⟩ := Option.any_eq_true _ _ |>.mp hlast
  simp only [Bool.and_eq_true, decide_eq_true_eq] at hlast
  obtain ⟨⟨hstays, hread⟩, hlast⟩ := hlast
  obtain ⟨⟨tr, s⟩, hy, hlast⟩ := Option.any_eq_true _ _ |>.mp hlast
  obtain rfl := of_decide_eq_true hlast
  refine ⟨pre, s, t, exec_run hx, hstays, exec_run hy, hread, ?_⟩
  intro hexclusive
  exact absurd (hread.symm.trans hexclusive.readers) nofun

end RosidlBufferBackends.Buffers
