import RosidlBufferBackends.Buffers.Calls
import RosidlBufferBackends.Lib.Inventory

/-! Every allocation is held by one buffer, waits in the recycler or has been
deleted once, and no event or handle state belongs to two buffers. -/

namespace RosidlBufferBackends.Buffers

open Streams Runs Process Inventory

variable {s s' : Process} {o : Operation} {out : Output} {b b' : ℕ} {buf buf' x y : CudaBuffer}

def CudaBuffer.holds (a : ℕ) (buf : CudaBuffer) : ℕ := if buf.devicePtr = some a then 1 else 0

def CudaBuffer.tokens (ev : ℕ) (buf : CudaBuffer) : ℕ :=
  (buf.writeEvent.toList ++ buf.readEvents).count ev

def CudaBuffer.owns (hs : ℕ) (buf : CudaBuffer) : ℕ := if buf.handleState = some hs then 1 else 0

def PendingWork.holds (a : ℕ) (item : PendingWork) : ℕ := if item.devicePtr = some a then 1 else 0

def PendingWork.tokens (ev : ℕ) (item : PendingWork) : ℕ := item.events.count ev

namespace Process

def stock (s : Process) (w : CudaBuffer → ℕ) : ℕ := total s.nextBuffer s.buffers w

def queued (s : Process) (v : PendingWork → ℕ) : ℕ := (s.queue.map v).sum

end Process

structure Stocked (s : Process) : Prop where
  placed : ∀ b buf, s.buffers b = some buf → b < s.nextBuffer
  recycled : ∀ b buf, s.buffers b = some buf → buf.devicePtr.isSome → buf.recycler = true
  custody : ∀ a, s.stock (CudaBuffer.holds a) + s.queued (PendingWork.holds a) + s.deleted a =
    if a < s.nextAllocation then 1 else 0
  events : ∀ ev, s.stock (CudaBuffer.tokens ev) + s.queued (PendingWork.tokens ev) ≤
    if ev < s.nextEvent then 1 else 0
  states : ∀ hs, s.stock (CudaBuffer.owns hs) ≤ if hs < s.nextState then 1 else 0

section Stock

variable {w : CudaBuffer → ℕ}

lemma stock_setBuffer (hlt : b < s.nextBuffer) (hb : s.buffers b = some x)
    (z : Option CudaBuffer) : (s.setBuffer b z).stock w + w x = s.stock w + z.elim 0 w := by
  have hu := total_update (f := s.buffers) (w := w) hlt z
  rw [hb] at hu
  exact hu

lemma stock_addBuffer (s : Process) (w : CudaBuffer → ℕ) (buf : CudaBuffer) :
    (s.addBuffer buf).stock w = s.stock w + w buf :=
  total_insert s.nextBuffer s.buffers w buf

lemma stock_swap (hlt : b < s.nextBuffer) (hlt' : b' < s.nextBuffer) (hne : b ≠ b')
    (hb : s.buffers b = some x) (hb' : s.buffers b' = some y) :
    (s.swap b b' x y).stock w = s.stock w := by
  have hx := stock_setBuffer (w := w) hlt hb (some y)
  have hkeep : (s.setBuffer b (some y)).buffers b' = some y := by
    simpa [setBuffer, Function.update_of_ne hne.symm] using hb'
  have hy := stock_setBuffer (s := s.setBuffer b (some y)) (w := w) hlt' hkeep (some x)
  simp only [Option.elim_some] at hx hy
  unfold swap
  omega

lemma stock_moveConstruct (hlt : b < s.nextBuffer) (hb : s.buffers b = some x) (hw : w {} = 0) :
    (s.moveConstruct b x).stock w = s.stock w := by
  have hx := stock_setBuffer (w := w) hlt hb (some {})
  have hadd := stock_addBuffer (s.setBuffer b (some {})) w x
  simp only [Option.elim_some, hw] at hx
  unfold moveConstruct
  omega

lemma le_queued {v : PendingWork → ℕ} {item : PendingWork} (h : item ∈ s.queue) :
    v item ≤ s.queued v := by
  obtain ⟨pre, post, hq⟩ := List.append_of_mem h
  rw [queued, hq, List.map_append, List.sum_append, List.map_cons, List.sum_cons]
  omega

end Stock

namespace Stocked

lemma frame (h : Stocked s) {gpu : Gpu Stream Work} {recorded : ℕ → Option (Point Stream)}
    {impls : ℕ → Option CudaBufferImpl} {states : ℕ → HandleState}
    {readHandles : ℕ → Option ReadHandle} {nextRead : ℕ}
    {writeHandles : ℕ → Option WriteHandle} {nextWrite : ℕ} :
    Stocked { s with
      gpu := gpu, recorded := recorded, impls := impls, states := states,
      readHandles := readHandles, nextRead := nextRead, writeHandles := writeHandles,
      nextWrite := nextWrite } :=
  ⟨h.placed, h.recycled, h.custody, h.events, h.states⟩

lemma placed_update (h : Stocked s) (hb : s.buffers b = some x) {z : Option CudaBuffer} :
    ∀ b₀ buf₀, Function.update s.buffers b z b₀ = some buf₀ → b₀ < s.nextBuffer := by
  intro b₀ buf₀ h₀
  by_cases hx : b₀ = b
  · exact hx ▸ h.placed b x hb
  · rw [Function.update_of_ne hx] at h₀
    exact h.placed b₀ buf₀ h₀

lemma recycled_update (h : Stocked s) {z : Option CudaBuffer}
    (hz : ∀ buf, z = some buf → buf.devicePtr.isSome → buf.recycler = true) :
    ∀ b₀ buf₀, Function.update s.buffers b z b₀ = some buf₀ → buf₀.devicePtr.isSome →
      buf₀.recycler = true := by
  intro b₀ buf₀ h₀
  by_cases hx : b₀ = b
  · subst hx
    exact hz buf₀ (by simpa using h₀)
  · rw [Function.update_of_ne hx] at h₀
    exact h.recycled b₀ buf₀ h₀

/-- A buffer changes in place. Its events and handle state are those it had, or new. -/
lemma replace (h : Stocked s) (hb : s.buffers b = some x) {ne ns : ℕ}
    (hptr : y.devicePtr = x.devicePtr) (hr : y.recycler = x.recycler)
    (hle : s.nextEvent ≤ ne) (hls : s.nextState ≤ ns)
    (hev : ∀ ev, y.tokens ev ≤ x.tokens ev + if s.nextEvent ≤ ev ∧ ev < ne then 1 else 0)
    (hst : ∀ hs, y.owns hs ≤ x.owns hs + if s.nextState ≤ hs ∧ hs < ns then 1 else 0) :
    Stocked { s.setBuffer b (some y) with nextEvent := ne, nextState := ns } := by
  have hstock : ∀ w, (s.setBuffer b (some y)).stock w + w x = s.stock w + w y :=
    fun w => stock_setBuffer (h.placed b x hb) hb (some y)
  constructor
  · exact h.placed_update hb
  · apply h.recycled_update
    rintro _ ⟨rfl⟩
    rw [hptr, hr]
    exact h.recycled b x hb
  · intro a
    have hc := h.custody a
    have hw := hstock (CudaBuffer.holds a)
    have heq : y.holds a = x.holds a := by simp only [CudaBuffer.holds, hptr]
    rw [heq, Nat.add_right_cancel_iff] at hw
    rw [← hw] at hc
    exact hc
  · intro ev
    have hc := h.events ev
    have hw := hstock (CudaBuffer.tokens ev)
    have ht := hev ev
    change (s.setBuffer b (some y)).stock _ + s.queued _ ≤ if ev < ne then 1 else 0
    split_ifs at hc ht ⊢ <;> omega
  · intro hs
    have hc := h.states hs
    have hw := hstock (CudaBuffer.owns hs)
    have ht := hst hs
    change (s.setBuffer b (some y)).stock _ ≤ if hs < ns then 1 else 0
    split_ifs at hc ht ⊢ <;> omega

/-- A new buffer, which may hold a new allocation. -/
lemma added (h : Stocked s) {na : ℕ} (hr : x.devicePtr.isSome → x.recycler = true)
    (hle : s.nextAllocation ≤ na)
    (hx : ∀ a, x.holds a = if s.nextAllocation ≤ a ∧ a < na then 1 else 0)
    (hev : ∀ ev, x.tokens ev = 0) (hst : ∀ hs, x.owns hs = 0) :
    Stocked { s.addBuffer x with nextAllocation := na } := by
  have hstock := fun w => stock_addBuffer s w x
  constructor
  · intro b₀ buf₀ h₀
    by_cases hb : b₀ = s.nextBuffer
    · exact hb ▸ Nat.lt_succ_self _
    · exact Nat.lt_succ_of_lt (h.placed b₀ buf₀ ((Function.update_of_ne hb _ _).symm.trans h₀))
  · apply h.recycled_update
    rintro _ ⟨rfl⟩
    exact hr
  · intro a
    have hc := h.custody a
    have hw := hstock (CudaBuffer.holds a)
    rw [hx] at hw
    change (s.addBuffer x).stock _ + s.queued _ + s.deleted a = if a < na then 1 else 0
    split_ifs at hc hw ⊢ <;> omega
  · intro ev
    have hw := hstock (CudaBuffer.tokens ev)
    rw [hev, Nat.add_zero] at hw
    exact (congrArg (· + _) hw).trans_le (h.events ev)
  · intro hs
    have hw := hstock (CudaBuffer.owns hs)
    rw [hst, Nat.add_zero] at hw
    exact hw.trans_le (h.states hs)

lemma construct (h : Stocked s) (size : ℕ) : Stocked (s.construct size) := by
  apply h.added (fun _ => rfl) (Nat.le_succ _)
  · intro a
    simp only [CudaBuffer.holds, Option.some.injEq]
    congr 1
    simp only [eq_iff_iff]
    omega
  · intro ev
    rfl
  · intro hs
    rfl

lemma constructDefault (h : Stocked s) : Stocked (s.addBuffer {}) := by
  have hadd : Stocked { s.addBuffer {} with nextAllocation := s.nextAllocation } := by
    refine h.added nofun le_rfl ?_ (fun _ => rfl) (fun _ => rfl)
    intro a
    rw [if_neg (by omega)]
    rfl
  exact hadd

lemma rearranged (h : Stocked s) {f : ℕ → Option CudaBuffer} {n : ℕ}
    (hp : ∀ b buf, f b = some buf → b < n)
    (hr : ∀ b buf, f b = some buf → buf.devicePtr.isSome → buf.recycler = true)
    (hst : ∀ w : CudaBuffer → ℕ, w {} = 0 → total n f w = s.stock w) :
    Stocked { s with buffers := f, nextBuffer := n } := by
  constructor
  · exact hp
  · exact hr
  · intro a
    have hc := h.custody a
    rw [← hst (CudaBuffer.holds a) rfl] at hc
    exact hc
  · intro ev
    have hc := h.events ev
    rw [← hst (CudaBuffer.tokens ev) rfl] at hc
    exact hc
  · intro hs
    have hc := h.states hs
    rw [← hst (CudaBuffer.owns hs) rfl] at hc
    exact hc

lemma swap (h : Stocked s) (hne : b ≠ b') (hb : s.buffers b = some x)
    (hb' : s.buffers b' = some y) : Stocked (s.swap b b' x y) := by
  have hlt := h.placed b x hb
  have hlt' := h.placed b' y hb'
  have hcases : ∀ b₀ buf₀, (s.swap b b' x y).buffers b₀ = some buf₀ →
      b₀ < s.nextBuffer ∧ (buf₀.devicePtr.isSome → buf₀.recycler = true) := by
    intro b₀ buf₀ h₀
    by_cases hx' : b₀ = b'
    · subst hx'
      obtain rfl : x = buf₀ := by simpa [Process.swap, setBuffer] using h₀
      exact ⟨hlt', h.recycled b x hb⟩
    · by_cases hx : b₀ = b
      · subst hx
        obtain rfl : y = buf₀ := by
          simpa [Process.swap, setBuffer, Function.update_of_ne hx'] using h₀
        exact ⟨hlt, h.recycled b' y hb'⟩
      · have h₁ : s.buffers b₀ = some buf₀ := by
          simpa [Process.swap, setBuffer, Function.update_of_ne hx',
            Function.update_of_ne hx] using h₀
        exact ⟨h.placed b₀ buf₀ h₁, h.recycled b₀ buf₀ h₁⟩
  apply h.rearranged
  · exact fun b₀ buf₀ h₀ => (hcases b₀ buf₀ h₀).1
  · exact fun b₀ buf₀ h₀ => (hcases b₀ buf₀ h₀).2
  · exact fun w _ => stock_swap hlt hlt' hne hb hb'

lemma moveConstruct (h : Stocked s) (hb : s.buffers b = some x) :
    Stocked (s.moveConstruct b x) := by
  have hlt := h.placed b x hb
  have hcases : ∀ b₀ buf₀, (s.moveConstruct b x).buffers b₀ = some buf₀ →
      b₀ < s.nextBuffer + 1 ∧ (buf₀.devicePtr.isSome → buf₀.recycler = true) := by
    intro b₀ buf₀ h₀
    by_cases hn : b₀ = s.nextBuffer
    · obtain rfl : x = buf₀ := by
        subst hn
        simpa [Process.moveConstruct, setBuffer, Process.addBuffer] using h₀
      exact ⟨hn ▸ Nat.lt_succ_self _, h.recycled b x hb⟩
    · have h₁ := (Function.update_of_ne hn _ _).symm.trans h₀
      by_cases hx : b₀ = b
      · subst hx
        obtain rfl : {} = buf₀ := by simpa [setBuffer] using h₁
        exact ⟨Nat.lt_succ_of_lt hlt, (fun h => by cases h)⟩
      · have h₂ := (Function.update_of_ne hx _ _).symm.trans h₁
        exact ⟨Nat.lt_succ_of_lt (h.placed b₀ buf₀ h₂), h.recycled b₀ buf₀ h₂⟩
  apply h.rearranged
  · exact fun b₀ buf₀ h₀ => (hcases b₀ buf₀ h₀).1
  · exact fun b₀ buf₀ h₀ => (hcases b₀ buf₀ h₀).2
  · exact fun w hw => stock_moveConstruct hlt hb hw

lemma count_eventsToSync (ev : ℕ) (buf : CudaBuffer) :
    (eventsToSync buf).count ev ≤ buf.tokens ev := by
  unfold eventsToSync CudaBuffer.tokens
  split_ifs
  · exact le_rfl
  · rw [List.nil_append, List.count_append]
    exact Nat.le_add_left _ _

lemma delete_deleted (s : Process) (ptr : Option ℕ) (a : ℕ) :
    (s.delete ptr).deleted a = s.deleted a + if ptr = some a then 1 else 0 := by
  cases ptr with
  | none => rfl
  | some p =>
    by_cases hp : a = p
    · subst hp
      simp [delete]
    · simp [delete, Function.update_of_ne hp, Ne.symm hp]

lemma destroy (h : Stocked s) (hb : s.buffers b = some x) : Stocked (s.destroy b x) := by
  have hstock : ∀ w, (s.setBuffer b none).stock w + w x = s.stock w :=
    fun w => stock_setBuffer (h.placed b x hb) hb none
  have hholds := fun a => hstock (CudaBuffer.holds a)
  have htokens := fun ev => hstock (CudaBuffer.tokens ev)
  have howns := fun hs => hstock (CudaBuffer.owns hs)
  have hp := h.placed_update hb (z := none)
  have hr := h.recycled_update (b := b) (z := none) nofun
  have hst : ∀ hs, (s.setBuffer b none).stock (CudaBuffer.owns hs) ≤
      if hs < s.nextState then 1 else 0 := by
    intro hs
    have hc := h.states hs
    have hw := howns hs
    omega
  unfold Process.destroy
  split_ifs
  · refine ⟨hp, hr, ?_, ?_, hst⟩
    · intro a
      have hc := h.custody a
      have hw := hholds a
      change (s.setBuffer b none).stock _ + ((s.queue ++ [_]).map _).sum + s.deleted a =
        if a < s.nextAllocation then 1 else 0
      rw [List.map_append, List.sum_append]
      change (s.setBuffer b none).stock _ + (s.queued _ + (x.holds a + 0)) + s.deleted a =
        if a < s.nextAllocation then 1 else 0
      omega
    · intro ev
      have hc := h.events ev
      have hw := htokens ev
      have hle := count_eventsToSync ev x
      change (s.setBuffer b none).stock _ + ((s.queue ++ [_]).map _).sum ≤
        if ev < s.nextEvent then 1 else 0
      rw [List.map_append, List.sum_append]
      change (s.setBuffer b none).stock _ + (s.queued _ + ((eventsToSync x).count ev + 0)) ≤
        if ev < s.nextEvent then 1 else 0
      omega
  · rw [delete_frame]
    refine ⟨hp, hr, ?_, ?_, hst⟩
    · intro a
      have hc := h.custody a
      have hw := hholds a
      rw [delete_deleted]
      change (s.setBuffer b none).stock _ + s.queued _ + (s.deleted a + x.holds a) =
        if a < s.nextAllocation then 1 else 0
      omega
    · intro ev
      have hc := h.events ev
      have hw := htokens ev
      change (s.setBuffer b none).stock _ + s.queued _ ≤ if ev < s.nextEvent then 1 else 0
      omega

lemma recycle (h : Stocked s) {item : PendingWork} {rest : List PendingWork}
    (hq : s.queue = item :: rest) : Stocked ({ s with queue := rest }.delete item.devicePtr) := by
  have hqueued : ∀ v, s.queued v = v item + (rest.map v).sum := by
    intro v
    rw [queued, hq, List.map_cons, List.sum_cons]
  rw [delete_frame]
  refine ⟨h.placed, h.recycled, ?_, ?_, h.states⟩
  · intro a
    have hc := h.custody a
    rw [hqueued] at hc
    rw [delete_deleted]
    change s.stock _ + (rest.map _).sum + (s.deleted a + item.holds a) =
      if a < s.nextAllocation then 1 else 0
    omega
  · intro ev
    have hc := h.events ev
    rw [hqueued] at hc
    change s.stock _ + (rest.map _).sum ≤ if ev < s.nextEvent then 1 else 0
    omega

lemma record (h : Stocked s) (ev : ℕ) (st : Stream) : Stocked (s.record ev st) := h.frame

lemma recordWrite (h : Stocked s) (event : Option ℕ) (st : Stream) :
    Stocked (s.recordWrite event st) := by
  unfold Process.recordWrite
  split
  · exact h
  · split_ifs
    · exact h.record _ st
    · exact h

lemma setState (h : Stocked s) (hs : ℕ) (z : HandleState) : Stocked (s.setState hs z) := h.frame

lemma finalizeWriteHandleLocked (h : Stocked s) (buf : CudaBuffer) (hs : ℕ) :
    Stocked (s.finalizeWriteHandleLocked buf hs) := by
  unfold Process.finalizeWriteHandleLocked
  split_ifs
  · exact (h.recordWrite _ _).setState _ _
  · exact h

lemma finalizeWriteHandle (h : Stocked s) (buf : CudaBuffer) :
    Stocked (s.finalizeWriteHandle buf) := by
  unfold Process.finalizeWriteHandle
  split
  · exact h
  · exact h.finalizeWriteHandleLocked buf _

lemma finalizeOpenWrite (h : Stocked s) (buf : CudaBuffer) :
    Stocked (s.finalizeOpenWrite buf) := by
  unfold Process.finalizeOpenWrite
  split
  · exact h
  · split_ifs
    · exact h.finalizeWriteHandleLocked buf _
    · exact h

lemma waitForWrite (h : Stocked s) (buf : CudaBuffer) (st : Stream) :
    Stocked (s.waitForWrite buf st) := by
  unfold Process.waitForWrite
  split
  · exact h
  · split_ifs
    · unfold streamWaitEvent
      split
      · exact h
      · exact h.frame
    · exact h

lemma reapCompletedReadEvents (h : Stocked s) (hb : s.buffers b = some x) :
    Stocked (s.reapCompletedReadEvents b x) := by
  have hr : Stocked { s.setBuffer b (some (s.pending x)) with
      nextEvent := s.nextEvent, nextState := s.nextState } := by
    refine h.replace hb rfl rfl le_rfl le_rfl ?_ ?_
    · intro ev
      have hle : (s.pending x).tokens ev ≤ x.tokens ev := by
        apply List.Sublist.count_le
        exact (List.Sublist.refl _).append List.filter_sublist
      exact hle.trans (Nat.le_add_right _ _)
    · exact fun hs => Nat.le_add_right _ _
  exact hr

lemma setWriteEvent (h : Stocked s) (hb : s.buffers b = some x) (owns : Bool) :
    Stocked (s.setWriteEvent b x owns) := by
  have hr : Stocked { s.setBuffer b
      (some { x with writeEvent := some s.nextEvent, ownsWriteEvent := owns }) with
      nextEvent := s.nextEvent + 1, nextState := s.nextState } := by
    refine h.replace hb rfl rfl (Nat.le_succ _) le_rfl ?_ ?_
    · intro ev
      simp only [CudaBuffer.tokens, Option.toList_some, List.count_append, List.count_singleton,
        beq_iff_eq]
      split_ifs <;> omega
    · exact fun hs => Nat.le_add_right _ _
  exact hr

lemma makeHandleState (h : Stocked s) (hb : s.buffers b = some x) (hnone : x.handleState = none) :
    Stocked (s.makeHandleState b x) := by
  have hr : Stocked { s.setBuffer b (some { x with handleState := some s.nextState }) with
      nextEvent := s.nextEvent, nextState := s.nextState + 1 } := by
    refine h.replace hb rfl rfl le_rfl (Nat.le_succ _) ?_ ?_
    · exact fun ev => Nat.le_add_right _ _
    · intro hs
      simp only [CudaBuffer.owns, hnone, Option.some.injEq]
      split_ifs <;> omega
  exact hr

lemma grantWriteHandle (h : Stocked s) (buf : CudaBuffer) (st : Stream) (hs : ℕ) :
    Stocked (s.grantWriteHandle b buf st hs) := h.frame

lemma releaseRead (h : Stocked s) (rh : ReadHandle) : Stocked (s.releaseRead rh) := by
  unfold Process.releaseRead
  split
  · exact h
  · rename_i b _
    split_ifs
    · split
      · exact h
      · rename_i x hb
        have hrec := h.record s.nextEvent rh.stream
        have hr : Stocked { (s.record s.nextEvent rh.stream).setBuffer b
            (some { x with readEvents := x.readEvents ++ [s.nextEvent] }) with
            nextEvent := s.nextEvent + 1, nextState := s.nextState } := by
          refine hrec.replace hb rfl rfl (Nat.le_succ _) le_rfl ?_ ?_
          · intro ev
            change List.count ev (_ ++ (_ ++ [s.nextEvent])) ≤ List.count ev (_ ++ _) +
              if s.nextEvent ≤ ev ∧ ev < s.nextEvent + 1 then 1 else 0
            simp only [List.count_append, List.count_singleton, beq_iff_eq]
            split_ifs <;> omega
          · exact fun hs => Nat.le_add_right _ _
        exact hr
    · exact h

lemma setRead (h : Stocked s) (k : ℕ) (z : Option ReadHandle) : Stocked (s.setRead k z) := h.frame

lemma releaseWrite (h : Stocked s) (wh : WriteHandle) : Stocked (s.releaseWrite wh) := by
  unfold Process.releaseWrite
  split
  · exact h
  · split
    · exact h
    · exact (h.recordWrite _ _).setState _ _

lemma setWrite (h : Stocked s) (k : ℕ) (z : Option WriteHandle) : Stocked (s.setWrite k z) :=
  h.frame

end Stocked

lemma reaped_buffer (s : Process) (b : ℕ) (x : CudaBuffer) :
    (s.reapCompletedReadEvents b x).buffers b = some (s.pending x) := by
  simp [reapCompletedReadEvents, setBuffer]

lemma act_stocked (h : Stocked s) (ha : s.act o = some (out, s')) : Stocked s' := by
  cases act_cases ha with
  | unchanged impls => exact h.frame
  | constructDefault => exact h.constructDefault
  | construct size => exact h.construct size
  | setWriteEvent hb => exact h.setWriteEvent hb _
  | moveConstruct hb => exact h.moveConstruct hb
  | moveAssign hb hb' hne => exact h.swap hne hb hb'
  | destroy hb _ => exact h.destroy hb
  | @getReadHandle b x st hb =>
    have hr := ((h.reapCompletedReadEvents hb).finalizeOpenWrite x).waitForWrite x st
    exact hr.frame
  | refused hb => exact h.reapCompletedReadEvents hb
  | granted hb _ _ _ => exact (h.reapCompletedReadEvents hb).grantWriteHandle _ _ _
  | grantedFirst hb _ hnone =>
    have hm := (h.reapCompletedReadEvents hb).makeHandleState (reaped_buffer s _ _) hnone
    exact hm.grantWriteHandle _ _ _
  | finalizeWriteHandle hb => exact h.finalizeWriteHandle _
  | launch _ _ => exact h.frame
  | moveRead _ => exact h.frame
  | assignRead _ _ _ => exact ((h.releaseRead _).setRead _ _).setRead _ _
  | closeRead _ => exact (h.releaseRead _).setRead _ _
  | moveWrite _ => exact h.frame
  | assignWrite _ _ _ => exact ((h.releaseWrite _).setWrite _ _).setWrite _ _
  | closeWrite _ => exact (h.releaseWrite _).setWrite _ _
  | finish _ => exact h.frame
  | recycle hq _ => exact h.recycle hq

lemma stocked_initial : Stocked {} := by
  constructor <;> simp [stock, queued]

lemma run_stocked {tr : List (Operation × Output)} (hr : Run act {} tr s) : Stocked s :=
  hr.invariant stocked_initial fun _ _ _ _ h ha => act_stocked h ha

end RosidlBufferBackends.Buffers
