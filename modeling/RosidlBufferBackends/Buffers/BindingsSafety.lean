import RosidlBufferBackends.Buffers.Acquisitions
import RosidlBufferBackends.Buffers.References

/-! Whatever a Python program does, its calls keep the tables of the interpreter and the buffers and
handles of the process together. -/

namespace RosidlBufferBackends.Buffers.Bindings

open Streams Runs Process Inventory

variable {v v' : Ownership} {i i' : Interpreter} {loose loose' : Option ℕ} {o b h size x : ℕ}
  {obj : PyBuffer} {w : HandleWrapper} {k : Kind} {st : Stream} {f : Faults}

structure Coherent (v : Ownership) (i : Interpreter) (loose : Option ℕ) : Prop where
  stored : Stored v i.storageOf
  wrapped : Wrapped v i.storageOf i.wrappers
  tallied : Tallied i loose

/-- The process is where the ownership `v` says, and what the running call has still to do makes the
tables right. -/
structure Sound (v : Ownership) (i : Interpreter) (loose : Option ℕ) : Prop where
  abstracts : Abstracts i.process v
  bounded : v.Bounded
  permitted : v.Permitted i.remaining
  coherent : Coherent (v.afterAll i.remaining) i loose

def Careful (s : Process) (o : Operation) (out : Output) : Prop :=
  Steady s o out ∧ WriterSettled s o out

/-- A step has performed careful operations, and left the interpreter sound. -/
structure Served (i : Interpreter) (r : Report) (i' : Interpreter) : Prop where
  run : Run act i.process r.operations i'.process
  careful : Every act Careful i.process r.operations
  sound : ∃ v, Sound v i' none

namespace Coherent

lemma same (hc : Coherent v i loose) (ho : i'.objects = i.objects)
    (hno : i'.nextObject = i.nextObject) (hw : i'.wrappers = i.wrappers)
    (hnw : i'.nextWrapper = i.nextWrapper) : Coherent v i' loose := by
  have hs : i'.storageOf = i.storageOf := by
    funext c
    rw [Interpreter.storageOf, Interpreter.storageOf, ho]
  exact ⟨hs ▸ hc.stored, hs ▸ hw ▸ hc.wrapped, hc.tallied.same ho hno hw hnw⟩

lemma enqueue (hc : Coherent v i loose) (ops : List Operation) : Coherent v (i.enqueue ops) loose :=
  hc.same rfl rfl rfl rfl

lemma alike (hc : Coherent v i loose) (ha : Alike v v') : Coherent v' i loose :=
  ⟨hc.stored.same ha.buffers ha.impls, hc.wrapped.same ha.handles fun _ _ _ _ _ _ hb => hb,
    hc.tallied⟩

lemma unused (hc : Coherent v i loose) : i.storageOf i.nextObject = none := by
  rw [Interpreter.storageOf, Option.map_eq_none_iff, Option.eq_none_iff_forall_not_mem]
  exact fun obj ho => lt_irrefl _ (hc.tallied.objects _ obj ho)

/-- An object comes that does not take the place of another. -/
lemma wrapped_add (hc : Coherent v i loose) (hv : v'.handles = v.handles) (s : Storage) :
    Wrapped v' (Function.update i.storageOf i.nextObject (some s)) i.wrappers := by
  refine hc.wrapped.same hv fun _ _ o b _ _ hb => ?_
  have hne : o ≠ i.nextObject := by
    rintro rfl
    rw [hc.unused] at hb
    cases hb
  rw [Function.update_of_ne hne, hb]

lemma addObject (hc : Coherent v i none) (hm : Made v v' b size) (hb : v.buffers b = none)
    (hr : obj.refs = 1) (hh : obj.held = 0) (hs : obj.storage = .cuda b) :
    Coherent v' (i.addObject obj) (some i.nextObject) := by
  refine ⟨?_, ?_, hc.tallied.addObject hr hh⟩
  · rw [storageOf_addObject, hs]
    exact hc.stored.add hb hc.unused hm.buffers hm.impls
  · rw [storageOf_addObject]
    exact hc.wrapped_add hm.handles _

lemma addHost (hc : Coherent v i none) (hr : obj.refs = 1) (hh : obj.held = 0)
    (hs : obj.storage = .host size) : Coherent v (i.addObject obj) (some i.nextObject) := by
  refine ⟨?_, ?_, hc.tallied.addObject hr hh⟩
  · refine hc.stored.host fun o b => ?_
    rw [storageOf_addObject]
    by_cases ho : o = i.nextObject
    · subst ho
      rw [Function.update_self, hs, hc.unused]
      simp
    · rw [Function.update_of_ne ho]
  · rw [storageOf_addObject]
    exact hc.wrapped_add rfl _

lemma setObject (hc : Coherent v i loose) {obj' : PyBuffer} (ho : i.objects o = some obj)
    (hs : obj'.storage = obj.storage) (ht : Tallied (i.setObject o (some obj')) loose') :
    Coherent v (i.setObject o (some obj')) loose' := by
  refine ⟨?_, ?_, ht⟩
  · rw [storageOf_setObject ho hs]
    exact hc.stored
  · rw [storageOf_setObject ho hs]
    exact hc.wrapped

lemma borrow (hc : Coherent v i none) (ho : i.objects o = some obj) :
    Coherent v (i.setObject o (some { obj with refs := obj.refs + 1 })) (some o) :=
  hc.setObject ho rfl (hc.tallied.borrow ho)

lemma keep (hc : Coherent v i (some o)) (ho : i.objects o = some obj) :
    Coherent v (i.setObject o (some { obj with held := obj.held + 1 })) none :=
  hc.setObject ho rfl (hc.tallied.keep ho)

lemma release (hc : Coherent v i none) (ho : i.objects o = some obj) (hheld : 0 < obj.held) :
    Coherent v (i.setObject o (some { obj with held := obj.held - 1 })) (some o) :=
  hc.setObject ho rfl (hc.tallied.release ho hheld)

lemma setObject_idem (i : Interpreter) (o : ℕ) (y z : Option PyBuffer) :
    (i.setObject o y).setObject o z = i.setObject o z := by
  simp only [Interpreter.setObject, Function.update_idem]

/-- The program has one more reference. -/
lemma newRef (hc : Coherent v i none) (ho : i.objects o = some obj) :
    Coherent v (i.setObject o (some { obj with refs := obj.refs + 1, held := obj.held + 1 }))
      none := by
  have hkept := (hc.borrow ho).keep (Function.update_self ..)
  rwa [setObject_idem] at hkept

/-- A new object of the program. -/
lemma newObject {y : PyBuffer}
    (hc : Coherent v (i.addObject { y with held := 0 }) (some i.nextObject)) :
    Coherent v (i.addObject { y with held := 1 }) none :=
  (hc.keep (Function.update_self ..)).same (Function.update_idem ..).symm rfl rfl rfl

lemma attach (hc : Coherent v i (some o)) (ho : i.objects o = some obj) (hs : obj.storage = .cuda b)
    (hd : Handed v v' w.kind h b w.stream) (hb : v.buffers b = some true)
    (hnew : v.handles w.kind h = none) (hh : w.handle = some h) (how : w.owner = some o)
    (hr : 0 < w.refs) : Coherent v' (i.addWrapper w) none := by
  have hx : i.wrappers i.nextWrapper = none :=
    Option.eq_none_iff_forall_not_mem.mpr fun u hu => lt_irrefl _ (hc.tallied.wrappers _ u hu)
  have hf : i.storageOf o = some (.cuda b) := by rw [storageOf_some ho, hs]
  have hhandles := hd.handles
  rw [hb] at hhandles
  exact ⟨hc.stored.same hd.buffers hd.impls, hc.wrapped.attach hx hh hnew how hf hhandles,
    hc.tallied.attach how (Option.isSome_of_eq_some ho) hr⟩

/-- A wrapper is closed, or goes altogether. -/
lemma detach (hc : Coherent v i none) (hx : i.wrappers x = some w) {z : Option HandleWrapper}
    (hz : ∀ u, z = some u → u.handle = none ∧ u.owner = none ∧ 0 < u.refs) :
    v.Permitted w.closing ∧ Coherent (v.afterAll w.closing) (i.setWrapper x z) w.owner := by
  have ht := hc.tallied.detach hx fun u hu => (hz u hu).2
  have hempty : ∀ u, z = some u → u.handle = none ∧ u.owner = none :=
    fun u hu => ⟨(hz u hu).1, (hz u hu).2.1⟩
  cases hh : w.handle with
  | none =>
    rw [HandleWrapper.closing, hh]
    exact ⟨trivial, hc.stored, hc.wrapped.detach_closed hx hh hempty, ht⟩
  | some h =>
    obtain ⟨p, c, -, -, hpoint⟩ := hc.wrapped.points x w h hx hh
    rw [HandleWrapper.closing, hh]
    change (v.Permits _ ∧ True) ∧ Coherent (v.after (w.kind.close h)) _ _
    rw [Ownership.permits_close, Ownership.after_close, hpoint]
    have hw : Wrapped (v.close w.kind h) i.storageOf (Function.update i.wrappers x z) :=
      hc.wrapped.detach hx hh (close_handles v w.kind h) hempty
    exact ⟨⟨rfl, trivial⟩, hc.stored.same rfl rfl, hw, ht⟩

lemma decref (hc : Coherent v i (some o)) (ho : i.objects o = some obj) :
    ∃ ops, (i.decref o obj).remaining = i.remaining ++ ops ∧ (i.decref o obj).process = i.process ∧
      v.Permitted ops ∧ Coherent (v.afterAll ops) (i.decref o obj) none := by
  unfold Interpreter.decref
  split_ifs with hlast
  · have ht := hc.tallied.remove ho hlast
    have hnone := hc.tallied.no_owner ho hlast
    have hkeep : ∀ y u p c, i.wrappers y = some u → u.owner = some p →
        i.storageOf p = some (.cuda c) → Function.update i.storageOf o none p = some (.cuda c) := by
      intro y u p c hy hp hc'
      have hne : p ≠ o := by
        rintro rfl
        exact hnone y u hy hp
      rw [Function.update_of_ne hne, hc']
    refine ⟨obj.storage.destructor, rfl, rfl, ?_⟩
    cases hs : obj.storage with
    | host n =>
      refine ⟨trivial, (?_ : Coherent v (i.setObject o none) none).same rfl rfl rfl rfl⟩
      refine ⟨hc.stored.host fun p c => ?_, ?_, ht⟩
      · rw [storageOf_remove]
        by_cases hp : p = o
        · subst hp
          rw [Function.update_self, storageOf_some ho, hs]
          simp
        · rw [Function.update_of_ne hp]
      · rw [storageOf_remove]
        exact hc.wrapped.same rfl hkeep
    | cuda c =>
      have hf : i.storageOf o = some (.cuda c) := by rw [storageOf_some ho, hs]
      obtain ⟨n, -, hbuf⟩ := hc.stored.backed o c hf
      refine ⟨⟨⟨Option.isSome_of_eq_some hbuf, hc.wrapped.free hc.stored hf hnone⟩, trivial⟩,
        (?_ : Coherent (v.take c) (i.setObject o none) none).same rfl rfl rfl rfl⟩
      refine ⟨?_, ?_, ht⟩
      · rw [storageOf_remove]
        exact hc.stored.remove hf
      · rw [storageOf_remove]
        exact hc.wrapped.same rfl hkeep
  · exact ⟨[], (List.append_nil _).symm, rfl, trivial,
      hc.setObject ho rfl (hc.tallied.decrease ho (Nat.lt_of_not_le hlast))⟩

end Coherent

namespace Sound

/-- What a call adds to the operations of the call. -/
lemma enqueue (hs : Sound v i none) {ops : List Operation} {j : Interpreter}
    (hproc : j.process = i.process) (hrem : j.remaining = ops) (hp : v.Permitted ops)
    (hc : Coherent (v.afterAll ops) j none) : Sound v j none :=
  ⟨hproc ▸ hs.abstracts, hs.bounded, hrem ▸ hp, hrem ▸ hc⟩

lemma idle (hs : Sound v i loose) (hrem : i.remaining = []) : Coherent v i loose := by
  have hc := hs.coherent
  rwa [hrem] at hc

end Sound

lemma Served.quietly {r : Report} (hr : r.operations = []) (hproc : i'.process = i.process)
    (hs : ∃ v, Sound v i' none) : Served i r i' := by
  refine ⟨?_, ?_, hs⟩
  · rw [hr, hproc]
    exact .nil
  · rw [hr]
    exact every_nil

lemma enqueue_remaining (hrem : i.remaining = []) (ops : List Operation) :
    (i.enqueue ops).remaining = ops := by
  change i.remaining ++ ops = ops
  rw [hrem, List.nil_append]

section Calls

lemma served_enqueue (hs : Sound v i none) (hrem : i.remaining = []) {ops : List Operation}
    {r : Report} (hr : r.operations = []) (hp : v.Permitted ops) (ha : Alike v (v.afterAll ops)) :
    Served i r (i.enqueue ops) := by
  refine .quietly hr rfl ⟨v, hs.enqueue rfl (enqueue_remaining hrem ops) hp ?_⟩
  exact ((hs.idle hrem).alike ha).enqueue ops

lemma raise_served (hs : Sound v i none) (e : Error) : Served i (i.raise e).1 (i.raise e).2 :=
  .quietly rfl rfl ⟨v, hs⟩

lemma allocatePythonBuffer_served (hs : Sound v i none) (hrem : i.remaining = []) (size : ℕ)
    (f : Faults) :
    Served i (i.allocatePythonBuffer size f).1 (i.allocatePythonBuffer size f).2 := by
  have hnone := hs.bounded.buffers v.nextBuffer le_rfl
  rw [Interpreter.allocatePythonBuffer, ← hs.abstracts.nextBuffer]
  split_ifs with hfail
  · obtain ⟨hperm, halike⟩ := allocation_failed hs.bounded hfail.1 hfail.2
    exact served_enqueue hs hrem rfl hperm halike
  · have hpool : size ≠ 0 → f.pool = false := fun hsize => by simpa [hsize] using hfail
    obtain ⟨hperm, hmade, -, -⟩ := allocation_made hs.bounded hpool
    refine .quietly rfl rfl ⟨v, hs.enqueue rfl (enqueue_remaining hrem _) hperm ?_⟩
    exact Coherent.newObject (y := ⟨1, 1, .cuda v.nextBuffer⟩) <|
      ((hs.idle hrem).enqueue _).addObject hmade hnone rfl rfl rfl

/-- A new buffer and a new handle of it go into a new object and a new wrapper. -/
lemma promoted_served (hs : Sound v i none) (hrem : i.remaining = []) {u : Ownership} {r : Report}
    {ops : List Operation} (hu : u.Bounded) (hmade : Made v u v.nextBuffer size) (hsize : size ≠ 0)
    (hperm : v.Permitted ops) (hafter : v.afterAll ops = u.acquire w.kind v.nextBuffer w.stream)
    (hh : w.handle = some (u.nextHandle w.kind + 2)) (ho : w.owner = some i.nextObject)
    (hrefs : 0 < w.refs) (hr : r.operations = []) :
    Served i r (((i.enqueue (ops ++ wrap w.kind (u.nextHandle w.kind))).addObject
      { refs := 1, held := 0, storage := .cuda v.nextBuffer }).addWrapper w) := by
  have hstored : u.buffers v.nextBuffer = some true := by
    rw [hmade.buffer, decide_eq_true (Nat.pos_of_ne_zero hsize)]
  obtain ⟨hwrap, hhanded⟩ := wrap_handed hu w.kind v.nextBuffer w.stream
  have hobject : Coherent u ((i.enqueue (ops ++ wrap w.kind (u.nextHandle w.kind))).addObject
      { refs := 1, held := 0, storage := .cuda v.nextBuffer }) (some i.nextObject) :=
    ((hs.idle hrem).enqueue _).addObject hmade (hs.bounded.buffers _ le_rfl) rfl rfl rfl
  refine .quietly hr rfl ⟨v, hs.enqueue rfl (enqueue_remaining hrem _) ?_ ?_⟩
  · rw [Ownership.permitted_append, hafter]
    exact ⟨hperm, hwrap⟩
  · rw [Ownership.afterAll_append, hafter]
    exact hobject.attach (Function.update_self ..) rfl hhanded hstored
      (hu.handles _ _ (Nat.le_add_right _ 2)) hh ho hrefs

/-- The new buffer goes again, and so does what there was of a handle. -/
lemma undone_served (hs : Sound v i none) (hrem : i.remaining = []) {u t : Ownership} {r : Report}
    {ops rest : List Operation} (hmade : Made v u v.nextBuffer size) (hperm : v.Permitted ops)
    (hafter : v.afterAll ops = t) (hrest : t.Permitted rest)
    (ha : Alike (u.take v.nextBuffer) (t.afterAll rest)) (hr : r.operations = []) :
    Served i r (i.enqueue (ops ++ rest)) := by
  have hback := hmade.taken (hs.bounded.buffers _ le_rfl) (hs.bounded.impls _ le_rfl)
  refine served_enqueue hs hrem hr ?_ ?_
  · rw [Ownership.permitted_append, hafter]
    exact ⟨hperm, hrest⟩
  · rw [Ownership.afterAll_append, hafter]
    exact hback.trans ha

lemma promoteOutput_served (hs : Sound v i none) (hrem : i.remaining = []) (size : ℕ) (st : Stream)
    (f : Faults) : Served i (i.promoteOutput size st f).1 (i.promoteOutput size st f).2 := by
  have hfree := hs.bounded.free (b := v.nextBuffer) le_rfl
  rw [Interpreter.promoteOutput, ← hs.abstracts.nextBuffer, ← hs.abstracts.nextWrite]
  split_ifs with hsize hpool hattributes
  · have hpool : size ≠ 0 → f.pool = false := fun hne => absurd hsize hne
    obtain ⟨hperm, hmade, -, -⟩ := allocation_made hs.bounded hpool
    exact undone_served hs hrem hmade hperm rfl
      ⟨⟨Option.isSome_of_eq_some hmade.buffer, hmade.free hfree⟩, trivial⟩ ⟨rfl, rfl, rfl⟩ rfl
  · obtain ⟨hperm, halike⟩ := allocation_failed hs.bounded hsize hpool
    exact served_enqueue hs hrem rfl hperm halike
  · obtain ⟨u, hu, hmade, hnext, hperm, hafter⟩ := writing_made hs.bounded
      (fun _ => Bool.eq_false_of_not_eq_true hpool) st
    obtain ⟨hrest, halike⟩ := unwrap_destroyed hu (Option.isSome_of_eq_some hmade.buffer)
      (hmade.free hfree) .write st
    rw [hnext] at hrest halike
    exact undone_served hs hrem hmade hperm hafter hrest halike rfl
  · obtain ⟨u, hu, hmade, hnext, hperm, hafter⟩ := writing_made hs.bounded
      (fun _ => Bool.eq_false_of_not_eq_true hpool) st
    rw [← hnext]
    exact promoted_served (w := ⟨.write, 1, some _, some i.nextObject, true, size, st⟩) hs hrem hu
      hmade hsize hperm hafter rfl rfl Nat.one_pos rfl

lemma promoteInput_served (hs : Sound v i none) (hrem : i.remaining = []) (size : ℕ) (st : Stream)
    (f : Faults) : Served i (i.promoteInput size st f).1 (i.promoteInput size st f).2 := by
  have hfree := hs.bounded.free (b := v.nextBuffer) le_rfl
  rw [Interpreter.promoteInput, ← hs.abstracts.nextBuffer, ← hs.abstracts.nextWrite,
    ← hs.abstracts.nextRead]
  split_ifs with hsize hpool hcopy hsync hattributes
  · exact raise_served hs _
  · obtain ⟨hperm, halike⟩ := allocation_failed hs.bounded hsize hpool
    exact served_enqueue hs hrem rfl hperm halike
  · obtain ⟨u, hu, hmade, hnext, hperm, hafter⟩ := writing_made hs.bounded
      (fun _ => Bool.eq_false_of_not_eq_true hpool) st
    obtain ⟨hrest, halike⟩ := released_destroyed hu (Option.isSome_of_eq_some hmade.buffer)
      (hmade.free hfree) .write st
    rw [hnext] at hrest halike
    exact undone_served hs hrem hmade hperm hafter hrest halike rfl
  all_goals
    obtain ⟨u, hu, hmade, hnext, hperm, hafter⟩ := reading_made hs.bounded hsize
      (Bool.eq_false_of_not_eq_true hpool) st
  · obtain ⟨hrest, halike⟩ := released_destroyed hu (Option.isSome_of_eq_some hmade.buffer)
      (hmade.free hfree) .read st
    rw [hnext] at hrest halike
    exact undone_served hs hrem hmade hperm hafter hrest halike rfl
  · obtain ⟨hrest, halike⟩ := unwrap_destroyed hu (Option.isSome_of_eq_some hmade.buffer)
      (hmade.free hfree) .read st
    rw [hnext] at hrest halike
    refine undone_served hs hrem hmade ?_ ?_ hrest halike rfl
    · exact (Ownership.permitted_append _ _).mpr ⟨hperm, trivial, trivial⟩
    · rw [Ownership.afterAll_append, hafter]
      rfl
  · rw [← hnext]
    refine promoted_served (w := ⟨.read, 1, some _, some i.nextObject, true, 0, st⟩) hs hrem hu
      hmade hsize ?_ ?_ rfl rfl Nat.one_pos rfl
    · exact (Ownership.permitted_append _ _).mpr ⟨hperm, trivial, trivial⟩
    · rw [Ownership.afterAll_append, hafter]
      rfl

lemma stored_of_object (hs : Sound v i none) (hrem : i.remaining = []) (ho : i.objects o = some obj)
    (hb : obj.storage = .cuda b) :
    (v.impls b).isSome ∧ v.buffers b = some (decide (0 < i.implSize b)) := by
  have hf : i.storageOf o = some (.cuda b) := by rw [storageOf_some ho, hb]
  obtain ⟨n, himpl, hbuf⟩ := (hs.idle hrem).stored.backed o b hf
  have hn : i.implSize b = n := by rw [Interpreter.implSize, ← hs.abstracts.impls, himpl]; rfl
  exact ⟨Option.isSome_of_eq_some himpl, hn ▸ hbuf⟩

/-- A handle of an object's buffer goes into a new wrapper, which holds the object. -/
lemma acquired_coherent (hs : Sound v i none) (hrem : i.remaining = [])
    (ho : i.objects o = some obj)
    (hb : obj.storage = .cuda b) (hsize : i.implSize b ≠ 0)
    (hh : w.handle = some (v.nextHandle w.kind + 2)) (how : w.owner = some o) (hrefs : 0 < w.refs) :
    (v.acquire w.kind b w.stream).Permitted (wrap w.kind (v.nextHandle w.kind)) ∧
      Coherent ((v.acquire w.kind b w.stream).afterAll (wrap w.kind (v.nextHandle w.kind)))
        ((i.setObject o (some { obj with refs := obj.refs + 1 })).addWrapper w) none := by
  have hstored : v.buffers b = some true := by
    rw [(stored_of_object hs hrem ho hb).2, decide_eq_true (Nat.pos_of_ne_zero hsize)]
  obtain ⟨hwrap, hhanded⟩ := wrap_handed hs.bounded w.kind b w.stream
  refine ⟨hwrap, ((hs.idle hrem).borrow ho).attach (Function.update_self ..) hb hhanded hstored
    (hs.bounded.handles _ _ (Nat.le_add_right _ 2)) hh how hrefs⟩

lemma acquireInput_served (hs : Sound v i none) (hrem : i.remaining = [])
    (ho : i.objects o = some obj)
    (hb : obj.storage = .cuda b) (st : Stream) (f : Faults) :
    Served i (i.acquireInput o obj b (i.implSize b) st f).1
      (i.acquireInput o obj b (i.implSize b) st f).2 := by
  have hsome := Option.isSome_of_eq_some (stored_of_object hs hrem ho hb).2
  rw [Interpreter.acquireInput, ← hs.abstracts.nextRead]
  split_ifs with hsize hattributes
  · exact raise_served hs _
  · obtain ⟨hperm, halike⟩ := unwrap_alike hs.bounded .read b st
    exact served_enqueue hs hrem rfl ⟨hsome, hperm⟩ halike
  · obtain ⟨hperm, hc⟩ := acquired_coherent
      (w := ⟨.read, 1, some (v.nextHandle .read + 2), some o, false, 0, st⟩) hs hrem ho hb hsize rfl
        rfl Nat.one_pos
    refine .quietly rfl rfl ⟨v, hs.enqueue rfl (enqueue_remaining hrem _) ⟨hsome, hperm⟩ ?_⟩
    exact hc.same rfl rfl rfl rfl

lemma getWriteHandle_output {s s' : Process} {out : Output}
    (h : s.act (.getWriteHandle b st) = some (out, s')) :
    (∃ e, out = .threw e) ∨ ∃ hs, out = .writing hs := by
  obtain ⟨y, -, h⟩ := withBuffer_some h
  split at h
  · exact .inl ⟨_, (Prod.mk.inj (Option.some.inj h)).1.symm⟩
  · exact .inr ⟨_, (Prod.mk.inj (Option.some.inj h)).1.symm⟩

lemma acquireOutput_served (hs : Sound v i none) (hrem : i.remaining = [])
    (ho : i.objects o = some obj) (hb : obj.storage = .cuda b) {r : Report}
    (h : i.acquireOutput o obj b (i.implSize b) st f = some (r, i')) : Served i r i' := by
  obtain ⟨himpl, hbuf⟩ := stored_of_object hs hrem ho hb
  simp only [Interpreter.acquireOutput] at h
  by_cases hsize : i.implSize b = 0
  · rw [if_pos hsize] at h
    obtain ⟨rfl, rfl⟩ := Prod.mk.inj (Option.some.inj h)
    exact raise_served hs _
  · rw [if_neg hsize] at h
    split at h
    · cases h
    · rename_i out s hset
      obtain ⟨st', hst', -⟩ | ⟨out', s', hset', ha⟩ :=
        hs.abstracts.act_permitted (o := .setStream b st) himpl
      · cases hst'
      obtain ⟨rfl, rfl⟩ := Prod.mk.inj (Option.some.inj (hset.symm.trans hset'))
      have hserve : ∀ {got t}, s.act (.getWriteHandle b st) = some (got, t) →
          Run act i.process [(.setStream b st, out), (.getWriteHandle b st, got)] t ∧
          Every act Careful i.process [(.setStream b st, out), (.getWriteHandle b st, got)] := by
        intro got t hget
        exact ⟨(Run.single hset).snoc hget, every_cons hset ⟨trivial, trivial⟩
          (every_cons hget ⟨trivial, trivial⟩ every_nil)⟩
      split at h
      · cases h
      · rename_i e t hget
        obtain ⟨rfl, rfl⟩ := Prod.mk.inj (Option.some.inj h)
        refine ⟨(hserve hget).1, (hserve hget).2, _, ha.refuseWrite hget,
          hs.bounded.less_fresh _, ?_, ?_⟩
        · rw [hrem]
          trivial
        · rw [hrem]
          have halike : Alike v { v with fresh := v.fresh \ {b} } := ⟨rfl, rfl, rfl⟩
          exact ((hs.idle hrem).alike halike).same rfl rfl rfl rfl
      · rename_i got t hthrew hget
        obtain ⟨e, rfl⟩ | ⟨n, rfl⟩ := getWriteHandle_output hget
        · exact absurd rfl (hthrew e)
        have ha' := ha.acquireWrite hget
        have hv' := hs.bounded.acquire .write (Option.isSome_of_eq_some hbuf) st
        rw [← hs.abstracts.nextWrite] at h
        split_ifs at h with hattributes
        · obtain ⟨rfl, rfl⟩ := Prod.mk.inj (Option.some.inj h)
          obtain ⟨hperm, halike⟩ := unwrap_alike hs.bounded .write b st
          have hremaining := enqueue_remaining (i := { i with process := t }) hrem
            (unwrap .write (v.nextHandle .write) [])
          refine ⟨(hserve hget).1, (hserve hget).2, _, ha', hv', ?_, ?_⟩
          · rw [hremaining]
            exact hperm
          · rw [hremaining]
            exact ((hs.idle hrem).alike halike).same rfl rfl rfl rfl
        · obtain ⟨rfl, rfl⟩ := Prod.mk.inj (Option.some.inj h)
          obtain ⟨hperm, hc⟩ := acquired_coherent
            (w := ⟨.write, 1, some (v.nextHandle .write + 2), some o, false, i.implSize b, st⟩) hs
              hrem
              ho hb hsize rfl rfl Nat.one_pos
          have hremaining := enqueue_remaining (i := { i with process := t }) hrem
            (wrap .write (v.nextHandle .write))
          refine ⟨(hserve hget).1, (hserve hget).2, v.acquire .write b st, ha', hv', ?_, ?_⟩
          · change Ownership.Permitted _ (Interpreter.enqueue _ _).remaining
            rw [hremaining]
            exact hperm
          · change Coherent (Ownership.afterAll _ (Interpreter.enqueue _ _).remaining) _ _
            rw [hremaining]
            exact hc.same rfl rfl rfl rfl

lemma decref_wrappers (i : Interpreter) (o : ℕ) (obj : PyBuffer) :
    (i.decref o obj).wrappers = i.wrappers := by
  unfold Interpreter.decref
  split_ifs <;> rfl

lemma closeWrapper_sound (hs : Sound v i none) (hrem : i.remaining = [])
    (hx : i.wrappers x = some w) :
    (i.closeWrapper x w).process = i.process ∧ Sound v (i.closeWrapper x w) none ∧
      (i.closeWrapper x w).wrappers x = some { w with handle := none, owner := none } := by
  have hrefs := (hs.idle hrem).tallied.referenced x w hx
  obtain ⟨hperm, hc⟩ := (hs.idle hrem).detach
    (z := some { w with handle := none, owner := none }) hx
    fun u hu => by obtain rfl := Option.some.inj hu; exact ⟨rfl, rfl, hrefs⟩
  unfold Interpreter.closeWrapper
  cases how : w.owner with
  | none =>
    rw [how] at hc
    refine ⟨rfl, hs.enqueue rfl (enqueue_remaining hrem _) hperm ?_, Function.update_self ..⟩
    exact hc.same rfl rfl rfl rfl
  | some o =>
    rw [how] at hc
    obtain ⟨obj, ho⟩ := Option.isSome_iff_exists.mp ((hs.idle hrem).tallied.owner x w o hx how)
    have hc' : Coherent (v.afterAll w.closing) ((i.enqueue w.closing).setWrapper x
        (some { w with handle := none, owner := none })) (some o) := hc.same rfl rfl rfl rfl
    obtain ⟨ops, hops, hproc, hperm', hlast⟩ := hc'.decref ho
    have hremaining := enqueue_remaining hrem w.closing
    dsimp only
    rw [show ((i.enqueue w.closing).setWrapper x
      (some { w with handle := none, owner := none })).objects
      o = some obj from ho]
    refine ⟨hproc, hs.enqueue hproc (hops.trans (congrArg (· ++ ops) hremaining)) ?_ ?_, ?_⟩
    · exact (Ownership.permitted_append _ _).mpr ⟨hperm, hperm'⟩
    · rw [Ownership.afterAll_append]
      exact hlast
    · exact (congrFun (decref_wrappers _ o obj) x).trans (Function.update_self ..)

lemma decref_setObject (i : Interpreter) (o : ℕ) (z : Option PyBuffer) (obj : PyBuffer) :
    (i.setObject o z).decref o obj = i.decref o obj := by
  simp only [Interpreter.decref, Coherent.setObject_idem]

lemma dropRef_served (hs : Sound v i none) (hrem : i.remaining = []) (ho : i.objects o = some obj)
    (hheld : 0 < obj.held) {r : Report} (hr : r.operations = []) :
    Served i r (i.decref o { obj with held := obj.held - 1 }) := by
  obtain ⟨ops, hops, hproc, hperm, hc⟩ :=
    ((hs.idle hrem).release ho hheld).decref (Function.update_self ..)
  rw [decref_setObject] at hops hproc hc
  refine .quietly hr hproc ⟨v, hs.enqueue hproc ?_ hperm hc⟩
  rw [hops]
  change i.remaining ++ ops = ops
  rw [hrem, List.nil_append]

lemma dropWrapperRef_served (hs : Sound v i none) (hrem : i.remaining = [])
    (hx : i.wrappers x = some w) {r : Report} (hr : r.operations = []) :
    Served i r (if w.refs ≤ 1 then (i.closeWrapper x w).setWrapper x none
      else i.setWrapper x (some { w with refs := w.refs - 1 })) := by
  split_ifs with hlast
  · obtain ⟨hproc, hclosed, hx'⟩ := closeWrapper_sound hs hrem hx
    obtain ⟨-, hc⟩ := hclosed.coherent.detach (z := none) hx' fun _ hu => by cases hu
    exact .quietly hr hproc ⟨v, hclosed.abstracts, hclosed.bounded, hclosed.permitted, hc⟩
  · have hc := hs.coherent
    refine .quietly hr rfl ⟨v, hs.abstracts, hs.bounded, hs.permitted, hc.stored,
      hc.wrapped.replace hx rfl rfl rfl rfl, hc.tallied.setWrapper hx rfl ?_⟩
    exact Nat.sub_pos_of_lt (Nat.lt_of_not_le hlast)

lemma newWrapperRef_served (hs : Sound v i none) (hx : i.wrappers x = some w) {r : Report}
    (hr : r.operations = []) :
    Served i r (i.setWrapper x (some { w with refs := w.refs + 1 })) := by
  have hc := hs.coherent
  exact .quietly hr rfl ⟨v, hs.abstracts, hs.bounded, hs.permitted, hc.stored,
    hc.wrapped.replace hx rfl rfl rfl rfl, hc.tallied.setWrapper hx rfl w.refs.succ_pos⟩

lemma newRef_served (hs : Sound v i none) (ho : i.objects o = some obj) {r : Report}
    (hr : r.operations = []) :
    Served i r (i.setObject o (some { obj with refs := obj.refs + 1, held := obj.held + 1 })) :=
  .quietly hr rfl ⟨v, hs.abstracts, hs.bounded, hs.permitted, hs.coherent.newRef ho⟩

lemma getPromotedBuffer_served (hs : Sound v i none) (w : HandleWrapper) :
    Served i (i.getPromotedBuffer w).1 (i.getPromotedBuffer w).2 := by
  unfold Interpreter.getPromotedBuffer
  split_ifs
  · exact raise_served hs _
  · cases w.owner with
    | none => exact .quietly rfl rfl ⟨v, hs⟩
    | some o =>
      cases ho : i.objects o with
      | none => simp only [ho]; exact .quietly rfl rfl ⟨v, hs⟩
      | some obj => simp only [ho]; exact newRef_served hs ho rfl
  · exact .quietly rfl rfl ⟨v, hs⟩

lemma hostBuffer_served (hs : Sound v i none) (size : ℕ) {r : Report} (hr : r.operations = []) :
    Served i r (i.addObject { refs := 1, held := 1, storage := .host size }) :=
  .quietly hr rfl ⟨v, hs.abstracts, hs.bounded, hs.permitted,
    Coherent.newObject (y := ⟨1, 1, .host size⟩) (hs.coherent.addHost rfl rfl rfl)⟩

lemma launchKernel_served (hs : Sound v i none) {p q : Option ℕ} {r : Report}
    (h : i.launchKernel st p q = some (r, i')) : Served i r i' := by
  unfold Interpreter.launchKernel at h
  dsimp only at h
  split at h
  · cases h
  · rename_i out s hact
    obtain ⟨rfl, rfl⟩ := Prod.mk.inj (Option.some.inj h)
    exact ⟨.single hact, every_cons hact ⟨trivial, trivial⟩ every_nil, v,
      hs.abstracts.launch hact, hs.bounded, hs.permitted, hs.coherent.same rfl rfl rfl rfl⟩

lemma openHandle_points (hs : Sound v i none) (hrem : i.remaining = [])
    (h : i.openHandle k st x = some b) : v.Points k st b := by
  unfold Interpreter.openHandle at h
  split at h
  · cases h
  · rename_i u hx
    split_ifs at h with hu
    obtain ⟨o, c, -, -, hpoint⟩ := (hs.idle hrem).wrapped.points x u b hx h
    rw [hu.1] at hpoint
    exact ⟨_, hpoint, hu.2, rfl⟩

lemma copied_served (hs : Sound v i none) (hrem : i.remaining = []) {p : Option ℕ} {q : ℕ}
    {rest : List Operation} {r : Report} (hp : ∀ h, p = some h → v.Points .read st h)
    (hq : v.Points .write st q) (hrest : rest = [] ∨ rest = [.synchronize st])
    (hr : r.operations = []) :
    Served i r (i.enqueue (.launch st p (some q) :: rest)) := by
  have hlaunch : v.Permits (.launch st p (some q)) := by
    refine ⟨hp, ?_⟩
    rintro _ ⟨⟩
    exact hq
  obtain rfl | rfl := hrest
  · exact served_enqueue hs hrem hr ⟨hlaunch, trivial⟩ ⟨rfl, rfl, rfl⟩
  · exact served_enqueue hs hrem hr ⟨hlaunch, trivial, trivial⟩ ⟨rfl, rfl, rfl⟩

lemma copyFrom_served (hs : Sound v i none) (hrem : i.remaining = []) (hx : i.wrappers x = some w)
    (hw : w.kind = .write) {source : Source} {byteCount : ℤ} {stream : Option Stream} {r : Report}
    (h : i.copyFrom w source byteCount stream f = some (r, i')) : Served i r i' := by
  have hraise : ∀ e, some (i.raise e) = some (r, i') → Served i r i' := by
    intro e he
    obtain ⟨rfl, rfl⟩ := Prod.mk.inj (Option.some.inj he)
    exact raise_served hs e
  have hquiet : some (Report.returned .none [], i) = some (r, i') → Served i r i' := by
    intro he
    obtain ⟨rfl, rfl⟩ := Prod.mk.inj (Option.some.inj he)
    exact .quietly rfl rfl ⟨v, hs⟩
  unfold Interpreter.copyFrom at h
  cases hh : w.handle with
  | none =>
    rw [hh] at h
    exact hraise _ h
  | some q =>
    rw [hh] at h
    have hq : v.Points .write w.stream q := by
      obtain ⟨o, c, -, -, hpoint⟩ := (hs.idle hrem).wrapped.points x w q hx hh
      rw [hw] at hpoint
      exact ⟨_, hpoint, rfl, rfl⟩
    have hcopied : ∀ {p rest u}, (∀ h, p = some h → v.Points .read w.stream h) →
        (rest = [] ∨ rest = [.synchronize w.stream]) → u.operations = [] →
        some (u, i.enqueue (.launch w.stream p (some q) :: rest)) = some (r, i') →
          Served i r i' := by
      intro p rest u hp hrest hu he
      obtain ⟨rfl, rfl⟩ := Prod.mk.inj (Option.some.inj he)
      exact copied_served hs hrem hp hq hrest hu
    have hnone : ∀ h : ℕ, none = some h → v.Points .read w.stream h := by
      rintro h ⟨⟩
    dsimp only at h
    split at h
    · exact hraise _ h
    split at h
    · exact hraise _ h
    split at h
    · exact hraise _ h
    cases source with
    | bytes length =>
      dsimp only at h
      split at h
      · exact hraise _ h
      split at h
      · exact hquiet h
      split at h
      · exact hraise _ h
      split at h
      · exact hcopied (u := .raised .cudaCheck []) hnone (.inl rfl) rfl h
      · exact hcopied hnone (.inr rfl) rfl h
    | null =>
      dsimp only at h
      split at h
      · exact hraise _ h
      · exact hquiet h
    | foreign =>
      dsimp only at h
      split at h
      · exact hquiet h
      split at h
      · exact hraise _ h
      · exact hcopied hnone (.inl rfl) rfl h
    | reader y =>
      dsimp only at h
      split at h
      · exact hquiet h
      split at h
      · exact hraise _ h
      · exact hcopied (fun _ hc => openHandle_points hs hrem hc) (.inl rfl) rfl h
    | unsupported => exact hraise _ h

lemma withObject_some {g : PyBuffer → Option (Report × Interpreter)} {r : Report}
    (h : i.withObject o g = some (r, i')) :
    ∃ obj, i.objects o = some obj ∧ 0 < obj.held ∧ g obj = some (r, i') := by
  unfold Interpreter.withObject at h
  split at h
  · cases h
  · split_ifs at h with hheld
    exact ⟨_, ‹_›, hheld, h⟩

lemma withWrapper_some {g : HandleWrapper → Option (Report × Interpreter)} {r : Report}
    (h : i.withWrapper x g = some (r, i')) : ∃ w, i.wrappers x = some w ∧ g w = some (r, i') := by
  unfold Interpreter.withWrapper at h
  split at h
  · cases h
  · exact ⟨_, ‹_›, h⟩

lemma call_served (hs : Sound v i none) (hrem : i.remaining = []) {e : Event} {r : Report}
    (h : i.call e = some (r, i')) : Served i r i' := by
  have hpair : ∀ {q : Report × Interpreter}, Served i q.1 q.2 → some q = some (r, i') →
      Served i r i' := by
    intro q hq he
    obtain rfl := Option.some.inj he
    exact hq
  cases e with
  | hostBuffer size => exact hpair (hostBuffer_served hs size rfl) h
  | allocateBuffer size f => exact hpair (allocatePythonBuffer_served hs hrem size f) h
  | fromOutputBuffer o st f =>
    obtain ⟨obj, ho, -, h⟩ := withObject_some h
    split at h
    · exact hpair (promoteOutput_served hs hrem _ _ f) h
    · exact acquireOutput_served hs hrem ho ‹_› h
  | fromInputBuffer o st f =>
    obtain ⟨obj, ho, -, h⟩ := withObject_some h
    split at h
    · exact hpair (promoteInput_served hs hrem _ _ f) h
    · exact hpair (acquireInput_served hs hrem ho ‹_› _ f) h
  | fromOutputCpuData size st f => exact hpair (promoteOutput_served hs hrem size _ f) h
  | fromInputCpuData size st f => exact hpair (promoteInput_served hs hrem size _ f) h
  | toBuffer x source byteCount st f =>
    obtain ⟨w, hx, h⟩ := withWrapper_some h
    split_ifs at h with hw
    exact copyFrom_served hs hrem hx hw h
  | getPtr x =>
    obtain ⟨w, hx, h⟩ := withWrapper_some h
    split_ifs at h
    · exact hpair (raise_served hs _) h
    · exact hpair (.quietly rfl rfl ⟨v, hs⟩) h
  | getPromotedBuffer x =>
    obtain ⟨w, hx, h⟩ := withWrapper_some h
    exact hpair (getPromotedBuffer_served hs w) h
  | close x =>
    obtain ⟨w, hx, h⟩ := withWrapper_some h
    obtain ⟨hproc, hclosed, -⟩ := closeWrapper_sound hs hrem hx
    exact hpair (.quietly rfl hproc ⟨v, hclosed⟩) h
  | newRef o =>
    obtain ⟨obj, ho, -, h⟩ := withObject_some h
    exact hpair (newRef_served hs ho rfl) h
  | dropRef o =>
    obtain ⟨obj, ho, hheld, h⟩ := withObject_some h
    exact hpair (dropRef_served hs hrem ho hheld rfl) h
  | newWrapperRef x =>
    obtain ⟨w, hx, h⟩ := withWrapper_some h
    exact hpair (newWrapperRef_served hs hx rfl) h
  | dropWrapperRef x =>
    obtain ⟨w, hx, h⟩ := withWrapper_some h
    exact hpair (dropWrapperRef_served hs hrem hx rfl) h
  | launch st p q => exact launchKernel_served hs h
  | proceed => cases h
  | finish st => cases h
  | recycle => cases h

end Calls

section Runs

lemma perform_some {rest : List Operation} {r : Report} {op : Operation}
    (h : i.perform op rest = some (r, i')) : ∃ out s, i.process.act op = some (out, s) ∧
      r = .did op out ∧ i' = { i with process := s, remaining := rest } := by
  unfold Interpreter.perform at h
  split at h
  · cases h
  · obtain ⟨rfl, rfl⟩ := Prod.mk.inj (Option.some.inj h)
    exact ⟨_, _, ‹_›, rfl, rfl⟩

/-- The next operation of the running call is careful, and what is behind it stays permitted. -/
lemma proceed_served (hs : Sound v i none) {op : Operation} {rest : List Operation} {r : Report}
    (hrem : i.remaining = op :: rest) (h : i.perform op rest = some (r, i')) : Served i r i' := by
  obtain ⟨out, s, hact, rfl, rfl⟩ := perform_some h
  have hperm := hs.permitted
  rw [hrem] at hperm
  refine ⟨.single hact, every_cons hact (hs.abstracts.careful hperm.1) every_nil, v.after op, ?_,
    hs.bounded.after hperm.1, hperm.2, ?_⟩
  · obtain ⟨st, rfl, hbusy⟩ | ⟨out', s', hact', ha⟩ := hs.abstracts.act_permitted hperm.1
    · rw [act, hbusy] at hact
      cases hact
    · obtain ⟨-, rfl⟩ := Prod.mk.inj (Option.some.inj (hact.symm.trans hact'))
      exact ha
  · have hc := hs.coherent
    rw [hrem] at hc
    exact hc.same rfl rfl rfl rfl

lemma progress_served (hs : Sound v i none) {op : Operation} {r : Report}
    (hop : op = .recycle ∨ ∃ st, op = .finish st) (h : i.perform op i.remaining = some (r, i')) :
    Served i r i' := by
  obtain ⟨out, s, hact, rfl, rfl⟩ := perform_some h
  have hcareful : Careful i.process op out := by
    obtain rfl | ⟨st, rfl⟩ := hop
    · exact ⟨trivial, trivial⟩
    · exact ⟨trivial, trivial⟩
  exact ⟨.single hact, every_cons hact hcareful every_nil, v, hs.abstracts.progress hop hact,
    hs.bounded, hs.permitted, hs.coherent.same rfl rfl rfl rfl⟩

lemma step_served (hs : Sound v i none) {e : Event} {r : Report}
    (h : i.step e = some (r, i')) : Served i r i' := by
  have hcall : ∀ {e}, (if i.remaining = [] then i.call e else none) = some (r, i') →
      Served i r i' := by
    intro e h
    split_ifs at h with hrem
    exact call_served hs hrem h
  cases e with
  | proceed =>
    simp only [Interpreter.step] at h
    split at h
    · cases h
    · exact proceed_served hs ‹_› h
  | finish st => exact progress_served hs (.inr ⟨st, rfl⟩) h
  | recycle => exact progress_served hs (.inl rfl) h
  | _ => exact hcall h

lemma sound_initial : Sound {} {} none := by
  refine ⟨⟨fun _ => rfl, rfl, fun _ => rfl, fun _ _ hb => hb.elim, fun _ => rfl, rfl, fun _ => rfl,
    rfl⟩, ⟨fun _ _ => rfl, fun _ _ => rfl, fun _ _ _ => rfl, ?_⟩, trivial, ⟨?_, ?_, ?_⟩,
    ⟨?_, ?_, ?_, ?_⟩, ⟨?_, ?_, ?_, ?_, ?_, ?_⟩⟩
  all_goals
    intros
    simp_all [Interpreter.storageOf, Ownership.afterAll]

lemma run_sound {tr : List (Event × Report)} (hr : Run Interpreter.step {} tr i) :
    (Run act {} (performed tr) i.process ∧ Every act Careful {} (performed tr)) ∧
      ∃ v, Sound v i none := by
  induction hr with
  | nil => exact ⟨⟨.nil, every_nil⟩, {}, sound_initial⟩
  | snoc _ hstep ih =>
    obtain ⟨⟨hrun, hcareful⟩, v, hs⟩ := ih
    have hserved := step_served hs hstep
    rw [performed, List.flatMap_append, List.flatMap_singleton]
    exact ⟨⟨hrun.append hserved.run, hrun.every_append hserved.run hcareful hserved.careful⟩,
      hserved.sound⟩

end Runs

end RosidlBufferBackends.Buffers.Bindings
