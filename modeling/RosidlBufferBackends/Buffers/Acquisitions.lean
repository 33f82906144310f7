import RosidlBufferBackends.Buffers.Bindings
import RosidlBufferBackends.Buffers.Ownership

/-! What the calls of the bindings do to the buffers and handles that there are: allocations,
handles that are wrapped, and what is undone when a call fails. -/

namespace RosidlBufferBackends.Buffers.Bindings

variable {v v' : Ownership} {b h size : ℕ} {k : Kind} {st : Stream} {f : Faults}

/-- Nothing but counters and what is fresh is different. -/
structure Alike (v v' : Ownership) : Prop where
  buffers : v'.buffers = v.buffers
  impls : v'.impls = v.impls
  handles : v'.handles = v.handles

/-- The buffer `b` has been allocated. -/
structure Made (v v' : Ownership) (b size : ℕ) : Prop where
  buffers : v'.buffers = Function.update v.buffers b (some (decide (0 < size)))
  impls : v'.impls = Function.update v.impls b (some size)
  handles : v'.handles = v.handles

/-- The handle `h` on the buffer `b` is new. -/
structure Handed (v v' : Ownership) (k : Kind) (h b : ℕ) (st : Stream) : Prop where
  buffers : v'.buffers = v.buffers
  impls : v'.impls = v.impls
  handles : v'.handles =
    (v.setHandle k h (some ⟨some b, st, (v.buffers b).getD false⟩)).handles

/-- The temporary `b + 1` brings the memory and goes. -/
lemma storage_made {u : Ownership} (hb : u.buffers b = some false) (hn : u.nextBuffer = b + 1)
    (hfree : u.Free b) (hfree' : u.Free (b + 1)) (hf : b ∈ u.fresh) (hnone : u.impls (b + 1) = none)
    (hnone' : u.buffers (b + 1) = none) (n : ℕ) :
    u.Permitted [.construct n, .moveAssign b (b + 1), .destroy (b + 1)] ∧
      (u.afterAll [.construct n, .moveAssign b (b + 1), .destroy (b + 1)]).buffers =
        Function.update u.buffers b (some true) ∧
      (u.afterAll [.construct n, .moveAssign b (b + 1), .destroy (b + 1)]).impls = u.impls ∧
      b ∈ (u.afterAll [.construct n, .moveAssign b (b + 1), .destroy (b + 1)]).fresh := by
  have hne : b ≠ b + 1 := b.lt_succ_self.ne
  have hbuf : (u.add true).buffers b = some false := by
    rw [Ownership.add, hn]
    exact (Function.update_of_ne hne _ _).trans hb
  have hbuf' : (u.add true).buffers (b + 1) = some true := by
    rw [Ownership.add, hn]
    exact Function.update_self ..
  have hswap : ((u.add true).swap b (b + 1)).buffers =
      Function.update (Function.update (u.add true).buffers b (some true)) (b + 1)
        (some false) := by
    rw [Ownership.swap, hbuf, hbuf']
  refine ⟨⟨trivial, ⟨hne, .inr hf, .inl hn.symm, ?_, ?_, hfree, hfree'⟩, ⟨?_, hfree'⟩, trivial⟩,
    ?_, ?_, .inr hf⟩
  · exact Option.isSome_of_eq_some hbuf
  · exact Option.isSome_of_eq_some hbuf'
  · change (((u.add true).swap b (b + 1)).buffers (b + 1)).isSome
    rw [hswap, Function.update_self]
    rfl
  · change Function.update ((u.add true).swap b (b + 1)).buffers (b + 1) none = _
    rw [hswap, Function.update_idem, Ownership.add, hn]
    funext c
    by_cases hc : c = b + 1
    · subst hc
      rw [Function.update_self, Function.update_of_ne hne.symm, hnone']
    · rw [Function.update_of_ne hc]
      by_cases hcb : c = b
      · rw [hcb, Function.update_self, Function.update_self]
      · rw [Function.update_of_ne hcb, Function.update_of_ne hcb]
        exact Function.update_of_ne hc _ _
  · change Function.update u.impls (b + 1) none = u.impls
    rw [← hnone, Function.update_eq_self]

/-- The object without memory, which the allocation starts with. -/
def emptied (v : Ownership) (size : ℕ) : Ownership := (v.add false).setImpl v.nextBuffer size

lemma emptied_buffer (v : Ownership) (size : ℕ) :
    (emptied v size).buffers v.nextBuffer = some false := Function.update_self ..

lemma allocation_made (hv : v.Bounded) (hp : size ≠ 0 → f.pool = false) :
    v.Permitted (allocation v.nextBuffer size f) ∧
      Made v (v.afterAll (allocation v.nextBuffer size f)) v.nextBuffer size ∧
      (v.afterAll (allocation v.nextBuffer size f)).nextHandle = v.nextHandle ∧
      v.nextBuffer ∈ (v.afterAll (allocation v.nextBuffer size f)).fresh := by
  have hhead : v.Permitted [.constructDefault, .makeImpl v.nextBuffer size] :=
    ⟨trivial, Option.isSome_of_eq_some (emptied_buffer v size), trivial⟩
  rw [allocation, Ownership.permitted_append, Ownership.afterAll_append]
  change (_ ∧ (emptied v size).Permitted _) ∧ Made v ((emptied v size).afterAll _) _ _ ∧
    ((emptied v size).afterAll _).nextHandle = _ ∧ _ ∈ ((emptied v size).afterAll _).fresh
  by_cases hsize : size = 0
  · subst hsize
    rw [if_pos rfl]
    exact ⟨⟨hhead, trivial⟩, ⟨rfl, rfl, rfl⟩, rfl, .inl rfl⟩
  · obtain ⟨hmoved, hbuffers, himpls, hfresh⟩ := storage_made (n := size * 1 % 2 ^ 64)
      (emptied_buffer v size) rfl (hv.free le_rfl) (hv.free (Nat.le_succ _)) (.inl rfl)
      ((Function.update_of_ne (Nat.succ_ne_self _) _ _).trans (hv.impls _ (Nat.le_succ _)))
      ((Function.update_of_ne (Nat.succ_ne_self _) _ _).trans (hv.buffers _ (Nat.le_succ _)))
    have hsome : decide (0 < size) = true := decide_eq_true (Nat.pos_of_ne_zero hsize)
    have hmade : Made v ((emptied v size).afterAll (Call.allocateBufferInternal v.nextBuffer
        (v.nextBuffer + 1) size 1)) v.nextBuffer size := by
      refine ⟨hbuffers.trans ?_, himpls, rfl⟩
      rw [hsome]
      exact Function.update_idem ..
    rw [if_neg hsize, hp hsize, if_neg Bool.false_ne_true]
    cases f.event with
    | true => exact ⟨⟨hhead, hmoved⟩, ⟨hmade.1, hmade.2, hmade.3⟩, rfl, hfresh⟩
    | false =>
      have hset : (emptied v size).Permitted
          (Call.allocateBufferInternal v.nextBuffer (v.nextBuffer + 1) size 1) := by
        refine (Ownership.permitted_append [_, _, _] [_]).mpr ⟨hmoved, ⟨?_, hfresh⟩, trivial⟩
        rw [hbuffers, Function.update_self]
        rfl
      exact ⟨⟨hhead, hset⟩, hmade, rfl, hfresh⟩

lemma allocation_failed (hv : v.Bounded) (hsize : size ≠ 0) (hp : f.pool = true) :
    v.Permitted (allocation v.nextBuffer size f) ∧
      Alike v (v.afterAll (allocation v.nextBuffer size f)) := by
  have hops : allocation v.nextBuffer size f =
      [.constructDefault, .makeImpl v.nextBuffer size, .destroy v.nextBuffer] := by
    rw [allocation, if_neg hsize, if_pos hp]
    rfl
  have hsome := Option.isSome_of_eq_some (emptied_buffer v size)
  rw [hops]
  refine ⟨⟨trivial, hsome, ⟨hsome, hv.free le_rfl⟩, trivial⟩, ?_, ?_, rfl⟩
  · change Function.update (Function.update v.buffers v.nextBuffer _) v.nextBuffer none = v.buffers
    rw [Function.update_idem, ← hv.buffers _ le_rfl, Function.update_eq_self]
  · change Function.update (Function.update v.impls v.nextBuffer _) v.nextBuffer none = v.impls
    rw [Function.update_idem, ← hv.impls _ le_rfl, Function.update_eq_self]

section Handles

variable {t : Kind → ℕ → Option Pointer} {p q : Option Pointer}

def put (t : Kind → ℕ → Option Pointer) (k : Kind) (h : ℕ) (p : Option Pointer) :
    Kind → ℕ → Option Pointer :=
  fun k' h' => if k' = k ∧ h' = h then p else t k' h'

lemma put_self (t : Kind → ℕ → Option Pointer) (k : Kind) (h : ℕ) (p : Option Pointer) :
    put t k h p k h = p := if_pos ⟨rfl, rfl⟩

lemma put_of_ne {h' : ℕ} (hne : h' ≠ h) : put t k h p k h' = t k h' := if_neg fun he => hne he.2

lemma put_same (hp : t k h = p) : put t k h p = t := by
  funext k' h'
  unfold put
  split_ifs with he
  · rw [he.1, he.2, hp]
  · rfl

lemma put_idem : put (put t k h p) k h q = put t k h q := by
  funext k' h'
  unfold put
  split_ifs <;> rfl

lemma put_comm {h' : ℕ} (hne : h' ≠ h) :
    put (put t k h p) k h' q = put (put t k h' q) k h p := by
  funext k' h'
  unfold put
  split_ifs <;> first | rfl | omega

end Handles

lemma move_handles (v : Ownership) (k : Kind) (h : ℕ) :
    (v.move k h).handles = put (put v.handles k h (some {})) k (v.nextHandle k) (v.handles k h) :=
      rfl

lemma close_handles (v : Ownership) (k : Kind) (h : ℕ) :
    (v.close k h).handles = put v.handles k h none := rfl

lemma move_close_buffers (v : Ownership) (k : Kind) (h h' : ℕ) :
    ((v.move k h).close k h').buffers = v.buffers ∧ ((v.move k h).close k h').impls = v.impls :=
  ⟨rfl, rfl⟩

lemma acquire_handles (v : Ownership) (k : Kind) (b : ℕ) (st : Stream) :
    (v.acquire k b st).handles =
      put v.handles k (v.nextHandle k) (some ⟨some b, st, (v.buffers b).getD false⟩) := rfl

lemma acquire_nextHandle (v : Ownership) (k : Kind) (b : ℕ) (st : Stream) :
    (v.acquire k b st).nextHandle k = v.nextHandle k + 1 := Function.update_self ..

lemma afterAll_move_close (u : Ownership) (k : Kind) (h h' : ℕ) :
    u.afterAll [k.move h, k.close h'] = (u.move k h).close k h' := by
  simp only [Ownership.afterAll, List.foldl, Ownership.after_move, Ownership.after_close]

/-- A new handle goes on to the next slot. -/
lemma passed_on {u : Ownership} {t : Kind → ℕ → Option Pointer} {p : Pointer}
    (hn : u.nextHandle k = h + 1) (hu : u.handles = put t k h (some p)) (hnone : t k h = none) :
    u.Permitted [k.move h, k.close h] ∧
      (u.afterAll [k.move h, k.close h]).nextHandle k = h + 2 ∧
      (u.afterAll [k.move h, k.close h]).handles = put t k (h + 1) (some p) ∧
      (u.afterAll [k.move h, k.close h]).buffers = u.buffers ∧
      (u.afterAll [k.move h, k.close h]).impls = u.impls := by
  have hne : h ≠ h + 1 := h.lt_succ_self.ne
  have hp : u.handles k h = some p := by rw [hu, put_self]
  have hmove : (u.move k h).handles = put (put t k h (some {})) k (h + 1) (some p) := by
    rw [move_handles, hp, hn, hu, put_idem]
  have hempty : (u.move k h).handles k h = some {} := by rw [hmove, put_of_ne hne, put_self]
  refine ⟨⟨Ownership.permits_move.mpr (Option.isSome_of_eq_some hp), ?_, trivial⟩, ?_⟩
  · rw [Ownership.after_move]
    exact Ownership.permits_close.mpr (Option.isSome_of_eq_some hempty)
  · rw [afterAll_move_close]
    refine ⟨?_, ?_, rfl, rfl⟩
    · change Function.update u.nextHandle k (u.nextHandle k + 1) k = h + 2
      rw [Function.update_self, hn]
    · rw [close_handles, hmove, put_comm hne, put_idem, put_same hnone]

lemma wrap_handed (hv : v.Bounded) (k : Kind) (b : ℕ) (st : Stream) :
    (v.acquire k b st).Permitted (wrap k (v.nextHandle k)) ∧
      Handed v ((v.acquire k b st).afterAll (wrap k (v.nextHandle k))) k
        (v.nextHandle k + 2) b st := by
  obtain ⟨hperm, hnext, hhandles, hbuffers, himpls⟩ := passed_on (acquire_nextHandle v k b st)
    (acquire_handles v k b st) (hv.handles k _ le_rfl)
  obtain ⟨hperm', -, hhandles', hbuffers', himpls'⟩ := passed_on hnext hhandles
    (hv.handles k _ (Nat.le_succ _))
  have happend : wrap k (v.nextHandle k) = [k.move (v.nextHandle k), k.close (v.nextHandle k)] ++
    [k.move (v.nextHandle k + 1), k.close (v.nextHandle k + 1)] := rfl
  rw [happend, Ownership.permitted_append, Ownership.afterAll_append]
  exact ⟨⟨hperm, hperm'⟩, hbuffers'.trans hbuffers, himpls'.trans himpls, hhandles'⟩

/-- A new handle is destroyed in the slot that it was moved to; its own slot is left empty. -/
lemma dropped (hv : v.Bounded) (k : Kind) (b : ℕ) (st : Stream) :
    (v.acquire k b st).Permitted [k.move (v.nextHandle k), k.close (v.nextHandle k + 1)] ∧
      ∃ u, (v.acquire k b st).afterAll [k.move (v.nextHandle k), k.close (v.nextHandle k + 1)] = u ∧
        u.handles = put v.handles k (v.nextHandle k) (some {}) ∧ u.buffers = v.buffers ∧
        u.impls = v.impls := by
  have hne : v.nextHandle k + 1 ≠ v.nextHandle k := Nat.succ_ne_self _
  have hnone := hv.handles k (v.nextHandle k + 1) (Nat.le_succ _)
  obtain ⟨p, hp⟩ : ∃ p, (v.acquire k b st).handles = put v.handles k (v.nextHandle k) (some p) :=
    ⟨_, acquire_handles v k b st⟩
  have hheld : (v.acquire k b st).handles k (v.nextHandle k) = some p := by rw [hp, put_self]
  have hmove : ((v.acquire k b st).move k (v.nextHandle k)).handles =
      put (put v.handles k (v.nextHandle k) (some {})) k (v.nextHandle k + 1) (some p) := by
    rw [move_handles, hheld, acquire_nextHandle, hp, put_idem]
  have hempty : ((v.acquire k b st).move k (v.nextHandle k)).handles k (v.nextHandle k + 1) =
      some p := by rw [hmove, put_self]
  refine ⟨⟨Ownership.permits_move.mpr (Option.isSome_of_eq_some hheld), ?_, trivial⟩,
    ((v.acquire k b st).move k (v.nextHandle k)).close k (v.nextHandle k + 1),
    afterAll_move_close _ _ _ _, ?_, move_close_buffers _ _ _ _⟩
  · rw [Ownership.after_move]
    exact Ownership.permits_close.mpr (Option.isSome_of_eq_some hempty)
  · rw [close_handles, hmove, put_idem, put_comm hne, put_same hnone]

lemma unwrap_split (k : Kind) (h : ℕ) (owner : List Operation) :
    unwrap k h owner = [k.move h, k.close (h + 1)] ++ (owner ++ [k.close h]) := rfl

lemma afterAll_singleton (u : Ownership) (k : Kind) (h : ℕ) :
    u.afterAll [k.close h] = u.close k h := Ownership.after_close u k h

lemma unwrap_alike (hv : v.Bounded) (k : Kind) (b : ℕ) (st : Stream) :
    (v.acquire k b st).Permitted (unwrap k (v.nextHandle k) []) ∧
      Alike v ((v.acquire k b st).afterAll (unwrap k (v.nextHandle k) [])) := by
  obtain ⟨hperm, u, hu, hhandles, hbuffers, himpls⟩ := dropped hv k b st
  have hempty : u.handles k (v.nextHandle k) = some {} := by rw [hhandles, put_self]
  rw [unwrap_split, Ownership.permitted_append, Ownership.afterAll_append, hu, List.nil_append,
    afterAll_singleton]
  refine ⟨⟨hperm, Ownership.permits_close.mpr (Option.isSome_of_eq_some hempty), trivial⟩, hbuffers,
    himpls, ?_⟩
  rw [close_handles, hhandles, put_idem, put_same (hv.handles k _ le_rfl)]

lemma unwrap_destroyed (hv : v.Bounded) (hb : (v.buffers b).isSome) (hf : v.Free b) (k : Kind)
    (st : Stream) :
    (v.acquire k b st).Permitted (unwrap k (v.nextHandle k) [.destroy b]) ∧
      Alike (v.take b) ((v.acquire k b st).afterAll (unwrap k (v.nextHandle k) [.destroy b])) := by
  obtain ⟨hperm, u, hu, hhandles, hbuffers, himpls⟩ := dropped hv k b st
  have hempty : u.handles k (v.nextHandle k) = some {} := by rw [hhandles, put_self]
  have hfree : u.Free b := by
    intro k' h' p hp hptr
    rw [hhandles] at hp
    unfold put at hp
    split_ifs at hp
    · obtain rfl := Option.some.inj hp
      cases hptr
    · exact hf k' h' p hp hptr
  have hafter : u.afterAll ([.destroy b] ++ [k.close (v.nextHandle k)]) =
      (u.take b).close k (v.nextHandle k) := by
    rw [Ownership.afterAll_append, afterAll_singleton]
    rfl
  rw [unwrap_split, Ownership.permitted_append, Ownership.afterAll_append, hu, hafter]
  refine ⟨⟨hperm, ⟨hbuffers ▸ hb, hfree⟩,
    Ownership.permits_close.mpr (Option.isSome_of_eq_some hempty), trivial⟩, ?_, ?_, ?_⟩
  · change Function.update u.buffers b none = Function.update v.buffers b none
    rw [hbuffers]
  · change Function.update u.impls b none = Function.update v.impls b none
    rw [himpls]
  · rw [close_handles]
    change put u.handles k _ none = v.handles
    rw [hhandles, put_idem, put_same (hv.handles k _ le_rfl)]

/-- A new handle is closed where it is. -/
lemma released_destroyed (hv : v.Bounded) (hb : (v.buffers b).isSome) (hf : v.Free b) (k : Kind)
    (st : Stream) :
    (v.acquire k b st).Permitted [k.close (v.nextHandle k), .destroy b] ∧
      Alike (v.take b) ((v.acquire k b st).afterAll [k.close (v.nextHandle k), .destroy b]) := by
  have hheld := congrFun (congrFun (acquire_handles v k b st) k) (v.nextHandle k)
  rw [put_self] at hheld
  have hclosed : ((v.acquire k b st).close k (v.nextHandle k)).handles = v.handles := by
    rw [close_handles, acquire_handles, put_idem, put_same (hv.handles k _ le_rfl)]
  have hafter : (v.acquire k b st).afterAll [k.close (v.nextHandle k), .destroy b] =
      ((v.acquire k b st).close k (v.nextHandle k)).take b := by
    simp only [Ownership.afterAll, List.foldl, Ownership.after_close]
    rfl
  rw [hafter]
  refine ⟨⟨Ownership.permits_close.mpr (Option.isSome_of_eq_some hheld), ?_, trivial⟩, rfl, rfl,
    hclosed⟩
  rw [Ownership.after_close]
  exact ⟨hb, fun k' h' p hp => hf k' h' p (by rw [← hclosed]; exact hp)⟩

lemma Alike.trans {u : Ownership} (h : Alike v v') (h' : Alike v' u) : Alike v u :=
  ⟨h'.buffers.trans h.buffers, h'.impls.trans h.impls, h'.handles.trans h.handles⟩

lemma Made.alike {u : Ownership} (h : Made v v' b size) (h' : Alike v' u) : Made v u b size :=
  ⟨h'.buffers.trans h.buffers, h'.impls.trans h.impls, h'.handles.trans h.handles⟩

/-- The buffer has gone again. -/
lemma Made.taken (h : Made v v' b size) (hb : v.buffers b = none) (hi : v.impls b = none) :
    Alike v (v'.take b) := by
  refine ⟨?_, ?_, h.handles⟩
  · change Function.update v'.buffers b none = v.buffers
    rw [h.buffers, Function.update_idem, ← hb, Function.update_eq_self]
  · change Function.update v'.impls b none = v.impls
    rw [h.impls, Function.update_idem, ← hi, Function.update_eq_self]

lemma Made.buffer (h : Made v v' b size) : v'.buffers b = some (decide (0 < size)) := by
  rw [h.buffers, Function.update_self]

lemma Made.free (h : Made v v' b size) (hf : v.Free b) : v'.Free b :=
  fun k h' p hp => hf k h' p (h.handles ▸ hp)

/-- The start of every promotion: a buffer with a write handle. -/
lemma writing_made (hv : v.Bounded) (hp : size ≠ 0 → f.pool = false) (st : Stream) :
    ∃ u, u.Bounded ∧ Made v u v.nextBuffer size ∧ u.nextHandle = v.nextHandle ∧
      v.Permitted (allocation v.nextBuffer size f ++
        [.setStream v.nextBuffer st, .getWriteHandle v.nextBuffer st]) ∧
      v.afterAll (allocation v.nextBuffer size f ++
        [.setStream v.nextBuffer st, .getWriteHandle v.nextBuffer st]) =
          u.acquire .write v.nextBuffer st := by
  obtain ⟨hperm, hmade, hnext, hfresh⟩ := allocation_made hv hp
  refine ⟨_, hv.afterAll hperm, hmade, hnext, ?_, ?_⟩
  · refine (Ownership.permitted_append _ _).mpr ⟨hperm, ?_, ⟨?_, hfresh⟩, trivial⟩
    · change ((v.afterAll _).impls _).isSome
      rw [hmade.impls, Function.update_self]
      rfl
    · exact Option.isSome_of_eq_some hmade.buffer
  · rw [Ownership.afterAll_append]
    rfl

/-- The write through the handle, and the handle of the reader after it. -/
lemma reading_made (hv : v.Bounded) (hsize : size ≠ 0) (hp : f.pool = false) (st : Stream) :
    ∃ u, u.Bounded ∧ Made v u v.nextBuffer size ∧ u.nextHandle .read = v.nextHandle .read ∧
      v.Permitted (allocation v.nextBuffer size f ++
        [.setStream v.nextBuffer st, .getWriteHandle v.nextBuffer st] ++
        [.launch st none (some (v.nextHandle .write)), .closeWrite (v.nextHandle .write),
          .getReadHandle v.nextBuffer st]) ∧
      v.afterAll (allocation v.nextBuffer size f ++
        [.setStream v.nextBuffer st, .getWriteHandle v.nextBuffer st] ++
        [.launch st none (some (v.nextHandle .write)), .closeWrite (v.nextHandle .write),
          .getReadHandle v.nextBuffer st]) = u.acquire .read v.nextBuffer st := by
  obtain ⟨u, hu, hmade, hnext, hperm, hafter⟩ := writing_made hv (fun _ => hp) st
  have hstored : u.buffers v.nextBuffer = some true := by
    rw [hmade.buffer, decide_eq_true (Nat.pos_of_ne_zero hsize)]
  have hheld : (u.acquire .write v.nextBuffer st).handles .write (v.nextHandle .write) =
      some ⟨some v.nextBuffer, st, true⟩ := by
    rw [acquire_handles, hnext, put_self, hstored]
    rfl
  let t := (u.acquire .write v.nextBuffer st).close .write (v.nextHandle .write)
  have halike : Alike u t := by
    refine ⟨rfl, rfl, ?_⟩
    rw [close_handles, acquire_handles, hnext, put_idem,
      put_same (hu.handles .write _ (by rw [hnext]))]
  have hstart : (u.acquire .write v.nextBuffer st).Permitted
      [.launch st none (some (v.nextHandle .write)), .closeWrite (v.nextHandle .write)] := by
    refine ⟨⟨?_, ?_⟩, Option.isSome_of_eq_some hheld, trivial⟩
    · rintro _ ⟨⟩
    · rintro _ ⟨⟩
      exact ⟨_, hheld, rfl, rfl⟩
  have hacquired := hv.afterAll hperm
  rw [hafter] at hacquired
  refine ⟨t, hacquired.afterAll hstart, hmade.alike halike, ?_, ?_, ?_⟩
  · change Function.update u.nextHandle .write (u.nextHandle .write + 1) .read = _
    rw [Function.update_of_ne (by decide), hnext]
  · rw [Ownership.permitted_append, hafter]
    exact ⟨hperm, hstart.1, hstart.2.1, Option.isSome_of_eq_some hstored, trivial⟩
  · rw [Ownership.afterAll_append, hafter]
    rfl

end RosidlBufferBackends.Buffers.Bindings
