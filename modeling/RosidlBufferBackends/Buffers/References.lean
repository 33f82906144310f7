import RosidlBufferBackends.Buffers.Bindings
import RosidlBufferBackends.Buffers.Ownership

/-! The tables of the interpreter against the buffers and handles that there are: which object holds
which buffer, which wrapper which handle, and how many references each object has. -/

namespace RosidlBufferBackends.Buffers.Bindings

open Inventory

def ownedBy (o : ℕ) (w : HandleWrapper) : ℕ := if w.owner = some o then 1 else 0

namespace Interpreter

def owners (i : Interpreter) (o : ℕ) : ℕ := total i.nextWrapper i.wrappers (ownedBy o)

def storageOf (i : Interpreter) (o : ℕ) : Option Storage := (i.objects o).map PyBuffer.storage

end Interpreter

/-- Each buffer is that of one object, and has device memory if it has a size. -/
structure Stored (v : Ownership) (f : ℕ → Option Storage) : Prop where
  backed : ∀ o b, f o = some (.cuda b) →
    ∃ size, v.impls b = some size ∧ v.buffers b = some (decide (0 < size))
  unshared : ∀ o o' b, f o = some (.cuda b) → f o' = some (.cuda b) → o = o'
  owned : ∀ b, (v.buffers b).isSome → ∃ o, f o = some (.cuda b)

/-- Each handle is that of one open wrapper, whose owner holds the handle's buffer. -/
structure Wrapped (v : Ownership) (f : ℕ → Option Storage) (wrappers : ℕ → Option HandleWrapper) :
    Prop where
  points : ∀ x w h, wrappers x = some w → w.handle = some h → ∃ o b, w.owner = some o ∧
    f o = some (.cuda b) ∧ v.handles w.kind h = some ⟨some b, w.stream, true⟩
  distinct : ∀ x y w w' h, wrappers x = some w → wrappers y = some w' → w.kind = w'.kind →
    w.handle = some h → w'.handle = some h → x = y
  wrapped : ∀ k h, (v.handles k h).isSome → ∃ x w, wrappers x = some w ∧ w.kind = k ∧
    w.handle = some h
  closed : ∀ x w, wrappers x = some w → w.handle = none → w.owner = none

/-- The references are the program's, those of wrappers, and one that a running call holds on
`loose`. -/
structure Tallied (i : Interpreter) (loose : Option ℕ) : Prop where
  objects : ∀ o obj, i.objects o = some obj → o < i.nextObject
  wrappers : ∀ x w, i.wrappers x = some w → x < i.nextWrapper
  counted : ∀ o obj, i.objects o = some obj →
    obj.refs = obj.held + i.owners o + if loose = some o then 1 else 0
  alive : ∀ o obj, i.objects o = some obj → 0 < obj.refs
  owner : ∀ x w o, i.wrappers x = some w → w.owner = some o → (i.objects o).isSome
  referenced : ∀ x w, i.wrappers x = some w → 0 < w.refs

variable {v v' : Ownership} {f f' : ℕ → Option Storage} {wrappers : ℕ → Option HandleWrapper}
  {i i' : Interpreter} {loose : Option ℕ} {o b h x : ℕ} {obj obj' : PyBuffer} {w w' : HandleWrapper}
  {k : Kind}

section Tables

lemma storageOf_some (ho : i.objects o = some obj) : i.storageOf o = some obj.storage := by
  rw [Interpreter.storageOf, ho, Option.map_some]

lemma storageOf_setObject (ho : i.objects o = some obj) (hs : obj'.storage = obj.storage) :
    (i.setObject o (some obj')).storageOf = i.storageOf := by
  funext c
  by_cases hc : c = o
  · subst hc
    have hnew : (i.setObject c (some obj')).storageOf c = some obj'.storage :=
      storageOf_some (Function.update_self ..)
    rw [storageOf_some ho, hnew, hs]
  · exact congrArg _ (Function.update_of_ne hc _ _)

lemma storageOf_addObject (i : Interpreter) (obj : PyBuffer) :
    (i.addObject obj).storageOf = Function.update i.storageOf i.nextObject (some obj.storage) := by
  funext c
  by_cases hc : c = i.nextObject
  · subst hc
    have hnew : (i.addObject obj).storageOf i.nextObject = some obj.storage :=
      storageOf_some (Function.update_self ..)
    rw [hnew, Function.update_self]
  · rw [Function.update_of_ne hc]
    exact congrArg _ (Function.update_of_ne hc _ _)

lemma storageOf_remove (i : Interpreter) (o : ℕ) :
    (i.setObject o none).storageOf = Function.update i.storageOf o none := by
  funext c
  by_cases hc : c = o
  · subst hc
    rw [Function.update_self]
    exact congrArg _ (Function.update_self ..)
  · rw [Function.update_of_ne hc]
    exact congrArg _ (Function.update_of_ne hc _ _)

end Tables

namespace Stored

lemma same (hs : Stored v f) (hb : v'.buffers = v.buffers) (hi : v'.impls = v.impls) :
    Stored v' f :=
  ⟨fun o b ho => by rw [hb, hi]; exact hs.backed o b ho, hs.unshared,
    fun b ho => hs.owned b (hb ▸ ho)⟩

/-- An object that holds no device buffer comes or goes. -/
lemma host (hs : Stored v f) (hf : ∀ o b, f' o = some (.cuda b) ↔ f o = some (.cuda b)) :
    Stored v f' :=
  ⟨fun o b ho => hs.backed o b ((hf o b).mp ho),
    fun o o' b ho ho' => hs.unshared o o' b ((hf o b).mp ho) ((hf o' b).mp ho'),
    fun b hb => (hs.owned b hb).imp fun o => (hf o b).mpr⟩

lemma add (hs : Stored v f) {size : ℕ} (hnew : v.buffers b = none) (ho : f o = none)
    (hb : v'.buffers = Function.update v.buffers b (some (decide (0 < size))))
    (hi : v'.impls = Function.update v.impls b (some size)) :
    Stored v' (Function.update f o (some (.cuda b))) := by
  have hother : ∀ p c, f p = some (.cuda c) → c ≠ b := by
    rintro p c hp rfl
    obtain ⟨n, -, hn⟩ := hs.backed p c hp
    rw [hnew] at hn
    cases hn
  refine ⟨fun p c hp => ?_, fun p q c hp hq => ?_, fun c hc => ?_⟩
  · rcases update_some hp with ⟨-, he⟩ | ⟨-, hp⟩
    · obtain rfl : b = c := by simpa using he
      exact ⟨size, by rw [hi, Function.update_self], by rw [hb, Function.update_self]⟩
    · rw [hi, hb, Function.update_of_ne (hother p c hp), Function.update_of_ne (hother p c hp)]
      exact hs.backed p c hp
  · rcases update_some hp with ⟨rfl, he⟩ | ⟨-, hpo⟩
    · rcases update_some hq with ⟨rfl, -⟩ | ⟨-, hq⟩
      · rfl
      · obtain rfl : b = c := by simpa using he
        exact absurd rfl (hother q b hq)
    · rcases update_some hq with ⟨rfl, he⟩ | ⟨-, hq⟩
      · obtain rfl : b = c := by simpa using he
        exact absurd rfl (hother p b hpo)
      · exact hs.unshared p q c hpo hq
  · by_cases hcb : c = b
    · exact ⟨o, by rw [hcb, Function.update_self]⟩
    · rw [hb, Function.update_of_ne hcb] at hc
      obtain ⟨p, hp⟩ := hs.owned c hc
      have hne : p ≠ o := by
        rintro rfl
        rw [ho] at hp
        cases hp
      exact ⟨p, by rw [Function.update_of_ne hne, hp]⟩

lemma remove (hs : Stored v f) (ho : f o = some (.cuda b)) :
    Stored (v.take b) (Function.update f o none) := by
  have hother : ∀ p c, Function.update f o none p = some (.cuda c) →
      f p = some (.cuda c) ∧ c ≠ b := by
    intro p c hp
    rcases update_some hp with ⟨-, he⟩ | ⟨hne, hp⟩
    · cases he
    · refine ⟨hp, ?_⟩
      rintro rfl
      exact hne (hs.unshared p o c hp ho)
  refine ⟨fun p c hp => ?_, fun p q c hp hq => ?_, fun c hc => ?_⟩
  · obtain ⟨hp, hne⟩ := hother p c hp
    obtain ⟨size, hi, hb⟩ := hs.backed p c hp
    exact ⟨size, (Function.update_of_ne hne _ _).trans hi, (Function.update_of_ne hne _ _).trans hb⟩
  · exact hs.unshared p q c (hother p c hp).1 (hother q c hq).1
  · by_cases hcb : c = b
    · subst hcb
      change (Function.update v.buffers c none c).isSome at hc
      rw [Function.update_self] at hc
      cases hc
    · change (Function.update v.buffers b none c).isSome at hc
      rw [Function.update_of_ne hcb] at hc
      obtain ⟨p, hp⟩ := hs.owned c hc
      have hne : p ≠ o := by
        rintro rfl
        rw [ho] at hp
        exact hcb (by simpa using hp.symm)
      exact ⟨p, by rw [Function.update_of_ne hne, hp]⟩

end Stored

namespace Wrapped

/-- The handles are the same, and the owners have not changed. -/
lemma same (hw : Wrapped v f wrappers) (hv : v'.handles = v.handles)
    (hf : ∀ x w o b, wrappers x = some w → w.owner = some o → f o = some (.cuda b) →
      f' o = some (.cuda b)) : Wrapped v' f' wrappers := by
  refine ⟨fun x w h hx hh => ?_, hw.distinct, fun k h hk => hw.wrapped k h (hv ▸ hk), hw.closed⟩
  obtain ⟨o, b, ho, hb, hp⟩ := hw.points x w h hx hh
  exact ⟨o, b, ho, hf x w o b hx ho hb, by rw [hv, hp]⟩

lemma replace (hw : Wrapped v f wrappers) (hx : wrappers x = some w) (hk : w'.kind = w.kind)
    (hh : w'.handle = w.handle) (ho : w'.owner = w.owner) (hst : w'.stream = w.stream) :
    Wrapped v f (Function.update wrappers x (some w')) := by
  have hback : ∀ y z, Function.update wrappers x (some w') y = some z → ∃ z', wrappers y = some z' ∧
      z.kind = z'.kind ∧ z.handle = z'.handle ∧ z.owner = z'.owner ∧ z.stream = z'.stream := by
    intro y z hy
    rcases update_some hy with ⟨rfl, he⟩ | ⟨-, hy⟩
    · obtain rfl := Option.some.inj he
      exact ⟨w, hx, hk, hh, ho, hst⟩
    · exact ⟨z, hy, rfl, rfl, rfl, rfl⟩
  refine ⟨fun y z h hy hz => ?_, fun y y' z z' h hy hy' hkk hz hz' => ?_, fun k h hkh => ?_,
    fun y z hy hz => ?_⟩
  · obtain ⟨z', hy, hk', hh', ho', hst'⟩ := hback y z hy
    rw [ho', hk', hst']
    exact hw.points y z' h hy (hh' ▸ hz)
  · obtain ⟨u, hy, hku, hhu, -⟩ := hback y z hy
    obtain ⟨u', hy', hku', hhu', -⟩ := hback y' z' hy'
    exact hw.distinct y y' u u' h hy hy' (hku ▸ hku' ▸ hkk) (hhu ▸ hz) (hhu' ▸ hz')
  · obtain ⟨y, z, hy, hkz, hz⟩ := hw.wrapped k h hkh
    by_cases hyx : y = x
    · subst hyx
      obtain rfl := Option.some.inj (hx.symm.trans hy)
      exact ⟨y, w', Function.update_self .., hk.trans hkz, hh.trans hz⟩
    · exact ⟨y, z, (Function.update_of_ne hyx _ _).trans hy, hkz, hz⟩
  · obtain ⟨z', hy, -, hh', ho', -⟩ := hback y z hy
    rw [ho']
    exact hw.closed y z' hy (hh' ▸ hz)

lemma attach (hw : Wrapped v f wrappers) (hx : wrappers x = none) (hh : w.handle = some h)
    (hnew : v.handles w.kind h = none) (ho : w.owner = some o) (hf : f o = some (.cuda b))
    (hv : v'.handles = (v.setHandle w.kind h (some ⟨some b, w.stream, true⟩)).handles) :
    Wrapped v' f (Function.update wrappers x (some w)) := by
  have hold : ∀ y z k, wrappers y = some z → z.handle = some k → ¬ (z.kind = w.kind ∧ k = h) := by
    rintro y z k hy hz ⟨hk, rfl⟩
    obtain ⟨p, c, -, -, hp⟩ := hw.points y z k hy hz
    rw [hk, hnew] at hp
    cases hp
  refine ⟨fun y z k hy hz => ?_, fun y y' z z' k hy hy' hkk hz hz' => ?_, fun k c hkc => ?_,
    fun y z hy hz => ?_⟩
  · rw [hv]
    rcases update_some hy with ⟨rfl, he⟩ | ⟨-, hy⟩
    · obtain rfl := Option.some.inj he
      obtain rfl := Option.some.inj (hh.symm.trans hz)
      exact ⟨o, b, ho, hf, if_pos ⟨rfl, rfl⟩⟩
    · obtain ⟨p, c, hp, hc, hpoint⟩ := hw.points y z k hy hz
      exact ⟨p, c, hp, hc, (if_neg (hold y z k hy hz)).trans hpoint⟩
  · rcases update_some hy with ⟨rfl, he⟩ | ⟨-, hyo⟩
    · obtain rfl := Option.some.inj he
      rcases update_some hy' with ⟨rfl, -⟩ | ⟨-, hy'⟩
      · rfl
      · exact absurd ⟨hkk.symm, Option.some.inj (hz.symm.trans hh)⟩ (hold y' z' k hy' hz')
    · rcases update_some hy' with ⟨rfl, he⟩ | ⟨-, hy'⟩
      · obtain rfl := Option.some.inj he
        exact absurd ⟨hkk, Option.some.inj (hz'.symm.trans hh)⟩ (hold y z k hyo hz)
      · exact hw.distinct y y' z z' k hyo hy' hkk hz hz'
  · by_cases hkh : k = w.kind ∧ c = h
    · obtain ⟨rfl, rfl⟩ := hkh
      exact ⟨x, w, Function.update_self .., rfl, hh⟩
    · rw [hv, Ownership.setHandle] at hkc
      simp only [if_neg hkh] at hkc
      obtain ⟨y, z, hy, hkz, hz⟩ := hw.wrapped k c hkc
      have hne : y ≠ x := by
        rintro rfl
        rw [hx] at hy
        cases hy
      exact ⟨y, z, (Function.update_of_ne hne _ _).trans hy, hkz, hz⟩
  · rcases update_some hy with ⟨-, he⟩ | ⟨-, hy⟩
    · obtain rfl := Option.some.inj he
      rw [hh] at hz
      cases hz
    · exact hw.closed y z hy hz

/-- A wrapper is closed: what comes in its place has neither handle nor owner. -/
lemma detach (hw : Wrapped v f wrappers) (hx : wrappers x = some w) (hh : w.handle = some h)
    (hv : v'.handles = (v.setHandle w.kind h none).handles) {z : Option HandleWrapper}
    (hz : ∀ u, z = some u → u.handle = none ∧ u.owner = none) :
    Wrapped v' f (Function.update wrappers x z) := by
  have hback : ∀ y u k, Function.update wrappers x z y = some u → u.handle = some k →
      y ≠ x ∧ wrappers y = some u := by
    intro y u k hy hu
    rcases update_some hy with ⟨-, he⟩ | hy
    · rw [(hz u he).1] at hu
      cases hu
    · exact hy
  refine ⟨fun y u k hy hu => ?_, fun y y' u u' k hy hy' hkk hu hu' => ?_, fun k c hkc => ?_,
    fun y u hy hu => ?_⟩
  · obtain ⟨hne, hy⟩ := hback y u k hy hu
    obtain ⟨o, b, ho, hb, hp⟩ := hw.points y u k hy hu
    have hother : ¬ (u.kind = w.kind ∧ k = h) := by
      rintro ⟨hk, rfl⟩
      exact hne (hw.distinct y x u w k hy hx hk hu hh)
    refine ⟨o, b, ho, hb, ?_⟩
    rw [hv]
    exact (if_neg hother).trans hp
  · exact hw.distinct y y' u u' k (hback y u k hy hu).2 (hback y' u' k hy' hu').2 hkk hu hu'
  · rw [hv, Ownership.setHandle] at hkc
    by_cases hkh : k = w.kind ∧ c = h
    · simp [hkh] at hkc
    · simp only [if_neg hkh] at hkc
      obtain ⟨y, u, hy, hku, hu⟩ := hw.wrapped k c hkc
      have hne : y ≠ x := by
        rintro rfl
        obtain rfl := Option.some.inj (hx.symm.trans hy)
        exact hkh ⟨hku.symm, Option.some.inj (hu.symm.trans hh)⟩
      exact ⟨y, u, (Function.update_of_ne hne _ _).trans hy, hku, hu⟩
  · rcases update_some hy with ⟨-, he⟩ | ⟨-, hy⟩
    · exact (hz u he).2
    · exact hw.closed y u hy hu

lemma detach_closed (hw : Wrapped v f wrappers) (hx : wrappers x = some w) (hh : w.handle = none)
    {z : Option HandleWrapper} (hz : ∀ u, z = some u → u.handle = none ∧ u.owner = none) :
    Wrapped v f (Function.update wrappers x z) := by
  have hback : ∀ y u k, Function.update wrappers x z y = some u → u.handle = some k →
      wrappers y = some u := by
    intro y u k hy hu
    rcases update_some hy with ⟨-, he⟩ | ⟨-, hy⟩
    · rw [(hz u he).1] at hu
      cases hu
    · exact hy
  refine ⟨fun y u k hy hu => hw.points y u k (hback y u k hy hu) hu,
    fun y y' u u' k hy hy' hkk hu hu' =>
      hw.distinct y y' u u' k (hback y u k hy hu) (hback y' u' k hy' hu') hkk hu hu',
    fun k c hkc => ?_, fun y u hy hu => ?_⟩
  · obtain ⟨y, u, hy, hku, hu⟩ := hw.wrapped k c hkc
    have hne : y ≠ x := by
      rintro rfl
      obtain rfl := Option.some.inj (hx.symm.trans hy)
      rw [hh] at hu
      cases hu
    exact ⟨y, u, (Function.update_of_ne hne _ _).trans hy, hku, hu⟩
  · rcases update_some hy with ⟨-, he⟩ | ⟨-, hy⟩
    · exact (hz u he).2
    · exact hw.closed y u hy hu

/-- The buffer of an object that owns no wrapper has no handle. -/
lemma free (hs : Stored v f) (hw : Wrapped v f wrappers) (ho : f o = some (.cuda b))
    (hnone : ∀ x w, wrappers x = some w → w.owner ≠ some o) : v.Free b := by
  intro k h p hp hb
  obtain ⟨x, w, hx, rfl, hh⟩ := hw.wrapped k h (Option.isSome_of_eq_some hp)
  obtain ⟨o', b', ho', hb', hp'⟩ := hw.points x w h hx hh
  obtain rfl := Option.some.inj (hp.symm.trans hp')
  obtain rfl : b' = b := Option.some.inj hb
  exact hnone x w hx (hs.unshared o' o b' hb' ho ▸ ho')

end Wrapped

namespace Tallied

lemma same (ht : Tallied i loose) (ho : i'.objects = i.objects) (hno : i'.nextObject = i.nextObject)
    (hw : i'.wrappers = i.wrappers) (hnw : i'.nextWrapper = i.nextWrapper) : Tallied i' loose := by
  refine ⟨ho ▸ hno ▸ ht.objects, hw ▸ hnw ▸ ht.wrappers, fun o obj hobj => ?_, ho ▸ ht.alive,
    ho ▸ hw ▸ ht.owner, hw ▸ ht.referenced⟩
  rw [Interpreter.owners, hw, hnw]
  exact ht.counted o obj (ho ▸ hobj)

/-- An object's references change; its wrappers do not. -/
lemma setObject (ht : Tallied i loose) {loose' : Option ℕ} (ho : i.objects o = some obj)
    (hrefs : obj'.refs = obj'.held + i.owners o + if loose' = some o then 1 else 0)
    (hpos : 0 < obj'.refs) (hloose : ∀ p, p ≠ o → (loose' = some p ↔ loose = some p)) :
    Tallied (i.setObject o (some obj')) loose' := by
  refine ⟨fun p y hp => ?_, ht.wrappers, fun p y hp => ?_, fun p y hp => ?_, fun x w p hx hp => ?_,
    ht.referenced⟩
  · rcases update_some hp with ⟨rfl, -⟩ | ⟨-, hp⟩
    · exact ht.objects p obj ho
    · exact ht.objects p y hp
  · rcases update_some hp with ⟨rfl, he⟩ | ⟨hne, hp⟩
    · obtain rfl := Option.some.inj he
      exact hrefs
    · rw [ht.counted p y hp, if_congr (hloose p hne) rfl rfl]
      rfl
  · rcases update_some hp with ⟨rfl, he⟩ | ⟨-, hp⟩
    · obtain rfl := Option.some.inj he
      exact hpos
    · exact ht.alive p y hp
  · change (Function.update i.objects o (some obj') p).isSome
    by_cases hpo : p = o
    · rw [hpo, Function.update_self]
      rfl
    · rw [Function.update_of_ne hpo]
      exact ht.owner x w p hx hp

lemma borrow (ht : Tallied i none) (ho : i.objects o = some obj) :
    Tallied (i.setObject o (some { obj with refs := obj.refs + 1 })) (some o) := by
  refine ht.setObject ho ?_ obj.refs.succ_pos fun p hp => by simp [Ne.symm hp]
  have hcount := ht.counted o obj ho
  simp only [reduceCtorEq, if_false, if_true] at hcount ⊢
  omega

lemma keep (ht : Tallied i (some o)) (ho : i.objects o = some obj) :
    Tallied (i.setObject o (some { obj with held := obj.held + 1 })) none := by
  refine ht.setObject ho ?_ (ht.alive o obj ho) fun p hp => by simp [Ne.symm hp]
  have hcount := ht.counted o obj ho
  simp only [reduceCtorEq, if_false, if_true] at hcount ⊢
  omega

lemma release (ht : Tallied i none) (ho : i.objects o = some obj) (hheld : 0 < obj.held) :
    Tallied (i.setObject o (some { obj with held := obj.held - 1 })) (some o) := by
  refine ht.setObject ho ?_ (ht.alive o obj ho) fun p hp => by simp [Ne.symm hp]
  have hcount := ht.counted o obj ho
  simp only [reduceCtorEq, if_false, if_true] at hcount ⊢
  omega

lemma fresh_owners (ht : Tallied i loose) : i.owners i.nextObject = 0 := by
  refine List.sum_eq_zero fun n hn => ?_
  obtain ⟨x, -, rfl⟩ := List.mem_map.mp hn
  cases hx : i.wrappers x with
  | none => rfl
  | some w =>
    refine if_neg fun ho => ?_
    obtain ⟨obj, hobj⟩ := Option.isSome_iff_exists.mp (ht.owner x w _ hx ho)
    exact absurd (ht.objects _ obj hobj) (lt_irrefl _)

lemma addObject (ht : Tallied i none) (hr : obj.refs = 1) (hh : obj.held = 0) :
    Tallied (i.addObject obj) (some i.nextObject) := by
  have hlt : ∀ p y, i.objects p = some y → p < i.nextObject := ht.objects
  refine ⟨fun p y hp => ?_, ht.wrappers, fun p y hp => ?_, fun p y hp => ?_, fun x w p hx hp => ?_,
    ht.referenced⟩
  · rcases update_some hp with ⟨rfl, -⟩ | ⟨-, hp⟩
    · exact Nat.lt_succ_self _
    · exact Nat.lt_succ_of_lt (hlt p y hp)
  · rcases update_some hp with ⟨rfl, he⟩ | ⟨hne, hp⟩
    · obtain rfl := Option.some.inj he
      have hzero : (i.addObject obj).owners i.nextObject = 0 := ht.fresh_owners
      rw [hr, hh, hzero, if_pos rfl]
    · rw [if_neg fun he => hne (Option.some.inj he).symm, ht.counted p y hp]
      rfl
  · rcases update_some hp with ⟨-, he⟩ | ⟨-, hp⟩
    · obtain rfl := Option.some.inj he
      rw [hr]
      exact Nat.one_pos
    · exact ht.alive p y hp
  · obtain ⟨y, hy⟩ := Option.isSome_iff_exists.mp (ht.owner x w p hx hp)
    exact Option.isSome_of_eq_some ((Function.update_of_ne (hlt p y hy).ne _ _).trans hy)

/-- The wrapper takes over the reference. -/
lemma attach (ht : Tallied i (some o)) (ho : w.owner = some o) (hobj : (i.objects o).isSome)
    (hr : 0 < w.refs) : Tallied (i.addWrapper w) none := by
  refine ⟨ht.objects, fun x u hx => ?_, fun p y hp => ?_, ht.alive, fun x u p hx hp => ?_,
    fun x u hx => ?_⟩
  · rcases update_some hx with ⟨rfl, -⟩ | ⟨-, hx⟩
    · exact Nat.lt_succ_self _
    · exact Nat.lt_succ_of_lt (ht.wrappers x u hx)
  · have hcount := ht.counted p y hp
    have howners : (i.addWrapper w).owners p = i.owners p + ownedBy p w := total_insert _ _ _ _
    have hown : ownedBy p w = if some o = some p then 1 else 0 := by rw [ownedBy, ho]
    rw [howners, hown, hcount, if_neg (Option.some_ne_none p).symm]
    omega
  · rcases update_some hx with ⟨-, he⟩ | ⟨-, hx⟩
    · obtain rfl := Option.some.inj he
      obtain rfl := Option.some.inj (ho.symm.trans hp)
      exact hobj
    · exact ht.owner x u p hx hp
  · rcases update_some hx with ⟨-, he⟩ | ⟨-, hx⟩
    · obtain rfl := Option.some.inj he
      exact hr
    · exact ht.referenced x u hx

lemma owners_setWrapper (hlt : x < i.nextWrapper) (hx : i.wrappers x = some w)
    (z : Option HandleWrapper) (o : ℕ) :
    (i.setWrapper x z).owners o + ownedBy o w = i.owners o + z.elim 0 (ownedBy o) := by
  have htotal := total_update (f := i.wrappers) (w := ownedBy o) hlt z
  rw [hx] at htotal
  exact htotal

/-- What the wrapper held is loose. -/
lemma detach (ht : Tallied i none) (hx : i.wrappers x = some w) {z : Option HandleWrapper}
    (hz : ∀ u, z = some u → u.owner = none ∧ 0 < u.refs) :
    Tallied (i.setWrapper x z) w.owner := by
  have hnone : ∀ p, z.elim 0 (ownedBy p) = 0 := by
    intro p
    cases z with
    | none => rfl
    | some u =>
      rw [Option.elim_some, ownedBy, (hz u rfl).1]
      rfl
  refine ⟨ht.objects, fun y u hy => ?_, fun p y hp => ?_, ht.alive, fun y u p hy hp => ?_,
    fun y u hy => ?_⟩
  · rcases update_some hy with ⟨rfl, -⟩ | ⟨-, hy⟩
    · exact ht.wrappers y w hx
    · exact ht.wrappers y u hy
  · have hcount := ht.counted p y hp
    have howners := owners_setWrapper (ht.wrappers x w hx) hx z p
    rw [hnone p, ownedBy] at howners
    rw [if_neg (by simp)] at hcount
    change y.refs = y.held + (i.setWrapper x z).owners p + _
    omega
  · rcases update_some hy with ⟨-, he⟩ | ⟨-, hy⟩
    · rw [(hz u he).1] at hp
      cases hp
    · exact ht.owner y u p hy hp
  · rcases update_some hy with ⟨-, he⟩ | ⟨-, hy⟩
    · exact (hz u he).2
    · exact ht.referenced y u hy

lemma setWrapper (ht : Tallied i loose) (hx : i.wrappers x = some w) (ho : w'.owner = w.owner)
    (hr : 0 < w'.refs) : Tallied (i.setWrapper x (some w')) loose := by
  have hown : ∀ p, ownedBy p w' = ownedBy p w := fun p => by rw [ownedBy, ownedBy, ho]
  refine ⟨ht.objects, fun y u hy => ?_, fun p y hp => ?_, ht.alive, fun y u p hy hp => ?_,
    fun y u hy => ?_⟩
  · rcases update_some hy with ⟨rfl, -⟩ | ⟨-, hy⟩
    · exact ht.wrappers y w hx
    · exact ht.wrappers y u hy
  · have hcount := ht.counted p y hp
    have howners := owners_setWrapper (ht.wrappers x w hx) hx (some w') p
    rw [Option.elim_some, hown p] at howners
    change y.refs = y.held + (i.setWrapper x (some w')).owners p + _
    omega
  · rcases update_some hy with ⟨-, he⟩ | ⟨-, hy⟩
    · obtain rfl := Option.some.inj he
      exact ht.owner x w p hx (ho ▸ hp)
    · exact ht.owner y u p hy hp
  · rcases update_some hy with ⟨-, he⟩ | ⟨-, hy⟩
    · obtain rfl := Option.some.inj he
      exact hr
    · exact ht.referenced y u hy

/-- The last reference is the loose one. -/
lemma no_owner (ht : Tallied i (some o)) (ho : i.objects o = some obj) (hlast : obj.refs ≤ 1) :
    ∀ x w, i.wrappers x = some w → w.owner ≠ some o := by
  intro x w hx hw
  have hcount := ht.counted o obj ho
  have hle : (i.wrappers x).elim 0 (ownedBy o) ≤ i.owners o := le_total (ht.wrappers x w hx)
  rw [hx, Option.elim_some, ownedBy, if_pos hw] at hle
  rw [if_pos rfl] at hcount
  omega

lemma remove (ht : Tallied i (some o)) (ho : i.objects o = some obj) (hlast : obj.refs ≤ 1) :
    Tallied (i.setObject o none) none := by
  refine ⟨fun p y hp => ?_, ht.wrappers, fun p y hp => ?_, fun p y hp => ?_, fun x w p hx hp => ?_,
    ht.referenced⟩
  · rcases update_some hp with ⟨-, he⟩ | ⟨-, hp⟩
    · cases he
    · exact ht.objects p y hp
  · rcases update_some hp with ⟨-, he⟩ | ⟨hne, hp⟩
    · cases he
    · rw [ht.counted p y hp, if_neg fun he => hne (Option.some.inj he).symm, if_neg (by simp)]
      rfl
  · rcases update_some hp with ⟨-, he⟩ | ⟨-, hp⟩
    · cases he
    · exact ht.alive p y hp
  · have hne : p ≠ o := by
      rintro rfl
      exact ht.no_owner ho hlast x w hx hp
    exact (congrArg _ (Function.update_of_ne hne _ _)).trans (ht.owner x w p hx hp)

lemma decrease (ht : Tallied i (some o)) (ho : i.objects o = some obj) (hmore : 1 < obj.refs) :
    Tallied (i.setObject o (some { obj with refs := obj.refs - 1 })) none := by
  have hcount := ht.counted o obj ho
  refine ht.setObject ho ?_ (Nat.sub_pos_of_lt hmore) fun p hp => by simp [Ne.symm hp]
  simp only [reduceCtorEq, if_false, if_true] at hcount ⊢
  omega

end Tallied

end RosidlBufferBackends.Buffers.Bindings
