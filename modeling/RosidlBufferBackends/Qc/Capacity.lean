import Mathlib.Algebra.Order.Ring.Int
import RosidlBufferBackends.Qc.FdBroker

/-! The allocation behind a new buffer. The byte size is a `size_t`, and the library takes an
`int`. -/

namespace RosidlBufferBackends.Qc.Capacity

def kRpcmemHeapIdSystem : ℤ := 25

def kRpcmemDefaultFlags : ℕ := 1

structure Allocation where
  ptr : ℕ
  bytes : ℕ
  nonnull : ptr ≠ 0

/-- The functions of `libcdsprpc.so`, as they answer here. -/
structure RpcMem where
  alloc : ℤ → ℕ → ℤ → Option Allocation
  toFd : ℕ → ℤ

/-- `static_cast<int>` -/
def toInt (size : ℕ) : ℤ :=
  if size % 2 ^ 32 < 2 ^ 31 then (size % 2 ^ 32 : ℕ) else (size % 2 ^ 32 : ℕ) - 2 ^ 32

namespace RpcMemLoader

/-- `RpcMemLoader::alloc`, with `none` for the null pointer. -/
def alloc (lib : RpcMem) (available : Bool) (heapId : ℤ) (flags size : ℕ) : Option Allocation :=
  if available = false then none else lib.alloc heapId flags (toInt size)

def toFd (lib : RpcMem) (available : Bool) (ptr : ℕ) : ℤ :=
  if available = false ∨ ptr = 0 then -1 else lib.toFd ptr

end RpcMemLoader

/-- What the constructor of `QcBuffer` asks of the loader. -/
def answer (lib : RpcMem) (s : Process) (byteSize : ℕ) : Option Allocation :=
  RpcMemLoader.alloc lib s.available kRpcmemHeapIdSystem kRpcmemDefaultFlags byteSize

def answeredPtr (lib : RpcMem) (s : Process) (byteSize : ℕ) : ℕ :=
  (answer lib s byteSize).elim 0 Allocation.ptr

/-- `QcBufferImpl(size_t)`, with the object `k` for its `QcBuffer`. -/
def construct (lib : RpcMem) (s : Process) (k elementSize n : ℕ) :
    Output × Process × QcBufferImpl :=
  if 0 < n then
    let byteSize := n * elementSize % 2 ^ 64
    let ptr := answeredPtr lib s byteSize
    let (o, s) := s.allocate k byteSize ptr (RpcMemLoader.toFd lib s.available ptr)
    (o, s, ⟨n, some k⟩)
  else (.done, s, ⟨n, none⟩)

/-- The buffer records the bytes of its elements, and its allocation has room for them. -/
structure Holds (lib : RpcMem) (s t : Process) (impl : QcBufferImpl) (elementSize n : ℕ) :
    Prop where
  size : impl.size = n
  buffer : 0 < n → ∃ k qc a, impl.qcBuffer = some k ∧ t.buffers k = some qc ∧
    answer lib s (n * elementSize % 2 ^ 64) = some a ∧ qc.ptr = a.ptr ∧
    qc.size = n * elementSize ∧ qc.size ≤ a.bytes

/-- The constructor throws, or its buffer holds the elements. -/
def Sound (lib : RpcMem) (s : Process) (k elementSize n : ℕ) : Prop :=
  (construct lib s k elementSize n).1 = .done →
    Holds lib s (construct lib s k elementSize n).2.1 (construct lib s k elementSize n).2.2
      elementSize n

/-- The constructor asks for some bytes and gets none, or none that it can share. -/
def Refused (lib : RpcMem) (s : Process) (byteSize : ℕ) : Prop :=
  byteSize ≠ 0 ∧ ∀ a, answer lib s byteSize = some a → lib.toFd a.ptr < 0

/-- The library has made enough of a size that is not positive. -/
def Generous (lib : RpcMem) (s : Process) (size : ℕ) : Prop :=
  size < 2 ^ 64 ∧ toInt size ≤ 0 ∧ ∃ a, answer lib s size = some a ∧ size ≤ a.bytes

variable {lib : RpcMem} {s : Process} {k elementSize n : ℕ}

lemma toInt_of_lt {size : ℕ} (h : size < 2 ^ 31) : toInt size = size := by
  have hmod : size % 2 ^ 32 = size := Nat.mod_eq_of_lt (h.trans (by decide))
  rw [toInt, hmod, if_pos h]

lemma toInt_lt (size : ℕ) : toInt size < 2 ^ 31 := by
  have hmod := Nat.mod_lt size (Nat.two_pow_pos 32)
  unfold toInt
  split_ifs <;> omega

lemma answer_available {byteSize : ℕ} {a : Allocation} (h : answer lib s byteSize = some a) :
    s.available = true ∧ lib.alloc kRpcmemHeapIdSystem kRpcmemDefaultFlags (toInt byteSize) =
      some a := by
  rw [answer, RpcMemLoader.alloc] at h
  split_ifs at h with ha
  exact ⟨by simpa using ha, h⟩

/-- The constructor throws where it is refused, and keeps what it is given elsewhere. -/
lemma construct_cases (lib : RpcMem) (s : Process) (k elementSize : ℕ) (hn : 0 < n) :
    n * elementSize % 2 ^ 64 = 0 ∧ (construct lib s k elementSize n).1 = .done ∧
        (construct lib s k elementSize n).2.1.buffers k = some {} ∨
      Refused lib s (n * elementSize % 2 ^ 64) ∧ (construct lib s k elementSize n).1 ≠ .done ∨
      n * elementSize % 2 ^ 64 ≠ 0 ∧ ∃ a qc, answer lib s (n * elementSize % 2 ^ 64) = some a ∧
        0 ≤ lib.toFd a.ptr ∧ (construct lib s k elementSize n).1 = .done ∧
        (construct lib s k elementSize n).2.1.buffers k = some qc ∧ qc.ptr = a.ptr ∧
        qc.size = n * elementSize % 2 ^ 64 := by
  rw [construct, if_pos hn]
  dsimp only
  rw [Process.allocate, answeredPtr]
  by_cases hzero : n * elementSize % 2 ^ 64 = 0
  · rw [if_pos hzero]
    exact .inl ⟨hzero, rfl, Function.update_self ..⟩
  · rw [if_neg hzero]
    refine .inr ?_
    cases ha : answer lib s (n * elementSize % 2 ^ 64) with
    | none =>
      refine .inl ⟨⟨hzero, ?_⟩, ?_⟩
      · intro a he
        exact nomatch ha.symm.trans he
      · split_ifs <;> simp_all
    | some a =>
      obtain ⟨havailable, -⟩ := answer_available ha
      have hfd : RpcMemLoader.toFd lib s.available a.ptr = lib.toFd a.ptr := by
        rw [RpcMemLoader.toFd, if_neg]
        simp [havailable, a.nonnull]
      simp only [havailable, Option.elim_some, Bool.not_true, Bool.false_eq_true, if_false,
        if_neg a.nonnull]
      rw [havailable] at hfd
      rw [hfd]
      by_cases hneg : lib.toFd a.ptr < 0
      · refine .inl ⟨⟨hzero, ?_⟩, ?_⟩
        · intro a' he
          obtain rfl := Option.some.inj (ha.symm.trans he)
          exact hneg
        · rw [if_pos hneg]
          exact nofun
      · rw [if_neg hneg]
        exact .inr ⟨hzero, a, _, rfl, not_lt.mp hneg, rfl, Function.update_self .., rfl, rfl⟩

theorem allocation_holds_iff (lib : RpcMem) (s : Process) (k : ℕ) (helement : 0 < elementSize)
    (hexact : ∀ heap flags size a, 0 < size → lib.alloc heap flags size = some a →
      (a.bytes : ℤ) = size) :
    Sound lib s k elementSize n ↔ (0 < n → n * elementSize < 2 ^ 31 ∨
      Refused lib s (n * elementSize % 2 ^ 64) ∨ Generous lib s (n * elementSize)) := by
  rcases Nat.eq_zero_or_pos n with rfl | hn
  · refine iff_of_true ?_ fun h => absurd h (lt_irrefl 0)
    exact fun _ => ⟨rfl, fun h => absurd h (lt_irrefl 0)⟩
  have hpos : 0 < n * elementSize := Nat.mul_pos hn helement
  have himpl : (construct lib s k elementSize n).2.2 = ⟨n, some k⟩ := by
    rw [construct, if_pos hn]
  rw [forall_prop_of_true hn]
  rcases construct_cases lib s k elementSize hn with
    ⟨hzero, hdone, hbuffer⟩ | ⟨hrefused, hthrew⟩ | ⟨hne, a, qc, ha, hfd, hdone, hbuffer,
      hptr, hsize⟩
  · -- nothing is allocated for a product that wraps around to 0
    refine iff_of_false ?_ ?_
    · intro h
      obtain ⟨k', qc, a, hk, hqc, -, -, hqcsize, -⟩ := (h hdone).buffer hn
      rw [himpl] at hk
      obtain rfl := Option.some.inj hk
      obtain rfl := Option.some.inj (hbuffer.symm.trans hqc)
      exact hpos.ne hqcsize
    · rintro (hlt | hrefused | hgenerous)
      · rw [Nat.mod_eq_of_lt (hlt.trans (by decide))] at hzero
        exact hpos.ne' hzero
      · exact hrefused.1 hzero
      · rw [Nat.mod_eq_of_lt hgenerous.1] at hzero
        exact hpos.ne' hzero
  · exact iff_of_true (fun h => absurd h hthrew) (.inr (.inl hrefused))
  · constructor
    · intro h
      obtain ⟨k', qc', a', hk, hqc, ha', -, hqcsize, hle⟩ := (h hdone).buffer hn
      rw [himpl] at hk
      obtain rfl := Option.some.inj hk
      obtain rfl := Option.some.inj (hbuffer.symm.trans hqc)
      obtain rfl := Option.some.inj (ha.symm.trans ha')
      have hsame : n * elementSize % 2 ^ 64 = n * elementSize := hsize.symm.trans hqcsize
      have hlt : n * elementSize < 2 ^ 64 := hsame ▸ Nat.mod_lt _ (Nat.two_pow_pos 64)
      rw [hqcsize] at hle
      rw [hsame] at ha
      rcases lt_or_ge 0 (toInt (n * elementSize)) with hint | hint
      · have hbytes := hexact _ _ _ a hint (answer_available ha).2
        have hbound := toInt_lt (n * elementSize)
        exact .inl (by omega)
      · exact .inr (.inr ⟨hlt, hint, a, ha, hle⟩)
    · intro h _
      have hholds : n * elementSize % 2 ^ 64 = n * elementSize ∧ n * elementSize ≤ a.bytes := by
        rcases h with hlt | hrefused | ⟨hlt, -, a', ha', hle⟩
        · have hsame : n * elementSize % 2 ^ 64 = n * elementSize :=
            Nat.mod_eq_of_lt (hlt.trans (by decide))
          have hint := toInt_of_lt hlt
          rw [hsame] at ha
          have hbytes := hexact _ _ _ a (by omega) (answer_available ha).2
          exact ⟨hsame, by omega⟩
        · exact absurd (hrefused.2 a ha) (not_lt.mpr hfd)
        · rw [Nat.mod_eq_of_lt hlt] at ha ⊢
          obtain rfl := Option.some.inj (ha.symm.trans ha')
          exact ⟨rfl, hle⟩
      rw [himpl]
      refine ⟨rfl, fun _ => ⟨k, qc, a, rfl, hbuffer, ha, hptr, hsize.trans hholds.1, ?_⟩⟩
      rw [hsize, hholds.1]
      exact hholds.2

/-- A library that makes what it is asked for, and refuses sizes that are not positive. -/
def exactLib : RpcMem where
  alloc := fun _ _ size => if 0 < size then some ⟨4096, size.toNat, by decide⟩ else none
  toFd := fun _ => 10

lemma exactLib_exact : ∀ heap flags size a, 0 < size → exactLib.alloc heap flags size = some a →
    (a.bytes : ℤ) = size := by
  intro heap flags size a hpos ha
  have he : (if 0 < size then some (⟨4096, size.toNat, by decide⟩ : Allocation) else none) =
      some a :=
    ha
  rw [if_pos hpos] at he
  obtain rfl := Option.some.inj he
  exact Int.toNat_of_nonneg hpos.le

theorem allocation_holds_once :
    Sound exactLib (.start 7 true true "/tmp/qc_broker_7.sock") 0 8 100 :=
  (allocation_holds_iff exactLib _ 0 (by decide) exactLib_exact).mpr fun _ => .inl (by decide)

/-- 2^32 + 8 bytes are narrowed to 8, and 2^61 elements of 8 bytes take none. -/
theorem narrowed_request_underallocated :
    ¬ Sound exactLib (.start 7 true true "/tmp/qc_broker_7.sock") 0 1 (2 ^ 32 + 8) ∧
      ¬ Sound exactLib (.start 7 true true "/tmp/qc_broker_7.sock") 0 8 (2 ^ 61) := by
  constructor
  · intro h
    obtain ⟨k, qc, a, hk, hqc, ha, -, -, hle⟩ := (h rfl).buffer (by decide)
    obtain rfl := Option.some.inj hk
    obtain rfl := Option.some.inj hqc
    obtain rfl := Option.some.inj ha
    exact absurd hle (by decide)
  · intro h
    obtain ⟨k, qc, a, hk, hqc, -, -, hsize, -⟩ := (h rfl).buffer (by decide)
    obtain rfl := Option.some.inj hk
    obtain rfl := Option.some.inj hqc
    exact absurd hsize (by decide)

end RosidlBufferBackends.Qc.Capacity
