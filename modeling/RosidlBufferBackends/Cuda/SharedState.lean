import Mathlib.Algebra.Order.Ring.Int
import RosidlBufferBackends.Lib.Ledger
import Mathlib.Data.Int.Notation
import Mathlib.Logic.Function.Basic

/-! The state that a publisher process and its subscribers share through the
operating system: metadata segments under their names, exported files, and the
sockets that serve them. Segments are numbered in the order of their creation; an
allocation is the number of the physical memory behind a generic handle. -/

namespace RosidlBufferBackends.Cuda

structure IPCMetadata where
  refcount : Int32 := 0
  uid : ℕ := 0
  publishTimestampUs : ℕ := 0
  deriving DecidableEq, Repr

def IPCMetadata.fetchAdd (m : IPCMetadata) : IPCMetadata := { m with refcount := m.refcount + 1 }

def IPCMetadata.fetchSub (m : IPCMetadata) : IPCMetadata := { m with refcount := m.refcount - 1 }

@[simp] lemma IPCMetadata.fetchSub_fetchAdd (m : IPCMetadata) : m.fetchAdd.fetchSub = m := by
  simp [fetchAdd, fetchSub, Int32.add_sub_cancel]

lemma IPCMetadata.fetchAdd_toInt (m : IPCMetadata) :
    m.fetchAdd.refcount.toInt = m.refcount.toInt + 1 ↔ m.refcount.toInt < 2 ^ 31 - 1 := by
  have hlt := m.refcount.toInt_lt
  have hle := m.refcount.le_toInt
  rw [fetchAdd, Int32.toInt_add, Int32.toInt_one, Int.bmod_def]
  omega

lemma IPCMetadata.fetchSub_toInt {m : IPCMetadata} (h : 0 < m.refcount.toInt) :
    m.fetchSub.refcount.toInt = m.refcount.toInt - 1 := by
  have hlt := m.refcount.toInt_lt
  rw [fetchSub, Int32.toInt_sub, Int32.toInt_one, Int.bmod_def]
  omega

lemma IPCMetadata.fetchAdd_refcount_ne (m : IPCMetadata) : m.fetchAdd.refcount ≠ m.refcount := by
  intro h
  have hi := congrArg Int32.toInt h
  have hlt := m.refcount.toInt_lt
  have hle := m.refcount.le_toInt
  rw [fetchAdd, Int32.toInt_add, Int32.toInt_one, Int.bmod_def] at hi
  omega

inductive CudaError
  | driver (expr : String)
  | runtime (expr : String)
  | message (text : String)
  deriving DecidableEq, Repr

inductive Resource
  | shmFd (fd : ℤ)
  | metadataMapping (seg : ℕ)
  | clientSocket (fd : ℤ)
  | receivedFd (fd : ℤ)
  | exportedFd (fd : ℤ)
  | allocationHandle (a : ℕ)
  | addressRange (va size : ℕ)
  | mapping (va size : ℕ)
  deriving DecidableEq, Repr

/-- What a client finds at a socket that is bound and listens: somebody who serves the
file of an allocation, or nobody who would answer. -/
inductive Listener
  | unserved
  | serves (a : ℕ)
  deriving DecidableEq, Repr

/-- How a call ends; a call that waits for an answer has not ended, and holds its
reference to a segment. -/
inductive Ending (α : Type)
  | ok (value : α)
  | error (e : CudaError)
  | waits (ipcMeta : Option ℕ)
  deriving DecidableEq, Repr

def Ending.toOption {α : Type} : Ending α → Option α
  | .ok value => some value
  | .error _ => none
  | .waits _ => none

structure Os where
  segments : ℕ → IPCMetadata := fun _ => {}
  nextSegment : ℕ := 0
  shmNames : String → Option ℕ := fun _ => none
  files : ℤ → Option ℕ := fun _ => none
  sockets : String → Option Listener := fun _ => none

namespace Os

def modifySegment (os : Os) (seg : ℕ) (f : IPCMetadata → IPCMetadata) : Os :=
  { os with segments := Function.update os.segments seg (f (os.segments seg)) }

def shmUnlink (os : Os) (name : String) : Os :=
  { os with shmNames := Function.update os.shmNames name none }

/-- A new zeroed segment under a name that is not bound. -/
def shmCreate (os : Os) (name : String) : Os × ℕ :=
  ({ os with
      segments := Function.update os.segments os.nextSegment {}
      nextSegment := os.nextSegment + 1
      shmNames := Function.update os.shmNames name (some os.nextSegment) }, os.nextSegment)

/-- The change of a segment that may be missing. -/
def onMeta (os : Os) (ipcMeta : Option ℕ) (f : IPCMetadata → IPCMetadata) : Os :=
  match ipcMeta with
  | none => os
  | some seg => os.modifySegment seg f

@[simp] lemma modifySegment_self (os : Os) (seg : ℕ) (f : IPCMetadata → IPCMetadata) :
    (os.modifySegment seg f).segments seg = f (os.segments seg) := by
  simp [modifySegment]

lemma modifySegment_of_ne {os : Os} {seg seg' : ℕ} (h : seg' ≠ seg)
    (f : IPCMetadata → IPCMetadata) :
    (os.modifySegment seg f).segments seg' = os.segments seg' := by
  simp [modifySegment, h]

@[simp] lemma modifySegment_nextSegment (os : Os) (seg : ℕ) (f : IPCMetadata → IPCMetadata) :
    (os.modifySegment seg f).nextSegment = os.nextSegment := rfl

@[simp] lemma modifySegment_shmNames (os : Os) (seg : ℕ) (f : IPCMetadata → IPCMetadata) :
    (os.modifySegment seg f).shmNames = os.shmNames := rfl

@[simp] lemma modifySegment_files (os : Os) (seg : ℕ) (f : IPCMetadata → IPCMetadata) :
    (os.modifySegment seg f).files = os.files := rfl

@[simp] lemma modifySegment_sockets (os : Os) (seg : ℕ) (f : IPCMetadata → IPCMetadata) :
    (os.modifySegment seg f).sockets = os.sockets := rfl

lemma modifySegment_modifySegment (os : Os) (seg : ℕ) (f g : IPCMetadata → IPCMetadata) :
    (os.modifySegment seg f).modifySegment seg g = os.modifySegment seg (fun m => g (f m)) := by
  simp [modifySegment]

lemma modifySegment_id (os : Os) (seg : ℕ) : os.modifySegment seg (fun m => m) = os := by
  simp [modifySegment]

@[simp] lemma onMeta_nextSegment (os : Os) (ipcMeta : Option ℕ) (f : IPCMetadata → IPCMetadata) :
    (os.onMeta ipcMeta f).nextSegment = os.nextSegment := by
  cases ipcMeta <;> rfl

@[simp] lemma onMeta_shmNames (os : Os) (ipcMeta : Option ℕ) (f : IPCMetadata → IPCMetadata) :
    (os.onMeta ipcMeta f).shmNames = os.shmNames := by
  cases ipcMeta <;> rfl

@[simp] lemma onMeta_files (os : Os) (ipcMeta : Option ℕ) (f : IPCMetadata → IPCMetadata) :
    (os.onMeta ipcMeta f).files = os.files := by
  cases ipcMeta <;> rfl

@[simp] lemma onMeta_sockets (os : Os) (ipcMeta : Option ℕ) (f : IPCMetadata → IPCMetadata) :
    (os.onMeta ipcMeta f).sockets = os.sockets := by
  cases ipcMeta <;> rfl

lemma onMeta_segments (os : Os) (ipcMeta : Option ℕ) (f : IPCMetadata → IPCMetadata) (seg : ℕ) :
    (os.onMeta ipcMeta f).segments seg =
      if ipcMeta = some seg then f (os.segments seg) else os.segments seg := by
  cases ipcMeta with
  | none => rfl
  | some seg' =>
    by_cases h : seg' = seg
    · subst h
      simp [onMeta]
    · simp [onMeta, modifySegment_of_ne (Ne.symm h), h]

end Os

end RosidlBufferBackends.Cuda
