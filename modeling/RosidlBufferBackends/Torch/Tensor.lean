import RosidlBufferBackends.Torch.ViewArithmetic

/-! Tensors, the conversion plugins and their registry, and the CPU plugin. -/

namespace RosidlBufferBackends.Torch

open Checked RowMajor

inductive DeviceType
  | cpu
  | cuda
  | other (code : ℕ)
  deriving DecidableEq, Repr

structure Device where
  type : DeviceType
  index : Option ℕ := none
  deriving DecidableEq, Repr

/-- A strided view of the bytes from its first element on. The bytes are the tensor's own: no call
that is given the tensor writes them. -/
structure Tensor where
  scalarType : ScalarType
  device : Device
  sizes : List Int64
  strides : List Int64
  bytes : List UInt8
  ranked : sizes.length = strides.length
  sizes_nonneg : Nonneg sizes
  strides_nonneg : Nonneg strides
  numel_lt : (dims sizes).prod < 2 ^ 63
  inside : scalarType.elementSize.toNat * span (dims sizes) (dims strides) ≤ bytes.length

namespace Tensor

variable {t : Tensor} {i : List ℕ}

def itemSize (t : Tensor) : ℕ := t.scalarType.elementSize.toNat

def numel (t : Tensor) : ℕ := (dims t.sizes).prod

/-- `nbytes()`, computed in `size_t`. -/
def nbytes (t : Tensor) : UInt64 := UInt64.ofNat t.numel * t.scalarType.elementSize

def element (t : Tensor) (i : List ℕ) : List UInt8 :=
  (t.bytes.drop (t.itemSize * offset i (dims t.strides))).take t.itemSize

/-- The elements in row-major order. -/
def elements (t : Tensor) : List (List UInt8) := (indices (dims t.sizes)).map t.element

/-- The bytes of `contiguous()`, whose storage size must fit `int64_t`. -/
def contiguous (t : Tensor) : Option (List UInt8) :=
  if t.numel * t.itemSize < 2 ^ 63 then some t.elements.flatten else none

/-- `from_blob`: a tensor over the bytes, or an error. -/
def fromBlob (bytes : List UInt8) (sizes strides : List Int64) (dtype : ScalarType)
    (device : Device) : Except Exception Tensor :=
  if h : sizes.length = strides.length ∧ Nonneg sizes ∧ Nonneg strides ∧
      (dims sizes).prod < 2 ^ 63 ∧
      dtype.elementSize.toNat * span (dims sizes) (dims strides) ≤ bytes.length then
    .ok ⟨dtype, device, sizes, strides, bytes, h.1, h.2.1, h.2.2.1, h.2.2.2.1, h.2.2.2.2⟩
  else .error .torchError

lemma element_length (h : Within i (dims t.sizes)) : (t.element i).length = t.itemSize := by
  have hlt : offset i (dims t.strides) < span (dims t.sizes) (dims t.strides) :=
    h.offset_lt_span
  have hinside := t.inside
  have hle : t.itemSize * (offset i (dims t.strides) + 1) ≤
      t.itemSize * span (dims t.sizes) (dims t.strides) := Nat.mul_le_mul_left _ hlt
  rw [element, List.length_take, List.length_drop]
  have hitem : t.itemSize = t.scalarType.elementSize.toNat := rfl
  rw [← hitem] at hinside
  rw [Nat.mul_succ] at hle
  omega

lemma length_of_mem_elements {e : List UInt8} (h : e ∈ t.elements) : e.length = t.itemSize := by
  obtain ⟨i, hi, rfl⟩ := List.mem_map.mp h
  exact element_length (mem_indices.mp hi)

lemma length_elements : t.elements.length = t.numel := by
  rw [elements, List.length_map, length_indices, numel]

end Tensor

/-- The bytes are written from this place on. -/
def Storage.write (data : Storage) (start : ℕ) (bytes : List UInt8) : Storage where
  backend := data.backend
  bytes := (data.bytes.take start ++ bytes ++ data.bytes.drop (start + bytes.length)).take
    data.bytes.length
  size_lt := (List.length_take_le _ _).trans_lt data.size_lt

/-- What `copy_to` does: it throws before the copy, the copy fails with part of the
bytes written, or it is done. -/
inductive CopyOutcome (ε : Type)
  | rejected (e : ε)
  | failed (e : ε) (data : Storage)
  | copied (data : Storage)
  deriving DecidableEq, Repr

structure ConversionPlugin where
  backend : String
  deviceType : DeviceType
  priority : ℤ
  allocate : UInt64 → Device → Except Exception Storage
  copyTo : TensorMsg → Tensor → CopyOutcome Exception
  fromInput : TensorMsg → Except Exception Tensor

/-- `backends_` is a map by name, in order; `devices_` a map by device type. -/
structure Registry where
  backends : List (String × ConversionPlugin)
  devices : DeviceType → Option ConversionPlugin

namespace Registry

def describe (registry : Registry) : String :=
  let result := registry.backends.foldl (fun result entry =>
    result ++ if result.isEmpty then entry.1 else ", " ++ entry.1) ""
  if result.isEmpty then "[none installed]" else result

def forBackend (registry : Registry) (backend : String) : Except Exception ConversionPlugin :=
  match registry.backends.lookup backend with
  | some plugin => .ok plugin
  | none => .error (.runtimeError ("torch_conversions: no plugin provides backend '" ++ backend ++
      "'; available backends are " ++ registry.describe))

def deviceCode : DeviceType → ℕ
  | .cpu => 0
  | .cuda => 1
  | .other code => code

def forDevice (registry : Registry) (type : DeviceType) : Except Exception ConversionPlugin :=
  match registry.devices type with
  | some plugin => .ok plugin
  | none => .error (.runtimeError ("torch_conversions: no plugin serves Torch device type " ++
      toString (deviceCode type) ++ "; available backends are " ++ registry.describe))

/-- The first backend of the highest priority. -/
def defaultName (registry : Registry) : Except Exception String :=
  let select (selected : String × ℤ) (entry : String × ConversionPlugin) : String × ℤ :=
    if selected.1 = "" ∨ entry.2.priority > selected.2 then (entry.1, entry.2.priority)
    else selected
  match (registry.backends.foldl select ("", -2 ^ 31)).1 with
  | "" => .error (.runtimeError "torch_conversions: no conversion plugin is installed")
  | name => .ok name

end Registry

namespace CpuConversionPlugin

def requireCpuStorage (msg : TensorMsg) : Except Exception Unit :=
  if msg.data.backend ≠ "cpu" then
    .error (.runtimeError ("CPU plugin cannot handle buffer backend '" ++ msg.data.backend ++ "'"))
  else .ok ()

/-- `msg.data.resize(byte_count)` of an empty vector. -/
def allocate (byteCount : UInt64) (device : Device) : Except Exception Storage :=
  if device.type ≠ .cpu then
    .error (.runtimeError "CPU plugin received a non-CPU device")
  else if byteCount.toNat < 2 ^ 63 then
    .ok ⟨"cpu", List.replicate byteCount.toNat 0, by simpa using byteCount.toNat_lt⟩
  else .error .lengthError

lemma allocate_backend {n : UInt64} {device : Device} {data : Storage}
    (h : allocate n device = .ok data) : data.backend = "cpu" := by
  rw [allocate] at h
  split_ifs at h
  obtain rfl := Except.ok.inj h
  rfl

def makeTensor (msg : TensorMsg) : Except Exception Tensor := do
  let strides ← (normalizedStrides msg).result
  let dtype ← (scalarType msg).result
  Tensor.fromBlob (msg.data.bytes.drop msg.byteOffset.toNat) msg.shape strides dtype ⟨.cpu, none⟩

/-- The view or its clone: both have the view's elements. -/
def fromInput (msg : TensorMsg) : Except Exception Tensor := do
  requireCpuStorage msg
  makeTensor msg

def copyTo (msg : TensorMsg) (source : Tensor) : CopyOutcome Exception :=
  match requireCpuStorage msg with
  | .error e => .rejected e
  | .ok () =>
    if source.device.type ≠ .cpu then
      .rejected (.runtimeError "CPU plugin cannot read a non-CPU tensor")
    else
      match source.contiguous with
      | none => .rejected .torchError
      | some contiguous => .copied (msg.data.write 0 contiguous)

end CpuConversionPlugin

def cpuConversionPlugin : ConversionPlugin where
  backend := "cpu"
  deviceType := .cpu
  priority := 0
  allocate := CpuConversionPlugin.allocate
  copyTo := CpuConversionPlugin.copyTo
  fromInput := CpuConversionPlugin.fromInput

end RosidlBufferBackends.Torch
