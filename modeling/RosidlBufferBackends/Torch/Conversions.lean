import RosidlBufferBackends.Torch.Tensor

/-! `allocate_tensor_msg`, `to_tensor_msg` and `from_input_tensor_msg` in C++. -/

namespace RosidlBufferBackends.Torch

open Checked

/-- The plugin and the device that an allocation is made with. -/
def Registry.select (registry : Registry) :
    Option Device → Except Exception (ConversionPlugin × Device)
  | some device => do
    let plugin ← registry.forDevice device.type
    pure (plugin, device)
  | none => do
    let name ← registry.defaultName
    let plugin ← registry.forBackend name
    pure (plugin, { type := plugin.deviceType })

def allocateTensorMsg (registry : Registry) (shape : List Int64) (dtype : ScalarType)
    (device : Option Device) : Checked Exception TensorMsg := do
  let (plugin, selectedDevice) ← ofExcept (registry.select device)
  let strides ← contiguousStrides shape
  let description ← describeDtype dtype
  let bytes ← byteCount shape dtype
  let data ← ofExcept (plugin.allocate bytes selectedDevice)
  pure {
    dtypeCode := description.code
    dtypeBits := description.bits
    dtypeLanes := description.lanes
    shape := shape
    strides := strides
    byteOffset := 0
    data := data }

def fromInputTensorMsg (registry : Registry) (msg : TensorMsg) : Except Exception (Option Tensor) :=
  if msg.data.bytes = [] then .ok none
  else do
    (validateView msg).result
    let plugin ← registry.forBackend msg.data.backend
    let tensor ← plugin.fromInput msg
    pure (some tensor)

/-- The message after `set_metadata` and the exception, if it throws: the fields that
were assigned before stay. -/
def setMetadata (msg : TensorMsg) (tensor : Tensor) : TensorMsg × Except Exception Unit :=
  match (describeDtype tensor.scalarType).result with
  | .error e => (msg, .error e)
  | .ok dtype =>
    let shaped := { msg with shape := tensor.sizes }
    match (contiguousStrides shaped.shape).result with
    | .error e => (shaped, .error e)
    | .ok strides =>
      ({ shaped with
          strides := strides
          dtypeCode := dtype.code
          dtypeBits := dtype.bits
          dtypeLanes := dtype.lanes
          byteOffset := 0 }, .ok ())

/-- How a call of `to_tensor_msg` ends: the message it leaves, and whether it threw. -/
inductive Encoding
  | returned (msg : TensorMsg)
  | threw (e : Exception) (msg : TensorMsg)
  | copyFailed (e : Exception) (msg : TensorMsg)
  deriving DecidableEq, Repr

def Encoding.msg : Encoding → TensorMsg
  | .returned msg | .threw _ msg | .copyFailed _ msg => msg

/-- The plugin that makes the copy. -/
def Registry.copier (registry : Registry) (msg : TensorMsg) (tensor : Tensor) :
    Except Exception ConversionPlugin :=
  if tensor.device.type = .cpu then registry.forBackend msg.data.backend
  else registry.forDevice tensor.device.type

def copyAndDescribe (plugin : ConversionPlugin) (msg : TensorMsg) (tensor : Tensor) : Encoding :=
  match plugin.copyTo msg tensor with
  | .rejected e => .threw e msg
  | .failed e data => .copyFailed e { msg with data := data }
  | .copied data =>
    match setMetadata { msg with data := data } tensor with
    | (msg, .error e) => .threw e msg
    | (msg, .ok ()) => .returned msg

/-- `to_tensor_msg(msg, tensor)`; an undefined tensor is `none`. -/
def toTensorMsg (registry : Registry) (msg : TensorMsg) : Option Tensor → Encoding
  | none => .returned msg
  | some tensor =>
    if tensor.numel = 0 then .returned msg
    else if msg.data.size < tensor.nbytes then
      .threw (.runtimeError "torch_conversions: tensor exceeds message storage") msg
    else
      match registry.copier msg tensor with
      | .error e => .threw e msg
      | .ok plugin => copyAndDescribe plugin msg tensor

/-- `to_tensor_msg(tensor)` -/
def newTensorMsg (registry : Registry) : Option Tensor → Except Exception TensorMsg
  | none => .ok {}
  | some tensor =>
    if tensor.numel = 0 then .ok {}
    else do
      let msg ← (allocateTensorMsg registry tensor.sizes tensor.scalarType
        (some tensor.device)).result
      match toTensorMsg registry msg (some tensor) with
      | .returned msg => .ok msg
      | .threw e _ | .copyFailed e _ => .error e

end RosidlBufferBackends.Torch
