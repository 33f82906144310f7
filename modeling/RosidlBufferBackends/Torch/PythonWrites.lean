import RosidlBufferBackends.Buffers.CudaBuffer
import RosidlBufferBackends.Torch.PythonConversions

/-! The Python `to_tensor_msg(msg, tensor)` over host memory and CUDA storage, with the
write acquisition of the storage and every step of the copy that can raise. -/

namespace RosidlBufferBackends.Torch.Python.Writes

/-- What an acquisition finds in the `CudaBuffer` behind the storage. -/
structure CudaStorage where
  handleState : Buffers.HandleState.State := .unset
  readEvents : Bool := false
  deviceId : ℕ := 0
  deriving DecidableEq, Repr

namespace CudaStorage

def getWriteHandle (cuda : CudaStorage) : Except Buffers.WriteError CudaStorage :=
  match cuda.handleState with
  | .inUse => .error .alreadyInUse
  | .finalized => .error .alreadyFinalized
  | .unset =>
    if cuda.readEvents then .error .readEventsExist else .ok { cuda with handleState := .inUse }

/-- The write handle is released. -/
def close (cuda : CudaStorage) : CudaStorage := { cuda with handleState := .finalized }

end CudaStorage

def refusal : Buffers.WriteError → PythonError
  | .alreadyInUse =>
    .runtimeError "CudaBuffer: write handle already in use; cannot acquire second handle"
  | .alreadyFinalized =>
    .runtimeError "CudaBuffer: write already finalized; cannot acquire write handle"
  | .readEventsExist =>
    .runtimeError "CudaBuffer: read events exist; cannot re-acquire write handle"

/-- The storage that a plugin is given. -/
structure Held where
  data : Storage
  cuda : CudaStorage
  deriving DecidableEq, Repr

abbrev Copied := Held × Except PythonError Unit

namespace Held

def close (held : Held) : Held := { held with cuda := held.cuda.close }

def settle (held : Held) : CopyOutcome PythonError → Copied
  | .rejected e => (held, .error e)
  | .failed e data => ({ held with data := data }, .error e)
  | .copied data => ({ held with data := data }, .ok ())

end Held

/-- `torch.frombuffer` of an object that is no memory. -/
def notMemory : PythonError := .valueError "object does not implement Python buffer protocol."

namespace CpuConversionPlugin

def copyTo (held : Held) (metadata : TensorMetadata) (source : Tensor) : Copied :=
  if held.data.backend = "cpu" then
    held.settle (Python.CpuConversionPlugin.copyTo held.data metadata source)
  else (held, .error notMemory)

end CpuConversionPlugin

/-- What PyTorch and the CUDA runtime answer during the call. -/
structure Runtime where
  currentDevice : ℕ
  streamPointer : Device → Except PythonError Unit
  pointerAttributes : Except PythonError Unit
  fromDlpack : Except PythonError Unit
  externalStream : Device → Except PythonError Unit
  copy : Storage → TensorMetadata → Tensor → CopyOutcome PythonError

namespace CudaConversionPlugin

def device (runtime : Runtime) : Device := ⟨.cuda, some runtime.currentDevice⟩

def checkDevice (runtime : Runtime) (cuda : CudaStorage) : Except PythonError Unit :=
  if cuda.deviceId ≠ runtime.currentDevice then
    .error (.runtimeError ("CUDA buffer is on device " ++ toString cuda.deviceId ++
      ", but current device is " ++ toString runtime.currentDevice))
  else .ok ()

/-- From the acquired handle to the destination. -/
def openTensor (runtime : Runtime) (cuda : CudaStorage) : Except PythonError Unit := do
  runtime.pointerAttributes
  checkDevice runtime cuda
  runtime.fromDlpack

/-- An exception after the acquisition closes the handle. -/
def fromOutput (runtime : Runtime) (held : Held) : Copied :=
  match runtime.streamPointer (device runtime) with
  | .error e => (held, .error e)
  | .ok () =>
    match held.cuda.getWriteHandle with
    | .error e => (held, .error (refusal e))
    | .ok cuda =>
      match openTensor runtime cuda with
      | .error e => ({ held with cuda := cuda.close }, .error e)
      | .ok () => ({ held with cuda := cuda }, .ok ())

def write (runtime : Runtime) (held : Held) (device : Device) (metadata : TensorMetadata)
    (source : Tensor) : Copied :=
  match runtime.externalStream device with
  | .error e => (held, .error e)
  | .ok () => held.settle (runtime.copy held.data metadata source)

def copyTo (runtime : Runtime) (held : Held) (metadata : TensorMetadata) (source : Tensor) :
    Copied :=
  if held.data.backend = "cuda" then
    match fromOutput runtime held with
    | (held, .error e) => (held, .error e)
    | (held, .ok ()) =>
      if source.device.type ≠ .cpu ∧ source.device ≠ device runtime then
        (held.close, .error (.valueError
          "CUDA copies require matching source and destination devices"))
      else
        let (held, result) := write runtime held (device runtime) metadata source
        (held.close, result)
  else if held.data.backend = "cpu" then
    match Python.CpuConversionPlugin.fromBuffer held.data metadata.itemSize source.numel
        metadata.byteOffset with
    | .error e => (held, .error e)
    | .ok _ => write runtime held source.device metadata source
  else (held, .error notMemory)

end CudaConversionPlugin

/-- The plugins of the repository, or one that is installed beside them. -/
inductive Plugin
  | cpu
  | cuda (runtime : Runtime)
  | external (matching : Storage → Bool) (copyTo : Held → TensorMetadata → Tensor → Copied)

namespace Plugin

/-- `matches` -/
def matching : Plugin → Storage → Bool
  | cpu, data => data.backend = "cpu"
  | cuda _, _ => false
  | external matching _, data => matching data

def copyTo : Plugin → Held → TensorMetadata → Tensor → Copied
  | cpu => CpuConversionPlugin.copyTo
  | cuda runtime => CudaConversionPlugin.copyTo runtime
  | external _ copyTo => copyTo

end Plugin

structure ConversionRegistry where
  byBackend : List (String × Plugin)
  byDevice : List (DeviceType × String)
  fallbacks : List Plugin

namespace ConversionRegistry

open Python.ConversionRegistry (reprNames deviceName)

def backends (registry : ConversionRegistry) : List String :=
  (registry.byBackend.map Prod.fst).insertionSort (· ≤ ·)

def forBackend (registry : ConversionRegistry) (backend : String) : Except PythonError Plugin :=
  match registry.byBackend.lookup backend with
  | some plugin => .ok plugin
  | none => .error (.runtimeError ("No Torch conversion plugin provides backend '" ++ backend ++
      "'; installed backends are " ++ reprNames registry.backends))

def forDevice (registry : ConversionRegistry) (type : DeviceType) : Except PythonError Plugin :=
  match registry.byDevice.lookup type with
  | some backend => registry.forBackend backend
  | none => .error (.runtimeError ("No Torch conversion plugin serves device '" ++
      deviceName type ++ "'; installed backends are " ++ reprNames registry.backends))

/-- Host memory is an `array`, any other storage a `Buffer`. -/
def forData (registry : ConversionRegistry) (data : Storage) : Except PythonError Plugin :=
  if data.backend = "cpu" then
    match registry.fallbacks.find? (fun item => item.matching data) with
    | some plugin => .ok plugin
    | none => .error (.runtimeError "Unsupported tensor storage: 'array'")
  else
    match registry.byBackend.lookup data.backend with
    | some plugin => .ok plugin
    | none => .error (.runtimeError ("Unsupported tensor storage: '" ++ data.backend ++ "'"))

/-- The plugin that makes the copy. -/
def copier (registry : ConversionRegistry) (data : Storage) (tensor : Tensor) :
    Except PythonError Plugin :=
  if tensor.device.type = .cpu then registry.forData data
  else registry.forDevice tensor.device.type

end ConversionRegistry

structure Message where
  msg : TensorMsg
  cuda : CudaStorage := {}
  deriving DecidableEq, Repr

namespace Message

def held (message : Message) : Held := ⟨message.msg.data, message.cuda⟩

def put (message : Message) (held : Held) : Message where
  msg := { message.msg with data := held.data }
  cuda := held.cuda

end Message

abbrev Written := Message × Except PythonError Unit

def copyDescribed (registry : ConversionRegistry) (message : Message) (tensor : Tensor) :
    Written :=
  match registry.copier message.msg.data tensor with
  | .error e => (message, .error e)
  | .ok plugin =>
    match metadata message.msg with
    | .error e => (message, .error e)
    | .ok view =>
      let (held, result) := plugin.copyTo message.held view tensor
      (message.put held, result)

def toTensorMsg (registry : ConversionRegistry) (message : Message) (tensor : Tensor) : Written :=
  if tensor.numel = 0 then (message, .ok ())
  else
    match describe tensor.scalarType with
    | none => (message, .error (unsupportedDtype tensor.scalarType))
    | some (code, bits, lanes) =>
      if tensor.numel * tensor.itemSize > message.msg.data.bytes.length then
        (message, .error (.valueError "Tensor exceeds allocated message storage"))
      else
        let shaped := { message.msg with shape := tensor.sizes }
        match toArray (contiguousStrides (shaped.shape.map Int64.toInt)) with
        | .error e => ({ message with msg := shaped }, .error e)
        | .ok strides =>
          let described := { shaped with
            strides := strides
            dtypeCode := code
            dtypeBits := bits
            dtypeLanes := lanes
            byteOffset := 0 }
          copyDescribed registry { message with msg := described } tensor

end RosidlBufferBackends.Torch.Python.Writes
