import Mathlib.Data.List.Sort
import RosidlBufferBackends.Torch.PythonViews
import RosidlBufferBackends.Torch.Tensor

/-! The Python conversions, their plugins and registry, and the Python CPU plugin. -/

namespace RosidlBufferBackends.Torch.Python

open RowMajor

structure ConversionPlugin where
  backends : List String
  backends_ne : backends ≠ []
  deviceTypes : List DeviceType
  priority : ℤ
  allocate : ℤ → String → Device → Except PythonError Storage
  fromInput : Storage → TensorMetadata → Except PythonError Tensor
  copyTo : Storage → TensorMetadata → Tensor → CopyOutcome PythonError

def ConversionPlugin.backend (plugin : ConversionPlugin) : String :=
  plugin.backends.head plugin.backends_ne

structure ConversionRegistry where
  byBackend : List (String × ConversionPlugin)
  byDevice : List (DeviceType × String)
  fallbacks : List ConversionPlugin

namespace ConversionRegistry

def backends (registry : ConversionRegistry) : List String :=
  (registry.byBackend.map Prod.fst).insertionSort (· ≤ ·)

/-- A list of names as it is printed. -/
def reprNames (names : List String) : String :=
  "[" ++ String.intercalate ", " (names.map fun name => "'" ++ name ++ "'") ++ "]"

def deviceName : DeviceType → String
  | .cpu => "cpu"
  | .cuda => "cuda"
  | .other code => "device" ++ toString code

def forBackend (registry : ConversionRegistry) (backend : String) :
    Except PythonError ConversionPlugin :=
  match registry.byBackend.lookup backend with
  | some plugin => .ok plugin
  | none => .error (.runtimeError ("No Torch conversion plugin provides backend '" ++ backend ++
      "'; installed backends are " ++ reprNames registry.backends))

def forDevice (registry : ConversionRegistry) (type : DeviceType) :
    Except PythonError ConversionPlugin :=
  match registry.byDevice.lookup type with
  | some backend => registry.forBackend backend
  | none => .error (.runtimeError ("No Torch conversion plugin serves device '" ++
      deviceName type ++ "'; installed backends are " ++ reprNames registry.backends))

def priority (registry : ConversionRegistry) (name : String) : ℤ :=
  match registry.byBackend.lookup name with
  | some plugin => plugin.priority
  | none => 0

/-- `max` over the sorted names: the first of the greatest priority. -/
def defaultBackend (registry : ConversionRegistry) : Except PythonError String :=
  match registry.backends with
  | [] => .error (.runtimeError "No Torch conversion plugin is installed")
  | first :: rest =>
    .ok (rest.foldl (fun selected name =>
      if registry.priority name > registry.priority selected then name else selected) first)

/-- Host memory goes to the first fallback, a buffer to the plugin of its backend. -/
def forData (registry : ConversionRegistry) (data : Storage) :
    Except PythonError ConversionPlugin :=
  let found := if data.backend = "cpu" then registry.fallbacks.head?
    else registry.byBackend.lookup data.backend
  match found with
  | some plugin => .ok plugin
  | none => .error (.runtimeError ("Unsupported tensor storage: '" ++ data.backend ++ "'"))

/-- The plugin and the device that an allocation is made with. -/
def select (registry : ConversionRegistry) :
    Option Device → Except PythonError (ConversionPlugin × Device)
  | none => do
    let backend ← registry.defaultBackend
    let plugin ← registry.forBackend backend
    match plugin.deviceTypes with
    | [] => .error (.indexError "tuple index out of range")
    | type :: _ => pure (plugin, { type := type })
  | some device => do
    let plugin ← registry.forDevice device.type
    pure (plugin, device)

end ConversionRegistry

def describe (dtype : ScalarType) : Option DtypeKey := dtypeToMessage.lookup dtype

def dtypeName : ScalarType → String
  | .byte => "torch.uint8"
  | .char => "torch.int8"
  | .short => "torch.int16"
  | .int => "torch.int32"
  | .long => "torch.int64"
  | .half => "torch.float16"
  | .bfloat16 => "torch.bfloat16"
  | .float => "torch.float32"
  | .double => "torch.float64"
  | .bool => "torch.bool"
  | .other name _ => name

def unsupportedDtype (dtype : ScalarType) : PythonError :=
  .typeError ("Unsupported torch dtype " ++ dtypeName dtype)

/-- `array('q', values)` -/
def toArray (values : List ℤ) : Except PythonError (List Int64) :=
  if ∀ v ∈ values, -2 ^ 63 ≤ v ∧ v < 2 ^ 63 then .ok (values.map Int64.ofInt)
  else .error (.overflowError "int too big to convert")

def byteCount (shape : List Int64) (dtype : ScalarType) : ℤ :=
  (shape.map Int64.toInt).prod * dtype.elementSize.toNat

def allocateTensorMsg (registry : ConversionRegistry) (shape : List Int64) (dtype : ScalarType)
    (device : Option Device) : Except PythonError TensorMsg :=
  match describe dtype with
  | none => .error (unsupportedDtype dtype)
  | some (code, bits, lanes) =>
    if shape.any (· < 0) then
      .error (.valueError "Shape dimensions must be nonnegative")
    else do
      let (plugin, selectedDevice) ← registry.select device
      let strides ← toArray (contiguousStrides (shape.map Int64.toInt))
      let data ← plugin.allocate (byteCount shape dtype) plugin.backend selectedDevice
      pure {
        dtypeCode := code
        dtypeBits := bits
        dtypeLanes := lanes
        shape := shape
        strides := strides
        byteOffset := 0
        data := data }

def fromInputTensorMsg (registry : ConversionRegistry) (msg : TensorMsg) :
    Except PythonError (Option Tensor) :=
  if msg.data.bytes = [] then .ok none
  else do
    let plugin ← registry.forData msg.data
    let view ← metadata msg
    let tensor ← plugin.fromInput msg.data view
    pure (some tensor)

/-- The message as a call leaves it, and its exception if it raised one. -/
abbrev Written := TensorMsg × Except PythonError Unit

/-- The copy into a message that describes the tensor already. -/
def copyDescribed (registry : ConversionRegistry) (msg : TensorMsg) (tensor : Tensor) : Written :=
  let found := if tensor.device.type = .cpu then registry.forData msg.data
    else registry.forDevice tensor.device.type
  match found with
  | .error e => (msg, .error e)
  | .ok plugin =>
    match metadata msg with
    | .error e => (msg, .error e)
    | .ok view =>
      match plugin.copyTo msg.data view tensor with
      | .rejected e => (msg, .error e)
      | .failed e data => ({ msg with data := data }, .error e)
      | .copied data => ({ msg with data := data }, .ok ())

/-- `to_tensor_msg(msg, tensor)` -/
def toTensorMsg (registry : ConversionRegistry) (msg : TensorMsg) (tensor : Tensor) : Written :=
  if tensor.numel = 0 then (msg, .ok ())
  else
    match describe tensor.scalarType with
    | none => (msg, .error (unsupportedDtype tensor.scalarType))
    | some (code, bits, lanes) =>
      if tensor.numel * tensor.itemSize > msg.data.bytes.length then
        (msg, .error (.valueError "Tensor exceeds allocated message storage"))
      else
        let shaped := { msg with shape := tensor.sizes }
        match toArray (contiguousStrides (shaped.shape.map Int64.toInt)) with
        | .error e => (shaped, .error e)
        | .ok strides =>
          let described := { shaped with
            strides := strides
            dtypeCode := code
            dtypeBits := bits
            dtypeLanes := lanes
            byteOffset := 0 }
          copyDescribed registry described tensor

/-- `to_tensor_msg(tensor)` -/
def newTensorMsg (registry : ConversionRegistry) (tensor : Tensor) :
    Except PythonError TensorMsg :=
  if tensor.numel = 0 then .ok {}
  else do
    let msg ← allocateTensorMsg registry tensor.sizes tensor.scalarType (some tensor.device)
    match toTensorMsg registry msg tensor with
    | (msg, .ok ()) => .ok msg
    | (_, .error e) => .error e

namespace CpuConversionPlugin

/-- `array('B', bytes(byte_count))` -/
def allocate (byteCount : ℤ) (_ : String) (device : Device) : Except PythonError Storage :=
  if device.index ≠ none ∧ device.index ≠ some 0 then
    .error (.valueError "CPU storage has no device index other than 0")
  else if h : byteCount < 2 ^ 63 then
    .ok ⟨"cpu", List.replicate byteCount.toNat 0, by rw [List.length_replicate]; omega⟩
  else .error (.overflowError "cannot fit 'int' into an index-sized integer")

lemma allocate_backend {n : ℤ} (name : String) {device : Device} {data : Storage}
    (h : allocate n name device = .ok data) : data.backend = "cpu" := by
  rw [allocate] at h
  split_ifs at h
  obtain rfl := Except.ok.inj h
  rfl

/-- `torch.frombuffer`: the bytes of `count` elements from the offset on. -/
def fromBuffer (data : Storage) (itemSize count start : ℤ) : Except PythonError (List UInt8) :=
  if data.bytes = [] ∨ count = 0 then
    .error (.valueError "both buffer length and count must not be 0")
  else if start < 0 ∨ start ≥ data.bytes.length then
    .error (.valueError "offset must be non-negative and no greater than buffer length - 1")
  else if start + count * itemSize > data.bytes.length then
    .error (.valueError "requested buffer length must not be greater than actual buffer length")
  else .ok ((data.bytes.drop start.toNat).take (count * itemSize).toNat)

/-- `torch.as_strided` of the flat tensor. -/
def asStrided (flat : List UInt8) (view : TensorMetadata) : Except PythonError Tensor := do
  let sizes ← toArray view.shape
  let strides ← toArray view.strides
  match Tensor.fromBlob flat sizes strides view.dtype { type := .cpu } with
  | .ok tensor => pure tensor
  | .error _ => .error (.runtimeError "setStorage: out of bounds for storage")

def view (data : Storage) (view : TensorMetadata) : Except PythonError Tensor := do
  let flat ← fromBuffer data view.itemSize view.span view.byteOffset
  asStrided flat view

/-- `destination.copy_(source)`: every element of the view at its own place. -/
def writeElements (data : Storage) (start : ℕ) (destination source : Tensor) : Storage :=
  (indices (dims destination.sizes)).foldl (fun data i =>
    data.write (start + destination.itemSize * offset i (dims destination.strides))
      (source.element i)) data

/-- The view and the source have one shape and one dtype wherever `to_tensor_msg` copies. -/
def copyTo (data : Storage) (metadata : TensorMetadata) (source : Tensor) :
    CopyOutcome PythonError :=
  match view data metadata with
  | .error e => .rejected e
  | .ok destination =>
    if destination.sizes = source.sizes ∧ destination.scalarType = source.scalarType then
      .copied (writeElements data metadata.byteOffset.toNat destination source)
    else .rejected (.runtimeError "The size of tensor a must match the size of tensor b")

end CpuConversionPlugin

def cpuConversionPlugin : ConversionPlugin where
  backends := ["cpu"]
  backends_ne := nofun
  deviceTypes := [.cpu]
  priority := 0
  allocate := CpuConversionPlugin.allocate
  fromInput := CpuConversionPlugin.view
  copyTo := CpuConversionPlugin.copyTo

/-- Only the CPU plugin is installed. -/
def cpuOnly : ConversionRegistry where
  byBackend := [("cpu", cpuConversionPlugin)]
  byDevice := [(.cpu, "cpu")]
  fallbacks := [cpuConversionPlugin]

end RosidlBufferBackends.Torch.Python
