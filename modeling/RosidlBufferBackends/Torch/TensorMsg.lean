import RosidlBufferBackends.Lib.Checked

/-! The tensor message and the shape arithmetic of the C++ conversions. -/

namespace RosidlBufferBackends.Torch

/-- `at::ScalarType`: the supported types and any other with its element size. -/
inductive ScalarType
  | byte | char | short | int | long | half | bfloat16 | float | double | bool
  | other (name : String) (elementSize : UInt64)
  deriving DecidableEq, Repr

def ScalarType.elementSize : ScalarType → UInt64
  | .byte | .char | .bool => 1
  | .short | .half | .bfloat16 => 2
  | .int | .float => 4
  | .long | .double => 8
  | .other _ elementSize => elementSize

inductive Exception
  | runtimeError (what : String)
  | overflowError (what : String)
  | lengthError
  | torchError
  deriving DecidableEq, Repr

/-- The bytes behind `rosidl::Buffer<uint8_t>` and the backend they belong to. -/
structure Storage where
  backend : String
  bytes : List UInt8
  size_lt : bytes.length < 2 ^ 64
  deriving DecidableEq, Repr

lemma Storage.nil_lt : ([] : List UInt8).length < 2 ^ 64 := by
  decide

def Storage.size (data : Storage) : UInt64 := UInt64.ofNat data.bytes.length

structure TensorMsg where
  dtypeCode : UInt8 := 0
  dtypeBits : UInt8 := 0
  dtypeLanes : UInt16 := 0
  shape : List Int64 := []
  strides : List Int64 := []
  byteOffset : UInt64 := 0
  data : Storage := ⟨"cpu", [], Storage.nil_lt⟩
  deriving DecidableEq, Repr

structure DtypeDescription where
  code : UInt8
  bits : UInt8
  lanes : UInt16
  deriving DecidableEq, Repr

def kDLInt : UInt8 := 0

def kDLUInt : UInt8 := 1

def kDLFloat : UInt8 := 2

def kDLBfloat : UInt8 := 4

def kDLBool : UInt8 := 6

open Checked

def describeDtype : ScalarType → Checked Exception DtypeDescription
  | .byte => pure ⟨kDLUInt, 8, 1⟩
  | .char => pure ⟨kDLInt, 8, 1⟩
  | .short => pure ⟨kDLInt, 16, 1⟩
  | .int => pure ⟨kDLInt, 32, 1⟩
  | .long => pure ⟨kDLInt, 64, 1⟩
  | .half => pure ⟨kDLFloat, 16, 1⟩
  | .bfloat16 => pure ⟨kDLBfloat, 16, 1⟩
  | .float => pure ⟨kDLFloat, 32, 1⟩
  | .double => pure ⟨kDLFloat, 64, 1⟩
  | .bool => pure ⟨kDLBool, 8, 1⟩
  | .other _ _ => raise (.runtimeError "torch_conversions: unsupported scalar type")

def scalarType (msg : TensorMsg) : Checked Exception ScalarType :=
  if msg.dtypeLanes ≠ 1 then
    raise (.runtimeError "torch_conversions: vector-lane dtypes are unsupported")
  else if msg.dtypeCode = kDLUInt ∧ msg.dtypeBits = 8 then pure .byte
  else if msg.dtypeCode = kDLInt ∧ msg.dtypeBits = 8 then pure .char
  else if msg.dtypeCode = kDLInt ∧ msg.dtypeBits = 16 then pure .short
  else if msg.dtypeCode = kDLInt ∧ msg.dtypeBits = 32 then pure .int
  else if msg.dtypeCode = kDLInt ∧ msg.dtypeBits = 64 then pure .long
  else if msg.dtypeCode = kDLFloat ∧ msg.dtypeBits = 16 then pure .half
  else if msg.dtypeCode = kDLFloat ∧ msg.dtypeBits = 32 then pure .float
  else if msg.dtypeCode = kDLFloat ∧ msg.dtypeBits = 64 then pure .double
  else if msg.dtypeCode = kDLBfloat ∧ msg.dtypeBits = 16 then pure .bfloat16
  else if msg.dtypeCode = kDLBool ∧ msg.dtypeBits = 8 then pure .bool
  else raise (.runtimeError "torch_conversions: unsupported message dtype")

def negativeDimension : Exception :=
  .runtimeError "torch_conversions: negative shape dimension"

def sizeOverflow : Exception := .overflowError "torch_conversions: tensor size overflow"

def strideOverflow : Exception := .overflowError "torch_conversions: tensor stride overflow"

def spanOverflow : Exception := .overflowError "torch_conversions: tensor span overflow"

/-- The loop of `element_count` from the count reached so far. -/
def elementCountFrom (count : UInt64) : List Int64 → Checked Exception UInt64
  | [] => pure count
  | dimension :: shape =>
    if dimension < 0 then raise negativeDimension
    else do
      let extent ← cast dimension
      let count ← mulOr sizeOverflow count extent
      elementCountFrom count shape

def elementCount (shape : List Int64) : Checked Exception UInt64 := elementCountFrom 1 shape

/-- The loop of `contiguous_strides`, which runs from the last dimension: the
strides and the stride reached so far. -/
def contiguousStridesFrom : List Int64 → Checked Exception (List Int64 × Int64)
  | [] => pure ([], 1)
  | dimension :: shape => do
    let (result, stride) ← contiguousStridesFrom shape
    if dimension < 0 then raise negativeDimension
    else do
      let next ← imulOr strideOverflow stride dimension
      pure (stride :: result, next)

def contiguousStrides (shape : List Int64) : Checked Exception (List Int64) := do
  let (result, _) ← contiguousStridesFrom shape
  pure result

def byteCount (shape : List Int64) (dtype : ScalarType) : Checked Exception UInt64 := do
  let count ← elementCount shape
  mulOr sizeOverflow dtype.elementSize count

def normalizedStrides (msg : TensorMsg) : Checked Exception (List Int64) :=
  if msg.strides = [] then contiguousStrides msg.shape
  else if msg.strides.length ≠ msg.shape.length then
    raise (.runtimeError "torch_conversions: strides must match shape rank")
  else pure msg.strides

/-- One dimension's contribution is added to the span. -/
def contribute (span : UInt64) (dimension stride : Int64) : Checked Exception UInt64 := do
  let last ← isub dimension 1
  let extent ← cast last
  let step ← cast stride
  let contribution ← mulOr spanOverflow extent step
  addOr spanOverflow span contribution

/-- The loop of `validate_view` from the span reached so far. -/
def spanFrom (span : UInt64) : List Int64 → List Int64 → Checked Exception UInt64
  | dimension :: shape, stride :: strides =>
    if dimension < 0 ∨ stride < 0 then
      raise (.runtimeError "torch_conversions: negative shape or stride")
    else if dimension = 0 then pure 0
    else do
      let span ← contribute span dimension stride
      spanFrom span shape strides
  | _, _ => pure span

/-- The span that `validate_view` computes. -/
def viewSpan (msg : TensorMsg) : Checked Exception UInt64 := do
  let strides ← normalizedStrides msg
  spanFrom 1 msg.shape strides

def validateView (msg : TensorMsg) : Checked Exception Unit := do
  let span ← viewSpan msg
  let dtype ← scalarType msg
  let bytes ← mulOr spanOverflow dtype.elementSize span
  let required ← addOr spanOverflow msg.byteOffset bytes
  if msg.data.size < required then
    raise (.runtimeError "torch_conversions: tensor view exceeds message storage")
  else pure ()

end RosidlBufferBackends.Torch
