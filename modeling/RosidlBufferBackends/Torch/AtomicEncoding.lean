import RosidlBufferBackends.Torch.Conversions

/-! What `to_tensor_msg(msg, tensor)` leaves behind when it throws. -/

namespace RosidlBufferBackends.Torch

open Checked RowMajor

/-- If it throws, other than by a copy that failed, the message is as before. -/
def Atomic (registry : Registry) (msg : TensorMsg) (tensor : Option Tensor) : Prop :=
  ∀ e left, toTensorMsg registry msg tensor = .threw e left → left = msg

def Supported (dtype : ScalarType) : Prop := ∀ name size, dtype ≠ .other name size

variable {registry : Registry} {msg : TensorMsg} {tensor : Tensor} {dtype : ScalarType}

lemma describeDtype_cases (dtype : ScalarType) :
    (Supported dtype ∧ ∃ d, (describeDtype dtype).Returns d) ∨
      (¬ Supported dtype ∧ (describeDtype dtype).Throws) := by
  cases dtype with
  | other name size => exact .inr ⟨fun h => h name size rfl, throws_raise _⟩
  | _ => exact .inl ⟨nofun, _, returns_pure _⟩

lemma Tensor.zero_notMem (h : tensor.numel ≠ 0) : 0 ∉ dims tensor.sizes :=
  fun hm => h (List.prod_eq_zero hm)

/-- Row-major strides exist for every tensor with an element. -/
lemma Tensor.representable (h : tensor.numel ≠ 0) : Representable tensor.sizes := by
  refine ⟨tensor.sizes_nonneg, ?_⟩
  rw [trailing_of_notMem (Tensor.zero_notMem h)]
  exact tensor.numel_lt

lemma setMetadata_of_supported (msg : TensorMsg) (hs : Supported tensor.scalarType)
    (hn : tensor.numel ≠ 0) :
    ∃ dtype, (describeDtype tensor.scalarType).Returns dtype ∧
      setMetadata msg tensor = ({ msg with
        shape := tensor.sizes
        strides := (strides (dims tensor.sizes)).map Int64.ofNat
        dtypeCode := dtype.code
        dtypeBits := dtype.bits
        dtypeLanes := dtype.lanes
        byteOffset := 0 }, .ok ()) := by
  obtain ⟨_, d, hd⟩ | ⟨hns, _⟩ := describeDtype_cases tensor.scalarType
  · refine ⟨d, hd, ?_⟩
    simp only [setMetadata, hd.result,
      (contiguousStrides_returns (Tensor.representable hn)).result]
  · exact absurd hs hns

lemma setMetadata_of_unsupported (msg : TensorMsg) (hs : ¬ Supported tensor.scalarType) :
    ∃ e, setMetadata msg tensor = (msg, .error e) := by
  obtain ⟨hsup, _⟩ | ⟨_, e, he⟩ := describeDtype_cases tensor.scalarType
  · exact absurd hsup hs
  · refine ⟨e, ?_⟩
    simp only [setMetadata, he]

lemma copyAndDescribe_threw {plugin : ConversionPlugin} {e : Exception} {left : TensorMsg}
    (hn : tensor.numel ≠ 0) (h : copyAndDescribe plugin msg tensor = .threw e left) :
    left = msg ∨ ∃ data, plugin.copyTo msg tensor = .copied data ∧
      ¬ Supported tensor.scalarType ∧ left = { msg with data := data } := by
  rw [copyAndDescribe] at h
  split at h
  · exact .inl (Encoding.threw.inj h).2.symm
  · exact nomatch h
  · rename_i data hc
    by_cases hs : Supported tensor.scalarType
    · obtain ⟨_, _, he⟩ := setMetadata_of_supported { msg with data := data } hs hn
      rw [he] at h
      exact nomatch h
    · obtain ⟨e', he⟩ := setMetadata_of_unsupported { msg with data := data } hs
      rw [he] at h
      exact .inr ⟨data, hc, hs, (Encoding.threw.inj h).2.symm⟩

/-- The scalar type is looked at after the copy. -/
lemma copyAndDescribe_unsupported {plugin : ConversionPlugin} {data : Storage}
    (hs : ¬ Supported tensor.scalarType) (hc : plugin.copyTo msg tensor = .copied data) :
    ∃ e, copyAndDescribe plugin msg tensor = .threw e { msg with data := data } := by
  obtain ⟨e, he⟩ := setMetadata_of_unsupported { msg with data := data } hs
  refine ⟨e, ?_⟩
  rw [copyAndDescribe, hc]
  simp only [he]

theorem encoding_atomic_iff (registry : Registry) (msg : TensorMsg) (tensor : Option Tensor) :
    Atomic registry msg tensor ↔ ∀ t plugin data, tensor = some t → t.numel ≠ 0 →
      t.nbytes ≤ msg.data.size → registry.copier msg t = .ok plugin →
      plugin.copyTo msg t = .copied data → Supported t.scalarType ∨ data = msg.data := by
  constructor
  · rintro h t plugin data rfl hn hb hp hc
    by_contra hcon
    obtain ⟨hs, hdata⟩ := not_or.mp hcon
    obtain ⟨e, he⟩ := copyAndDescribe_unsupported hs hc
    have hthrew : toTensorMsg registry msg (some t) = .threw e { msg with data := data } := by
      rw [toTensorMsg, if_neg hn, if_neg (UInt64.not_lt.mpr hb), hp]
      exact he
    exact hdata (congrArg TensorMsg.data (h e _ hthrew))
  · intro h e left hthrew
    cases tensor with
    | none => exact nomatch hthrew
    | some t =>
      rw [toTensorMsg] at hthrew
      split_ifs at hthrew with hn hb
      · exact (Encoding.threw.inj hthrew).2.symm
      · split at hthrew
        · exact (Encoding.threw.inj hthrew).2.symm
        · rename_i plugin hp
          rcases copyAndDescribe_threw hn hthrew with hl | ⟨data, hc, hs, rfl⟩
          · exact hl
          · obtain rfl := (h t plugin data rfl hn (UInt64.not_lt.mp hb) hp hc).resolve_left hs
            rfl

/-- Only the CPU plugin is installed. -/
def cpuOnly : Registry where
  backends := [("cpu", cpuConversionPlugin)]
  devices := fun type => if type = .cpu then some cpuConversionPlugin else none

def complexTensor : Tensor where
  scalarType := .other "ComplexFloat" 8
  device := { type := .cpu }
  sizes := [1]
  strides := [1]
  bytes := List.replicate 8 1
  ranked := rfl
  sizes_nonneg := by simp [Nonneg]
  strides_nonneg := by simp [Nonneg]
  numel_lt := by decide
  inside := by decide

def encodedFloats : TensorMsg where
  dtypeCode := kDLFloat
  dtypeBits := 32
  dtypeLanes := 1
  shape := [2]
  strides := [1]
  data := ⟨"cpu", List.replicate 8 0, by decide⟩

/-- The two floats are overwritten and still described as two floats. -/
theorem unsupported_tensor_overwrites :
    toTensorMsg cpuOnly encodedFloats (some complexTensor) =
        .threw (.runtimeError "torch_conversions: unsupported scalar type")
          { encodedFloats with data := ⟨"cpu", List.replicate 8 1, by decide⟩ } ∧
      ¬ Atomic cpuOnly encodedFloats (some complexTensor) := by
  have hthrew : toTensorMsg cpuOnly encodedFloats (some complexTensor) =
      .threw (.runtimeError "torch_conversions: unsupported scalar type")
        { encodedFloats with data := ⟨"cpu", List.replicate 8 1, by decide⟩ } := by
    decide +kernel
  exact ⟨hthrew, fun h => absurd (h _ _ hthrew) (by decide)⟩

end RosidlBufferBackends.Torch
