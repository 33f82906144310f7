import RosidlBufferBackends.Torch.PythonWrites
import RosidlBufferBackends.Torch.RoundTrips

/-! What the Python `to_tensor_msg(msg, tensor)` leaves behind when it raises. -/

namespace RosidlBufferBackends.Torch.Python.Writes

open Checked RowMajor

/-- If it raises, the message is as before and an acquisition that was to be had still is. -/
def Atomic (registry : ConversionRegistry) (message : Message) (tensor : Tensor) : Prop :=
  ∀ e left, toTensorMsg registry message tensor = (left, .error e) →
    left.msg = message.msg ∧
      (message.cuda.handleState = .unset → left.cuda.handleState = .unset)

/-- The message describes a tensor of this shape and dtype in row-major order. -/
structure Describes (msg : TensorMsg) (tensor : Tensor) : Prop where
  shape : msg.shape = tensor.sizes
  strides : msg.strides.map Int64.toInt = contiguousStrides (tensor.sizes.map Int64.toInt)
  dtype : describe tensor.scalarType = some (key msg)
  byteOffset : msg.byteOffset = 0

def rowMajorView (tensor : Tensor) (key : DtypeKey) : TensorMetadata where
  shape := tensor.sizes.map Int64.toInt
  strides := contiguousStrides (tensor.sizes.map Int64.toInt)
  dtype := tensor.scalarType
  dtypeKey := key
  span := tensor.numel
  byteOffset := 0
  itemSize := tensor.itemSize

def CudaStorage.Available (cuda : CudaStorage) : Prop :=
  cuda.handleState = .unset ∧ cuda.readEvents = false

/-- The copy itself is reached and made. -/
def Runtime.Copies (runtime : Runtime) (data : Storage) (device : Device) (view : TensorMetadata)
    (source : Tensor) : Prop :=
  runtime.externalStream device = .ok () ∧ ∃ left, runtime.copy data view source = .copied left

/-- No step of the copy into CUDA storage raises. -/
structure Runtime.Serves (runtime : Runtime) (held : Held) (view : TensorMetadata)
    (source : Tensor) : Prop where
  pointer : runtime.streamPointer (CudaConversionPlugin.device runtime) = .ok ()
  available : held.cuda.Available
  attributes : runtime.pointerAttributes = .ok ()
  device : held.cuda.deviceId = runtime.currentDevice
  dlpack : runtime.fromDlpack = .ok ()
  near : source.device.type = .cpu ∨ source.device = CudaConversionPlugin.device runtime
  copies : runtime.Copies held.data (CudaConversionPlugin.device runtime) view source

def Plugin.Completes : Plugin → Held → TensorMetadata → Tensor → Prop
  | cpu, held, _, _ => held.data.backend = "cpu"
  | cuda runtime, held, view, source =>
    (held.data.backend = "cuda" ∧ runtime.Serves held view source) ∨
      (held.data.backend = "cpu" ∧ runtime.Copies held.data source.device view source)
  | external _ copyTo, held, view, source => (copyTo held view source).2 = .ok ()

/-- An exception of the plugin leaves the bytes and the acquisition alone. -/
def Plugin.Spares : Plugin → Held → TensorMetadata → Tensor → Prop
  | cpu, _, _, _ => True
  | cuda runtime, held, view, source =>
    (held.data.backend = "cuda" →
      runtime.streamPointer (CudaConversionPlugin.device runtime) ≠ .ok () ∨
        ¬ held.cuda.Available) ∧
    (held.data.backend = "cpu" → ∀ e left, runtime.externalStream source.device = .ok () →
      runtime.copy held.data view source = .failed e left → left = held.data)
  | external _ copyTo, held, view, source =>
    (copyTo held view source).1.data = held.data ∧
      (held.cuda.handleState = .unset →
        (copyTo held view source).1.cuda.handleState = .unset)

/-- The tensors and messages that an exception leaves no trace on. -/
inductive Harmless (registry : ConversionRegistry) (message : Message) (tensor : Tensor) : Prop
  | empty (h : tensor.numel = 0)
  | unsupported (h : describe tensor.scalarType = none)
  | oversized (h : tensor.numel * tensor.itemSize > message.msg.data.bytes.length)
  | completed {plugin : Plugin} {key : DtypeKey} (typed : describe tensor.scalarType = some key)
      (found : registry.copier message.msg.data tensor = .ok plugin)
      (completes : plugin.Completes message.held (rowMajorView tensor key) tensor)
  | described (same : Describes message.msg tensor)
      (spares : ∀ plugin, registry.copier message.msg.data tensor = .ok plugin →
        plugin.Spares message.held (rowMajorView tensor (key message.msg)) tensor)

/-- What a copy may leave without a trace. -/
def Untouched (held : Held) (copied : Copied) : Prop :=
  copied.1.data = held.data ∧
    (held.cuda.handleState = .unset → copied.1.cuda.handleState = .unset)

variable {registry : ConversionRegistry} {message : Message} {tensor : Tensor} {plugin : Plugin}
  {runtime : Runtime} {held : Held} {view : TensorMetadata} {device : Device} {data : Storage}
  {d : DtypeDescription}

section Plugins

lemma untouched_refl (held : Held) (result : Except PythonError Unit) :
    Untouched held (held, result) := ⟨rfl, id⟩

lemma CudaStorage.getWriteHandle_ok (h : held.cuda.Available) :
    held.cuda.getWriteHandle = .ok { held.cuda with handleState := .inUse } := by
  rw [CudaStorage.getWriteHandle, h.1]
  exact if_neg (by rw [h.2]; exact Bool.false_ne_true)

lemma CudaStorage.getWriteHandle_error (h : ¬ held.cuda.Available) :
    ∃ e, held.cuda.getWriteHandle = .error e := by
  rw [CudaStorage.getWriteHandle]
  cases hs : held.cuda.handleState with
  | inUse => exact ⟨_, rfl⟩
  | finalized => exact ⟨_, rfl⟩
  | unset =>
    have hread : held.cuda.readEvents = true := by
      by_contra hr
      exact h ⟨hs, Bool.eq_false_iff.mpr hr⟩
    exact ⟨_, if_pos hread⟩

lemma openTensor_ok_iff (runtime : Runtime) (cuda : CudaStorage) :
    CudaConversionPlugin.openTensor runtime cuda = .ok () ↔
      runtime.pointerAttributes = .ok () ∧ cuda.deviceId = runtime.currentDevice ∧
        runtime.fromDlpack = .ok () := by
  rw [CudaConversionPlugin.openTensor]
  rcases hattributes : runtime.pointerAttributes with e | _
  · exact ⟨(nofun), fun h => nomatch h.1⟩
  · change (CudaConversionPlugin.checkDevice runtime cuda >>= _) = _ ↔ _
    by_cases hdevice : cuda.deviceId = runtime.currentDevice
    · rw [CudaConversionPlugin.checkDevice, if_neg (not_not.mpr hdevice)]
      exact ⟨fun h => ⟨rfl, hdevice, h⟩, fun h => h.2.2⟩
    · rw [CudaConversionPlugin.checkDevice, if_pos hdevice]
      exact ⟨(nofun), fun h => absurd h.2.1 hdevice⟩

lemma write_ok_iff (runtime : Runtime) (held : Held) (device : Device) (view : TensorMetadata)
    (tensor : Tensor) : (CudaConversionPlugin.write runtime held device view tensor).2 = .ok () ↔
      runtime.Copies held.data device view tensor := by
  rw [CudaConversionPlugin.write, Runtime.Copies]
  rcases runtime.externalStream device with e | _
  · exact ⟨(nofun), fun h => nomatch h.1⟩
  · change (held.settle (runtime.copy held.data view tensor)).2 = _ ↔ _
    rcases runtime.copy held.data view tensor with e | ⟨e, left⟩ | left
    · exact ⟨(nofun), fun ⟨_, _, h⟩ => (nomatch h)⟩
    · exact ⟨(nofun), fun ⟨_, _, h⟩ => (nomatch h)⟩
    · exact ⟨fun _ => ⟨rfl, left, rfl⟩, fun _ => rfl⟩

lemma write_cuda :
    (CudaConversionPlugin.write runtime held device view tensor).1.cuda = held.cuda := by
  rw [CudaConversionPlugin.write]
  rcases runtime.externalStream device with e | _
  · rfl
  · change (held.settle (runtime.copy held.data view tensor)).1.cuda = _
    rcases runtime.copy held.data view tensor with e | ⟨e, left⟩ | left
    · rfl
    · rfl
    · rfl

/-- A copy that is not made leaves the bytes alone unless it fails half way. -/
lemma write_data_iff (h : ¬ runtime.Copies held.data device view tensor) :
    (CudaConversionPlugin.write runtime held device view tensor).1.data = held.data ↔
      ∀ e left, runtime.externalStream device = .ok () →
        runtime.copy held.data view tensor = .failed e left → left = held.data := by
  rw [CudaConversionPlugin.write]
  rw [Runtime.Copies] at h
  rcases hstream : runtime.externalStream device with e | _
  · exact ⟨fun _ _ _ hs => (nomatch hs), fun _ => rfl⟩
  · change (held.settle (runtime.copy held.data view tensor)).1.data = _ ↔ _
    rcases hcopy : runtime.copy held.data view tensor with e | ⟨e, left⟩ | left
    · exact ⟨fun _ _ _ _ hc => (nomatch hc), fun _ => rfl⟩
    · constructor
      · intro hl e' left' _ hc
        obtain ⟨_, rfl⟩ := CopyOutcome.failed.inj hc
        exact hl
      · exact fun hall => hall e left rfl rfl
    · exact absurd ⟨hstream, left, hcopy⟩ h

/-- The handle is acquired, is not to be had, or is acquired and lost. -/
lemma fromOutput_cases (runtime : Runtime) (held : Held) :
    (CudaConversionPlugin.fromOutput runtime held =
        ({ held with cuda := { held.cuda with handleState := .inUse } }, .ok ()) ∧
      runtime.streamPointer (CudaConversionPlugin.device runtime) = .ok () ∧
      held.cuda.Available ∧ runtime.pointerAttributes = .ok () ∧
      held.cuda.deviceId = runtime.currentDevice ∧ runtime.fromDlpack = .ok ()) ∨
    (∃ e, CudaConversionPlugin.fromOutput runtime held = (held, .error e) ∧
      (runtime.streamPointer (CudaConversionPlugin.device runtime) ≠ .ok () ∨
        ¬ held.cuda.Available)) ∨
    ∃ e, CudaConversionPlugin.fromOutput runtime held = (held.close, .error e) ∧
      runtime.streamPointer (CudaConversionPlugin.device runtime) = .ok () ∧
      held.cuda.Available ∧ ¬ (runtime.pointerAttributes = .ok () ∧
        held.cuda.deviceId = runtime.currentDevice ∧ runtime.fromDlpack = .ok ()) := by
  rw [CudaConversionPlugin.fromOutput]
  rcases runtime.streamPointer (CudaConversionPlugin.device runtime) with e | _
  · exact .inr (.inl ⟨e, rfl, .inl nofun⟩)
  · by_cases ha : held.cuda.Available
    · rw [CudaStorage.getWriteHandle_ok ha]
      dsimp only
      have hopen := openTensor_ok_iff runtime { held.cuda with handleState := .inUse }
      rcases ho : CudaConversionPlugin.openTensor runtime
          { held.cuda with handleState := .inUse } with e | _
      · refine .inr (.inr ⟨e, rfl, rfl, ha, fun h => ?_⟩)
        exact nomatch ho.symm.trans (hopen.mpr h)
      · exact .inl ⟨rfl, rfl, ha, hopen.mp ho⟩
    · obtain ⟨e, he⟩ := CudaStorage.getWriteHandle_error ha
      rw [he]
      exact .inr (.inl ⟨refusal e, rfl, .inr ha⟩)

lemma copyTo_cuda_cases (runtime : Runtime) (view : TensorMetadata) (tensor : Tensor)
    (hcuda : held.data.backend = "cuda") :
    ((CudaConversionPlugin.copyTo runtime held view tensor).2 = .ok () ∧
      runtime.Serves held view tensor) ∨
    (∃ e, CudaConversionPlugin.copyTo runtime held view tensor = (held, .error e) ∧
      (runtime.streamPointer (CudaConversionPlugin.device runtime) ≠ .ok () ∨
        ¬ held.cuda.Available)) ∨
    ∃ e, (CudaConversionPlugin.copyTo runtime held view tensor).2 = .error e ∧
      (CudaConversionPlugin.copyTo runtime held view tensor).1.cuda.handleState = .finalized ∧
      runtime.streamPointer (CudaConversionPlugin.device runtime) = .ok () ∧
      held.cuda.Available ∧ ¬ runtime.Serves held view tensor := by
  rw [CudaConversionPlugin.copyTo, if_pos hcuda]
  obtain ⟨hf, hpointer, ha, hattributes, hdevice, hdlpack⟩ | ⟨e, hf, hnone⟩ |
    ⟨e, hf, hpointer, ha, hno⟩ := fromOutput_cases runtime held
  · rw [hf]
    dsimp only
    split_ifs with hfar
    · refine .inr (.inr ⟨_, rfl, rfl, hpointer, ha, fun hs => ?_⟩)
      exact hs.near.elim hfar.1 hfar.2
    · have hnear : tensor.device.type = .cpu ∨
          tensor.device = CudaConversionPlugin.device runtime := by
        rw [not_and_or, not_not, not_not] at hfar
        exact hfar
      have hwrite := write_ok_iff runtime
        { held with cuda := { held.cuda with handleState := .inUse } }
        (CudaConversionPlugin.device runtime) view tensor
      rcases hw : (CudaConversionPlugin.write runtime
          { held with cuda := { held.cuda with handleState := .inUse } }
          (CudaConversionPlugin.device runtime) view tensor).2 with e | _
      · refine .inr (.inr ⟨e, rfl, rfl, hpointer, ha, fun hs => ?_⟩)
        exact nomatch hw.symm.trans (hwrite.mpr hs.copies)
      · exact .inl ⟨rfl, hpointer, ha, hattributes, hdevice, hdlpack, hnear, hwrite.mp hw⟩
  · rw [hf]
    exact .inr (.inl ⟨e, rfl, hnone⟩)
  · rw [hf]
    refine .inr (.inr ⟨e, rfl, rfl, hpointer, ha, fun hs => ?_⟩)
    exact hno ⟨hs.attributes, hs.device, hs.dlpack⟩

end Plugins

section Described

lemma contiguousStrides_allocated (hn : tensor.numel ≠ 0) :
    ((strides (dims tensor.sizes)).map Int64.ofNat).map Int64.toInt =
      contiguousStrides (tensor.sizes.map Int64.toInt) := by
  have hr := Tensor.representable hn
  rw [map_toInt (nonneg_ofNat hr.strides_lt), dims_ofNat hr.strides_lt, map_toInt hr.1,
    contiguousStrides_cast]

lemma described_allocated (hn : tensor.numel ≠ 0)
    (hd : (describeDtype tensor.scalarType).Returns d)
    (hb : tensor.itemSize * tensor.numel ≤ data.bytes.length) :
    described (allocated tensor.sizes d data) tensor.scalarType =
      rowMajorView tensor (d.code, d.bits, d.lanes) := by
  have hr := Tensor.representable hn
  obtain ⟨hstrides, hspan⟩ := described_eq (viewable_allocated hr hd hb)
    (accepts_allocated hr (Tensor.zero_notMem_sizes hn) hd hb)
  rw [normal_allocated.2, contiguousStrides_allocated hn] at hstrides
  rw [viewed_allocated hr] at hspan
  rw [rowMajorView, ← hstrides, show (tensor.numel : ℤ) = _ from hspan.symm]
  rfl

lemma describes_iff (hn : tensor.numel ≠ 0) (hd : (describeDtype tensor.scalarType).Returns d)
    (msg : TensorMsg) : Describes msg tensor ↔ allocated tensor.sizes d msg.data = msg := by
  have hr := Tensor.representable hn
  have hstrides := contiguousStrides_allocated hn
  constructor
  · intro h
    have hkey : (d.code, d.bits, d.lanes) = key msg :=
      Option.some.inj ((describe_eq hd).symm.trans h.dtype)
    have hms : msg.strides = (strides (dims tensor.sizes)).map Int64.ofNat := by
      have he : msg.strides.map Int64.toInt =
          ((strides (dims tensor.sizes)).map Int64.ofNat).map Int64.toInt :=
        h.strides.trans hstrides.symm
      exact Except.ok.inj ((toArray_toInt _).symm.trans (he ▸ toArray_toInt _))
    obtain ⟨hshape, _, _, hoffset⟩ := h
    obtain ⟨code, bits, lanes, shape, strides, offset, data⟩ := msg
    obtain ⟨rfl, rfl, rfl⟩ : d.code = code ∧ d.bits = bits ∧ d.lanes = lanes := by
      simpa [key] using hkey
    simp only at hshape hms hoffset
    rw [allocated, hshape, hms, hoffset]
  · intro h
    refine ⟨?_, ?_, ?_, ?_⟩
    · exact (congrArg TensorMsg.shape h).symm
    · rw [← hstrides]
      exact congrArg (List.map Int64.toInt) (congrArg TensorMsg.strides h).symm
    · rw [describe_eq hd, ← h]
      rfl
    · exact (congrArg TensorMsg.byteOffset h).symm

/-- The plugin makes the copy, or what it leaves shows whether it spares the storage. -/
def Settles (plugin : Plugin) (held : Held) (view : TensorMetadata) (tensor : Tensor) : Prop :=
  ((plugin.copyTo held view tensor).2 = .ok () ∧ plugin.Completes held view tensor) ∨
    ((∃ e, (plugin.copyTo held view tensor).2 = .error e) ∧
      ¬ plugin.Completes held view tensor ∧
      (Untouched held (plugin.copyTo held view tensor) ↔ plugin.Spares held view tensor))

lemma cpu_settles (held : Held) (hn : tensor.numel ≠ 0)
    (hd : (describeDtype tensor.scalarType).Returns d) (hpos : 0 < tensor.itemSize)
    (hb : tensor.itemSize * tensor.numel ≤ held.data.bytes.length)
    (hv : view = rowMajorView tensor (d.code, d.bits, d.lanes)) :
    Settles .cpu held view tensor := by
  by_cases hcpu : held.data.backend = "cpu"
  · obtain ⟨t, hview, hs, ht, _⟩ := view_allocated (Tensor.representable hn)
      (Tensor.zero_notMem_sizes hn) hd hpos hb
    rw [described_allocated hn hd hb, ← hv] at hview
    refine .inl ⟨?_, hcpu⟩
    change (CpuConversionPlugin.copyTo held view tensor).2 = _
    rw [CpuConversionPlugin.copyTo, if_pos hcpu, Python.CpuConversionPlugin.copyTo, hview]
    dsimp only
    rw [if_pos ⟨hs, ht⟩]
    rfl
  · have hcopy : Plugin.cpu.copyTo held view tensor = (held, .error notMemory) := if_neg hcpu
    rw [Settles, hcopy]
    exact .inr ⟨⟨_, rfl⟩, hcpu, fun _ => trivial, fun _ => untouched_refl held _⟩

lemma cuda_settles_cuda (runtime : Runtime) (view : TensorMetadata) (tensor : Tensor)
    (hcuda : held.data.backend = "cuda") : Settles (.cuda runtime) held view tensor := by
  have hnot : held.data.backend ≠ "cpu" := fun h => absurd (hcuda.symm.trans h) (by decide)
  have hcopy : (Plugin.cuda runtime).copyTo held view tensor =
      CudaConversionPlugin.copyTo runtime held view tensor := rfl
  rw [Settles, hcopy]
  obtain ⟨hok, hserves⟩ | ⟨e, he, hnone⟩ | ⟨e, he, hlost, hpointer, ha, hno⟩ :=
    copyTo_cuda_cases runtime view tensor hcuda
  · exact .inl ⟨hok, .inl ⟨hcuda, hserves⟩⟩
  · rw [he]
    refine .inr ⟨⟨e, rfl⟩, ?_, fun _ => ⟨fun _ => hnone, fun h => absurd h hnot⟩,
      fun _ => untouched_refl held _⟩
    rintro (⟨_, hs⟩ | ⟨hcpu, _⟩)
    · exact hnone.elim (fun h => h hs.pointer) fun h => h hs.available
    · exact hnot hcpu
  · refine .inr ⟨⟨e, he⟩, ?_, fun h => ?_, fun h => ?_⟩
    · rintro (⟨_, hs⟩ | ⟨hcpu, _⟩)
      · exact hno hs
      · exact hnot hcpu
    · exact nomatch hlost.symm.trans (h.2 ha.1)
    · exact (h.1 hcuda).elim (fun hp => absurd hpointer hp) fun hv => absurd ha hv

/-- Host memory that a tensor of a CUDA device is copied into. -/
lemma cuda_settles_host (runtime : Runtime) (hn : tensor.numel ≠ 0) (hpos : 0 < tensor.itemSize)
    (hb : tensor.itemSize * tensor.numel ≤ held.data.bytes.length)
    (hv : view = rowMajorView tensor (d.code, d.bits, d.lanes))
    (hcpu : held.data.backend = "cpu") : Settles (.cuda runtime) held view tensor := by
  have hnot : held.data.backend ≠ "cuda" := fun h => absurd (hcpu.symm.trans h) (by decide)
  have hcopy : (Plugin.cuda runtime).copyTo held view tensor =
      CudaConversionPlugin.write runtime held tensor.device view tensor := by
    subst hv
    change CudaConversionPlugin.copyTo runtime held _ tensor = _
    rw [CudaConversionPlugin.copyTo, if_neg hnot, if_pos hcpu]
    have hflat : Python.CpuConversionPlugin.fromBuffer held.data
        (rowMajorView tensor (d.code, d.bits, d.lanes)).itemSize tensor.numel
        (rowMajorView tensor (d.code, d.bits, d.lanes)).byteOffset = .ok _ :=
      fromBuffer_all hpos (Nat.pos_of_ne_zero hn) hb
    rw [hflat]
  rw [Settles, hcopy]
  by_cases hw : runtime.Copies held.data tensor.device view tensor
  · exact .inl ⟨(write_ok_iff ..).mpr hw, .inr ⟨hcpu, hw⟩⟩
  · refine .inr ⟨?_, ?_, ?_, ?_⟩
    · rcases hr : (CudaConversionPlugin.write runtime held tensor.device view tensor).2 with e | _
      · exact ⟨e, rfl⟩
      · exact absurd ((write_ok_iff ..).mp hr) hw
    · rintro (⟨h, _⟩ | ⟨_, h⟩)
      · exact hnot h
      · exact hw h
    · exact fun h => ⟨fun hc => absurd hc hnot, fun _ => (write_data_iff hw).mp h.1⟩
    · exact fun h => ⟨(write_data_iff hw).mpr (h.2 hcpu), fun hs => write_cuda.symm ▸ hs⟩

lemma cuda_settles_other (runtime : Runtime) (view : TensorMetadata) (tensor : Tensor)
    (hcuda : held.data.backend ≠ "cuda") (hcpu : held.data.backend ≠ "cpu") :
    Settles (.cuda runtime) held view tensor := by
  have hcopy : (Plugin.cuda runtime).copyTo held view tensor = (held, .error notMemory) := by
    change CudaConversionPlugin.copyTo runtime held view tensor = _
    rw [CudaConversionPlugin.copyTo, if_neg hcuda, if_neg hcpu]
  rw [Settles, hcopy]
  refine .inr ⟨⟨_, rfl⟩, ?_, fun _ => ⟨fun h => absurd h hcuda, fun h => absurd h hcpu⟩,
    fun _ => untouched_refl held _⟩
  rintro (⟨h, _⟩ | ⟨h, _⟩)
  · exact hcuda h
  · exact hcpu h

lemma settles (plugin : Plugin) (held : Held) (hn : tensor.numel ≠ 0)
    (hd : (describeDtype tensor.scalarType).Returns d) (hpos : 0 < tensor.itemSize)
    (hb : tensor.itemSize * tensor.numel ≤ held.data.bytes.length)
    (hv : view = rowMajorView tensor (d.code, d.bits, d.lanes)) :
    Settles plugin held view tensor := by
  cases plugin with
  | cpu => exact cpu_settles held hn hd hpos hb hv
  | cuda runtime =>
    by_cases hcuda : held.data.backend = "cuda"
    · exact cuda_settles_cuda runtime view tensor hcuda
    · by_cases hcpu : held.data.backend = "cpu"
      · exact cuda_settles_host runtime hn hpos hb hv hcpu
      · exact cuda_settles_other runtime view tensor hcuda hcpu
  | external matching copyTo =>
    rcases hr : (copyTo held view tensor).2 with e | _
    · exact .inr ⟨⟨e, hr⟩, fun h => (nomatch hr.symm.trans h), Iff.rfl⟩
    · exact .inl ⟨hr, hr⟩

end Described

section Calls

lemma describe_cases (dtype : ScalarType) :
    describe dtype = none ∨ Supported dtype ∧ ∃ d, (describeDtype dtype).Returns d := by
  cases dtype with
  | other name size => exact .inl rfl
  | _ => exact .inr ⟨nofun, _, returns_pure _⟩

lemma Tensor.itemSize_pos (h : Supported tensor.scalarType) : 0 < tensor.itemSize := by
  rw [Tensor.itemSize]
  cases hs : tensor.scalarType with
  | other name size => exact absurd hs (h name size)
  | _ => decide

/-- The message when the plugin is chosen: the metadata is the tensor's already. -/
def relabelled (message : Message) (tensor : Tensor) (d : DtypeDescription) : Message :=
  { message with msg := allocated tensor.sizes d message.msg.data }

lemma toTensorMsg_eq (registry : ConversionRegistry) (message : Message) (hn : tensor.numel ≠ 0)
    (hd : (describeDtype tensor.scalarType).Returns d)
    (hb : tensor.itemSize * tensor.numel ≤ message.msg.data.bytes.length) :
    toTensorMsg registry message tensor =
      match registry.copier message.msg.data tensor with
      | .error e => (relabelled message tensor d, .error e)
      | .ok plugin =>
        let copied := plugin.copyTo message.held
          (rowMajorView tensor (d.code, d.bits, d.lanes)) tensor
        ((relabelled message tensor d).put copied.1, copied.2) := by
  have hr := Tensor.representable hn
  rw [toTensorMsg, if_neg hn, describe_eq hd]
  dsimp only
  rw [if_neg (Nat.not_lt.mpr (Nat.mul_comm _ _ ▸ hb)), map_toInt hr.1, contiguousStrides_cast,
    toArray_cast hr.strides_lt]
  change copyDescribed registry (relabelled message tensor d) tensor = _
  rw [copyDescribed]
  change (match registry.copier message.msg.data tensor with
    | .error e => _
    | .ok plugin => _) = _
  rcases registry.copier message.msg.data tensor with e | plugin
  · rfl
  · dsimp only
    rw [show metadata (relabelled message tensor d).msg = _ from metadata_allocated hn hd hb,
      described_allocated hn hd hb]
    rfl

/-- The message keeps its fields, its bytes and its acquisition. -/
lemma kept_iff (hn : tensor.numel ≠ 0) (hd : (describeDtype tensor.scalarType).Returns d)
    (message : Message) (copied : Copied) :
    (((relabelled message tensor d).put copied.1).msg = message.msg ∧
        (message.cuda.handleState = .unset →
          ((relabelled message tensor d).put copied.1).cuda.handleState = .unset)) ↔
      Describes message.msg tensor ∧ Untouched message.held copied := by
  have hmsg : ((relabelled message tensor d).put copied.1).msg =
      allocated tensor.sizes d copied.1.data := rfl
  rw [describes_iff hn hd, hmsg]
  constructor
  · rintro ⟨h, hu⟩
    have hdata : copied.1.data = message.msg.data := congrArg TensorMsg.data h
    exact ⟨hdata ▸ h, hdata, hu⟩
  · rintro ⟨h, hdata, hu⟩
    rw [show copied.1.data = message.msg.data from hdata]
    exact ⟨h, hu⟩

lemma atomic_of_returned {result : Except PythonError Unit}
    (h : toTensorMsg registry message tensor = (message, result)) :
    Atomic registry message tensor := by
  intro e left hl
  obtain rfl := (Prod.mk.inj (h.symm.trans hl)).1
  exact ⟨rfl, id⟩

lemma atomic_iff_of_described (hn : tensor.numel ≠ 0)
    (hd : (describeDtype tensor.scalarType).Returns d)
    (hb : tensor.itemSize * tensor.numel ≤ message.msg.data.bytes.length) :
    Atomic registry message tensor ↔
      match registry.copier message.msg.data tensor with
      | .error _ => Describes message.msg tensor
      | .ok plugin =>
        let copied := plugin.copyTo message.held
          (rowMajorView tensor (d.code, d.bits, d.lanes)) tensor
        ∀ e, copied.2 = .error e → Describes message.msg tensor ∧
          Untouched message.held copied := by
  rw [Atomic, toTensorMsg_eq registry message hn hd hb]
  rcases registry.copier message.msg.data tensor with e | plugin
  · have hkept := kept_iff hn hd message (message.held, .error e)
    constructor
    · exact fun h => (hkept.mp (h e _ rfl)).1
    · intro h e' left hl
      obtain ⟨rfl, _⟩ := Prod.mk.inj hl
      exact hkept.mpr ⟨h, untouched_refl _ _⟩
  · have hkept := kept_iff hn hd message (plugin.copyTo message.held
      (rowMajorView tensor (d.code, d.bits, d.lanes)) tensor)
    constructor
    · exact fun h e he => hkept.mp (h e _ (Prod.ext rfl he))
    · intro h e left hl
      obtain ⟨rfl, he⟩ := Prod.mk.inj hl
      exact hkept.mpr (h e he)

theorem python_write_atomic_iff (registry : ConversionRegistry) (message : Message)
    (tensor : Tensor) : Atomic registry message tensor ↔ Harmless registry message tensor := by
  by_cases hn : tensor.numel = 0
  · exact ⟨fun _ => .empty hn, fun _ => atomic_of_returned (if_pos hn)⟩
  obtain hnone | ⟨hs, d, hd⟩ := describe_cases tensor.scalarType
  · have hcall : toTensorMsg registry message tensor =
        (message, .error (unsupportedDtype tensor.scalarType)) := by
      rw [toTensorMsg, if_neg hn, hnone]
    exact ⟨fun _ => .unsupported hnone, fun _ => atomic_of_returned hcall⟩
  by_cases hlarge : tensor.numel * tensor.itemSize > message.msg.data.bytes.length
  · have hcall : toTensorMsg registry message tensor =
        (message, .error (.valueError "Tensor exceeds allocated message storage")) := by
      rw [toTensorMsg, if_neg hn, describe_eq hd]
      exact if_pos hlarge
    exact ⟨fun _ => .oversized hlarge, fun _ => atomic_of_returned hcall⟩
  have hb : tensor.itemSize * tensor.numel ≤ message.msg.data.bytes.length :=
    Nat.mul_comm _ _ ▸ Nat.not_lt.mp hlarge
  rw [atomic_iff_of_described hn hd hb]
  have htyped := describe_eq hd
  rcases hp : registry.copier message.msg.data tensor with e | plugin
  · constructor
    · exact fun h => .described h fun _ hf => nomatch hp.symm.trans hf
    · intro h
      cases h with
      | empty h => exact absurd h hn
      | unsupported h => exact nomatch htyped.symm.trans h
      | oversized h => exact absurd h hlarge
      | completed _ found _ => exact nomatch hp.symm.trans found
      | described same _ => exact same
  · obtain ⟨hok, hc⟩ | ⟨⟨e, he⟩, hno, hiff⟩ := settles plugin message.held hn hd
      (Tensor.itemSize_pos hs) hb rfl
    · exact ⟨fun _ => .completed htyped hp hc, fun _ e he => nomatch hok.symm.trans he⟩
    · constructor
      · intro h
        obtain ⟨same, hu⟩ := h e he
        refine .described same fun p hf => ?_
        obtain rfl := Except.ok.inj (hp.symm.trans hf)
        rw [← Option.some.inj (htyped.symm.trans same.dtype)]
        exact hiff.mp hu
      · intro h
        cases h with
        | empty h => exact absurd h hn
        | unsupported h => exact nomatch htyped.symm.trans h
        | oversized h => exact absurd h hlarge
        | completed typed found completes =>
          obtain rfl := Except.ok.inj (hp.symm.trans found)
          obtain rfl := Option.some.inj (htyped.symm.trans typed)
          exact absurd completes hno
        | described same spares =>
          have hspares := spares plugin hp
          rw [← Option.some.inj (htyped.symm.trans same.dtype)] at hspares
          exact fun _ _ => ⟨same, hiff.mpr hspares⟩

end Calls

section Examples

/-- Only the CPU plugin is installed. -/
def cpuOnly : ConversionRegistry where
  byBackend := [("cpu", .cpu)]
  byDevice := [(.cpu, "cpu")]
  fallbacks := [.cpu]

/-- One float on a CUDA device. -/
def deviceFloat : Tensor where
  scalarType := .float
  device := ⟨.cuda, some 0⟩
  sizes := [1]
  strides := [1]
  bytes := List.replicate 4 0
  ranked := complexTensor.ranked
  sizes_nonneg := complexTensor.sizes_nonneg
  strides_nonneg := complexTensor.strides_nonneg
  numel_lt := complexTensor.numel_lt
  inside := by decide

/-- Every CUDA call succeeds, on device 0. -/
def deviceZero : Runtime where
  currentDevice := 0
  streamPointer _ := .ok ()
  pointerAttributes := .ok ()
  fromDlpack := .ok ()
  externalStream _ := .ok ()
  copy data _ source := .copied (data.write 0 source.elements.flatten)

def bothPlugins : ConversionRegistry where
  byBackend := [("cpu", .cpu), ("cuda", .cuda deviceZero)]
  byDevice := [(.cpu, "cpu"), (.cuda, "cuda")]
  fallbacks := [.cpu]

def hostFloats : Tensor where
  scalarType := .float
  device := { type := .cpu }
  sizes := [2]
  strides := [1]
  bytes := List.replicate 8 1
  ranked := rfl
  sizes_nonneg := by simp [Nonneg]
  strides_nonneg := complexTensor.strides_nonneg
  numel_lt := by decide
  inside := by decide

/-- Two floats in CUDA storage of device 1 that was never written. -/
def unwritten : Message where
  msg := { encodedFloats with data := ⟨"cuda", List.replicate 8 0, encodedFloats.data.size_lt⟩ }
  cuda := { deviceId := 1 }

/-- Without a plugin two floats are described as one; on another device the storage can no
longer be written. -/
theorem raised_write_leaves_traces :
    (toTensorMsg cpuOnly { msg := encodedFloats } deviceFloat =
        ({ msg := { encodedFloats with shape := [1] } }, .error (.runtimeError
          "No Torch conversion plugin serves device 'cuda'; installed backends are ['cpu']")) ∧
      ¬ Atomic cpuOnly { msg := encodedFloats } deviceFloat) ∧
    toTensorMsg bothPlugins unwritten hostFloats =
        ({ unwritten with cuda := unwritten.cuda.close }, .error (.runtimeError
          "CUDA buffer is on device 1, but current device is 0")) ∧
      ¬ Atomic bothPlugins unwritten hostFloats := by
  have hunserved : toTensorMsg cpuOnly { msg := encodedFloats } deviceFloat =
      ({ msg := { encodedFloats with shape := [1] } }, .error (.runtimeError
        "No Torch conversion plugin serves device 'cuda'; installed backends are ['cpu']")) := by
    decide +kernel
  have hdevice : toTensorMsg bothPlugins unwritten hostFloats =
      ({ unwritten with cuda := unwritten.cuda.close }, .error (.runtimeError
        "CUDA buffer is on device 1, but current device is 0")) := by
    decide +kernel
  refine ⟨⟨hunserved, fun h => ?_⟩, hdevice, fun h => ?_⟩
  · exact absurd (h _ _ hunserved).1 (by decide)
  · exact absurd ((h _ _ hdevice).2 rfl) (by decide)

end Examples

end RosidlBufferBackends.Torch.Python.Writes
