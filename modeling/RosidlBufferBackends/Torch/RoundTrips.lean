import RosidlBufferBackends.Torch.AllocationAgreement
import RosidlBufferBackends.Torch.OwnStorage
import RosidlBufferBackends.Torch.StorageBytes

/-! Decoding a message gives back the tensor that was encoded into it. -/

namespace RosidlBufferBackends.Torch

open Checked RowMajor

/-- Both tensors have one shape, one dtype and the same elements. -/
structure Tensor.Same (t u : Tensor) : Prop where
  sizes : t.sizes = u.sizes
  scalarType : t.scalarType = u.scalarType
  element : ∀ i, Within i (dims u.sizes) → t.element i = u.element i

def Decodes (registry : Registry) (msg : TensorMsg) (tensor : Tensor) : Prop :=
  ∃ decoded, fromInputTensorMsg registry msg = .ok (some decoded) ∧ decoded.Same tensor

def Python.Decodes (registry : ConversionRegistry) (msg : TensorMsg) (tensor : Tensor) : Prop :=
  ∃ decoded, fromInputTensorMsg registry msg = .ok (some decoded) ∧ decoded.Same tensor

/-- Whatever `to_tensor_msg` returns for the tensor decodes to it, in both languages. -/
structure RoundTrip (registry : Registry) (python : Python.ConversionRegistry) (tensor : Tensor) :
    Prop where
  copied : ∀ msg out, msg.data.backend = "cpu" →
    toTensorMsg registry msg (some tensor) = .returned out → Decodes registry out tensor
  new : ∀ out, newTensorMsg registry (some tensor) = .ok out → Decodes registry out tensor
  pythonCopied : ∀ msg out, msg.data.backend = "cpu" →
    Python.toTensorMsg python msg tensor = (out, .ok ()) → Python.Decodes python out tensor
  pythonNew : ∀ out, Python.newTensorMsg python tensor = .ok out →
    Python.Decodes python out tensor

/-- The message stays as it is, and a new one holds no tensor. -/
structure Skipped (registry : Registry) (python : Python.ConversionRegistry) (tensor : Tensor) :
    Prop where
  copied : ∀ msg, toTensorMsg registry msg (some tensor) = .returned msg
  new : newTensorMsg registry (some tensor) = .ok {}
  decoded : fromInputTensorMsg registry {} = .ok none
  pythonCopied : ∀ msg, Python.toTensorMsg python msg tensor = (msg, .ok ())
  pythonNew : Python.newTensorMsg python tensor = .ok {}
  pythonDecoded : Python.fromInputTensorMsg python {} = .ok none

/-- The CPU plugins serve host memory in both languages. -/
structure CpuInstalled (registry : Registry) (python : Python.ConversionRegistry) : Prop where
  backend : registry.backends.lookup "cpu" = some cpuConversionPlugin
  device : registry.devices .cpu = some cpuConversionPlugin
  fallback : python.fallbacks.head? = some Python.cpuConversionPlugin
  byBackend : python.byBackend.lookup "cpu" = some Python.cpuConversionPlugin
  byDevice : python.byDevice.lookup .cpu = some "cpu"

/-- The storage holds the tensor's elements in row-major order. -/
def Holds (data : Storage) (tensor : Tensor) : Prop :=
  tensor.itemSize * tensor.numel ≤ data.bytes.length ∧
    ∀ i, Within i (dims tensor.sizes) →
      data.read (tensor.itemSize * offset i (strides (dims tensor.sizes))) tensor.itemSize =
        tensor.element i

variable {registry : Registry} {python : Python.ConversionRegistry} {tensor : Tensor}
  {msg out : TensorMsg} {data : Storage} {d : DtypeDescription} {dtype : ScalarType}
  {shape : List Int64}

section Cpp

lemma Tensor.length_flatten : tensor.elements.flatten.length = tensor.itemSize * tensor.numel := by
  rw [List.length_flatten, ← Tensor.length_elements]
  have h : ∀ e ∈ tensor.elements, e.length = tensor.itemSize :=
    fun e he => Tensor.length_of_mem_elements he
  rw [List.map_congr_left h, List.map_const', List.sum_replicate_nat, Nat.mul_comm]

lemma holds_write (h : tensor.itemSize * tensor.numel ≤ data.bytes.length) :
    Holds (data.write 0 tensor.elements.flatten) tensor := by
  have hfits : 0 + tensor.elements.flatten.length ≤ data.bytes.length := by
    rwa [Nat.zero_add, Tensor.length_flatten]
  refine ⟨(Storage.length_write hfits).symm ▸ h, ?_⟩
  intro i hi
  rw [Storage.read, Storage.write_bytes hfits, List.take_zero, List.nil_append]
  apply Storage.take_drop_flatten fun e he => Tensor.length_of_mem_elements he
  rw [Tensor.elements, List.getElem?_map, hi.indices_getElem?]
  rfl

lemma fromInput_allocated (hr : Representable shape) (hd : (describeDtype dtype).Returns d)
    (hb : dtype.elementSize.toNat * (dims shape).prod ≤ data.bytes.length)
    (hcpu : data.backend = "cpu") :
    ∃ decoded, CpuConversionPlugin.fromInput (allocated shape d data) = .ok decoded ∧
      decoded.sizes = shape ∧ decoded.scalarType = dtype ∧
      ∀ i, decoded.element i =
        data.read (dtype.elementSize.toNat * offset i (strides (dims shape)))
          dtype.elementSize.toNat := by
  have hdims := dims_ofNat hr.strides_lt
  have hnonneg := nonneg_ofNat hr.strides_lt
  have hrequire : CpuConversionPlugin.requireCpuStorage (allocated shape d data) = .ok () :=
    if_neg (not_not.mpr hcpu)
  have hinside : dtype.elementSize.toNat *
      span (dims shape) (dims ((strides (dims shape)).map Int64.ofNat)) ≤
        (data.bytes.drop 0).length := by
    rwa [hdims, span_strides, List.drop_zero]
  have hlen : shape.length = ((strides (dims shape)).map Int64.ofNat).length := by simp
  refine ⟨⟨dtype, ⟨.cpu, none⟩, shape, (strides (dims shape)).map Int64.ofNat, data.bytes.drop 0,
    hlen, hr.1, hnonneg, hr.prod_lt, hinside⟩, ?_, rfl, rfl, ?_⟩
  · rw [CpuConversionPlugin.fromInput, hrequire]
    change CpuConversionPlugin.makeTensor _ = _
    rw [CpuConversionPlugin.makeTensor, normalizedStrides_allocated.result,
      (scalarType_allocated hd data).result]
    exact dif_pos ⟨hlen, hr.1, hnonneg, hr.prod_lt, hinside⟩
  · intro i
    rw [Tensor.element, Storage.read, hdims]
    rfl

lemma decodes_allocated (hi : CpuInstalled registry python) (hn : tensor.numel ≠ 0)
    (hd : (describeDtype tensor.scalarType).Returns d) (hcpu : data.backend = "cpu")
    (hpos : 0 < tensor.itemSize) (hh : Holds data tensor) :
    Decodes registry (allocated tensor.sizes d data) tensor := by
  have hr := Tensor.representable hn
  obtain ⟨decoded, hdec, hsizes, htype, helement⟩ := fromInput_allocated hr hd hh.1 hcpu
  refine ⟨decoded, ?_, hsizes, htype, fun i hw => (helement i).trans (hh.2 i hw)⟩
  have hne : (allocated tensor.sizes d data).data.bytes ≠ [] := by
    intro he
    have hle := hh.1
    rw [show data.bytes = [] from he, List.length_nil] at hle
    have hprod : 0 < tensor.itemSize * tensor.numel := Nat.mul_pos hpos (Nat.pos_of_ne_zero hn)
    omega
  have hplugin : registry.forBackend (allocated tensor.sizes d data).data.backend =
      .ok cpuConversionPlugin := by
    rw [Registry.forBackend, show (allocated tensor.sizes d data).data.backend = "cpu" from hcpu,
      hi.backend]
  rw [fromInputTensorMsg, if_neg hne,
    (validateView_returns (viewable_allocated hr hd hh.1)).result, hplugin]
  change (CpuConversionPlugin.fromInput _ >>= _) = _
  rw [hdec]
  rfl

lemma toTensorMsg_returned (hi : CpuInstalled registry python) (hn : tensor.numel ≠ 0)
    (hdev : tensor.device.type = .cpu) (hd : (describeDtype tensor.scalarType).Returns d)
    (hcpu : msg.data.backend = "cpu")
    (h : toTensorMsg registry msg (some tensor) = .returned out) :
    ∃ data, data.backend = "cpu" ∧ Holds data tensor ∧ out = allocated tensor.sizes d data := by
  have hcopier : registry.copier msg tensor = .ok cpuConversionPlugin := by
    rw [Registry.copier, if_pos hdev, hcpu, Registry.forBackend, hi.backend]
  have hrequire : CpuConversionPlugin.requireCpuStorage msg = .ok () :=
    if_neg (not_not.mpr hcpu)
  rw [toTensorMsg, if_neg hn] at h
  split_ifs at h with hsize
  rw [hcopier] at h
  change copyAndDescribe cpuConversionPlugin msg tensor = _ at h
  have hcopy : cpuConversionPlugin.copyTo msg tensor = CpuConversionPlugin.copyTo msg tensor := rfl
  rw [copyAndDescribe, hcopy, CpuConversionPlugin.copyTo, hrequire] at h
  dsimp only at h
  rw [if_neg (not_not.mpr hdev), Tensor.contiguous] at h
  split_ifs at h with hfits
  · dsimp only at h
    have hbytes : tensor.nbytes.toNat = tensor.numel * tensor.itemSize := by
      have hnumel : (UInt64.ofNat tensor.numel).toNat = tensor.numel :=
        UInt64.toNat_ofNat_of_lt' (tensor.numel_lt.trans (by decide))
      rw [Tensor.nbytes, UInt64.toNat_mul, hnumel]
      exact Nat.mod_eq_of_lt (hfits.trans (by decide))
    have hle : tensor.itemSize * tensor.numel ≤ msg.data.bytes.length := by
      have hsize := UInt64.le_iff_toNat_le.mp (UInt64.not_lt.mp hsize)
      rwa [hbytes, Storage.toNat_size, Nat.mul_comm] at hsize
    have hsup : Supported tensor.scalarType := (describeDtype_ok hd.result).1
    obtain ⟨d', hd', hset⟩ :=
      setMetadata_of_supported { msg with data := msg.data.write 0 tensor.elements.flatten } hsup hn
    obtain rfl := hd.eq hd'.result
    rw [hset] at h
    exact ⟨msg.data.write 0 tensor.elements.flatten, hcpu, holds_write hle,
      (Encoding.returned.inj h).symm⟩

lemma newTensorMsg_ok (hi : CpuInstalled registry python) (hn : tensor.numel ≠ 0)
    (hdev : tensor.device.type = .cpu) (h : newTensorMsg registry (some tensor) = .ok out) :
    ∃ msg, msg.data.backend = "cpu" ∧ toTensorMsg registry msg (some tensor) = .returned out := by
  rw [newTensorMsg, if_neg hn] at h
  rcases ha : (allocateTensorMsg registry tensor.sizes tensor.scalarType
      (some tensor.device)).result with e | msg
  · rw [ha] at h
    cases h
  · rw [ha] at h
    refine ⟨msg, ?_, ?_⟩
    · obtain ⟨plugin, selected, n, hs, hdata⟩ := allocate_storage ha
      have hselect : registry.select (some tensor.device) =
          .ok (cpuConversionPlugin, tensor.device) := by
        rw [Registry.select, hdev, Registry.forDevice, hi.device]
        rfl
      obtain ⟨rfl, rfl⟩ := Prod.mk.inj (Except.ok.inj (hs.symm.trans hselect))
      exact CpuConversionPlugin.allocate_backend hdata
    · dsimp only [bind, Except.bind] at h
      cases hl : toTensorMsg registry msg (some tensor) with
      | returned left =>
        rw [hl] at h
        rw [Except.ok.inj h]
      | threw e left =>
        rw [hl] at h
        cases h
      | copyFailed e left =>
        rw [hl] at h
        cases h

end Cpp

section Python

lemma toArray_toInt (l : List Int64) : Python.toArray (l.map Int64.toInt) = .ok l := by
  rw [Python.toArray, if_pos, List.map_map]
  · congr 1
    conv_rhs => rw [← List.map_id l]
    exact List.map_congr_left fun v _ => Int64.ofInt_toInt v
  · intro v hv
    obtain ⟨n, _, rfl⟩ := List.mem_map.mp hv
    exact ⟨n.le_toInt, n.toInt_lt⟩

/-- Without a zero dimension Python accepts what C++ allocates. -/
lemma accepts_allocated (hr : Representable shape) (h0 : 0 ∉ shape)
    (hd : (describeDtype dtype).Returns d)
    (hb : dtype.elementSize.toNat * (dims shape).prod ≤ data.bytes.length) :
    Python.Accepts (allocated shape d data) dtype := by
  have hv : Viewable (allocated shape d data) dtype := viewable_allocated hr hd hb
  refine ((viewable_iff_accepts hv.typed).mpr ?_).mp hv
  rw [Fair]
  split_ifs
  · exact fun _ _ => hr.2
  · exact fun _ hm => absurd hm h0

/-- The elements fit into the memory that they are read from. -/
lemma fromBuffer_all {itemSize count : ℕ} (hpos : 0 < itemSize) (hcount : 0 < count)
    (hb : itemSize * count ≤ data.bytes.length) :
    Python.CpuConversionPlugin.fromBuffer data itemSize count 0 =
      .ok (data.bytes.take (count * itemSize)) := by
  have hlt : 0 < data.bytes.length := (Nat.mul_pos hpos hcount).trans_le hb
  rw [Python.CpuConversionPlugin.fromBuffer, if_neg, if_neg, if_neg]
  · rw [Int.toNat_zero, List.drop_zero]
    norm_cast
  · rw [zero_add, not_lt]
    exact_mod_cast Nat.mul_comm _ _ ▸ hb
  · omega
  · rintro (he | he)
    · exact List.ne_nil_of_length_pos hlt he
    · exact hcount.ne' (Int.natCast_eq_zero.mp he)

lemma view_allocated (hr : Representable shape) (h0 : 0 ∉ shape)
    (hd : (describeDtype dtype).Returns d) (hpos : 0 < dtype.elementSize.toNat)
    (hb : dtype.elementSize.toNat * (dims shape).prod ≤ data.bytes.length) :
    ∃ t, Python.CpuConversionPlugin.view data (Python.described (allocated shape d data) dtype) =
        .ok t ∧ t.sizes = shape ∧ t.scalarType = dtype ∧
      t.strides = (strides (dims shape)).map Int64.ofNat ∧
      ∀ i, Within i (dims shape) → t.element i =
        data.read (dtype.elementSize.toNat * offset i (strides (dims shape)))
          dtype.elementSize.toNat := by
  have hdims := dims_ofNat hr.strides_lt
  have hnonneg := nonneg_ofNat hr.strides_lt
  have hprod : 0 < (dims shape).prod := prod_pos_of (mt (zero_mem_dims hr.1).mp h0)
  obtain ⟨hstrides, hspan⟩ :=
    described_eq (viewable_allocated hr hd hb) (accepts_allocated hr h0 hd hb)
  rw [normal_allocated.2] at hstrides
  rw [viewed_allocated hr] at hspan
  have hflat : Python.CpuConversionPlugin.fromBuffer data dtype.elementSize.toNat
      ((dims shape).prod : ℕ) 0 =
        .ok (data.bytes.take ((dims shape).prod * dtype.elementSize.toNat)) :=
    fromBuffer_all hpos hprod hb
  have hlen : shape.length = ((strides (dims shape)).map Int64.ofNat).length := by simp
  have hinside : dtype.elementSize.toNat *
      span (dims shape) (dims ((strides (dims shape)).map Int64.ofNat)) ≤
        (data.bytes.take ((dims shape).prod * dtype.elementSize.toNat)).length := by
    rw [hdims, span_strides, List.length_take, Nat.mul_comm (dims shape).prod]
    exact le_min le_rfl hb
  refine ⟨⟨dtype, { type := .cpu }, shape, (strides (dims shape)).map Int64.ofNat, _,
    hlen, hr.1, hnonneg, hr.prod_lt, hinside⟩, ?_, rfl, rfl, rfl, ?_⟩
  · have hitem : (Python.described (allocated shape d data) dtype).itemSize =
        dtype.elementSize.toNat := rfl
    have hstart : (Python.described (allocated shape d data) dtype).byteOffset = 0 := rfl
    have hshape : (Python.described (allocated shape d data) dtype).shape =
        shape.map Int64.toInt := rfl
    rw [Python.CpuConversionPlugin.view, hspan, hitem, hstart, hflat]
    change Python.CpuConversionPlugin.asStrided _ _ = _
    rw [Python.CpuConversionPlugin.asStrided, hshape, hstrides, toArray_toInt, toArray_toInt]
    have hblob : Tensor.fromBlob
        (data.bytes.take ((dims shape).prod * dtype.elementSize.toNat)) shape
        ((strides (dims shape)).map Int64.ofNat) dtype { type := .cpu } = .ok _ :=
      dif_pos ⟨hlen, hr.1, hnonneg, hr.prod_lt, hinside⟩
    have hdtype : (Python.described (allocated shape d data) dtype).dtype = dtype := rfl
    dsimp only [bind, Except.bind]
    rw [hdtype, hblob]
    rfl
  · intro i hi
    have hoff := hi.offset_lt_prod
    have hle : dtype.elementSize.toNat * (offset i (strides (dims shape)) + 1) ≤
        (dims shape).prod * dtype.elementSize.toNat := by
      rw [Nat.mul_comm (dims shape).prod]
      exact Nat.mul_le_mul_left _ hoff
    rw [Nat.mul_succ] at hle
    rw [Tensor.element, Storage.read]
    change ((List.take _ _).drop (dtype.elementSize.toNat * _)).take dtype.elementSize.toNat = _
    rw [hdims, List.drop_take, List.take_take, min_eq_left (by omega)]

lemma holds_writeElements {t : Tensor} (hr : Representable tensor.sizes)
    (hs : t.sizes = tensor.sizes) (ht : t.scalarType = tensor.scalarType)
    (hstrides : t.strides = (strides (dims tensor.sizes)).map Int64.ofNat)
    (hb : tensor.itemSize * tensor.numel ≤ data.bytes.length) :
    Holds (Python.CpuConversionPlugin.writeElements data 0 t tensor) tensor := by
  have hitem : t.itemSize = tensor.itemSize := by rw [Tensor.itemSize, ht, Tensor.itemSize]
  have hwrite : Python.CpuConversionPlugin.writeElements data 0 t tensor =
      (indices (dims tensor.sizes)).foldl (fun data i => data.write
        (tensor.itemSize * offset i (strides (dims tensor.sizes))) (tensor.element i)) data := by
    rw [Python.CpuConversionPlugin.writeElements, hs, hstrides, dims_ofNat hr.strides_lt, hitem]
    simp only [Nat.zero_add]
  obtain ⟨hlength, hread⟩ := Storage.read_foldl_write data tensor.itemSize
    (indices (dims tensor.sizes)) (fun i => offset i (strides (dims tensor.sizes))) tensor.element
    (fun i hi => Tensor.element_length (mem_indices.mp hi))
    (fun i hi => by
      have hle := Nat.mul_le_mul_left tensor.itemSize (mem_indices.mp hi).offset_lt_prod
      rw [Nat.mul_succ] at hle
      exact hle.trans hb)
    (fun i hi j hj he => (mem_indices.mp hi).offset_inj (mem_indices.mp hj) he)
  rw [hwrite]
  exact ⟨hlength.symm ▸ hb, fun i hi => hread i (mem_indices.mpr hi)⟩

lemma Tensor.zero_notMem_sizes (hn : tensor.numel ≠ 0) : 0 ∉ tensor.sizes :=
  mt (zero_mem_dims tensor.sizes_nonneg).mpr (Tensor.zero_notMem hn)

lemma metadata_allocated (hn : tensor.numel ≠ 0)
    (hd : (describeDtype tensor.scalarType).Returns d)
    (hb : tensor.itemSize * tensor.numel ≤ data.bytes.length) :
    Python.metadata (allocated tensor.sizes d data) =
      .ok (Python.described (allocated tensor.sizes d data) tensor.scalarType) :=
  Python.metadata_ok_iff.mpr ⟨_, accepts_allocated (Tensor.representable hn)
    (Tensor.zero_notMem_sizes hn) hd hb, rfl⟩

lemma forData_cpu (hi : CpuInstalled registry python) (hcpu : data.backend = "cpu") :
    python.forData data = .ok Python.cpuConversionPlugin := by
  rw [Python.ConversionRegistry.forData, if_pos hcpu, hi.fallback]

lemma python_decodes_allocated (hi : CpuInstalled registry python) (hn : tensor.numel ≠ 0)
    (hd : (describeDtype tensor.scalarType).Returns d) (hcpu : data.backend = "cpu")
    (hpos : 0 < tensor.itemSize) (hh : Holds data tensor) :
    Python.Decodes python (allocated tensor.sizes d data) tensor := by
  obtain ⟨t, hview, hs, ht, _, helement⟩ := view_allocated (Tensor.representable hn)
    (Tensor.zero_notMem_sizes hn) hd hpos hh.1
  refine ⟨t, ?_, hs, ht, fun i hw => (helement i hw).trans (hh.2 i hw)⟩
  have hne : (allocated tensor.sizes d data).data.bytes ≠ [] := by
    have hprod : 0 < tensor.itemSize * tensor.numel := Nat.mul_pos hpos (Nat.pos_of_ne_zero hn)
    exact List.ne_nil_of_length_pos (hprod.trans_le hh.1)
  have hplugin : python.forData (allocated tensor.sizes d data).data =
      .ok Python.cpuConversionPlugin := forData_cpu hi hcpu
  rw [Python.fromInputTensorMsg, if_neg hne, hplugin]
  change (Python.metadata _ >>= _) = _
  rw [metadata_allocated hn hd hh.1]
  change (Python.CpuConversionPlugin.view data _ >>= _) = _
  rw [hview]
  rfl

lemma python_toTensorMsg_returned (hi : CpuInstalled registry python) (hn : tensor.numel ≠ 0)
    (hdev : tensor.device.type = .cpu) (hd : (describeDtype tensor.scalarType).Returns d)
    (hpos : 0 < tensor.itemSize) (hcpu : msg.data.backend = "cpu")
    (h : Python.toTensorMsg python msg tensor = (out, .ok ())) :
    ∃ data, data.backend = "cpu" ∧ Holds data tensor ∧ out = allocated tensor.sizes d data := by
  have hr := Tensor.representable hn
  rw [Python.toTensorMsg, if_neg hn, describe_eq hd] at h
  dsimp only at h
  split_ifs at h with hsize
  · exact nomatch (Prod.mk.inj h).2
  · have hb : tensor.itemSize * tensor.numel ≤ msg.data.bytes.length :=
      Nat.mul_comm _ _ ▸ Nat.not_lt.mp hsize
    rw [Python.map_toInt hr.1, Python.contiguousStrides_cast, toArray_cast hr.strides_lt] at h
    change Python.copyDescribed python (allocated tensor.sizes d msg.data) tensor = _ at h
    obtain ⟨t, hview, hs, ht, hstrides, _⟩ := view_allocated hr (Tensor.zero_notMem_sizes hn) hd
      hpos hb
    have hplugin : python.forData (allocated tensor.sizes d msg.data).data =
        .ok Python.cpuConversionPlugin := forData_cpu hi hcpu
    have hcopy : Python.cpuConversionPlugin.copyTo msg.data
        (Python.described (allocated tensor.sizes d msg.data) tensor.scalarType) tensor =
          .copied (Python.CpuConversionPlugin.writeElements msg.data 0 t tensor) := by
      change Python.CpuConversionPlugin.copyTo _ _ _ = _
      rw [Python.CpuConversionPlugin.copyTo, hview]
      exact if_pos ⟨hs, ht⟩
    rw [Python.copyDescribed, if_pos hdev, hplugin] at h
    dsimp only at h
    rw [metadata_allocated hn hd hb] at h
    dsimp only at h
    rw [show (allocated tensor.sizes d msg.data).data = msg.data from rfl, hcopy] at h
    refine ⟨Python.CpuConversionPlugin.writeElements msg.data 0 t tensor, ?_,
      holds_writeElements hr hs ht hstrides hb, (Prod.mk.inj h).1.symm⟩
    rw [Python.CpuConversionPlugin.writeElements, Storage.foldl_write_backend]
    exact hcpu

/-- Storage for a host tensor comes from the CPU plugin. -/
lemma python_allocate_backend (hi : CpuInstalled registry python)
    (hdev : tensor.device.type = .cpu)
    (h : Python.allocateTensorMsg python shape dtype (some tensor.device) = .ok msg) :
    msg.data.backend = "cpu" := by
  have hselect : python.select (some tensor.device) =
      .ok (Python.cpuConversionPlugin, tensor.device) := by
    rw [Python.ConversionRegistry.select, hdev, Python.ConversionRegistry.forDevice, hi.byDevice]
    dsimp only
    rw [Python.ConversionRegistry.forBackend, hi.byBackend]
    rfl
  rw [Python.allocateTensorMsg] at h
  split at h
  · cases h
  · split_ifs at h
    rw [hselect] at h
    rcases hs : Python.toArray (Python.contiguousStrides (shape.map Int64.toInt)) with e | strides
    · rw [hs] at h
      cases h
    · rw [hs] at h
      rcases ha : Python.cpuConversionPlugin.allocate (Python.byteCount shape dtype)
          Python.cpuConversionPlugin.backend tensor.device with e | data
      · change (Python.cpuConversionPlugin.allocate _ _ _ >>= _) = _ at h
        rw [ha] at h
        cases h
      · change (Python.cpuConversionPlugin.allocate _ _ _ >>= _) = _ at h
        rw [ha] at h
        obtain rfl := Except.ok.inj h
        exact Python.CpuConversionPlugin.allocate_backend "cpu" ha

lemma python_newTensorMsg_ok (hi : CpuInstalled registry python) (hn : tensor.numel ≠ 0)
    (hdev : tensor.device.type = .cpu) (h : Python.newTensorMsg python tensor = .ok out) :
    ∃ msg, msg.data.backend = "cpu" ∧ Python.toTensorMsg python msg tensor = (out, .ok ()) := by
  rw [Python.newTensorMsg, if_neg hn] at h
  rcases ha : Python.allocateTensorMsg python tensor.sizes tensor.scalarType
      (some tensor.device) with e | msg
  · rw [ha] at h
    cases h
  · rw [ha] at h
    refine ⟨msg, ?_, ?_⟩
    · exact python_allocate_backend hi hdev ha
    · dsimp only [bind, Except.bind] at h
      cases hl : Python.toTensorMsg python msg tensor with
      | mk left result =>
        rw [hl] at h
        cases result with
        | ok => rw [Except.ok.inj h]
        | error e => cases h

end Python

lemma round_trip_of_numel_ne (hi : CpuInstalled registry python) (hdev : tensor.device.type = .cpu)
    (hs : Supported tensor.scalarType) (hn : tensor.numel ≠ 0) :
    RoundTrip registry python tensor := by
  obtain ⟨d, hd⟩ : ∃ d, (describeDtype tensor.scalarType).Returns d := by
    obtain ⟨_, hd⟩ | ⟨hns, _⟩ := describeDtype_cases tensor.scalarType
    · exact hd
    · exact absurd hs hns
  have hpos : 0 < tensor.itemSize := by
    rw [Tensor.itemSize]
    cases hst : tensor.scalarType with
    | other name size => exact absurd hst (hs name size)
    | _ => decide
  have hinto : ∀ msg out, msg.data.backend = "cpu" →
      toTensorMsg registry msg (some tensor) = .returned out → Decodes registry out tensor := by
    intro msg out hcpu h
    obtain ⟨data, hdata, hh, rfl⟩ := toTensorMsg_returned hi hn hdev hd hcpu h
    exact decodes_allocated hi hn hd hdata hpos hh
  have hpython : ∀ msg out, msg.data.backend = "cpu" →
      Python.toTensorMsg python msg tensor = (out, .ok ()) → Python.Decodes python out tensor := by
    intro msg out hcpu h
    obtain ⟨data, hdata, hh, rfl⟩ := python_toTensorMsg_returned hi hn hdev hd hpos hcpu h
    exact python_decodes_allocated hi hn hd hdata hpos hh
  refine ⟨hinto, ?_, hpython, ?_⟩
  · intro out h
    obtain ⟨msg, hcpu, h⟩ := newTensorMsg_ok hi hn hdev h
    exact hinto msg out hcpu h
  · intro out h
    obtain ⟨msg, hcpu, h⟩ := python_newTensorMsg_ok hi hn hdev h
    exact hpython msg out hcpu h

lemma skipped_of_numel_eq (hn : tensor.numel = 0) : Skipped registry python tensor where
  copied _ := if_pos hn
  new := if_pos hn
  decoded := if_pos rfl
  pythonCopied _ := if_pos hn
  pythonNew := if_pos hn
  pythonDecoded := if_pos rfl

theorem encoded_tensor_round_trip (hi : CpuInstalled registry python)
    (hdev : tensor.device.type = .cpu) (hs : Supported tensor.scalarType) :
    (tensor.numel ≠ 0 → RoundTrip registry python tensor) ∧
      (tensor.numel = 0 → Skipped registry python tensor) :=
  ⟨round_trip_of_numel_ne hi hdev hs, skipped_of_numel_eq⟩

section Examples

lemma cpuInstalled_cpuOnly : CpuInstalled cpuOnly Python.cpuOnly := ⟨rfl, rfl, rfl, rfl, rfl⟩

/-- A matrix of two by three bytes, transposed. -/
def transposedBytes : Tensor where
  scalarType := .byte
  device := { type := .cpu }
  sizes := [3, 2]
  strides := [1, 3]
  bytes := [1, 2, 3, 4, 5, 6]
  ranked := rfl
  sizes_nonneg := by simp [Nonneg]
  strides_nonneg := by simp [Nonneg]
  numel_lt := by decide
  inside := by decide

theorem transposed_round_trip :
    RoundTrip cpuOnly Python.cpuOnly transposedBytes ∧
      (newTensorMsg cpuOnly (some transposedBytes)).map (fun msg => msg.data.bytes) =
        .ok [1, 4, 2, 5, 3, 6] := by
  have hs : Supported transposedBytes.scalarType := nofun
  exact ⟨(encoded_tensor_round_trip cpuInstalled_cpuOnly rfl hs).1 (by decide), by decide +kernel⟩

def noFloats : Tensor where
  scalarType := .float
  device := { type := .cpu }
  sizes := [0]
  strides := [1]
  bytes := []
  ranked := rfl
  sizes_nonneg := by simp [Nonneg]
  strides_nonneg := complexTensor.strides_nonneg
  numel_lt := by decide
  inside := by decide

/-- Two by three bytes. -/
def sixBytes : TensorMsg where
  dtypeCode := kDLUInt
  dtypeBits := 8
  dtypeLanes := 1
  shape := [2, 3]
  strides := [3, 1]
  data := ⟨"cpu", [1, 2, 3, 4, 5, 6], by decide⟩

/-- The two floats that were encoded before are decoded again. And in Python the bytes of a message
are overwritten while they are still read, if the tensor is their own transposed view. -/
theorem empty_tensor_keeps_previous :
    (CpuInstalled cpuOnly Python.cpuOnly ∧ Supported noFloats.scalarType ∧
      toTensorMsg cpuOnly encodedFloats (some noFloats) = .returned encodedFloats ∧
      (fromInputTensorMsg cpuOnly encodedFloats).map (fun t => t.map Tensor.sizes) =
        .ok (some [2]) ∧
      ¬ RoundTrip cpuOnly Python.cpuOnly noFloats) ∧
    transposedBytes.bytes = sixBytes.data.bytes ∧
      ∃ out, Python.toTensorMsg (Python.OwnStorage.cpuOnly 0) sixBytes transposedBytes =
          (out, .ok ()) ∧
        out.data.bytes = [1, 4, 4, 5, 4, 6] ∧
          ¬ Python.Decodes Python.cpuOnly out transposedBytes := by
  have hdecoded : (fromInputTensorMsg cpuOnly encodedFloats).map (fun t => t.map Tensor.sizes) =
      .ok (some [2]) := by
    decide +kernel
  have hskipped : Skipped cpuOnly Python.cpuOnly noFloats := skipped_of_numel_eq rfl
  have hsupported : Supported noFloats.scalarType := nofun
  refine ⟨⟨cpuInstalled_cpuOnly, hsupported, hskipped.copied encodedFloats, hdecoded, ?_⟩, rfl, ?_⟩
  · intro h
    obtain ⟨decoded, hdec, hsame⟩ :=
      h.copied encodedFloats encodedFloats rfl (hskipped.copied encodedFloats)
    rw [hdec] at hdecoded
    have hsizes : decoded.sizes = [2] := Option.some.inj (Except.ok.inj hdecoded)
    exact absurd (hsizes.symm.trans hsame.sizes) (by decide)
  · let out : TensorMsg := { sixBytes with
      shape := [3, 2]
      strides := [2, 1]
      data := ⟨"cpu", [1, 4, 4, 5, 4, 6], by decide⟩ }
    have hwritten : Python.toTensorMsg (Python.OwnStorage.cpuOnly 0) sixBytes transposedBytes =
        (out, .ok ()) := by
      decide +kernel
    have hread : (Python.fromInputTensorMsg Python.cpuOnly out).map
        (fun t => t.map fun t => t.element [1, 0]) = .ok (some [4]) := by
      decide +kernel
    refine ⟨out, hwritten, rfl, ?_⟩
    rintro ⟨decoded, hdec, hsame⟩
    rw [hdec] at hread
    have helement : decoded.element [1, 0] = [4] := Option.some.inj (Except.ok.inj hread)
    have hwithin : Within [1, 0] (dims transposedBytes.sizes) := mem_indices.mp (by decide)
    exact absurd (helement.symm.trans (hsame.element [1, 0] hwithin)) (by decide)

end Examples

end RosidlBufferBackends.Torch
