import RosidlBufferBackends.Torch.AtomicEncoding
import RosidlBufferBackends.Torch.ViewAgreement

/-! The messages that `allocate_tensor_msg` returns. -/

namespace RosidlBufferBackends.Torch

open Checked RowMajor

variable {registry : Registry} {shape : List Int64} {dtype : ScalarType} {device : Option Device}
  {msg : TensorMsg}

/-- The message that an allocation of this shape makes over the storage. -/
def allocated (shape : List Int64) (description : DtypeDescription) (data : Storage) :
    TensorMsg where
  dtypeCode := description.code
  dtypeBits := description.bits
  dtypeLanes := description.lanes
  shape := shape
  strides := (strides (dims shape)).map Int64.ofNat
  byteOffset := 0
  data := data

/-- The sizes that the allocation computes are representable. -/
structure Countable (shape : List Int64) (dtype : ScalarType) : Prop where
  representable : Representable shape
  leading_lt : leading (dims shape) < 2 ^ 64
  bytes_lt : dtype.elementSize.toNat * (dims shape).prod < 2 ^ 64

section Allocation

lemma allocate_returns {plugin : ConversionPlugin} {selected : Device} {d : DtypeDescription}
    {data : Storage} {n : UInt64} (hs : registry.select device = .ok (plugin, selected))
    (hr : Representable shape) (hd : (describeDtype dtype).Returns d)
    (hb : (byteCount shape dtype).Returns n) (ha : plugin.allocate n selected = .ok data) :
    (allocateTensorMsg registry shape dtype device).Returns (allocated shape d data) := by
  apply (ofExcept_returns hs).bind
  apply (contiguousStrides_returns hr).bind
  apply hd.bind
  apply hb.bind
  exact (ofExcept_returns ha).bind rfl

lemma contiguousStrides_ok {ss : List Int64} (h : (contiguousStrides shape).result = .ok ss) :
    Representable shape ∧ ss = (strides (dims shape)).map Int64.ofNat := by
  by_cases hr : Representable shape
  · exact ⟨hr, (contiguousStrides_returns hr).eq h⟩
  · exact absurd h ((contiguousStrides_throws hr).not_ok ss)

lemma describeDtype_ok {d : DtypeDescription} (h : (describeDtype dtype).result = .ok d) :
    Supported dtype ∧ (describeDtype dtype).Returns d := by
  obtain ⟨hs, d', hd⟩ | ⟨_, ht⟩ := describeDtype_cases dtype
  · exact ⟨hs, hd.eq h ▸ hd⟩
  · exact absurd h (ht.not_ok d)

lemma byteCount_ok {n : UInt64} (h : (byteCount shape dtype).result = .ok n) :
    leading (dims shape) < 2 ^ 64 ∧ (byteCount shape dtype).Returns n ∧
      n.toNat = dtype.elementSize.toNat * (dims shape).prod := by
  by_cases hc : Nonneg shape ∧ leading (dims shape) < 2 ^ 64 ∧
      dtype.elementSize.toNat * (dims shape).prod < 2 ^ 64
  · obtain ⟨m, hm, he⟩ := byteCount_returns hc.1 hc.2.1 hc.2.2
    obtain rfl := hm.eq h
    exact ⟨hc.2.1, hm, he⟩
  · exact absurd h ((byteCount_throws hc).not_ok n)

lemma allocate_ok (h : (allocateTensorMsg registry shape dtype device).result = .ok msg) :
    ∃ d n data, Supported dtype ∧ Countable shape dtype ∧ (describeDtype dtype).Returns d ∧
      (byteCount shape dtype).Returns n ∧ msg = allocated shape d data := by
  obtain ⟨⟨plugin, selected⟩, _, h⟩ := bind_ok h
  obtain ⟨ss, hss, h⟩ := bind_ok h
  obtain ⟨d, hd, h⟩ := bind_ok h
  obtain ⟨n, hn, h⟩ := bind_ok h
  obtain ⟨data, _, h⟩ := bind_ok h
  obtain ⟨hr, rfl⟩ := contiguousStrides_ok hss
  obtain ⟨hsup, hd⟩ := describeDtype_ok hd
  obtain ⟨hl, hn, he⟩ := byteCount_ok hn
  exact ⟨d, n, data, hsup, ⟨hr, hl, he ▸ n.toNat_lt⟩, hd, hn, (Except.ok.inj h).symm⟩

lemma allocate_storage (h : (allocateTensorMsg registry shape dtype device).result = .ok msg) :
    ∃ plugin selected n, registry.select device = .ok (plugin, selected) ∧
      plugin.allocate n selected = .ok msg.data := by
  obtain ⟨⟨plugin, selected⟩, hs, h⟩ := bind_ok h
  obtain ⟨_, _, h⟩ := bind_ok h
  obtain ⟨_, _, h⟩ := bind_ok h
  obtain ⟨n, _, h⟩ := bind_ok h
  obtain ⟨data, ha, h⟩ := bind_ok h
  obtain rfl := Except.ok.inj h
  exact ⟨plugin, selected, n, hs, ha⟩

end Allocation

section Viewable

lemma scalarType_allocated {d : DtypeDescription} (h : (describeDtype dtype).Returns d)
    (data : Storage) : (scalarType (allocated shape d data)).Returns dtype := by
  cases dtype with
  | other name size => exact absurd h (Throws.not_returns (throws_raise _) d)
  | _ =>
    obtain rfl := Checked.Returns.eq h rfl
    rfl

lemma normalizedStrides_allocated {d : DtypeDescription} {data : Storage} :
    (normalizedStrides (allocated shape d data)).Returns
      ((strides (dims shape)).map Int64.ofNat) := by
  cases shape with
  | nil => rfl
  | cons k shape =>
    rw [normalizedStrides, if_neg, if_neg]
    · rfl
    · simp [allocated]
    · simp [allocated, strides]

lemma normal_allocated {d : DtypeDescription} {data : Storage} :
    Normal (allocated shape d data) ∧
      normal (allocated shape d data) = (strides (dims shape)).map Int64.ofNat := by
  have hn : Normal (allocated shape d data) := by
    by_contra hn
    exact (normalizedStrides_throws hn).not_returns _ normalizedStrides_allocated
  exact ⟨hn, ((normalizedStrides_returns hn).eq normalizedStrides_allocated.result).symm⟩

lemma viewed_allocated {d : DtypeDescription} {data : Storage} (hr : Representable shape) :
    viewed (allocated shape d data) = (dims shape).prod := by
  rw [viewed_eq hr.1, normal_allocated.2, dims_ofNat hr.strides_lt]
  exact span_strides

lemma viewable_allocated {d : DtypeDescription} {data : Storage} (hr : Representable shape)
    (hd : (describeDtype dtype).Returns d)
    (hb : dtype.elementSize.toNat * (dims shape).prod ≤ data.bytes.length) :
    Viewable (allocated shape d data) dtype := by
  have hnormal : Normal (allocated shape d data) ∧
      normal (allocated shape d data) = (strides (dims shape)).map Int64.ofNat := normal_allocated
  obtain ⟨hn, he⟩ := hnormal
  refine ⟨hn, he ▸ hr.admits, scalarType_allocated hd data, ?_⟩
  rw [viewed_allocated hr]
  simpa [allocated] using hb

/-- Row-major offsets of different multi-indices are different. -/
lemma elementOffset_inj (hr : Representable shape) {i j : List ℤ} (hi : Indexes i shape)
    (hj : Indexes j shape)
    (he : elementOffset i ((strides (dims shape)).map Int64.ofNat) =
      elementOffset j ((strides (dims shape)).map Int64.ofNat)) : i = j := by
  obtain ⟨k, rfl, hk⟩ := hi.exists_within
  obtain ⟨l, rfl, hl⟩ := hj.exists_within
  have hn := nonneg_ofNat hr.strides_lt
  rw [elementOffset_cast k hn, elementOffset_cast l hn, dims_ofNat hr.strides_lt] at he
  rw [hk.offset_inj hl (by exact_mod_cast he)]

theorem allocated_message_viewable (registry : Registry) (shape : List Int64) (dtype : ScalarType)
    (device : Option Device) (msg : TensorMsg)
    (h : (allocateTensorMsg registry shape dtype device).result = .ok msg)
    (hb : ∀ n, (byteCount shape dtype).result = .ok n → msg.data.bytes.length = n.toNat) :
    (validateView msg).result = .ok () ∧
      (∀ ss, (normalizedStrides msg).result = .ok ss → ∀ i j, Indexes i shape → Indexes j shape →
        elementOffset i ss = elementOffset j ss → i = j) ∧
      ∃ span, (viewSpan msg).Returns span ∧ (elementCount shape).Returns span ∧
        msg.byteOffset.toNat + span.toNat * dtype.elementSize.toNat = msg.data.bytes.length := by
  obtain ⟨d, n, data, hsup, hc, hd, hn, rfl⟩ := allocate_ok h
  have hr := hc.representable
  have hlen : data.bytes.length = dtype.elementSize.toNat * (dims shape).prod := by
    rw [← (byteCount_ok hn.result).2.2]
    exact hb n hn.result
  have hv : Viewable (allocated shape d data) dtype := viewable_allocated hr hd hlen.ge
  refine ⟨(validateView_returns hv).result, ?_, ?_⟩
  · intro ss hss i j hi hj he
    rw [normalizedStrides_allocated.eq hss] at he
    exact elementOffset_inj hr hi hj he
  · obtain ⟨span, hspan, hs⟩ := viewSpan_returns hv.normalized hv.admitted
    obtain ⟨count, hcount, he⟩ := elementCount_returns hr.1 hc.leading_lt
    rw [viewed_allocated hr] at hs
    obtain rfl : span = count := UInt64.toNat_inj.mp (hs.trans he.symm)
    refine ⟨span, hspan, hcount, ?_⟩
    change (0 : UInt64).toNat + _ = data.bytes.length
    rw [hlen, hs, mul_comm]
    exact Nat.zero_add _

theorem allocated_message_viewable_once : ∃ msg,
    (allocateTensorMsg cpuOnly [2, 3, 4] .float none).result = .ok msg ∧
      (validateView msg).result = .ok () := by
  have h : ∃ msg, (allocateTensorMsg cpuOnly [2, 3, 4] .float none).result = .ok msg ∧
      msg.data.bytes.length = 96 := ⟨_, rfl, rfl⟩
  obtain ⟨msg, hmsg, hlen⟩ := h
  have hb : ∀ n, (byteCount [2, 3, 4] .float).result = .ok n → msg.data.bytes.length = n.toNat := by
    intro n hn
    obtain rfl := Except.ok.inj hn
    exact hlen
  exact ⟨msg, hmsg, (allocated_message_viewable cpuOnly [2, 3, 4] .float none msg hmsg hb).1⟩

end Viewable

end RosidlBufferBackends.Torch
