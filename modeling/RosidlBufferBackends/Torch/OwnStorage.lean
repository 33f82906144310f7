import RosidlBufferBackends.Torch.PythonConversions
import RosidlBufferBackends.Torch.StorageBytes

/-! `to_tensor_msg(msg, tensor)` in Python for a tensor over the storage of the message itself, such
as a view of what `from_output_tensor_msg` returns. -/

namespace RosidlBufferBackends.Torch.Python.OwnStorage

open RowMajor Python.CpuConversionPlugin

/-- `destination.copy_(source)` for a source from the byte `origin` of the same storage on: every
element is read as it is by then, in row-major order. -/
def copyElements (data : Storage) (start : ℕ) (destination : Tensor) (origin : ℕ)
    (source : Tensor) : Storage :=
  (indices (dims destination.sizes)).foldl (fun data i =>
    data.write (start + destination.itemSize * offset i (dims destination.strides))
      (data.read (origin + source.itemSize * offset i (dims source.strides)) source.itemSize)) data

/-- Nothing is copied aside before: `copy_to` calls no `contiguous()`. -/
def copyTo (origin : ℕ) (data : Storage) (metadata : TensorMetadata) (source : Tensor) :
    CopyOutcome PythonError :=
  match view data metadata with
  | .error e => .rejected e
  | .ok destination =>
    if destination.sizes = source.sizes ∧ destination.scalarType = source.scalarType then
      .copied (copyElements data metadata.byteOffset.toNat destination origin source)
    else .rejected (.runtimeError "The size of tensor a must match the size of tensor b")

/-- Only the CPU plugin is installed, and its sources are tensors over the message's storage. -/
def cpuOnly (origin : ℕ) : ConversionRegistry :=
  let plugin := { cpuConversionPlugin with copyTo := copyTo origin }
  { Python.cpuOnly with
    byBackend := [("cpu", plugin)]
    fallbacks := [plugin] }

variable {data : Storage} {metadata : TensorMetadata} {destination source : Tensor}
  {start origin p : ℕ} {e : List UInt8}

lemma write_drop (hp : p + e.length ≤ origin) (hdata : p + e.length ≤ data.bytes.length) :
    (data.write p e).bytes.drop origin = data.bytes.drop origin := by
  apply List.ext_getElem?
  intro k
  rw [List.getElem?_drop, List.getElem?_drop, Storage.getElem?_write hdata, if_neg (by omega)]

lemma read_element (hsource : source.bytes = data.bytes.drop origin) (i : List ℕ) :
    data.read (origin + source.itemSize * offset i (dims source.strides)) source.itemSize =
      source.element i := by
  rw [Storage.read, Tensor.element, hsource, List.drop_drop]

/-- The fold that reads what it writes over is the fold over the elements, while it writes
before the origin only. -/
lemma foldl_read_eq {place : List ℕ → ℕ} (l : List (List ℕ))
    (hl : ∀ i ∈ l, Within i (dims source.sizes) ∧ place i + source.itemSize ≤ origin)
    (hdata : origin ≤ data.bytes.length) (hsource : source.bytes = data.bytes.drop origin) :
    l.foldl (fun data i => data.write (place i)
        (data.read (origin + source.itemSize * offset i (dims source.strides)) source.itemSize))
          data =
      l.foldl (fun data i => data.write (place i) (source.element i)) data := by
  induction l generalizing data with
  | nil => rfl
  | cons i l ih =>
    obtain ⟨hi, hplace⟩ := hl i List.mem_cons_self
    have hlength := Tensor.element_length hi
    have hbefore : place i + (source.element i).length ≤ origin := by rwa [hlength]
    have hfits := hbefore.trans hdata
    rw [List.foldl_cons, List.foldl_cons, read_element hsource]
    apply ih (fun j hj => hl j (List.mem_cons_of_mem _ hj))
    · rwa [Storage.length_write hfits]
    · rw [write_drop hbefore hfits]
      exact hsource

/-- A tensor behind the bytes that are written is copied like one in other memory. -/
theorem copyTo_behind (hview : view data metadata = .ok destination)
    (hbehind : metadata.byteOffset.toNat +
      destination.itemSize * span (dims destination.sizes) (dims destination.strides) ≤ origin)
    (hdata : origin ≤ data.bytes.length) (hsource : source.bytes = data.bytes.drop origin) :
    copyTo origin data metadata source = CpuConversionPlugin.copyTo data metadata source := by
  rw [copyTo, CpuConversionPlugin.copyTo, hview]
  dsimp only
  split_ifs with hsame
  · obtain ⟨hsizes, htype⟩ := hsame
    have hitem : destination.itemSize = source.itemSize := by
      rw [Tensor.itemSize, Tensor.itemSize, htype]
    rw [copyElements, writeElements, foldl_read_eq _ _ hdata hsource]
    intro i hi
    have hwithin := mem_indices.mp hi
    have hlt : offset i (dims destination.strides) <
        span (dims destination.sizes) (dims destination.strides) := hwithin.offset_lt_span
    have hle := Nat.mul_le_mul_left destination.itemSize (Nat.succ_le_of_lt hlt)
    rw [Nat.mul_succ] at hle
    exact ⟨hsizes ▸ hwithin, by omega⟩
  · rfl

end RosidlBufferBackends.Torch.Python.OwnStorage
