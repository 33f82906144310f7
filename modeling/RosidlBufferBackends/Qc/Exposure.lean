import RosidlBufferBackends.Qc.Import

/-! What the buffer of an imported descriptor copies from, and the mapping that was made for
it. -/

namespace RosidlBufferBackends.Qc.Exposure

open Import

/-- `sizeof(uint8_t)` -/
def elementSize : ℕ := 1

/-- The range that `to_cpu` copies, as its first byte and its length. -/
def toCpuCopy (s : Process) (impl : QcBufferImpl) : Option (ℕ × ℕ) :=
  match impl.qcBuffer.bind s.buffers with
  | none => none
  | some qc =>
    if 0 < impl.size ∧ qc.ptr ≠ 0 then some (qc.ptr, impl.size * elementSize) else none

/-- `copy` is the buffer that `clone` has allocated. -/
def cloneCopy (s : Process) (impl : QcBufferImpl) (copy : Option QcBuffer) : Option (ℕ × ℕ) :=
  match impl.qcBuffer.bind s.buffers, copy with
  | some qc, some copy =>
    if 0 < impl.size ∧ qc.ptr ≠ 0 ∧ copy.ptr ≠ 0 then some (qc.ptr, impl.size * elementSize)
    else none
  | _, _ => none

/-- The mappings of a call: the length of each is the one that the descriptor gives. -/
def mapped (d : QcBufferDescriptor) (c : Call) : List (ℕ × ℕ) :=
  c.log.filterMap (fun a => match a with
    | .acquire (.mapping ptr) => some (ptr, d.dmabufSize)
    | _ => none)

def InRange (range : ℕ × ℕ) (copied : Option (ℕ × ℕ)) : Prop :=
  ∀ start length, copied = some (start, length) →
    range.1 ≤ start ∧ start + length ≤ range.1 + range.2

/-- The buffer lies in the range that was mapped for it. -/
structure Backed (d : QcBufferDescriptor) (c : Call) (impl : QcBufferImpl) (range : ℕ × ℕ) :
    Prop where
  mapped : mapped d c = [range]
  fits : impl.size * elementSize ≤ range.2
  toCpu : InRange range (toCpuCopy c.process impl)
  clone : ∀ copy, InRange range (cloneCopy c.process impl copy)

/-- The broker consents with a descriptor that can be mapped. -/
structure Consents (env : ImportEnv) : Prop where
  recvmsg : ∃ fds, env.recvmsg = .done (.message kStatusOk fds) ∧ fds ≠ [] ∧ fds.length ≤ env.room
  mmap : env.mmap.isSome

structure Accepted (env : ImportEnv) (d : QcBufferDescriptor) : Prop where
  opens : Opens env d
  connect : env.connect = .done ()
  stays : env.closedBeforeSend = false
  send : env.send = .done uidSize
  consents : Consents env

/-- The call returns no buffer, or an empty one. -/
def Declined (c : Call) : Prop := ∀ impl, c.ending = .returned impl → impl = {}

/-- The call returns a buffer that it has mapped. -/
structure Imported (s : Process) (k : ℕ) (d : QcBufferDescriptor) (ptr : ℕ) (c : Call) : Prop where
  ending : c.ending = .returned ⟨d.size, some k⟩
  buffer : ∃ qc, c.process.buffers k = some qc ∧ qc.ptr = ptr
  mapped : mapped d c = [(ptr, d.dmabufSize)]

variable {s : Process} {k sock : ℕ} {env : ImportEnv} {d : QcBufferDescriptor}

lemma mapped_received (sock : ℕ) (fds : List ℕ) (log : List (Action Resource)) :
    (received sock fds ++ log).filterMap (fun a => match a with
      | .acquire (.mapping ptr) => some (ptr, d.dmabufSize)
      | _ => none) =
    log.filterMap (fun a => match a with
      | .acquire (.mapping ptr) => some (ptr, d.dmabufSize)
      | _ => none) := by
  rw [List.filterMap_append, List.append_left_eq_self]
  apply List.filterMap_eq_nil_iff.mpr
  intro a ha
  simp only [received, List.mem_append, List.mem_singleton, List.mem_map] at ha
  rcases ha with (rfl | ⟨_, ⟨fd, _, rfl⟩, rfl⟩) | rfl <;> rfl

/-- What follows on `recvmsg`: one that is consented to is imported. -/
lemma receive_cases (s : Process) (k sock : ℕ) (env : ImportEnv) (d : QcBufferDescriptor) :
    Consents env ∧ (∃ ptr, Imported s k d ptr (receive s k env d sock)) ∨
      ¬ Consents env ∧ Declined (receive s k env d sock) := by
  rw [receive]
  cases hr : env.recvmsg.result env.rcvTimeout with
  | none =>
    refine .inr ⟨?_, (fun _ h => by cases h)⟩
    rintro ⟨⟨fds, he, -⟩, -⟩
    cases hr.symm.trans (result_eq_some.mpr he)
  | some answer =>
    rcases answer with _ | _ | ⟨status, fds⟩
    · refine .inr ⟨?_, fun impl h => (Ending.returned.inj h).symm⟩
      rintro ⟨⟨fds, he, -⟩, -⟩
      cases hr.symm.trans (result_eq_some.mpr he)
    · refine .inr ⟨?_, fun impl h => (Ending.returned.inj h).symm⟩
      rintro ⟨⟨fds, he, -⟩, -⟩
      cases hr.symm.trans (result_eq_some.mpr he)
    · have hdone := result_eq_some.mp hr
      have hsame : ∀ fds', env.recvmsg = .done (.message kStatusOk fds') →
          status = kStatusOk ∧ fds = fds' := by
        intro fds' he
        exact Reply.message.inj (Outcome.done.inj (hdone.symm.trans he))
      dsimp only
      cases hfd : receivedFd status (fds.take env.room) (env.room < fds.length) with
      | none =>
        refine .inr ⟨?_, fun impl h => (Ending.returned.inj h).symm⟩
        rintro ⟨⟨fds', he, hne, hroom⟩, -⟩
        obtain ⟨rfl, rfl⟩ := hsame fds' he
        rw [List.take_of_length_le hroom] at hfd
        simp [receivedFd, hroom] at hfd
        exact hne hfd
      | some fd =>
        obtain ⟨rfl, htrunc, hhead⟩ := receivedFd_eq_some hfd
        have hroom : fds.length ≤ env.room := by simpa using htrunc
        rw [List.take_of_length_le hroom] at hhead
        have hne : fds ≠ [] := by
          rintro rfl
          cases hhead
        dsimp only
        cases hmap : env.mmap with
        | none =>
          refine .inr ⟨?_, fun impl h => (Ending.returned.inj h).symm⟩
          rintro ⟨-, hsome⟩
          cases hmap ▸ hsome
        | some ptr =>
          refine .inl ⟨⟨⟨fds, hdone, hne, hroom⟩, by rw [hmap]; rfl⟩, ptr, rfl,
            ⟨_, Function.update_self .., rfl⟩, ?_⟩
          exact mapped_received sock _ _

lemma transfer_cases (s : Process) (k sock : ℕ) (env : ImportEnv) (d : QcBufferDescriptor) :
    (env.closedBeforeSend = false ∧ env.send = .done uidSize ∧ Consents env) ∧
        (∃ ptr, Imported s k d ptr (transfer s k env d sock)) ∨
      ¬ (env.closedBeforeSend = false ∧ env.send = .done uidSize ∧ Consents env) ∧
        Declined (transfer s k env d sock) := by
  rw [transfer]
  by_cases hclosed : env.closedBeforeSend = true
  · rw [if_pos hclosed]
    exact .inr ⟨(fun h => by cases hclosed.symm.trans h.1), (fun _ h => by cases h)⟩
  · rw [if_neg hclosed]
    cases hs : env.send.result env.sndTimeout with
    | none =>
      refine .inr ⟨?_, (fun _ h => by cases h)⟩
      rintro ⟨-, he, -⟩
      cases hs.symm.trans (result_eq_some.mpr he)
    | some sent =>
      dsimp only
      by_cases hsent : sent = some uidSize
      · subst hsent
        have hdone := result_eq_some.mp hs
        rw [if_pos rfl]
        rcases receive_cases s k sock env d with ⟨hc, himported⟩ | ⟨hc, hdeclined⟩
        · exact .inl ⟨⟨by simpa using hclosed, hdone, hc⟩, himported⟩
        · exact .inr ⟨fun h => hc h.2.2, hdeclined⟩
      · rw [if_neg hsent]
        refine .inr ⟨?_, fun impl h => (Ending.returned.inj h).symm⟩
        rintro ⟨-, he, -⟩
        exact hsent (Option.some.inj (hs.symm.trans (result_eq_some.mpr he)))

lemma import_cases (s : Process) (k : ℕ) (env : ImportEnv) (d : QcBufferDescriptor) :
    Accepted env d ∧ (∃ ptr, Imported s k d ptr (fromDescriptorWithEndpoint s k env d)) ∨
      ¬ Accepted env d ∧ Declined (fromDescriptorWithEndpoint s k env d) := by
  have hempty : ∀ log, Declined ⟨s, log, .returned {}⟩ :=
    fun _ _ h => (Ending.returned.inj h).symm
  rw [fromDescriptorWithEndpoint]
  by_cases htype : d.elementTypeName = uint8TypeName
  · rw [if_neg (not_not.mpr htype)]
    by_cases hipc : d.useIpc = false ∨ d.ipcSocketPath.isEmpty
    · rw [if_pos hipc]
      refine .inr ⟨?_, hempty _⟩
      rintro ⟨⟨-, huse, hpath, -⟩, -⟩
      rcases hipc with hipc | hipc
      · cases hipc.symm.trans huse
      · exact hpath (String.isEmpty_iff.mp hipc)
    · rw [if_neg hipc]
      obtain ⟨huse, hpath⟩ := not_or.mp hipc
      cases hsock : env.socket with
      | none => exact .inr ⟨(fun h => by cases hsock ▸ h.opens.2.2.2), hempty _⟩
      | some sock =>
        have hopens : Opens env d :=
          ⟨htype, by simpa using huse, mt String.isEmpty_iff.mpr hpath, by rw [hsock]; rfl⟩
        dsimp only
        cases hconnect : env.connect.result env.sndTimeout with
        | none =>
          refine .inr ⟨?_, (fun _ h => by cases h)⟩
          intro h
          cases hconnect.symm.trans (result_eq_some.mpr h.connect)
        | some connected =>
          cases connected with
          | none =>
            refine .inr ⟨?_, hempty _⟩
            intro h
            cases hconnect.symm.trans (result_eq_some.mpr h.connect)
          | some connected =>
            have hdone := result_eq_some.mp hconnect
            rcases transfer_cases s k sock env d with ⟨⟨hstays, hsend, hc⟩, himported⟩ |
              ⟨hnot, hdeclined⟩
            · exact .inl ⟨⟨hopens, hdone, hstays, hsend, hc⟩, himported⟩
            · exact .inr ⟨fun h => hnot ⟨h.stays, h.send, h.consents⟩, hdeclined⟩
  · rw [if_pos htype]
    exact .inr ⟨fun h => htype h.opens.1, hempty _⟩

lemma Imported.backed {c : Call} {ptr : ℕ} (h : Imported s k d ptr c)
    (hle : d.size * elementSize ≤ d.dmabufSize) :
    Backed d c ⟨d.size, some k⟩ (ptr, d.dmabufSize) := by
  obtain ⟨qc, hqc, rfl⟩ := h.buffer
  have hbind : (some k).bind c.process.buffers = some qc := hqc
  refine ⟨h.mapped, hle, ?_, ?_⟩
  · intro start length he
    simp only [toCpuCopy, hbind] at he
    split_ifs at he
    obtain ⟨rfl, rfl⟩ := Prod.mk.inj (Option.some.inj he)
    exact ⟨le_rfl, Nat.add_le_add_left hle _⟩
  · intro copy start length he
    cases copy with
    | none => simp [cloneCopy] at he
    | some copy =>
      simp only [cloneCopy, hbind] at he
      split_ifs at he
      obtain ⟨rfl, rfl⟩ := Prod.mk.inj (Option.some.inj he)
      exact ⟨le_rfl, Nat.add_le_add_left hle _⟩

theorem import_within_dmabuf_iff (s : Process) (k : ℕ) (env : ImportEnv) (d : QcBufferDescriptor) :
    (∀ impl, (fromDescriptorWithEndpoint s k env d).ending = .returned impl → impl.size ≠ 0 →
        ∃ range, Backed d (fromDescriptorWithEndpoint s k env d) impl range) ↔
      (Accepted env d → d.size * elementSize ≤ d.dmabufSize) := by
  rcases import_cases s k env d with ⟨haccepted, ptr, himported⟩ | ⟨hnot, hdeclined⟩
  · rw [forall_prop_of_true haccepted]
    constructor
    · intro hbacked
      rcases Nat.eq_zero_or_pos d.size with hzero | hpos
      · rw [hzero, Nat.zero_mul]
        exact Nat.zero_le _
      · obtain ⟨range, hb⟩ := hbacked _ himported.ending hpos.ne'
        have hrange := hb.mapped.symm.trans himported.mapped
        obtain rfl := List.singleton_inj.mp hrange
        exact hb.fits
    · intro hle impl himpl _
      obtain rfl := Ending.returned.inj (himpl.symm.trans himported.ending)
      exact ⟨_, himported.backed hle⟩
  · refine iff_of_true ?_ fun h => absurd h hnot
    intro impl himpl hne
    exact absurd (congrArg QcBufferImpl.size (hdeclined impl himpl)) hne

/-- A broker that serves one descriptor. -/
def servedEnv : ImportEnv where
  socket := some 3
  rcvTimeout := true
  sndTimeout := true
  connect := .done ()
  closedBeforeSend := false
  send := .done uidSize
  recvmsg := .done (.message kStatusOk [4])
  room := 1
  mmap := some 65536

/-- Twice as many elements as the dma-buf has bytes. -/
def oversized : QcBufferDescriptor where
  size := 8192
  elementTypeName := "h"
  pid := 7
  vaddr := 4096
  uid := 1
  dmabufFd := 10
  dmabufSize := 4096
  useIpc := true
  ipcSocketPath := "/tmp/qc_broker_7.sock"

theorem elements_outside_mapping :
    ¬ (∀ impl, (fromDescriptorWithEndpoint subscriber 0 servedEnv oversized).ending =
        .returned impl → impl.size ≠ 0 →
      ∃ range, Backed oversized (fromDescriptorWithEndpoint subscriber 0 servedEnv oversized) impl
        range) := by
  intro h
  obtain ⟨range, hb⟩ := h ⟨8192, some 0⟩ rfl (by decide)
  have hrange : [(65536, 4096)] = [range] := hb.mapped
  obtain rfl := List.singleton_inj.mp hrange
  exact absurd hb.fits (by decide)

end RosidlBufferBackends.Qc.Exposure
