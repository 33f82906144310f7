import RosidlBufferBackends.Lib.Inventory
import RosidlBufferBackends.Qc.Sharing.Task

/-! Who gives back what a process has of the dma-bufs. -/

namespace RosidlBufferBackends.Qc.Sharing

open Holdings Inventory

inductive Owner
  | buffer (k : ℕ)
  | entry (uid : ℕ)
  | handler (c : ℕ)
  | importer (i : ℕ)
  deriving DecidableEq, Repr

def resources (qc : QcBuffer) : List Resource :=
  if qc.ptr = 0 then []
  else
    match qc.origin with
    | .rpcmem => [.allocation qc.ptr, .fd qc.fd.toNat]
    | .mmap => if 0 ≤ qc.fd then [.mapping qc.ptr, .fd qc.fd.toNat] else [.mapping qc.ptr]

def Handler.resources : Handler → List Resource
  | .recv | .lookup _ => []
  | .send tmpFd | .close tmpFd => [.fd tmpFd]

def Importer.resources : Importer → List Resource
  | .send | .recv => []
  | .map fd => [.fd fd]

def holdings (buffers : ℕ → Option QcBuffer) (entries : ℕ → Option Entry)
    (handlers : ℕ → Option Handler) (importers : ℕ → Option Importer) : Owner → List Resource
  | .buffer k => (buffers k).elim [] resources
  | .entry uid => (entries uid).elim [] fun entry => [.fd entry.dupFd]
  | .handler c => (handlers c).elim [] Handler.resources
  | .importer i => (importers i).elim [] Importer.resources

/-- What an owner has belongs to this dma-buf; `w` and `v` say it for the handlers and the
imports. -/
def worths (buffers : ℕ → Option QcBuffer) (backing w v : ℕ → Option ℕ) : Owner → Option ℕ
  | .buffer k => (buffers k).bind fun qc => backing qc.uid
  | .entry uid => backing uid
  | .handler c => w c
  | .importer i => v i

/-- `reset` finds what belongs to the buffer. -/
structure Labelled (rpcmemFd : ℕ → Option ℕ) (mappedSize : ℕ → ℕ) (qc : QcBuffer) : Prop where
  nonempty : 0 ≤ qc.fd → qc.ptr ≠ 0
  rpcmem : qc.ptr ≠ 0 → qc.origin = .rpcmem → 0 ≤ qc.fd ∧ rpcmemFd qc.ptr = some qc.fd.toNat
  mmap : qc.ptr ≠ 0 → qc.origin = .mmap → mappedSize qc.ptr = qc.size

namespace Task

def held (t : Task) : Owner → List Resource :=
  holdings t.process.buffers t.process.broker.table t.handlers t.importers

def worth (t : Task) (w v : ℕ → Option ℕ) : Owner → Option ℕ :=
  worths t.process.buffers t.backing w v

end Task

/-- The buffer that `putNamed` makes. -/
def nextBuffer (s : Process) (ptr size : ℕ) (fd : ℤ) (origin : Origin) : QcBuffer where
  ptr := ptr
  fd := fd
  size := size
  uid := s.counter
  origin := origin
  named _ := s.positive

structure Sound (w v : ℕ → Option ℕ) (t : Task) : Prop where
  accounts : Accounts t.held (t.worth w v) t.table
  labelled : ∀ k qc, t.process.buffers k = some qc → Labelled t.rpcmemFd t.mappedSize qc
  windowed : t.process.broker.Windowed
  bounded : ∀ uid, t.backing uid ≠ none → uid < t.process.counter
  counted : Counted t.handlers t.activeConnections

section Holdings

variable {buffers : ℕ → Option QcBuffer} {entries : ℕ → Option Entry}
  {handlers : ℕ → Option Handler} {importers : ℕ → Option Importer}

lemma holdings_buffer (k : ℕ) (x : Option QcBuffer) :
    holdings (Function.update buffers k x) entries handlers importers =
      Function.update (holdings buffers entries handlers importers) (.buffer k)
        (x.elim [] resources) := by
  refine Function.eq_update_iff.mpr ⟨by simp [holdings], ?_⟩
  intro o ho
  cases o with
  | buffer j => rw [holdings, Function.update_of_ne fun h => ho (congrArg _ h), holdings]
  | entry _ => rfl
  | handler _ => rfl
  | importer _ => rfl

lemma holdings_entry (uid : ℕ) (x : Option Entry) :
    holdings buffers (Function.update entries uid x) handlers importers =
      Function.update (holdings buffers entries handlers importers) (.entry uid)
        (x.elim [] fun entry => [.fd entry.dupFd]) := by
  refine Function.eq_update_iff.mpr ⟨by simp [holdings], ?_⟩
  intro o ho
  cases o with
  | buffer _ => rfl
  | entry u => rw [holdings, Function.update_of_ne fun h => ho (congrArg _ h), holdings]
  | handler _ => rfl
  | importer _ => rfl

lemma holdings_handler (c : ℕ) (x : Option Handler) :
    holdings buffers entries (Function.update handlers c x) importers =
      Function.update (holdings buffers entries handlers importers) (.handler c)
        (x.elim [] Handler.resources) := by
  refine Function.eq_update_iff.mpr ⟨by simp [holdings], ?_⟩
  intro o ho
  cases o with
  | buffer _ => rfl
  | entry _ => rfl
  | handler d => rw [holdings, Function.update_of_ne fun h => ho (congrArg _ h), holdings]
  | importer _ => rfl

lemma holdings_importer (i : ℕ) (x : Option Importer) :
    holdings buffers entries handlers (Function.update importers i x) =
      Function.update (holdings buffers entries handlers importers) (.importer i)
        (x.elim [] Importer.resources) := by
  refine Function.eq_update_iff.mpr ⟨by simp [holdings], ?_⟩
  intro o ho
  cases o with
  | buffer _ => rfl
  | entry _ => rfl
  | handler _ => rfl
  | importer j => rw [holdings, Function.update_of_ne fun h => ho (congrArg _ h), holdings]

lemma worths_buffer {backing w v : ℕ → Option ℕ} {k : ℕ} (x : Option QcBuffer) {o : Owner}
    (ho : o ≠ .buffer k) :
    worths (Function.update buffers k x) backing w v o = worths buffers backing w v o := by
  cases o with
  | buffer j =>
    have hj : j ≠ k := fun h => ho (congrArg _ h)
    rw [worths, worths, Function.update_of_ne hj]
  | entry _ => rfl
  | handler _ => rfl
  | importer _ => rfl

lemma ne_of_update {f : Owner → List Resource} {o p : Owner} (h : Function.update f p [] o ≠ []) :
    o ≠ p := by
  rintro rfl
  exact h (Function.update_self ..)

lemma resources_empty (origin : Origin) : resources { origin := origin } = [] := if_pos rfl

end Holdings

section Steps

variable {w v : ℕ → Option ℕ} {t t' : Task} {qc qc' : QcBuffer} {k c i ptr size uid : ℕ} {fd : ℤ}
  {r : Resource}

lemma rpcmemFree_eq (t : Task) (ptr : ℕ) : t.rpcmemFree ptr =
    t.setTable (t.table.releaseAll (.allocation ptr :: (t.rpcmemFd ptr).toList.map .fd)) := by
  have hfd : (t.setTable (t.table.release (.allocation ptr))).rpcmemFd ptr = t.rpcmemFd ptr := rfl
  unfold Task.rpcmemFree
  dsimp only
  rw [hfd]
  cases t.rpcmemFd ptr with
  | none => rfl
  | some fd => rfl

lemma reset_eq (h : Labelled t.rpcmemFd t.mappedSize qc) :
    t.reset qc = t.setTable (t.table.releaseAll (resources qc)) := by
  unfold Task.reset resources
  by_cases hp : qc.ptr = 0
  · rw [if_pos hp, if_pos hp]
    rfl
  · rw [if_neg hp, if_neg hp]
    cases ho : qc.origin with
    | rpcmem =>
      obtain ⟨-, hfd⟩ := h.rpcmem hp ho
      simp only [rpcmemFree_eq, hfd]
      rfl
    | mmap =>
      simp only [Task.munmap, if_pos (h.mmap hp ho)]
      split_ifs <;> rfl

lemma allocate_unmade {s : Process}
    (hmade : size = 0 ∨ s.available = false ∨ ptr = 0) :
    (s.allocate k size ptr fd).2 = s ∨ (s.allocate k size ptr fd).2 = s.put k (some {}) := by
  unfold Process.allocate
  by_cases hz : size = 0
  · rw [if_pos hz]
    exact .inr rfl
  · rw [if_neg hz]
    rcases hmade.resolve_left hz with hav | hp
    · rw [if_pos (by simp [hav])]
      exact .inl rfl
    · split_ifs <;> exact .inl rfl

namespace Sound

lemma held_none (hk : t.process.buffers k = none) : t.held (.buffer k) = [] := by
  rw [Task.held, holdings, hk]
  rfl

lemma held_buffer (hk : t.process.buffers k = some qc) : t.held (.buffer k) = resources qc := by
  rw [Task.held, holdings, hk]
  rfl

lemma ptr_ne (h : Sound w v t) (hk : t.process.buffers k = some qc) (hp : qc.ptr ≠ 0)
    (hu : t.unused ptr = true) : qc.ptr ≠ ptr := by
  rintro rfl
  simp only [Task.unused, Bool.and_eq_true, Option.isNone_iff_eq_none] at hu
  cases ho : qc.origin with
  | rpcmem =>
    refine h.accounts.not_mem hu.2 (.buffer k) (held_buffer hk ▸ ?_)
    simp [resources, hp, ho]
  | mmap =>
    refine h.accounts.not_mem hu.1 (.buffer k) (held_buffer hk ▸ ?_)
    simp only [resources, hp, ho, if_false]
    split_ifs <;> exact List.mem_cons_self

/-- Labels change only for an address that is not in use. -/
lemma labelled_update (h : Sound w v t) (hu : t.unused ptr = true) (x : Option ℕ) (n : ℕ)
    (hk : t.process.buffers k = some qc) :
    Labelled (Function.update t.rpcmemFd ptr x) t.mappedSize qc ∧
      Labelled t.rpcmemFd (Function.update t.mappedSize ptr n) qc := by
  obtain ⟨hne, hr, hm⟩ := h.labelled k qc hk
  constructor
  · refine ⟨hne, ?_, hm⟩
    intro hp ho
    rw [Function.update_of_ne (h.ptr_ne hk hp hu)]
    exact hr hp ho
  · refine ⟨hne, hr, ?_⟩
    intro hp ho
    rw [Function.update_of_ne (h.ptr_ne hk hp hu)]
    exact hm hp ho

lemma worth_putBuffer (h : Sound w v t) (hk : t.process.buffers k = none) (ptr size : ℕ) (fd : ℤ)
    (origin : Origin) (dmabuf : ℕ) {o : Owner} (ho : t.held o ≠ []) :
    (t.putBuffer k ptr size fd origin dmabuf).worth w v o = t.worth w v o := by
  have hw := h.accounts.worth_ne_none ho
  cases o with
  | buffer j =>
    have hj : j ≠ k := by
      rintro rfl
      exact ho (held_none hk)
    have hput : (t.putBuffer k ptr size fd origin dmabuf).process.buffers j =
      t.process.buffers j := Function.update_of_ne hj _ _
    rw [Task.worth, worths] at hw
    rw [Task.worth, Task.worth, worths, worths, hput]
    cases hqc : t.process.buffers j with
    | none => rfl
    | some qc =>
      rw [hqc] at hw
      exact Function.update_of_ne (h.bounded _ hw).ne _ _
  | entry uid => exact Function.update_of_ne (h.bounded _ hw).ne _ _
  | handler _ => rfl
  | importer _ => rfl

lemma worth_made (t : Task) (k ptr size : ℕ) (fd : ℤ) (origin : Origin) (dmabuf : ℕ) :
    (t.putBuffer k ptr size fd origin dmabuf).worth w v (.buffer k) = some dmabuf := by
  simp [Task.worth, worths, Task.putBuffer, Process.putNamed, Process.put]

lemma putBuffer (h : Sound w v t) {table : Table Resource ℕ} {rpcmemFd : ℕ → Option ℕ}
    {mappedSize : ℕ → ℕ} {importers : ℕ → Option Importer} {origin : Origin} {dmabuf : ℕ}
    (hacc : Accounts
      (Function.update (holdings t.process.buffers t.process.broker.table t.handlers importers)
        (.buffer k) (resources (nextBuffer t.process ptr size fd origin)))
      ((t.putBuffer k ptr size fd origin dmabuf).worth w v) table)
    (hother : ∀ j qc, t.process.buffers j = some qc → Labelled rpcmemFd mappedSize qc)
    (hnew : Labelled rpcmemFd mappedSize (nextBuffer t.process ptr size fd origin)) :
    Sound w v ({ t with
      table := table
      rpcmemFd := rpcmemFd
      mappedSize := mappedSize
      importers := importers }.putBuffer k ptr size fd origin dmabuf) := by
  refine ⟨?_, ?_, h.windowed, ?_, h.counted⟩
  · rw [Task.held]
    exact (holdings_buffer k _).symm ▸ hacc
  · intro j qc hj
    rcases update_some hj with ⟨-, hqc⟩ | ⟨-, hqc⟩
    · exact Option.some.inj hqc ▸ hnew
    · exact hother j qc hqc
  · intro uid huid
    by_cases hu : uid = t.process.counter
    · exact hu ▸ Nat.lt_succ_self _
    · have hold : Function.update t.backing t.process.counter (some dmabuf) uid ≠ none := huid
      rw [Function.update_of_ne hu] at hold
      exact (h.bounded uid hold).trans (Nat.lt_succ_self _)

lemma put_empty (h : Sound w v t) (hk : t.process.buffers k = none) :
    Sound w v { t with process := t.process.put k (some {}) } := by
  have hheld : Task.held { t with process := t.process.put k (some {}) } = t.held :=
    (holdings_buffer k (some {})).trans
      (Function.update_eq_self_iff.mpr ((held_none hk).trans (resources_empty _).symm).symm)
  refine ⟨?_, ?_, h.windowed, h.bounded, h.counted⟩
  · rw [hheld]
    refine h.accounts.congr fun o ho => worths_buffer _ ?_
    rintro rfl
    exact ho (held_none hk)
  · intro j qc hj
    rcases update_some hj with ⟨-, hqc⟩ | ⟨-, hqc⟩
    · obtain rfl := Option.some.inj hqc
      exact ⟨nofun, fun hp => absurd rfl hp, fun hp => absurd rfl hp⟩
    · exact h.labelled j qc hqc

lemma free_of_unused (hu : t.unused ptr = true) :
    t.table.get (.mapping ptr) = none ∧ t.table.get (.allocation ptr) = none := by
  simpa only [Task.unused, Bool.and_eq_true, Option.isNone_iff_eq_none] using hu

lemma free_of_closed {n : ℕ} (hc : t.closed n = true) : t.table.get (.fd n) = none := by
  simpa only [Task.closed, Option.isNone_iff_eq_none] using hc

lemma rpcmemAlloc_failed (h : Sound w v t) (hk : t.process.buffers k = none)
    (hu : t.unused ptr = true) {dmabuf : ℕ} :
    Sound w v ((t.rpcmemAlloc ptr dmabuf).rpcmemFree ptr) := by
  have hnone : (t.rpcmemAlloc ptr dmabuf).rpcmemFd ptr = none := Function.update_self ..
  rw [rpcmemFree_eq, hnone]
  refine ⟨?_, ?_, h.windowed, h.bounded, h.counted⟩
  · refine h.accounts.borrow (o := .buffer k) (held_none hk) (List.nodup_singleton _) ?_
    intro r hr
    rw [List.mem_singleton.mp hr]
    exact (free_of_unused hu).2
  · exact fun j qc hj => (h.labelled_update hu none 0 hj).1

lemma rpcmemAlloc_made (h : Sound w v t) (hk : t.process.buffers k = none) (hp : ptr ≠ 0)
    (hu : t.unused ptr = true) (hfd : 0 ≤ fd) (hc : t.closed fd.toNat = true) {dmabuf : ℕ} :
    Sound w v (((t.rpcmemAlloc ptr dmabuf).rpcmemToFd ptr fd.toNat dmabuf).putBuffer k ptr size fd
      .rpcmem dmabuf) := by
  have hres : resources (nextBuffer t.process ptr size fd .rpcmem) =
    [.allocation ptr, .fd fd.toNat] := if_neg hp
  have hacc := (h.accounts.congr fun o ho => h.worth_putBuffer hk ptr size fd .rpcmem dmabuf
    ho).acquire (o := .buffer k) (l := [.allocation ptr, .fd fd.toNat]) (worth_made ..)
    (by simp) (by simp [(free_of_unused hu).2, free_of_closed hc])
  rw [held_none hk, List.append_nil] at hacc
  refine h.putBuffer ?_ ?_ ?_
  · rw [hres]
    exact hacc
  · intro j qc hj
    rw [Task.rpcmemAlloc, Function.update_idem]
    exact (h.labelled_update hu (some fd.toNat) 0 hj).1
  · exact ⟨fun _ => hp, fun _ _ => ⟨hfd, Function.update_self ..⟩, fun _ ho => nomatch ho⟩

lemma allocate (h : Sound w v t) (hk : t.process.buffers k = none) {dmabuf : ℕ}
    (ha : t.allocate k size ptr fd dmabuf = some t') : Sound w v t' := by
  unfold Task.allocate at ha
  by_cases hmade : size = 0 ∨ t.process.available = false ∨ ptr = 0
  · rw [if_pos hmade] at ha
    obtain rfl := Option.some.inj ha
    rcases allocate_unmade hmade with hcase | hcase
    · rw [hcase]
      exact h
    · rw [hcase]
      exact h.put_empty hk
  · rw [if_neg hmade] at ha
    have hp : ptr ≠ 0 := fun hp => hmade (.inr (.inr hp))
    by_cases hu : t.unused ptr = false
    · rw [if_pos hu] at ha
      exact nomatch ha
    · rw [if_neg hu] at ha
      have hu : t.unused ptr = true := by simpa using hu
      by_cases hfd : fd < 0
      · rw [if_pos hfd] at ha
        obtain rfl := Option.some.inj ha
        exact h.rpcmemAlloc_failed hk hu
      · rw [if_neg hfd] at ha
        by_cases hc : t.closed fd.toNat = false
        · rw [if_pos hc] at ha
          exact nomatch ha
        · rw [if_neg hc] at ha
          obtain rfl := Option.some.inj ha
          exact h.rpcmemAlloc_made hk hp hu (not_lt.mp hfd) (by simpa using hc)

lemma adopt (h : Sound w v t) (hk : t.process.buffers k = none)
    (ha : t.adopt k ptr size fd r = some t') : Sound w v t' := by
  unfold Task.adopt at ha
  split at ha
  · exact nomatch ha
  · rename_i dmabuf _
    by_cases hused : ptr = 0 ∨ t.unused ptr = false
    · rw [if_pos hused] at ha
      exact nomatch ha
    · rw [if_neg hused] at ha
      have hp : ptr ≠ 0 := fun hp => hused (.inl hp)
      have hu : t.unused ptr = true := by simpa using fun hu => hused (.inr hu)
      have hother : ∀ j qc, t.process.buffers j = some qc →
          Labelled t.rpcmemFd (Function.update t.mappedSize ptr size) qc :=
        fun j qc hj => (h.labelled_update hu none size hj).2
      have hnew : Labelled t.rpcmemFd (Function.update t.mappedSize ptr size)
          (nextBuffer t.process ptr size fd .mmap) :=
        ⟨fun _ => hp, (fun _ ho => nomatch ho), fun _ _ => Function.update_self ..⟩
      have hmade := h.accounts.congr
        fun o ho => h.worth_putBuffer hk ptr size fd .mmap dmabuf ho
      by_cases hfd : fd < 0
      · rw [if_pos hfd] at ha
        obtain rfl := Option.some.inj ha
        have hres : resources (nextBuffer t.process ptr size fd .mmap) = [.mapping ptr] :=
          (if_neg hp).trans (if_neg (not_le.mpr hfd))
        have hacc := hmade.acquire (o := .buffer k) (l := [.mapping ptr]) (worth_made ..)
          (by simp) (by simp [(free_of_unused hu).1])
        rw [held_none hk, List.append_nil] at hacc
        refine h.putBuffer ?_ hother hnew
        rw [hres]
        exact hacc
      · rw [if_neg hfd] at ha
        by_cases hc : t.closed fd.toNat = false
        · rw [if_pos hc] at ha
          exact nomatch ha
        · rw [if_neg hc] at ha
          obtain rfl := Option.some.inj ha
          have hclosed : t.table.get (.fd fd.toNat) = none := free_of_closed (by simpa using hc)
          have hres : resources (nextBuffer t.process ptr size fd .mmap) =
            [.mapping ptr, .fd fd.toNat] := (if_neg hp).trans (if_pos (not_lt.mp hfd))
          have hacc := hmade.acquire (o := .buffer k) (l := [.mapping ptr, .fd fd.toNat])
            (worth_made ..) (by simp) (by simp [(free_of_unused hu).1, hclosed])
          rw [held_none hk, List.append_nil] at hacc
          refine h.putBuffer ?_ hother hnew
          rw [hres]
          exact hacc

/-- The buffer takes over the descriptor that the import has received. -/
lemma map {n : ℕ} (h : Sound w v t) (hk : t.process.buffers k = none)
    (hi : t.importers i = some (.map n)) (ha : t.map i k ptr size n = some t') :
    Sound w v t' := by
  unfold Task.map at ha
  split at ha
  · exact nomatch ha
  · rename_i dmabuf hget
    by_cases hused : size = 0 ∨ ptr = 0 ∨ t.unused ptr = false
    · rw [if_pos hused] at ha
      exact nomatch ha
    · rw [if_neg hused] at ha
      obtain rfl := Option.some.inj ha
      have hp : ptr ≠ 0 := fun hp => hused (.inr (.inl hp))
      have hu : t.unused ptr = true := by simpa using fun hu => hused (.inr (.inr hu))
      have hheld : t.held (.importer i) = [.fd n] := by
        rw [Task.held, holdings, hi]
        rfl
      have hres : resources (nextBuffer t.process ptr size n .mmap) = [.mapping ptr, .fd n] :=
        (if_neg hp).trans (if_pos (Int.natCast_nonneg n))
      have hmade := h.accounts.congr fun o ho => h.worth_putBuffer hk ptr size n .mmap dmabuf ho
      have hworth := hmade.worth_of_get (o := .importer i)
        (by rw [hheld]; exact List.mem_cons_self) hget
      have hpassed := hmade.pass (o := .importer i) (held_none hk)
        fun _ => (worth_made ..).trans hworth.symm
      have hacc := hpassed.acquire (o := .buffer k) (l := [.mapping ptr]) (worth_made ..)
        (by simp) (by simp [(free_of_unused hu).1])
      have hne : Owner.importer i ≠ .buffer k := nofun
      rw [Function.update_of_ne hne.symm, Function.update_self, hheld,
        Function.update_comm hne, Function.update_idem, Function.update_comm hne.symm] at hacc
      have htaken : Function.update (holdings t.process.buffers t.process.broker.table t.handlers
            (Function.update t.importers i none)) (.buffer k)
          (resources (nextBuffer t.process ptr size n .mmap)) =
          Function.update (Function.update t.held (.importer i) []) (.buffer k)
            ([.mapping ptr] ++ [.fd n]) := by
        rw [hres, holdings_importer]
        rfl
      rw [← htaken] at hacc
      refine h.putBuffer hacc ?_ ?_
      · exact fun j qc hj => (h.labelled_update hu none size hj).2
      · exact ⟨fun _ => hp, (fun _ ho => nomatch ho), fun _ _ => Function.update_self ..⟩

/-- What the buffer `k` had before is gone already. -/
lemma moved (h : Sound w v t) {other : ℕ} (hne : k ≠ other)
    (ho : t.process.buffers other = some qc) {table : Table Resource ℕ}
    (hacc : Accounts (Function.update t.held (.buffer k) []) (t.worth w v) table) :
    Sound w v { t with
      process := (t.process.put k (some qc)).put other (some { origin := qc.origin })
      table := table } := by
  have hown : Owner.buffer other ≠ .buffer k := fun he => hne (Owner.buffer.inj he).symm
  refine ⟨?_, ?_, h.windowed, h.bounded, h.counted⟩
  · have hfrom : ∀ o, Function.update t.held (.buffer k) [] o ≠ [] →
        Function.update (t.worth w v) (.buffer k) (t.backing qc.uid) o = t.worth w v o :=
      fun o hleft => Function.update_of_ne (ne_of_update hleft) _ _
    have hworth : t.worth w v (.buffer other) = t.backing qc.uid := by
      rw [Task.worth, worths, ho]
      rfl
    have hgone : Function.update t.held (.buffer k) [] (.buffer k) = [] :=
      Function.update_self ..
    have hpassed := (hacc.congr hfrom).pass (o := .buffer other) hgone fun _ => by
      rw [Function.update_self, Function.update_of_ne hown, hworth]
    rw [Function.update_of_ne hown, held_buffer ho, Function.update_idem] at hpassed
    have hheld : Task.held { t with
        process := (t.process.put k (some qc)).put other (some { origin := qc.origin })
        table := table } = Function.update (Function.update t.held (.buffer k) (resources qc))
          (.buffer other) [] := by
      refine (holdings_buffer other _).trans ?_
      rw [Option.elim_some, resources_empty]
      exact congrArg (fun f => Function.update f _ _) (holdings_buffer k _)
    rw [hheld]
    refine hpassed.congr ?_
    intro o hleft
    refine (worths_buffer _ (ne_of_update hleft)).trans ?_
    by_cases hk : o = .buffer k
    · rw [hk, Function.update_self, worths, Process.put]
      dsimp only
      rw [Function.update_self]
      rfl
    · rw [Function.update_of_ne hk]
      exact worths_buffer _ hk
  · intro j qc' hj
    rcases update_some hj with ⟨-, hqc⟩ | ⟨-, hj⟩
    · obtain rfl := Option.some.inj hqc
      exact ⟨nofun, fun hp => absurd rfl hp, fun hp => absurd rfl hp⟩
    · rcases update_some hj with ⟨-, hqc⟩ | ⟨-, hj⟩
      · exact Option.some.inj hqc ▸ h.labelled other qc ho
      · exact h.labelled j qc' hj

lemma moveConstruct (h : Sound w v t) {other : ℕ}
    (hs : t.step (.moveConstruct k other) = some t') : Sound w v t' := by
  simp only [Task.step, Process.step] at hs
  cases hk : t.process.buffers k with
  | some _ =>
    rw [hk] at hs
    cases hs
  | none =>
    cases ho : t.process.buffers other with
    | none =>
      rw [hk, ho] at hs
      cases hs
    | some qc =>
      rw [hk, ho] at hs
      obtain rfl := Option.some.inj hs
      have hne : k ≠ other := by
        rintro rfl
        cases hk.symm.trans ho
      refine h.moved hne ho ?_
      rw [Function.update_eq_self_iff.mpr (held_none hk).symm]
      exact h.accounts

lemma giveUp_buffer (h : Sound w v t) (hk : t.process.buffers k = some qc) :
    t.reset qc = t.setTable (t.table.releaseAll (resources qc)) ∧
      Accounts (Function.update t.held (.buffer k) []) (t.worth w v)
        (t.table.releaseAll (resources qc)) :=
  ⟨reset_eq (h.labelled k qc hk), held_buffer hk ▸ h.accounts.giveUp (.buffer k)⟩

lemma moveAssign (h : Sound w v t) {other : ℕ}
    (hs : t.step (.moveAssign k other) = some t') : Sound w v t' := by
  simp only [Task.step, Process.step] at hs
  cases hk : t.process.buffers k with
  | none =>
    rw [hk] at hs
    cases hs
  | some qc =>
    cases ho : t.process.buffers other with
    | none =>
      rw [hk, ho] at hs
      cases hs
    | some qc' =>
      rw [hk, ho] at hs
      by_cases hne : k = other
      · simp only [if_pos hne] at hs
        obtain rfl := Option.some.inj hs
        exact h
      · simp only [if_neg hne] at hs
        obtain rfl := Option.some.inj hs
        obtain ⟨hreset, hacc⟩ := h.giveUp_buffer hk
        rw [hreset]
        exact h.moved hne ho hacc

lemma destroy (h : Sound w v t) (hs : t.step (.destroy k) = some t') : Sound w v t' := by
  simp only [Task.step, Process.step] at hs
  cases hk : t.process.buffers k with
  | none =>
    rw [hk] at hs
    cases hs
  | some qc =>
    rw [hk] at hs
    obtain rfl := Option.some.inj hs
    obtain ⟨hreset, hacc⟩ := h.giveUp_buffer hk
    rw [hreset]
    refine ⟨?_, ?_, h.windowed, h.bounded, h.counted⟩
    · have hheld : Task.held { t.setTable (t.table.releaseAll (resources qc)) with
          process := t.process.put k none } = Function.update t.held (.buffer k) [] :=
        holdings_buffer k none
      rw [hheld]
      exact hacc.congr fun o hleft => worths_buffer _ (ne_of_update hleft)
    · intro j qc' hj
      rcases update_some hj with ⟨-, hqc⟩ | ⟨-, hj⟩
      · cases hqc
      · exact h.labelled j qc' hj

end Sound

end Steps

end RosidlBufferBackends.Qc.Sharing
