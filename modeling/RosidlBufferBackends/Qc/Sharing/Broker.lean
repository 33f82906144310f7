import RosidlBufferBackends.Qc.Sharing.Ownership

/-! Every step of a process accounts for its resources. -/

namespace RosidlBufferBackends.Qc.Sharing

open Holdings Inventory

variable {w v : ℕ → Option ℕ} {t t' : Task} {qc : QcBuffer} {k c i : ℕ}

/-- The dma-buf that a thread gets is the one that `w` and `v` say. -/
def Agrees (w v : ℕ → Option ℕ) (t : Task) : TaskEvent → Prop
  | .lookup c _ => ∀ uid, t.handlers c = some (.lookup uid) →
      (t.process.broker.table uid).isSome → w c = t.backing uid
  | .recvReply i (some (_, dmabuf)) => v i = some dmabuf
  | _ => True

namespace Sound

/-- What the broker evicts, it has closed. -/
lemma evict (b : FdBroker) (l : List ℕ) {buffers : ℕ → Option QcBuffer}
    {handlers : ℕ → Option Handler} {importers : ℕ → Option Importer}
    {worth : Owner → Option ℕ} {table : Table Resource ℕ}
    (hacc : Accounts (holdings buffers b.table handlers importers) worth table) :
    ∃ evicted, (b.evict l).closed = b.closed ++ evicted ∧
      Accounts (holdings buffers (b.evict l).table handlers importers) worth
        (table.releaseAll (evicted.map .fd)) := by
  induction l generalizing b table with
  | nil => exact ⟨[], (List.append_nil _).symm, hacc⟩
  | cons old rest ih =>
    rw [FdBroker.evict]
    by_cases hlong : kCapacity < (old :: rest).length
    · rw [if_pos hlong]
      cases hold : b.table old with
      | none => exact ih b hacc
      | some entry =>
        have hheld : holdings buffers b.table handlers importers (.entry old) =
            [.fd entry.dupFd] := by
          rw [holdings, hold]
          rfl
        have hgone := hacc.giveUp (.entry old)
        rw [hheld] at hgone
        have hnext : holdings buffers (Function.update b.table old none) handlers importers =
            Function.update (holdings buffers b.table handlers importers) (.entry old) [] :=
          holdings_entry old none
        rw [← hnext] at hgone
        obtain ⟨evicted, hclosed, hacc⟩ := ih { b with
          table := Function.update b.table old none
          closed := b.closed ++ [entry.dupFd] } hgone
        refine ⟨entry.dupFd :: evicted, ?_, hacc⟩
        rw [hclosed, List.append_assoc, List.singleton_append]
    · rw [if_neg hlong]
      exact ⟨[], (List.append_nil _).symm, hacc⟩

lemma mem_fd (hp : qc.ptr ≠ 0) (hfd : 0 ≤ qc.fd) : Resource.fd qc.fd.toNat ∈ resources qc := by
  rw [resources, if_neg hp]
  cases qc.origin with
  | rpcmem => simp
  | mmap => simp [hfd]

lemma worth_buffer (hk : t.process.buffers k = some qc) :
    t.worth w v (.buffer k) = t.backing qc.uid := by
  rw [Task.worth, worths, hk]
  rfl

lemma createDescriptor (h : Sound w v t) {impl : Option QcBufferImpl} {dup : Option ℕ}
    (hs : t.createDescriptorWithEndpoint impl dup = some t') : Sound w v t' := by
  unfold Task.createDescriptorWithEndpoint at hs
  by_cases hcon : t.constructed = false
  · rw [if_pos hcon] at hs
    exact nomatch hs
  rw [if_neg hcon] at hs
  rcases createDescriptor_cases t.process impl dup with hnone | hsome
  · rw [hnone] at hs
    obtain rfl := Option.some.inj hs
    exact h
  · obtain ⟨n, k, qc, hk, hfd, hrun, hsome⟩ := hsome
    rw [hsome] at hs
    simp only [Task.register] at hs
    by_cases hreg : t.process.broker.Registers qc.uid qc.fd dup
    · rw [if_pos hreg] at hs
      split at hs
      · rename_i dmabuf dupFd hget
        by_cases hc : t.closed dupFd = false
        · rw [if_pos hc] at hs
          exact nomatch hs
        · rw [if_neg hc] at hs
          obtain rfl := Option.some.inj hs
          have hclosed : t.table.get (.fd dupFd) = none := free_of_closed (by simpa using hc)
          have hmem : Resource.fd qc.fd.toNat ∈ t.held (.buffer k) :=
            held_buffer hk ▸ mem_fd ((h.labelled k qc hk).nonempty hfd) hfd
          have hworth : t.worth w v (.entry qc.uid) = some dmabuf :=
            (worth_buffer hk).symm.trans (h.accounts.worth_of_get hmem hget)
          have hnone : t.held (.entry qc.uid) = [] := by
            rw [Task.held, holdings, hreg.2.2.2.1]
            rfl
          have hacc := h.accounts.acquire (l := [.fd dupFd]) hworth (by simp) (by simp [hclosed])
          rw [hnone, List.append_nil] at hacc
          have hentry : holdings t.process.buffers
              (Function.update t.process.broker.table qc.uid (some ⟨dupFd, qc.size⟩)) t.handlers
              t.importers = Function.update t.held (.entry qc.uid) [.fd dupFd] :=
            holdings_entry qc.uid (some ⟨dupFd, qc.size⟩)
          rw [← hentry] at hacc
          obtain ⟨evicted, hevicted, hacc⟩ := evict { t.process.broker with
            table := Function.update t.process.broker.table qc.uid (some ⟨dupFd, qc.size⟩) }
            (t.process.broker.order ++ [qc.uid]) hacc
          rw [← FdBroker.registerBuffer_eq qc.size hreg] at hevicted hacc
          have hwindow : (t.process.broker.registerBuffer qc.uid qc.fd qc.size
              (some dupFd)).Windowed := FdBroker.windowed_registerBuffer h.windowed
          refine ⟨?_, h.labelled, hwindow, h.bounded, h.counted⟩
          dsimp only
          rw [hevicted, List.drop_left]
          exact hacc
      · exact nomatch hs
    · rw [if_neg hreg] at hs
      obtain rfl := Option.some.inj hs
      rw [FdBroker.registerBuffer_of_not hreg]
      exact h

lemma teardown_accounts (l : List ℕ) (hl : l.Nodup) {entries : ℕ → Option Entry}
    {buffers : ℕ → Option QcBuffer} {handlers : ℕ → Option Handler}
    {importers : ℕ → Option Importer} {worth : Owner → Option ℕ} {table : Table Resource ℕ}
    (hacc : Accounts (holdings buffers entries handlers importers) worth table) :
    Accounts (holdings buffers (fun uid => if uid ∈ l then none else entries uid) handlers
        importers) worth
      (table.releaseAll ((l.filterMap entries).map fun entry => .fd entry.dupFd)) := by
  induction l generalizing entries table with
  | nil => exact hacc
  | cons old rest ih =>
    obtain ⟨hold, hrest⟩ := List.nodup_cons.mp hl
    cases he : entries old with
    | none =>
      have hsame : (fun uid => if uid ∈ old :: rest then none else entries uid) =
          fun uid => if uid ∈ rest then none else entries uid := by
        funext uid
        by_cases hu : uid = old
        · simp [hu, he]
        · simp [hu]
      rw [hsame, List.filterMap_cons_none he]
      exact ih hrest hacc
    | some entry =>
      have hheld : holdings buffers entries handlers importers (.entry old) =
          [.fd entry.dupFd] := by
        rw [holdings, he]
        rfl
      have hgone := hacc.giveUp (.entry old)
      rw [hheld] at hgone
      have hnext : holdings buffers (Function.update entries old none) handlers importers =
          Function.update (holdings buffers entries handlers importers) (.entry old) [] :=
        holdings_entry old none
      rw [← hnext] at hgone
      have hleft := ih hrest hgone
      have hsame : (fun uid => if uid ∈ old :: rest then none else entries uid) =
          fun uid => if uid ∈ rest then none else Function.update entries old none uid := by
        funext uid
        by_cases hu : uid = old
        · simp [hu]
        · simp [hu]
      have hlist : rest.filterMap (Function.update entries old none) = rest.filterMap entries := by
        refine List.filterMap_congr fun uid hu => Function.update_of_ne ?_ _ _
        rintro rfl
        exact hold hu
      rw [hsame, List.filterMap_cons_some he]
      rw [hlist] at hleft
      exact hleft

lemma teardown (h : Sound w v t) : Sound w v t.teardown := by
  have hnone : (fun uid => if uid ∈ t.process.broker.order then none
      else t.process.broker.table uid) = fun _ => none := by
    funext uid
    by_cases hu : uid ∈ t.process.broker.order
    · rw [if_pos hu]
    · rw [if_neg hu]
      exact Option.not_isSome_iff_eq_none.mp (mt (h.windowed.listed uid).mp hu)
  have hacc := teardown_accounts _ h.windowed.nodup h.accounts
  rw [hnone] at hacc
  refine ⟨hacc, h.labelled, ?_, h.bounded, h.counted⟩
  exact ⟨List.nodup_nil, fun _ => ⟨nofun, nofun⟩, Nat.zero_le _⟩

section Threads

variable {x : Handler} {y : Importer} {uid n : ℕ} {dup : Option ℕ} {e : TaskEvent}

lemma held_handler (hc : t.handlers c = some x) : t.held (.handler c) = x.resources := by
  rw [Task.held, holdings, hc]
  rfl

lemma held_importer (hi : t.importers i = some y) : t.held (.importer i) = y.resources := by
  rw [Task.held, holdings, hi]
  rfl

lemma congr (h : Sound w v t) {w' v' : ℕ → Option ℕ}
    (hw : ∀ c, t.held (.handler c) ≠ [] → w' c = w c)
    (hv : ∀ i, t.held (.importer i) ≠ [] → v' i = v i) : Sound w' v' t := by
  refine ⟨h.accounts.congr ?_, h.labelled, h.windowed, h.bounded, h.counted⟩
  intro o ho
  cases o with
  | buffer _ => rfl
  | entry _ => rfl
  | handler c => exact hw c ho
  | importer i => exact hv i ho

lemma accept (h : Sound w v t) (hc : t.handlers c = none) :
    Sound w v { t.setHandler c (some .recv) with
      activeConnections := t.activeConnections + 1 } := by
  refine ⟨?_, h.labelled, h.windowed, h.bounded, h.counted.insert hc _⟩
  have hheld : (t.setHandler c (some .recv)).held = t.held := by
    refine (holdings_handler c _).trans (Function.update_eq_self_iff.mpr ?_)
    rw [holdings, hc]
    rfl
  exact hheld.symm ▸ h.accounts

lemma setHandler (h : Sound w v t) {x' : Handler} (hc : t.handlers c = some x)
    (hx : x'.resources = x.resources) : Sound w v (t.setHandler c (some x')) := by
  refine ⟨?_, h.labelled, h.windowed, h.bounded, h.counted.replace (by simp [hc]) _⟩
  have hheld : (t.setHandler c (some x')).held = t.held :=
    (holdings_handler c _).trans
      (Function.update_eq_self_iff.mpr (hx.trans (held_handler hc).symm))
  exact hheld.symm ▸ h.accounts

lemma endHandler (h : Sound w v t) (hc : t.handlers c = some x) :
    Sound w v ((t.setTable (t.table.releaseAll x.resources)).endHandler c) := by
  refine ⟨?_, h.labelled, h.windowed, h.bounded, h.counted.remove (by simp [hc])⟩
  have hgone := h.accounts.giveUp (.handler c)
  rw [held_handler hc] at hgone
  have hheld : ((t.setTable (t.table.releaseAll x.resources)).endHandler c).held =
      Function.update t.held (.handler c) [] := holdings_handler c none
  rw [hheld]
  exact hgone

lemma lookup (h : Sound w v t) (hc : t.handlers c = some (.lookup uid))
    (hw : (t.process.broker.table uid).isSome → w c = t.backing uid)
    (hs : t.lookup c uid dup = some t') : Sound w v t' := by
  unfold Task.lookup at hs
  split at hs
  · rename_i entry tmpFd hentry hreply
    split at hs
    · exact nomatch hs
    · rename_i dmabuf hget
      by_cases hclosed : t.closed tmpFd = false
      · rw [if_pos hclosed] at hs
        exact nomatch hs
      · rw [if_neg hclosed] at hs
        obtain rfl := Option.some.inj hs
        have hfree : t.table.get (.fd tmpFd) = none := free_of_closed (by simpa using hclosed)
        have hmem : Resource.fd entry.dupFd ∈ t.held (.entry uid) := by
          rw [Task.held, holdings, hentry]
          exact List.mem_cons_self
        have hworth : t.worth w v (.handler c) = some dmabuf :=
          (hw (by simp [hentry])).trans (h.accounts.worth_of_get hmem hget)
        have hacc := h.accounts.acquire (l := [.fd tmpFd]) hworth (by simp) (by simp [hfree])
        rw [held_handler hc] at hacc
        refine ⟨?_, h.labelled, h.windowed, h.bounded, h.counted.replace (by simp [hc]) _⟩
        have hheld : ((t.receive tmpFd dmabuf).setHandler c (some (.send tmpFd))).held =
            Function.update t.held (.handler c) [.fd tmpFd] := holdings_handler c _
        rw [hheld]
        exact hacc
  · obtain rfl := Option.some.inj hs
    exact h.endHandler hc

lemma setImporter (h : Sound w v t) {z : Option Importer}
    (hz : z.elim [] Importer.resources = t.held (.importer i)) : Sound w v (t.setImporter i z) := by
  refine ⟨?_, h.labelled, h.windowed, h.bounded, h.counted⟩
  have hheld : (t.setImporter i z).held = t.held :=
    (holdings_importer i _).trans (Function.update_eq_self_iff.mpr hz)
  exact hheld.symm ▸ h.accounts

lemma recvReply (h : Sound w v t) {dmabuf : ℕ} (hi : t.importers i = some .recv)
    (hv : v i = some dmabuf) (hclosed : t.closed n = true) :
    Sound w v ((t.receive n dmabuf).setImporter i (some (.map n))) := by
  have hfree : t.table.get (.fd n) = none := free_of_closed hclosed
  have hworth : t.worth w v (.importer i) = some dmabuf := hv
  have hacc := h.accounts.acquire (l := [.fd n]) hworth (by simp) (by simp [hfree])
  rw [held_importer hi] at hacc
  refine ⟨?_, h.labelled, h.windowed, h.bounded, h.counted⟩
  have hheld : ((t.receive n dmabuf).setImporter i (some (.map n))).held =
      Function.update t.held (.importer i) [.fd n] := holdings_importer i _
  rw [hheld]
  exact hacc

lemma mapFailed (h : Sound w v t) (hi : t.importers i = some (.map n)) :
    Sound w v ((t.close n).setImporter i none) := by
  have hgone := h.accounts.giveUp (.importer i)
  rw [held_importer hi] at hgone
  refine ⟨?_, h.labelled, h.windowed, h.bounded, h.counted⟩
  have hheld : ((t.close n).setImporter i none).held =
      Function.update t.held (.importer i) [] := holdings_importer i none
  rw [hheld]
  exact hgone

lemma setBroker (h : Sound w v t) (constructed worker running : Bool) (socketPath : String) :
    Sound w v { t with
      constructed := constructed
      worker := worker
      process := { t.process with
        broker := { t.process.broker with
          running := running
          socketPath := socketPath } } } :=
  ⟨h.accounts, h.labelled, ⟨h.windowed.nodup, h.windowed.listed, h.windowed.fits⟩, h.bounded,
    h.counted⟩

end Threads

theorem step {e : TaskEvent} (h : Sound w v t) (ha : Agrees w v t e)
    (hs : t.step e = some t') : Sound w v t' := by
  cases e with
  | constructBroker socket listening =>
    simp only [Task.step] at hs
    split at hs
    · cases hs
    · split at hs
      · obtain rfl := Option.some.inj hs
        exact h.setBroker true t.worker t.process.broker.running t.process.broker.socketPath
      · obtain rfl := Option.some.inj hs
        exact h.setBroker true listening listening (brokerPath t.process.pid)
  | allocate k byteSize ptr fd dmabuf =>
    simp only [Task.step] at hs
    split at hs
    · cases hs
    · rename_i hk
      exact h.allocate (by simpa using hk) hs
  | adopt k ptr size fd source =>
    simp only [Task.step] at hs
    split at hs
    · cases hs
    · rename_i hk
      exact h.adopt (by simpa using hk) hs
  | moveConstruct k other => exact h.moveConstruct hs
  | moveAssign k other => exact h.moveAssign hs
  | destroy k => exact h.destroy hs
  | createDescriptorWithEndpoint impl dup => exact h.createDescriptor hs
  | accept c =>
    simp only [Task.step] at hs
    split at hs
    · cases hs
    · rename_i hguard
      obtain rfl := Option.some.inj hs
      exact h.accept (by simpa using fun hc => hguard (.inr hc))
  | recvRequest c uid =>
    simp only [Task.step] at hs
    split at hs
    · rename_i hc
      obtain rfl := Option.some.inj hs
      exact h.setHandler hc rfl
    · obtain rfl := Option.some.inj hs
      exact h.endHandler ‹_›
    · cases hs
  | lookup c dup =>
    simp only [Task.step] at hs
    split at hs
    · exact h.lookup ‹_› (ha _ ‹_›) hs
    · cases hs
  | sendmsg c sent =>
    simp only [Task.step] at hs
    split at hs
    · rename_i hc
      obtain rfl := Option.some.inj hs
      exact h.setHandler hc rfl
    · cases hs
  | finish c =>
    simp only [Task.step] at hs
    split at hs
    · obtain rfl := Option.some.inj hs
      exact h.endHandler ‹_›
    · cases hs
  | stop =>
    simp only [Task.step] at hs
    split at hs
    · cases hs
    · obtain rfl := Option.some.inj hs
      exact h.setBroker t.constructed t.worker false t.process.broker.socketPath
  | join =>
    simp only [Task.step] at hs
    split at hs
    · cases hs
    · obtain rfl := Option.some.inj hs
      exact h.setBroker t.constructed false t.process.broker.running t.process.broker.socketPath
  | teardown =>
    simp only [Task.step] at hs
    split at hs
    · cases hs
    · obtain rfl := Option.some.inj hs
      exact h.teardown
  | importFailed m =>
    obtain rfl := Option.some.inj hs
    exact h
  | connect i m =>
    simp only [Task.step] at hs
    split at hs
    · cases hs
    · rename_i hguard
      obtain rfl := Option.some.inj hs
      refine h.setImporter ?_
      rw [Task.held, holdings, show t.importers i = none by simpa using hguard]
      rfl
  | sendUid i sent =>
    simp only [Task.step] at hs
    split at hs
    · obtain rfl := Option.some.inj hs
      refine h.setImporter ?_
      rw [held_importer ‹_›]
      cases sent <;> rfl
    · cases hs
  | recvReply i received =>
    simp only [Task.step] at hs
    split at hs
    · rename_i hi
      obtain rfl := Option.some.inj hs
      exact h.setImporter (held_importer hi).symm
    · rename_i hi
      split at hs
      · cases hs
      · rename_i hclosed
        obtain rfl := Option.some.inj hs
        exact h.recvReply hi ha (by simpa using hclosed)
    · cases hs
  | map i k ptr size =>
    simp only [Task.step] at hs
    split at hs
    · split at hs
      · cases hs
      · rename_i hk
        exact h.map (by simpa using hk) ‹_› hs
    · cases hs
  | mapFailed i =>
    simp only [Task.step] at hs
    split at hs
    · obtain rfl := Option.some.inj hs
      exact h.mapFailed ‹_›
    · cases hs

end Sound

end RosidlBufferBackends.Qc.Sharing
