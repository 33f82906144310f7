import RosidlBufferBackends.Qc.Sharing.System

/-! The dma-bufs live as long as the buffers on them, and nothing is left behind. -/

namespace RosidlBufferBackends.Qc.Sharing

open Holdings Inventory Runs

/-- What a buffer that is not empty reads and writes through. -/
def memory (qc : QcBuffer) : Resource :=
  match qc.origin with
  | .rpcmem => .allocation qc.ptr
  | .mmap => .mapping qc.ptr

/-- Some descriptor, mapping or allocation refers to the dma-buf. -/
def System.Alive (s : System) (dmabuf : ℕ) : Prop :=
  ∃ p t r, s.tasks p = some t ∧ t.table.get r = some dmabuf

/-- The buffers and the entries are gone. -/
structure Task.Emptied (t : Task) : Prop where
  buffers : ∀ k qc, t.process.buffers k = some qc → qc.ptr = 0
  entries : ∀ uid, t.process.broker.table uid = none

/-- Nothing is open, nothing is mapped or allocated, and everything that ever was has been
given back once. -/
structure Task.Clean (t : Task) : Prop where
  absent : ∀ r, t.table.get r = none
  released : ∀ n, n < t.table.next → t.table.released n = 1

/-- `faultless` says that nothing was closed, unmapped or freed that was not there. -/
structure Lifetimes (s : System) (t : Task) : Prop where
  alive : ∀ k qc, t.process.buffers k = some qc → qc.ptr ≠ 0 → ∃ dmabuf,
    t.backing qc.uid = some dmabuf ∧ t.table.get (memory qc) = some dmabuf ∧ s.Alive dmabuf
  faultless : t.table.faults = 0
  once : ∀ n, n < t.table.next → (∃ r x, t.table.entries r = some (x, n)) ∧
    t.table.released n = 0 ∨ t.table.released n = 1
  owned : ∀ r, t.table.get r ≠ none → ∃ o, r ∈ t.held o ∧ ∀ o', r ∈ t.held o' → o' = o
  exists_of_owned : ∀ o r, r ∈ t.held o → t.table.get r ≠ none
  leftover : t.Emptied → ∀ r, t.table.get r ≠ none →
    (∃ c x, t.handlers c = some x ∧ r ∈ x.resources) ∨
      ∃ i x, t.importers i = some x ∧ r ∈ x.resources
  clean : t.Emptied → t.activeConnections = 0 → (∀ i, t.importers i = none) → t.Clean

variable {w v : ℕ → Option ℕ} {s u : System} {t t' : Task} {qc : QcBuffer} {k p : ℕ}
  {e : SystemEvent}
  {o : SystemOutput} {tr : List (SystemEvent × SystemOutput)}

lemma mem_memory (hp : qc.ptr ≠ 0) : memory qc ∈ resources qc := by
  rw [resources, if_neg hp, memory]
  cases qc.origin with
  | rpcmem => exact List.mem_cons_self
  | mmap =>
    dsimp only
    split_ifs <;> exact List.mem_cons_self

namespace Sound

lemma leftover (h : Sound w v t) (he : t.Emptied) {r : Resource} (hr : t.table.get r ≠ none) :
    (∃ c x, t.handlers c = some x ∧ r ∈ x.resources) ∨
      ∃ i x, t.importers i = some x ∧ r ∈ x.resources := by
  obtain ⟨o, ho⟩ := h.accounts.owned r hr
  cases o with
  | buffer k =>
    cases hk : t.process.buffers k with
    | none =>
      rw [held_none hk] at ho
      cases ho
    | some qc =>
      rw [held_buffer hk, resources, if_pos (he.buffers k qc hk)] at ho
      cases ho
  | entry uid =>
    rw [Task.held, holdings, he.entries uid] at ho
    cases ho
  | handler c =>
    cases hc : t.handlers c with
    | none =>
      rw [Task.held, holdings, hc] at ho
      cases ho
    | some x => exact .inl ⟨c, x, hc, held_handler hc ▸ ho⟩
  | importer i =>
    cases hi : t.importers i with
    | none =>
      rw [Task.held, holdings, hi] at ho
      cases ho
    | some x => exact .inr ⟨i, x, hi, held_importer hi ▸ ho⟩

lemma clean (h : Sound w v t) (he : t.Emptied) (hactive : t.activeConnections = 0)
    (himport : ∀ i, t.importers i = none) : t.Clean := by
  have habsent : ∀ r, t.table.get r = none := by
    intro r
    by_contra hr
    rcases h.leftover he hr with ⟨c, x, hc, -⟩ | ⟨i, x, hi, -⟩
    · exact nomatch ((hactive ▸ h.counted).eq_none c).symm.trans hc
    · exact nomatch (himport i).symm.trans hi
  refine ⟨habsent, ?_⟩
  intro n hn
  refine (h.accounts.once.settled n hn).resolve_left ?_
  rintro ⟨r, x, hr⟩
  exact nomatch (Table.get_eq_none.mp (habsent r)).symm.trans hr

lemma lifetimes (h : Sound w v t) (hp : s.tasks p = some t) : Lifetimes s t where
  alive k qc hk hne := by
    have hmem : memory qc ∈ t.held (.buffer k) := held_buffer hk ▸ mem_memory hne
    obtain ⟨dmabuf, hworth, hget⟩ := h.accounts.valued _ _ hmem
    exact ⟨dmabuf, (worth_buffer hk).symm.trans hworth, hget, p, t, _, hp, hget⟩
  faultless := h.accounts.once.faultless
  once n hn := by
    rcases h.accounts.once.settled n hn with ⟨r, x, hr⟩ | hone
    · exact .inl ⟨⟨r, x, hr⟩, (h.accounts.once.held r _ hr).2⟩
    · exact .inr hone
  owned r hr := by
    obtain ⟨o, ho⟩ := h.accounts.owned r hr
    exact ⟨o, ho, fun o' ho' => h.accounts.unique o' o r ho' ho⟩
  exists_of_owned _ _ hr := h.accounts.get_ne_none hr
  leftover he _ hr := h.leftover he hr
  clean he hactive himport := h.clean he hactive himport

lemma rebase {e : TaskEvent} (h : Sound w v t) (hs : t.step e = some t') :
    ∃ w' v', Sound w' v' t ∧ Agrees w' v' t e := by
  cases e with
  | lookup c dup =>
    simp only [Task.step] at hs
    split at hs
    · rename_i uid hc
      refine ⟨Function.update w c (t.backing uid), v, h.congr ?_ fun _ _ => rfl, ?_⟩
      · intro c' hheld
        refine Function.update_of_ne ?_ _ _
        rintro rfl
        exact hheld (held_handler hc)
      · intro uid' hc' _
        obtain rfl := Handler.lookup.inj (Option.some.inj (hc.symm.trans hc'))
        exact Function.update_self ..
    · cases hs
  | recvReply i received =>
    cases received with
    | none => exact ⟨w, v, h, trivial⟩
    | some x =>
      simp only [Task.step] at hs
      split at hs
      · cases ‹some x = none›
      · rename_i n dmabuf hi hx
        obtain rfl := Option.some.inj hx
        refine ⟨w, Function.update v i (some dmabuf), h.congr (fun _ _ => rfl) ?_, ?_⟩
        · intro i' hheld
          refine Function.update_of_ne ?_ _ _
          rintro rfl
          exact hheld (held_importer hi)
        · exact Function.update_self ..
      · cases hs
  | _ => exact ⟨w, v, h, trivial⟩

end Sound

lemma step_sound (h : ∀ p t, s.tasks p = some t → ∃ w v, Sound w v t)
    (hs : s.step e = some (o, u)) : ∀ p t, u.tasks p = some t → ∃ w v, Sound w v t := by
  intro q t hq
  rcases System.step_cases hs with ⟨pid, available, -, -, rfl⟩ | ⟨p, t₀, -, -, -, rfl⟩ |
    ⟨p, a, t₀, t', -, hp, ht, -, -, rfl⟩
  · rcases update_some hq with ⟨-, hnew⟩ | ⟨-, hq⟩
    · exact ⟨_, _, Option.some.inj hnew ▸ sound_start (fun _ => none) (fun _ => none) _ _⟩
    · exact h q t hq
  · rcases update_some hq with ⟨-, hnew⟩ | ⟨-, hq⟩
    · exact nomatch hnew
    · exact h q t hq
  · rcases update_some hq with ⟨-, hnew⟩ | ⟨-, hq⟩
    · obtain rfl := Option.some.inj hnew
      obtain ⟨w, v, hsound⟩ := h p t₀ hp
      obtain ⟨w', v', hsound', hagrees⟩ := hsound.rebase ht
      exact ⟨w', v', hsound'.step hagrees ht⟩
    · exact h q t hq

/-- Operations that are still in flight are not counted as over: what a handler or an import has at
the time is theirs. -/
theorem dmabuf_lifetimes (hr : Run System.step {} tr s) (hp : s.tasks p = some t) :
    Lifetimes s t := by
  have hsound : ∀ p t, s.tasks p = some t → ∃ w v, Sound w v t :=
    hr.invariant (fun _ _ h => nomatch h) fun _ _ _ _ h hs => step_sound h hs
  obtain ⟨w, v, h⟩ := hsound p t hp
  exact h.lifetimes hp

/-- A buffer is imported, moved and destroyed, and the broker torn down. -/
theorem dmabuf_lifetimes_shared : ∃ tr s t, Run System.step {} tr s ∧ s.tasks 0 = some t ∧
    t.table.next = 4 ∧ (∀ n < 4, t.table.released n = 1) ∧ Lifetimes s t := by
  let evs := publishFrom 0 7 0 ++ [.start 8 true] ++ importFrom 0 1 0 ++
    [.act 0 (.moveConstruct 1 0), .act 0 (.destroy 0), .act 0 (.destroy 1), .act 0 .stop,
      .act 0 .join, .act 0 .teardown]
  have hlast : (exec System.step {} evs).any (fun x => (x.2.tasks 0).any (fun t =>
      t.table.next = 4 ∧ ∀ n < 4, t.table.released n = 1)) = true := by decide +kernel
  obtain ⟨⟨tr, s⟩, hx, hlast⟩ := Option.any_eq_true _ _ |>.mp hlast
  obtain ⟨t, ht, hlast⟩ := Option.any_eq_true _ _ |>.mp hlast
  obtain ⟨hnext, hreleased⟩ := of_decide_eq_true hlast
  exact ⟨tr, s, t, exec_run hx, ht, hnext, hreleased, dmabuf_lifetimes (exec_run hx) ht⟩

end RosidlBufferBackends.Qc.Sharing
