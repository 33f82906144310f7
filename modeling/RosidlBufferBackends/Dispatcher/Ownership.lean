import RosidlBufferBackends.Dispatcher.Steps
import RosidlBufferBackends.Lib.Inventory

/-! The managers that share a dispatcher, and the numbers that its map and their
tables refer to. -/

namespace RosidlBufferBackends.Dispatcher

open Inventory Publisher

variable {s u : Publisher} {e : Event} {o : Output} {m k n b : ℕ} {mg mg' : CudaVmmIPCManager}
  {D F : FDDispatcher} {result : Option ℕ} {f : File} {c : Call}

namespace Publisher

@[simp] lemma closeFd_fds (s : Publisher) (n : ℕ) :
    (s.closeFd n).fds = Function.update s.fds n none := by
  unfold closeFd
  split <;> rfl

@[simp] lemma closeFd_managers (s : Publisher) (n : ℕ) : (s.closeFd n).managers = s.managers := by
  unfold closeFd
  split <;> rfl

@[simp] lemma closeFd_dispatchers (s : Publisher) (n : ℕ) :
    (s.closeFd n).dispatchers = s.dispatchers := by
  unfold closeFd
  split <;> rfl

@[simp] lemma closeFd_next (s : Publisher) (n : ℕ) :
    (s.closeFd n).nextManager = s.nextManager ∧
      (s.closeFd n).nextDispatcher = s.nextDispatcher ∧ (s.closeFd n).cached = s.cached := by
  unfold closeFd
  split <;> exact ⟨rfl, rfl, rfl⟩

@[simp] lemma closeFd_connections (s : Publisher) (n : ℕ) :
    (s.closeFd n).connections = s.connections ∧
      (s.closeFd n).nextConnection = s.nextConnection ∧ (s.closeFd n).killed = s.killed := by
  unfold closeFd
  split <;> exact ⟨rfl, rfl, rfl⟩

lemma foldl_closeFd (l : List ℕ) (s : Publisher) :
    (l.foldl closeFd s).managers = s.managers ∧ (l.foldl closeFd s).dispatchers = s.dispatchers ∧
      (l.foldl closeFd s).nextManager = s.nextManager ∧
      (l.foldl closeFd s).nextDispatcher = s.nextDispatcher ∧
      (l.foldl closeFd s).cached = s.cached := by
  induction l generalizing s with
  | nil => exact ⟨rfl, rfl, rfl, rfl, rfl⟩
  | cons n l ih => simpa using ih (s.closeFd n)

end Publisher

/-- The manager has given up its share. -/
def Call.left : Call → Bool
  | .stop | .join | .clear => true
  | _ => false

def CudaVmmIPCManager.leaving (mg : CudaVmmIPCManager) : Bool := mg.call.any Call.left

/-- A dispatcher is shared by the managers that use it, and is stopped by the last. -/
structure Shared (s : Publisher) : Prop where
  manager : ∀ m, s.nextManager ≤ m → s.managers m = none
  dispatcher : ∀ k, s.nextDispatcher ≤ k → s.dispatchers k = none
  attached : ∀ m mg, s.managers m = some mg → ∃ D, s.dispatchers mg.dispatcher = some D ∧
    (mg.leaving = true → D.owners = []) ∧ (mg.leaving = false → m ∈ D.owners)
  current : ∀ k, s.cached = some k → ∃ D, s.dispatchers k = some D ∧ D.owners ≠ []

section Shared

lemma Shared.manager_lt (h : Shared s) (hm : s.managers m = some mg) : m < s.nextManager := by
  by_contra hlt
  exact absurd ((h.manager m (not_lt.mp hlt)).symm.trans hm) nofun

lemma Shared.dispatcher_lt (h : Shared s) (hD : s.dispatchers k = some D) :
    k < s.nextDispatcher := by
  by_contra hlt
  exact absurd ((h.dispatcher k (not_lt.mp hlt)).symm.trans hD) nofun

lemma Shared.loop (h : Shared s) (hD : s.dispatchers k = some D)
    (hv : u.dispatchers = Function.update s.dispatchers k (some F)) (ho : F.owners = D.owners)
    (hu : u.managers = s.managers)
    (hn : u.nextManager = s.nextManager ∧ u.nextDispatcher = s.nextDispatcher ∧
      u.cached = s.cached) : Shared u := by
  have hlift : ∀ {j : ℕ} {E : FDDispatcher}, s.dispatchers j = some E →
      ∃ E', u.dispatchers j = some E' ∧ E'.owners = E.owners := by
    intro j E hE
    rw [hv]
    by_cases hj : j = k
    · subst hj
      obtain rfl := Option.some.inj (hD.symm.trans hE)
      exact ⟨F, by simp, ho⟩
    · exact ⟨E, by simpa [hj] using hE, rfl⟩
  obtain ⟨hn, hk, hc⟩ := hn
  refine ⟨hn ▸ hu ▸ h.manager, ?_, ?_, ?_⟩
  · intro j hle
    rw [hk] at hle
    have hne : j ≠ k := ((h.dispatcher_lt hD).trans_le hle).ne'
    rw [hv, Function.update_of_ne hne]
    exact h.dispatcher j hle
  · intro m mg hm
    rw [hu] at hm
    obtain ⟨E, hE, hleaving⟩ := h.attached m mg hm
    obtain ⟨E', hE', howners⟩ := hlift hE
    exact ⟨E', hE', howners ▸ hleaving⟩
  · intro j hj
    rw [hc] at hj
    obtain ⟨E, hE, hne⟩ := h.current j hj
    obtain ⟨E', hE', howners⟩ := hlift hE
    exact ⟨E', hE', howners ▸ hne⟩

lemma Shared.frame (h : Shared s) (hv : u.dispatchers = s.dispatchers)
    (hu : u.managers = s.managers)
    (hn : u.nextManager = s.nextManager ∧ u.nextDispatcher = s.nextDispatcher ∧
      u.cached = s.cached) : Shared u := by
  obtain ⟨hn, hk, hc⟩ := hn
  exact ⟨hn ▸ hu ▸ h.manager, hk ▸ hv ▸ h.dispatcher, hu ▸ hv ▸ h.attached, hc ▸ hv ▸ h.current⟩

lemma Shared.setManager (h : Shared s) (hm : s.managers m = some mg) {x : Option CudaVmmIPCManager}
    (hx : ∀ mg', x = some mg' → mg'.dispatcher = mg.dispatcher ∧ mg'.leaving = mg.leaving)
    (hv : u.dispatchers = s.dispatchers) (hu : u.managers = Function.update s.managers m x)
    (hn : u.nextManager = s.nextManager ∧ u.nextDispatcher = s.nextDispatcher ∧
      u.cached = s.cached) : Shared u := by
  obtain ⟨hn, hk, hc⟩ := hn
  refine ⟨?_, hk ▸ hv ▸ h.dispatcher, ?_, hc ▸ hv ▸ h.current⟩
  · intro i hle
    rw [hn] at hle
    have hne : i ≠ m := ((h.manager_lt hm).trans_le hle).ne'
    rw [hu, Function.update_of_ne hne]
    exact h.manager i hle
  · intro i mi hi
    rw [hu] at hi
    rw [hv]
    rcases update_some hi with ⟨rfl, he⟩ | ⟨_, hold⟩
    · obtain ⟨hd, hl⟩ := hx mi he
      rw [hd, hl]
      exact h.attached i mg hm
    · exact h.attached i mi hold

lemma Shared.goto (h : Shared s) (hm : s.managers m = some mg) {c : Call} (hl : c.left = mg.leaving)
    (hu : u.managers = s.managers) (hv : u.dispatchers = s.dispatchers)
    (hn : u.nextManager = s.nextManager ∧ u.nextDispatcher = s.nextDispatcher ∧
      u.cached = s.cached) : Shared (u.goto m mg c) := by
  apply h.setManager (x := some { mg with call := some c }) hm
  · intro mg' he
    obtain rfl := Option.some.inj he
    exact ⟨rfl, hl⟩
  · exact hv
  · exact congrArg (fun g => Function.update g m _) hu
  · exact hn

lemma Shared.redirect (h : Shared s) (hm : s.managers m = some mg)
    (hD : s.dispatchers mg.dispatcher = some D) {c : Call} (hl : c.left = mg.leaving)
    (ho : F.owners = D.owners) : Shared ((s.setDispatcher mg.dispatcher F).goto m mg c) := by
  have hset : Shared (s.setDispatcher mg.dispatcher F) := h.loop hD rfl ho rfl ⟨rfl, rfl, rfl⟩
  exact hset.goto hm hl rfl rfl ⟨rfl, rfl, rfl⟩

lemma Shared.release (h : Shared s) (hm : s.managers m = some mg) (hmg : mg.leaving = false)
    (hD : s.dispatchers mg.dispatcher = some D) :
    (D.owners.erase m ≠ [] → Shared ((s.setDispatcher mg.dispatcher
      { D with owners := D.owners.erase m }).setManager m none)) ∧
    (D.owners.erase m = [] → Shared { (s.setDispatcher mg.dispatcher
      { D with owners := D.owners.erase m }).goto m mg .stop with
        cached := if s.cached = some mg.dispatcher then none else s.cached }) := by
  obtain ⟨E, hE, -, hmem⟩ := h.attached m mg hm
  obtain rfl := Option.some.inj (hD.symm.trans hE)
  have hmem := hmem hmg
  -- the others that use the dispatcher still have their shares
  have hother : ∀ i mi, i ≠ m → s.managers i = some mi →
      ∃ E, Function.update s.dispatchers mg.dispatcher
        (some { D with owners := D.owners.erase m }) mi.dispatcher = some E ∧
        (mi.leaving = true → E.owners = []) ∧ (mi.leaving = false → i ∈ E.owners) := by
    intro i mi hne hi
    obtain ⟨E, hE, hleft, hmi⟩ := h.attached i mi hi
    by_cases hk : mi.dispatcher = mg.dispatcher
    · rw [hk] at hE
      obtain rfl := Option.some.inj (hD.symm.trans hE)
      refine ⟨_, by rw [hk, Function.update_self], ?_, ?_⟩
      · intro hl
        have hnil := hleft hl
        rw [hnil] at hmem
        exact absurd hmem List.not_mem_nil
      · exact fun hl => (List.mem_erase_of_ne hne).mpr (hmi hl)
    · exact ⟨E, by rwa [Function.update_of_ne hk], hleft, hmi⟩
  have hfresh : ∀ j, s.nextDispatcher ≤ j → Function.update s.dispatchers mg.dispatcher
      (some { D with owners := D.owners.erase m }) j = none := by
    intro j hle
    have hne : j ≠ mg.dispatcher := ((h.dispatcher_lt hD).trans_le hle).ne'
    rw [Function.update_of_ne hne]
    exact h.dispatcher j hle
  have hmanager : ∀ (x : Option CudaVmmIPCManager) i, s.nextManager ≤ i →
      Function.update s.managers m x i = none := by
    intro x i hle
    have hne : i ≠ m := ((h.manager_lt hm).trans_le hle).ne'
    rw [Function.update_of_ne hne]
    exact h.manager i hle
  have hcurrent : ∀ j, s.cached = some j → (j = mg.dispatcher → D.owners.erase m ≠ []) →
      ∃ E, Function.update s.dispatchers mg.dispatcher
        (some { D with owners := D.owners.erase m }) j = some E ∧ E.owners ≠ [] := by
    intro j hj hne
    by_cases hk : j = mg.dispatcher
    · exact ⟨_, by rw [hk, Function.update_self], hne hk⟩
    · rw [Function.update_of_ne hk]
      exact h.current j hj
  constructor
  · intro hne
    refine ⟨hmanager _, hfresh, ?_, fun j hj => hcurrent j hj fun _ => hne⟩
    intro i mi hi
    rcases update_some hi with ⟨_, he⟩ | ⟨him, hold⟩
    · exact nomatch he
    · exact hother i mi him hold
  · intro hnil
    refine ⟨hmanager _, hfresh, ?_, ?_⟩
    · intro i mi hi
      rcases update_some hi with ⟨rfl, he⟩ | ⟨him, hold⟩
      · obtain rfl := Option.some.inj he
        exact ⟨_, Function.update_self .., fun _ => hnil,
          fun hl => absurd hl (by simp [CudaVmmIPCManager.leaving, Call.left])⟩
      · exact hother i mi him hold
    · intro j hj
      have hj : (if s.cached = some mg.dispatcher then none else s.cached) = some j := hj
      split_ifs at hj with hc
      refine hcurrent j hj ?_
      rintro rfl
      exact absurd hj hc

lemma calls_shared (h : Shared s) (hm : s.managers m = some mg) (hc : mg.call = some c)
    (hD : s.dispatchers mg.dispatcher = some D) (hs : Calls s m mg D result c o u) :
    Shared u := by
  have hleaving : mg.leaving = c.left := by simp [CudaVmmIPCManager.leaving, hc]
  have hsame : s.nextManager = s.nextManager ∧ s.nextDispatcher = s.nextDispatcher ∧
      s.cached = s.cached := ⟨rfl, rfl, rfl⟩
  have hgone : Shared (s.setManager m none) :=
    h.setManager (x := none) hm (fun _ he => nomatch he) rfl rfl hsame
  cases hs with
  | unopened | abandoned =>
    refine h.setManager (x := some { mg with call := none }) hm ?_
      (by simp [finish, Publisher.setManager])
      (by simp [finish, Publisher.setManager]) (by simp [finish, Publisher.setManager])
    intro mg' he
    obtain rfl := Option.some.inj he
    exact ⟨rfl, hleaving.symm⟩
  | opened _ => exact h.goto hm hleaving.symm rfl rfl hsame
  | refused hc' =>
    refine h.goto hm ?_ rfl rfl hsame
    rcases hc' with rfl | rfl <;> exact hleaving.symm
  | bound => exact h.goto hm hleaving.symm rfl rfl hsame
  | listening => exact h.goto hm hleaving.symm rfl rfl hsame
  | unduplicated => exact h.goto hm hleaving.symm rfl rfl hsame
  | duplicated _ _ => exact h.goto hm hleaving.symm rfl rfl hsame
  | inserted | erased | unwatched => exact h.redirect hm hD hleaving.symm rfl
  | added _ => exact h.redirect hm hD hleaving.symm rfl
  | unadded => exact h.goto hm hleaving.symm rfl rfl hsame
  | closedDup | closedUnserved | closedServer | closedServed =>
    exact h.goto hm hleaving.symm (by simp) (by simp) (by simp)
  | recorded =>
    refine h.setManager hm ?_ rfl rfl hsame
    intro mg' he
    obtain rfl := Option.some.inj he
    exact ⟨rfl, hleaving.symm⟩
  | released _ hne => exact (h.release hm hleaving hD).1 hne
  | expired _ hnil => exact (h.release hm hleaving hD).2 hnil
  | stopping _ => exact h.redirect hm hD hleaving.symm rfl
  | unstarted _ => exact hgone
  | joined _ => exact h.goto hm hleaving.symm rfl rfl hsame
  | cleared =>
    have hset : Shared (s.setDispatcher mg.dispatcher { D with socketToFd := ∅, epoll := false }) :=
      h.loop hD rfl rfl rfl hsame
    obtain ⟨hmanagers, hdispatchers, hnext⟩ := foldl_closeFd D.socketToFd.keys
      (s.setDispatcher mg.dispatcher { D with socketToFd := ∅, epoll := false })
    refine hset.setManager (x := none) hm (fun _ he => nomatch he) hdispatchers ?_ hnext
    simp [Publisher.setManager, hmanagers]

lemma dispatches_shared {l : Loop} (h : Shared s) (hD : s.dispatchers k = some D)
    (hs : Dispatches s k D result l o u) : Shared u := by
  cases hs with
  | handled => exact h.loop hD rfl rfl rfl ⟨rfl, rfl, rfl⟩
  | missed _ => exact h.loop hD rfl rfl rfl ⟨rfl, rfl, rfl⟩
  | found _ => exact h.loop hD rfl rfl rfl ⟨rfl, rfl, rfl⟩
  | unaccepted => exact h.loop hD rfl rfl rfl ⟨rfl, rfl, rfl⟩
  | accepted _ _ _ => exact h.loop hD rfl rfl rfl ⟨rfl, rfl, rfl⟩
  | sent hsend => cases hsend <;> exact h.loop hD rfl rfl rfl ⟨rfl, rfl, rfl⟩
  | @closed _ client events =>
    refine h.loop (F := { D with loop := .handle events }) hD ?_ rfl ?_ ?_ <;>
      simp [setLoop, Publisher.setDispatcher]

lemma step_shared (h : Shared s) (hs : s.step e = some (o, u)) : Shared u := by
  cases step_cases hs with
  | @shared _ k D hc hD =>
    have hnew : ∀ i mi, s.managers i = some mi → i ≠ s.nextManager :=
      fun i mi hi => (h.manager_lt hi).ne
    obtain ⟨E, hE, hne⟩ := h.current k hc
    obtain rfl := Option.some.inj (hD.symm.trans hE)
    refine ⟨?_, ?_, ?_, ?_⟩
    · intro i hle
      have hlt : s.nextManager < i := hle
      exact (Function.update_of_ne hlt.ne' _ _).trans (h.manager i hlt.le)
    · intro j hle
      have hlt : k < j := (h.dispatcher_lt hD).trans_le hle
      exact (Function.update_of_ne hlt.ne' _ _).trans (h.dispatcher j hle)
    · intro i mi hi
      rcases update_some hi with ⟨rfl, he⟩ | ⟨_, hold⟩
      · obtain rfl := Option.some.inj he
        exact ⟨_, Function.update_self .., nofun, fun _ => List.mem_cons_self⟩
      · obtain ⟨E, hE, hleft, hmem⟩ := h.attached i mi hold
        by_cases hk : mi.dispatcher = k
        · rw [hk] at hE ⊢
          obtain rfl := Option.some.inj (hD.symm.trans hE)
          refine ⟨_, Function.update_self .., ?_, fun hl => List.mem_cons_of_mem _ (hmem hl)⟩
          exact fun hl => absurd (hleft hl) hne
        · exact ⟨E, (Function.update_of_ne hk _ _).trans hE, hleft, hmem⟩
    · intro j hj
      have hj : s.cached = some j := hj
      obtain rfl := Option.some.inj (hc.symm.trans hj)
      exact ⟨_, Function.update_self .., List.cons_ne_nil _ _⟩
  | constructed _ =>
    refine ⟨?_, ?_, ?_, ?_⟩
    · intro i hle
      have hlt : s.nextManager < i := hle
      exact (Function.update_of_ne hlt.ne' _ _).trans (h.manager i hlt.le)
    · intro j hle
      have hlt : s.nextDispatcher < j := hle
      exact (Function.update_of_ne hlt.ne' _ _).trans (h.dispatcher j hlt.le)
    · intro i mi hi
      rcases update_some hi with ⟨rfl, he⟩ | ⟨_, hold⟩
      · obtain rfl := Option.some.inj he
        exact ⟨_, Function.update_self .., nofun, fun _ => List.mem_cons_self⟩
      · obtain ⟨E, hE, hattached⟩ := h.attached i mi hold
        have hne := (h.dispatcher_lt hE).ne
        exact ⟨E, (Function.update_of_ne hne _ _).trans hE, hattached⟩
    · intro j hj
      obtain rfl := Option.some.inj hj
      exact ⟨_, Function.update_self .., List.cons_ne_nil _ _⟩
  | repeated _ _ _ => exact h
  | registering hm hc _ _ =>
    exact h.goto hm (by simp [CudaVmmIPCManager.leaving, hc, Call.left]) rfl rfl ⟨rfl, rfl, rfl⟩
  | called hm hc hD hs => exact calls_shared h hm hc hD hs
  | destroying hm hc =>
    exact h.goto hm (by simp [CudaVmmIPCManager.leaving, hc, Call.left]) rfl rfl ⟨rfl, rfl, rfl⟩
  | @removing m b mg D info hm hc _ hD =>
    have hset : Shared (s.setDispatcher mg.dispatcher
        { D with socketToFd := D.socketToFd.erase info.serverSocket }) :=
      h.loop hD rfl rfl rfl ⟨rfl, rfl, rfl⟩
    refine hset.setManager hm ?_ rfl rfl ⟨rfl, rfl, rfl⟩
    intro mg' he
    obtain rfl := Option.some.inj he
    exact ⟨rfl, by simp [CudaVmmIPCManager.leaving, hc, Call.left]⟩
  | exiting hD _ _ => exact h.loop hD rfl rfl rfl ⟨rfl, rfl, rfl⟩
  | woken hD _ _ _ => exact h.loop hD rfl rfl rfl ⟨rfl, rfl, rfl⟩
  | dispatched hD hs => exact dispatches_shared h hD hs
  | connected _ _ => exact h.frame rfl rfl ⟨rfl, rfl, rfl⟩
  | disconnected _ => exact h.frame rfl rfl ⟨rfl, rfl, rfl⟩
  | exported _ => exact h.frame rfl rfl ⟨rfl, rfl, rfl⟩
  | closedExported _ _ => exact h.frame (by simp) (by simp) (by simp)
  | opened _ => exact h.frame rfl rfl ⟨rfl, rfl, rfl⟩
  | closed _ => exact h.frame (by simp) (by simp) (by simp)

end Shared

def File.manager : File → Option ℕ
  | .exported m _ | .duplicate m _ | .listener m _ => some m
  | .connection _ | .other _ => none

/-- The numbers that the thread uses, with what they refer to. -/
def Call.refs (m : ℕ) : Call → List (ℕ × File)
  | .socket b e => [(e, .exported m b)]
  | .bind b e n | .listen b e n | .dup b e n => [(e, .exported m b), (n, .listener m b)]
  | .abandon b n | .record b n => [(n, .listener m b)]
  | .insert b n d | .epollAdd b n d | .erase b n d | .closeDup b n d =>
      [(n, .listener m b), (d, .duplicate m b)]
  | .epollDel b n d | .closeServer b n d =>
      (n, .listener m b) :: d.toList.map (fun d => (d, .duplicate m b))
  | .closeServed b d => [(d, .duplicate m b)]
  | .removing | .stop | .join | .clear => []

def Call.block : Call → Option ℕ
  | .socket b _ | .bind b _ _ | .listen b _ _ | .abandon b _ | .dup b _ _ | .insert b _ _
  | .epollAdd b _ _ | .erase b _ _ | .closeDup b _ _ | .record b _ | .epollDel b _ _
  | .closeServer b _ _ | .closeServed b _ => some b
  | .removing | .stop | .join | .clear => none

/-- The block and the socket that may be in the map and not in the manager's table. -/
def Call.inserted : Call → Option (ℕ × ℕ)
  | .epollAdd b n _ | .erase b n _ | .record b n => some (b, n)
  | _ => none

lemma Call.refs_manager {x : ℕ × File} (h : x ∈ c.refs m) : x.2.manager = some m := by
  cases c <;> simp only [Call.refs, List.mem_cons, List.mem_map, List.not_mem_nil, or_false] at h
  all_goals first
    | (obtain rfl := h; rfl)
    | (obtain rfl | rfl := h <;> rfl)
    | (obtain rfl | ⟨d, -, rfl⟩ := h <;> rfl)

/-- The manager's table and thread refer to files of its own blocks. -/
structure Manages (fds : ℕ → Option File) (m : ℕ) (mg : CudaVmmIPCManager) : Prop where
  registered : ∀ b info, mg.registeredBlocks.lookup b = some info →
    fds info.serverSocket = some (.listener m b)
  refs : ∀ c, mg.call = some c → ∀ x ∈ c.refs m, fds x.1 = some x.2
  unregistered : ∀ c b, mg.call = some c → c.block = some b → mg.registeredBlocks.lookup b = none
  left : mg.leaving = true → mg.registeredBlocks.entries = []

def CudaVmmIPCManager.Has (mg : CudaVmmIPCManager) (b n : ℕ) : Prop :=
  (∃ info, mg.registeredBlocks.lookup b = some info ∧ info.serverSocket = n) ∨
    ∃ c, mg.call = some c ∧ c.inserted = some (b, n)

structure Owned (s : Publisher) : Prop where
  manages : ∀ m mg, s.managers m = some mg → Manages s.fds m mg
  maps : ∀ k D n d, s.dispatchers k = some D → D.socketToFd.lookup n = some d →
    ∃ m mg b, s.managers m = some mg ∧ mg.dispatcher = k ∧ mg.Has b n ∧
      s.fds d = some (.duplicate m b)

section Owned

lemma Manages.keep {fds fds' : ℕ → Option File} (h : Manages fds m mg)
    (hkeep : ∀ n f, fds n = some f → f.manager = some m → fds' n = some f) :
    Manages fds' m mg :=
  ⟨fun b info hb => hkeep _ _ (h.registered b info hb) rfl,
    fun c hc x hx => hkeep _ _ (h.refs c hc x hx) (Call.refs_manager hx), h.unregistered, h.left⟩

lemma Manages.not_has {fds : ℕ → Option File} (h : Manages fds m mg) (hl : mg.leaving = true) :
    ¬ mg.Has b n := by
  rintro (⟨info, hb, -⟩ | ⟨c, hc, hins⟩)
  · have hempty := h.left hl
    have hmem := AList.lookup_isSome.mp (Option.isSome_of_eq_some hb)
    simp [AList.mem_keys, AList.keys, hempty] at hmem
  · simp only [CudaVmmIPCManager.leaving, hc, Option.any_some] at hl
    cases c <;> simp [Call.left, Call.inserted] at hl hins

lemma Manages.goto {fds : ℕ → Option File} (h : Manages fds m mg) (hc : mg.call = some c)
    {c₁ : Call} (hrefs : ∀ x ∈ c₁.refs m, fds x.1 = some x.2)
    (hblock : ∀ b, c₁.block = some b → c.block = some b) (hleft : c₁.left = false) :
    Manages fds m { mg with call := some c₁ } := by
  refine ⟨h.registered, ?_, ?_, ?_⟩
  · intro c₂ he
    obtain rfl := Option.some.inj he
    exact hrefs
  · intro c₂ b he hb
    obtain rfl := Option.some.inj he
    exact h.unregistered c b hc (hblock b hb)
  · intro hl
    have hl : c₁.left = true := hl
    exact nomatch hleft.symm.trans hl

lemma Owned.change (h : Owned s) (hm : s.managers m = some mg)
    (hD : s.dispatchers mg.dispatcher = some D) {x : Option CudaVmmIPCManager}
    (hu : u.managers = Function.update s.managers m x)
    (hv : u.dispatchers = Function.update s.dispatchers mg.dispatcher (some F))
    (hkeep : ∀ n f, s.fds n = some f → f.manager ≠ some m → u.fds n = some f)
    (hx : ∀ mg', x = some mg' → Manages u.fds m mg')
    (hmaps : ∀ n d, F.socketToFd.lookup n = some d →
      (∃ mg' b, x = some mg' ∧ mg'.dispatcher = mg.dispatcher ∧ mg'.Has b n ∧
        u.fds d = some (.duplicate m b)) ∨
      D.socketToFd.lookup n = some d ∧ ∀ b, mg.Has b n → s.fds d = some (.duplicate m b) →
        ∃ mg', x = some mg' ∧ mg'.dispatcher = mg.dispatcher ∧ mg'.Has b n ∧
          u.fds d = some (.duplicate m b)) : Owned u := by
  have hother : ∀ i mi b n d, i ≠ m → s.managers i = some mi → mi.Has b n →
      s.fds d = some (.duplicate i b) → ∃ i' mi' b', u.managers i' = some mi' ∧
        mi'.dispatcher = mi.dispatcher ∧ mi'.Has b' n ∧ u.fds d = some (.duplicate i' b') := by
    intro i mi b n d hne hi hhas hd
    refine ⟨i, mi, b, by rwa [hu, Function.update_of_ne hne], rfl, hhas, hkeep d _ hd ?_⟩
    exact fun he => hne (Option.some.inj he)
  have hself : ∀ n d, (∃ mg' b, x = some mg' ∧ mg'.dispatcher = mg.dispatcher ∧ mg'.Has b n ∧
      u.fds d = some (.duplicate m b)) → ∃ i' mi' b', u.managers i' = some mi' ∧
        mi'.dispatcher = mg.dispatcher ∧ mi'.Has b' n ∧ u.fds d = some (.duplicate i' b') := by
    rintro n d ⟨mg', b, rfl, hdis, hhas, hd⟩
    exact ⟨m, mg', b, by rw [hu, Function.update_self], hdis, hhas, hd⟩
  constructor
  · intro i mi hi
    rw [hu] at hi
    rcases update_some hi with ⟨rfl, he⟩ | ⟨hne, hold⟩
    · exact hx mi he
    · apply (h.manages i mi hold).keep
      intro n f hn hf
      exact hkeep n f hn (hf ▸ fun he => hne (Option.some.inj he))
  · intro k E n d hE hl
    rw [hv] at hE
    rcases update_some hE with ⟨rfl, he⟩ | ⟨hk, hE⟩
    · obtain rfl := Option.some.inj he
      rcases hmaps n d hl with hnew | ⟨hl, hmove⟩
      · exact hself n d hnew
      · obtain ⟨i, mi, b, hi, hdis, hhas, hd⟩ := h.maps _ D n d hD hl
        by_cases him : i = m
        · subst him
          obtain rfl := Option.some.inj (hm.symm.trans hi)
          obtain ⟨mg', hmg'⟩ := hmove b hhas hd
          exact hself n d ⟨mg', b, hmg'⟩
        · exact hdis ▸ hother i mi b n d him hi hhas hd
    · obtain ⟨i, mi, b, hi, hdis, hhas, hd⟩ := h.maps k E n d hE hl
      have him : i ≠ m := by
        rintro rfl
        obtain rfl := Option.some.inj (hm.symm.trans hi)
        exact hk hdis.symm
      exact hdis ▸ hother i mi b n d him hi hhas hd

lemma opened_keeps {fds : ℕ → Option File} {x : ℕ} {g : File} (hn : fds n = none)
    (hx : fds x = some f) : Function.update fds n (some g) x = some f := by
  have hne : x ≠ n := by
    rintro rfl
    exact nomatch hn.symm.trans hx
  rwa [Function.update_of_ne hne]

lemma closed_keeps {fds : ℕ → Option File} {x : ℕ} {g : File} (hn : fds n = some g)
    (hx : fds x = some f) (hf : f ≠ g) : Function.update fds n none x = some f := by
  have hne : x ≠ n := by
    rintro rfl
    exact hf (Option.some.inj (hx.symm.trans hn))
  rwa [Function.update_of_ne hne]

lemma dispatchers_same (hD : s.dispatchers k = some D) :
    s.dispatchers = Function.update s.dispatchers k (some D) := by
  rw [← hD, Function.update_eq_self]

lemma Owned.frame (h : Owned s) (hu : u.managers = s.managers)
    (hv : ∀ k E, u.dispatchers k = some E →
      ∃ E₀, s.dispatchers k = some E₀ ∧ E.socketToFd = E₀.socketToFd)
    (hkeep : ∀ n f, s.fds n = some f → f.manager.isSome → u.fds n = some f) : Owned u := by
  constructor
  · intro m mg hm
    rw [hu] at hm
    apply (h.manages m mg hm).keep
    intro n f hn hf
    exact hkeep n f hn (hf ▸ rfl)
  · intro k E n d hE hl
    obtain ⟨E₀, hE₀, hmap⟩ := hv k E hE
    rw [hmap] at hl
    obtain ⟨m, mg, b, hm, hdis, hhas, hd⟩ := h.maps k E₀ n d hE₀ hl
    exact ⟨m, mg, b, hu ▸ hm, hdis, hhas, hkeep d _ hd rfl⟩

/-- The thread of a manager goes on; it may close files of its own block. -/
lemma Owned.proceed (h : Owned s) (hm : s.managers m = some mg) (hc : mg.call = some c)
    (hD : s.dispatchers mg.dispatcher = some D) {c' : Option Call}
    (hu : u.managers = Function.update s.managers m (some { mg with call := c' }))
    (hv : u.dispatchers = Function.update s.dispatchers mg.dispatcher (some F))
    (hmap : F.socketToFd = D.socketToFd)
    (hkeep : ∀ n f, s.fds n = some f →
      (∀ b, c.block = some b → f ≠ .listener m b ∧ f ≠ .duplicate m b) → u.fds n = some f)
    (hnext : ∀ c₁, c' = some c₁ → (∀ x ∈ c₁.refs m, u.fds x.1 = some x.2) ∧
      (∀ b, c₁.block = some b → c.block = some b) ∧
      (c₁.left = true → mg.registeredBlocks.entries = []))
    (hins : ∀ b n, c.inserted = some (b, n) → u.fds = s.fds ∧
      ∃ c₁, c' = some c₁ ∧ c₁.inserted = some (b, n)) : Owned u := by
  have hmanages := h.manages m mg hm
  have hunregistered : ∀ b b', c.block = some b → (mg.registeredBlocks.lookup b').isSome →
      b' ≠ b := by
    rintro b _ hb hb' rfl
    simp [hmanages.unregistered c _ hc hb] at hb'
  refine h.change hm hD hu hv ?_ ?_ ?_
  · intro n f hn hf
    refine hkeep n f hn fun b _ => ⟨?_, ?_⟩ <;>
      · rintro rfl
        exact hf rfl
  · intro mg' he
    obtain rfl := Option.some.inj he
    refine ⟨?_, fun c₁ hc₁ => (hnext c₁ hc₁).1, ?_, ?_⟩
    · intro b info hb
      refine hkeep _ _ (hmanages.registered b info hb) fun b' hb' => ⟨?_, nofun⟩
      intro he
      exact hunregistered b' b hb' (Option.isSome_of_eq_some hb) (File.listener.inj he).2
    · intro c₁ b hc₁ hb
      exact hmanages.unregistered c b hc ((hnext c₁ hc₁).2.1 b hb)
    · intro hl
      obtain ⟨c₁, hc₁, hl⟩ := Option.any_eq_true _ _ |>.mp hl
      exact (hnext c₁ hc₁).2.2 hl
  · intro n d hl
    rw [hmap] at hl
    refine .inr ⟨hl, ?_⟩
    rintro b (⟨info, hb, rfl⟩ | ⟨c₀, hc₀, hb⟩) hd
    · refine ⟨_, rfl, rfl, .inl ⟨info, hb, rfl⟩, ?_⟩
      refine hkeep d _ hd fun b' hb' => ⟨nofun, ?_⟩
      intro he
      exact hunregistered b' b hb' (Option.isSome_of_eq_some hb) (File.duplicate.inj he).2
    · obtain rfl := Option.some.inj (hc.symm.trans hc₀)
      obtain ⟨hfds, c₁, hc₁, hb⟩ := hins b n hb
      exact ⟨_, rfl, rfl, .inr ⟨c₁, hc₁, hb⟩, hfds ▸ hd⟩

lemma Owned.goto (h : Owned s) (hm : s.managers m = some mg) (hc : mg.call = some c)
    (hD : s.dispatchers mg.dispatcher = some D) (c₁ : Call)
    (hu : u.managers = Function.update s.managers m (some { mg with call := some c₁ }))
    (hv : u.dispatchers = Function.update s.dispatchers mg.dispatcher (some F))
    (hmap : F.socketToFd = D.socketToFd)
    (hkeep : ∀ n f, s.fds n = some f →
      (∀ b, c.block = some b → f ≠ .listener m b ∧ f ≠ .duplicate m b) → u.fds n = some f)
    (hrefs : ∀ x ∈ c₁.refs m, u.fds x.1 = some x.2)
    (hblock : ∀ b, c₁.block = some b → c.block = some b)
    (hleft : c₁.left = true → mg.registeredBlocks.entries = [])
    (hins : ∀ b n, c.inserted = some (b, n) → u.fds = s.fds ∧ c₁.inserted = some (b, n)) :
    Owned u := by
  refine h.proceed hm hc hD hu hv hmap hkeep ?_ ?_
  · intro c₂ he
    obtain rfl := Option.some.inj he
    exact ⟨hrefs, hblock, hleft⟩
  · exact fun b n hb => ⟨(hins b n hb).1, c₁, rfl, (hins b n hb).2⟩

lemma Owned.finish (h : Owned s) (hm : s.managers m = some mg) (hc : mg.call = some c)
    (hD : s.dispatchers mg.dispatcher = some D)
    (hu : u.managers = Function.update s.managers m (some { mg with call := none }))
    (hv : u.dispatchers = s.dispatchers)
    (hkeep : ∀ n f, s.fds n = some f →
      (∀ b, c.block = some b → f ≠ .listener m b ∧ f ≠ .duplicate m b) → u.fds n = some f)
    (hins : c.inserted = none) : Owned u := by
  refine h.proceed hm hc hD hu (hv.trans (dispatchers_same hD)) rfl hkeep
    (fun c₁ he => nomatch he) ?_
  intro b n hb
  exact nomatch hins.symm.trans hb

lemma not_has_of_empty (hempty : mg.registeredBlocks.entries = [])
    (hc : mg.call = some c) (hins : c.inserted = none) : ¬ mg.Has b n := by
  rintro (⟨info, hb, -⟩ | ⟨c₀, hc₀, hb⟩)
  · have hmem := AList.lookup_isSome.mp (Option.isSome_of_eq_some hb)
    simp [AList.mem_keys, AList.keys, hempty] at hmem
  · obtain rfl := Option.some.inj (hc.symm.trans hc₀)
    exact nomatch hins.symm.trans hb

/-- A manager without sockets is gone. -/
lemma Owned.drop (h : Owned s) (hm : s.managers m = some mg)
    (hD : s.dispatchers mg.dispatcher = some D) (hnot : ∀ b n, ¬ mg.Has b n)
    (hu : u.managers = Function.update s.managers m none)
    (hv : u.dispatchers = Function.update s.dispatchers mg.dispatcher (some F))
    (hmap : ∀ n d, F.socketToFd.lookup n = some d → D.socketToFd.lookup n = some d)
    (hfds : u.fds = s.fds) : Owned u := by
  refine h.change (x := none) hm hD hu hv (fun _ _ hx _ => hfds ▸ hx) nofun ?_
  exact fun n d hl => .inr ⟨hmap n d hl, fun b hhas => absurd hhas (hnot b n)⟩

/-- A dispatcher that its last manager has left has no socket in the map. -/
lemma Owned.map_empty (hs : Shared s) (h : Owned s) (hm : s.managers m = some mg)
    (hl : mg.leaving = true) (hD : s.dispatchers mg.dispatcher = some D) :
    D.socketToFd.keys = [] := by
  obtain ⟨E, hE, hnil, -⟩ := hs.attached m mg hm
  obtain rfl := Option.some.inj (hD.symm.trans hE)
  have hnil := hnil hl
  apply List.eq_nil_iff_forall_not_mem.mpr
  intro n hn
  obtain ⟨d, hd⟩ := Option.isSome_iff_exists.mp (AList.lookup_isSome.mpr (AList.mem_keys.mpr hn))
  obtain ⟨i, mi, b, hi, hdis, hhas, -⟩ := h.maps _ D n d hD hd
  obtain ⟨F, hF, -, hmem⟩ := hs.attached i mi hi
  rw [hdis] at hF
  obtain rfl := Option.some.inj (hD.symm.trans hF)
  cases hli : mi.leaving with
  | true => exact (h.manages i mi hi).not_has hli hhas
  | false =>
    have hmem := hmem hli
    rw [hnil] at hmem
    exact List.not_mem_nil hmem

lemma calls_owned (hsh : Shared s) (h : Owned s) (hm : s.managers m = some mg)
    (hc : mg.call = some c) (hD : s.dispatchers mg.dispatcher = some D)
    (hs : Calls s m mg D result c o u) : Owned u := by
  have hmanages := h.manages m mg hm
  have hrefs := hmanages.refs c hc
  have hsame := dispatchers_same hD
  have hleft : c.left = true → mg.registeredBlocks.entries = [] :=
    fun hl => hmanages.left (by simp [CudaVmmIPCManager.leaving, hc, hl])
  cases hs with
  | unopened => exact h.finish hm hc hD rfl rfl (fun _ _ hn _ => hn) rfl
  | @opened b e n hn =>
    have he := hrefs _ List.mem_cons_self
    refine h.goto hm hc hD (.bind b e n) rfl hsame rfl
      (fun _ _ hx _ => opened_keeps hn hx) ?_ (fun _ hb => hb) nofun nofun
    simp only [Call.refs, List.forall_mem_cons, List.not_mem_nil, false_implies, implies_true,
      and_true]
    exact ⟨opened_keeps hn he, Function.update_self ..⟩
  | @refused _ b e n hc' =>
    refine h.goto hm hc hD (.abandon b n) rfl hsame rfl (fun _ _ hx _ => hx) ?_ ?_ nofun ?_
    · rcases hc' with rfl | rfl <;>
        exact fun x hx => hrefs x (List.mem_cons_of_mem _ hx)
    · rcases hc' with rfl | rfl <;> exact fun _ hb => hb
    · rcases hc' with rfl | rfl <;> exact nofun
  | bound =>
    exact h.goto hm hc hD _ rfl hsame rfl (fun _ _ hx _ => hx) hrefs (fun _ hb => hb) nofun nofun
  | listening =>
    exact h.goto hm hc hD _ rfl hsame rfl (fun _ _ hx _ => hx) hrefs (fun _ hb => hb) nofun nofun
  | @abandoned _ b n =>
    have hn := hrefs _ List.mem_cons_self
    refine h.finish (u := (s.closeFd n).finish m mg) hm hc hD ?_ ?_ ?_ rfl
    · simp [Publisher.finish, Publisher.setManager]
    · simp [Publisher.finish, Publisher.setManager]
    · intro x f hx hf
      have hkeep := closed_keeps hn hx (hf b rfl).1
      simpa [Publisher.finish, Publisher.setManager] using hkeep
  | @unduplicated b e n =>
    refine h.goto hm hc hD (.record b n) rfl hsame rfl (fun _ _ hx _ => hx) ?_
      (fun _ hb => hb) nofun nofun
    exact fun x hx => hrefs x (List.mem_cons_of_mem _ hx)
  | @duplicated b e n d m' b' he hd =>
    obtain ⟨rfl, rfl⟩ :=
      File.exported.inj (Option.some.inj (he.symm.trans (hrefs _ List.mem_cons_self)))
    have hn := hrefs (n, .listener m' b') (List.mem_cons_of_mem _ List.mem_cons_self)
    refine h.goto hm hc hD (.insert b' n d) rfl hsame rfl
      (fun _ _ hx _ => opened_keeps hd hx) ?_ (fun _ hb => hb) nofun nofun
    simp only [Call.refs, List.forall_mem_cons, List.not_mem_nil, false_implies, implies_true,
      and_true]
    exact ⟨opened_keeps hd hn, Function.update_self ..⟩
  | @inserted _ b n d =>
    have hd := hrefs (d, .duplicate m b) (List.mem_cons_of_mem _ List.mem_cons_self)
    refine h.change (x := some { mg with call := some (.epollAdd b n d) }) hm hD rfl rfl
      (fun _ _ hx _ => hx) ?_ ?_
    · intro mg' he
      obtain rfl := Option.some.inj he
      exact hmanages.goto hc hrefs (fun _ hb => hb) rfl
    · intro n' d' hl
      by_cases hn : n' = n
      · subst hn
        rw [AList.lookup_insert] at hl
        obtain rfl := Option.some.inj hl
        exact .inl ⟨_, b, rfl, rfl, .inr ⟨_, rfl, rfl⟩, hd⟩
      · rw [AList.lookup_insert_ne hn] at hl
        refine .inr ⟨hl, ?_⟩
        rintro b' (hb | ⟨c₀, hc₀, hb⟩) hd'
        · exact ⟨_, rfl, rfl, .inl hb, hd'⟩
        · obtain rfl := Option.some.inj (hc.symm.trans hc₀)
          exact nomatch hb
  | unadded =>
    exact h.goto hm hc hD _ rfl hsame rfl (fun _ _ hx _ => hx) hrefs (fun _ hb => hb) nofun
      fun _ _ hb => ⟨rfl, hb⟩
  | @added _ b n d _ =>
    refine h.goto hm hc hD (.record b n) rfl rfl rfl (fun _ _ hx _ => hx) ?_
      (fun _ hb => hb) nofun fun _ _ hb => ⟨rfl, hb⟩
    intro x hx
    obtain rfl := List.mem_singleton.mp hx
    exact hrefs _ List.mem_cons_self
  | @erased _ b n d =>
    refine h.change (x := some { mg with call := some (.closeDup b n d) }) hm hD rfl rfl
      (fun _ _ hx _ => hx) ?_ ?_
    · intro mg' he
      obtain rfl := Option.some.inj he
      exact hmanages.goto hc hrefs (fun _ hb => hb) rfl
    · intro n' d' hl
      by_cases hn : n' = n
      · subst hn
        rw [AList.lookup_erase] at hl
        exact nomatch hl
      · rw [AList.lookup_erase_ne hn] at hl
        refine .inr ⟨hl, ?_⟩
        rintro b' (hb | ⟨c₀, hc₀, hb⟩) hd'
        · exact ⟨_, rfl, rfl, .inl hb, hd'⟩
        · obtain rfl := Option.some.inj (hc.symm.trans hc₀)
          exact absurd (Prod.mk.inj (Option.some.inj hb)).2.symm hn
  | @closedDup _ b n d =>
    have hn := hrefs (n, .listener m b) List.mem_cons_self
    have hd := hrefs (d, .duplicate m b) (List.mem_cons_of_mem _ List.mem_cons_self)
    refine h.goto hm hc hD (.record b n) (by simp [Publisher.goto, Publisher.setManager])
      (by simpa [Publisher.goto, Publisher.setManager] using hsame) rfl ?_ ?_ (fun _ hb => hb)
      nofun nofun
    · intro x f hx hf
      have hkeep := closed_keeps hd hx (hf b rfl).2
      simpa [Publisher.goto, Publisher.setManager] using hkeep
    · intro x hx
      obtain rfl := List.mem_singleton.mp hx
      have hkeep := closed_keeps hd hn nofun
      simpa [Publisher.goto, Publisher.setManager] using hkeep
  | @recorded _ b n =>
    have hn := hrefs (n, .listener m b) List.mem_cons_self
    have hnew := hmanages.unregistered _ b hc rfl
    refine h.change hm hD rfl hsame (fun _ _ hx _ => hx) ?_ ?_
    · intro mg' he
      obtain rfl := Option.some.inj he
      refine ⟨?_, fun _ he => absurd he nofun, fun _ _ he => absurd he nofun, nofun⟩
      intro b' info hb
      by_cases hx : b' = b
      · subst hx
        rw [AList.lookup_insert] at hb
        obtain rfl := Option.some.inj hb
        exact hn
      · rw [AList.lookup_insert_ne hx] at hb
        exact hmanages.registered b' info hb
    · intro n' d' hl
      refine .inr ⟨hl, ?_⟩
      rintro b' (⟨info, hb, rfl⟩ | ⟨c₀, hc₀, hb⟩) hd'
      · have hx : b' ≠ b := by
          rintro rfl
          exact nomatch hnew.symm.trans hb
        exact ⟨_, rfl, rfl, .inl ⟨info, (AList.lookup_insert_ne hx).trans hb, rfl⟩, hd'⟩
      · obtain rfl := Option.some.inj (hc.symm.trans hc₀)
        obtain ⟨rfl, rfl⟩ := Prod.mk.inj (Option.some.inj hb)
        exact ⟨_, rfl, rfl, .inl ⟨_, AList.lookup_insert _, rfl⟩, hd'⟩
  | released hempty _ =>
    exact h.drop hm hD (fun _ _ => not_has_of_empty hempty hc rfl) rfl rfl (fun _ _ hl => hl) rfl
  | expired hempty _ =>
    exact h.goto hm hc hD _ rfl rfl rfl (fun _ _ hx _ => hx) nofun nofun (fun _ => hempty) nofun
  | unwatched =>
    exact h.goto hm hc hD _ rfl rfl rfl (fun _ _ hx _ => hx) hrefs (fun _ hb => hb) nofun nofun
  | @closedUnserved _ b n =>
    have hn := hrefs (n, .listener m b) List.mem_cons_self
    refine h.goto hm hc hD .removing (by simp [Publisher.goto, Publisher.setManager])
      (by simpa [Publisher.goto, Publisher.setManager] using hsame) rfl ?_ nofun nofun nofun nofun
    intro x f hx hf
    have hkeep := closed_keeps hn hx (hf b rfl).1
    simpa [Publisher.goto, Publisher.setManager] using hkeep
  | @closedServer _ b n d =>
    have hn := hrefs (n, .listener m b) List.mem_cons_self
    have hd := hrefs (d, .duplicate m b) (List.mem_cons_of_mem _ List.mem_cons_self)
    refine h.goto hm hc hD (.closeServed b d) (by simp [Publisher.goto, Publisher.setManager])
      (by simpa [Publisher.goto, Publisher.setManager] using hsame) rfl ?_ ?_ (fun _ hb => hb)
      nofun nofun
    · intro x f hx hf
      have hkeep := closed_keeps hn hx (hf b rfl).1
      simpa [Publisher.goto, Publisher.setManager] using hkeep
    · intro x hx
      obtain rfl := List.mem_singleton.mp hx
      have hkeep := closed_keeps hn hd nofun
      simpa [Publisher.goto, Publisher.setManager] using hkeep
  | @closedServed _ b d =>
    have hd := hrefs (d, .duplicate m b) List.mem_cons_self
    refine h.goto hm hc hD .removing (by simp [Publisher.goto, Publisher.setManager])
      (by simpa [Publisher.goto, Publisher.setManager] using hsame) rfl ?_ nofun nofun nofun nofun
    intro x f hx hf
    have hkeep := closed_keeps hd hx (hf b rfl).2
    simpa [Publisher.goto, Publisher.setManager] using hkeep
  | stopping _ =>
    exact h.goto hm hc hD _ rfl rfl rfl (fun _ _ hx _ => hx) nofun nofun (fun _ => hleft rfl) nofun
  | unstarted _ =>
    refine h.drop hm hD ?_ rfl hsame (fun _ _ hl => hl) rfl
    exact fun _ _ => hmanages.not_has (by simp [CudaVmmIPCManager.leaving, hc, Call.left])
  | joined _ =>
    exact h.goto hm hc hD _ rfl hsame rfl (fun _ _ hx _ => hx) nofun nofun
      (fun _ => hleft rfl) nofun
  | cleared =>
    have hl : mg.leaving = true := by simp [CudaVmmIPCManager.leaving, hc, Call.left]
    rw [h.map_empty hsh hm hl hD]
    refine h.drop (F := { D with socketToFd := ∅, epoll := false }) hm hD
      (fun _ _ => hmanages.not_has hl) rfl rfl ?_ rfl
    intro n d hd
    exact nomatch hd

lemma same_maps (hD : s.dispatchers k = some D) (hmap : F.socketToFd = D.socketToFd) (j : ℕ)
    (E : FDDispatcher) (hE : Function.update s.dispatchers k (some F) j = some E) :
    ∃ E₀, s.dispatchers j = some E₀ ∧ E.socketToFd = E₀.socketToFd := by
  rcases update_some hE with ⟨rfl, he⟩ | ⟨_, hold⟩
  · obtain rfl := Option.some.inj he
    exact ⟨D, hD, hmap⟩
  · exact ⟨E, hold, rfl⟩

/-- The thread of a dispatcher closes what it has accepted. -/
def Loop.client : Loop → Option ℕ
  | .send n _ _ | .close n _ => some n
  | _ => none

def loopOf (s : Publisher) (k : ℕ) : Option Loop := (s.dispatchers k).map (fun D => D.loop)

def clientOf (s : Publisher) (k : ℕ) : Option ℕ := (loopOf s k).bind Loop.client

/-- Every connection is in the hands of one dispatcher. -/
structure Handling (s : Publisher) : Prop where
  held : ∀ k n, clientOf s k = some n → ∃ c, s.fds n = some (.connection c)
  unique : ∀ k k' n, clientOf s k = some n → clientOf s k' = some n → k = k'
  handled : ∀ n c, s.fds n = some (.connection c) → ∃ k, clientOf s k = some n

lemma dispatches_owned {l : Loop} (h : Owned s) (hh : Handling s) (hD : s.dispatchers k = some D)
    (hl : D.loop = l) (hs : Dispatches s k D result l o u) : Owned u := by
  have hloop : ∀ {v : Publisher} {l' : Loop}, v.managers = s.managers → v.fds = s.fds →
      v.dispatchers = s.dispatchers → Owned (v.setLoop k D l') := by
    intro v l' hu hf hv
    refine h.frame (u := v.setLoop k D l') hu ?_ (fun _ _ hx _ => hf ▸ hx)
    have hset : (v.setLoop k D l').dispatchers =
        Function.update s.dispatchers k (some { D with loop := l' }) := by rw [← hv]; rfl
    rw [hset]
    exact same_maps hD rfl
  cases hs with
  | handled => exact hloop rfl rfl rfl
  | missed _ => exact hloop rfl rfl rfl
  | found _ => exact hloop rfl rfl rfl
  | unaccepted => exact hloop rfl rfl rfl
  | accepted _ _ hclient =>
    exact h.frame rfl (same_maps hD rfl) fun _ _ hx _ => opened_keeps hclient hx
  | sent hsend => cases hsend <;> exact hloop rfl rfl rfl
  | @closed _ client events =>
    obtain ⟨c, hc⟩ := hh.held k client (by simp [clientOf, loopOf, hD, hl, Loop.client])
    refine h.frame (by simp [setLoop, Publisher.setDispatcher]) ?_ ?_
    · have hset : ((s.closeFd client).setLoop k D (.handle events)).dispatchers =
          Function.update s.dispatchers k (some { D with loop := .handle events }) := by
        simp [setLoop, Publisher.setDispatcher]
      rw [hset]
      exact same_maps hD rfl
    · intro n f hx hf
      have hkeep := closed_keeps hc hx (by rintro rfl; exact nomatch hf)
      simpa [setLoop, Publisher.setDispatcher] using hkeep

lemma Manages.listener {fds : ℕ → Option File} (h : Manages fds m mg) (hhas : mg.Has b n) :
    fds n = some (.listener m b) := by
  rcases hhas with ⟨info, hb, rfl⟩ | ⟨c, hc, hins⟩
  · exact h.registered b info hb
  · have hrefs := h.refs c hc
    cases c <;> simp only [Call.inserted, Option.some.injEq, Prod.mk.injEq, reduceCtorEq] at hins
    all_goals
      obtain ⟨rfl, rfl⟩ := hins
      exact hrefs _ List.mem_cons_self

lemma Owned.join (hsh : Shared s) (h : Owned s)
    (hu : u.managers = Function.update s.managers s.nextManager (some { dispatcher := k }))
    (hv : ∀ j E n d, u.dispatchers j = some E → E.socketToFd.lookup n = some d →
      ∃ E₀, s.dispatchers j = some E₀ ∧ E₀.socketToFd.lookup n = some d)
    (hf : u.fds = s.fds) : Owned u := by
  constructor
  · intro m mg hm
    rw [hu] at hm
    rw [hf]
    rcases update_some hm with ⟨_, he⟩ | ⟨_, hold⟩
    · obtain rfl := Option.some.inj he
      exact ⟨fun _ _ hb => absurd hb nofun, fun _ he => absurd he nofun,
        fun _ _ he => absurd he nofun, nofun⟩
    · exact h.manages m mg hold
  · intro j E n d hE hl
    obtain ⟨E₀, hE₀, hl⟩ := hv j E n d hE hl
    obtain ⟨m, mg, b, hm, hdis, hhas, hd⟩ := h.maps j E₀ n d hE₀ hl
    have hne : m ≠ s.nextManager := (hsh.manager_lt hm).ne
    exact ⟨m, mg, b, by rwa [hu, Function.update_of_ne hne], hdis, hhas, hf ▸ hd⟩

lemma Owned.enter (hsh : Shared s) (h : Owned s) (hm : s.managers m = some mg)
    (hc : mg.call = none) {c : Call} (hrefs : ∀ x ∈ c.refs m, s.fds x.1 = some x.2)
    (hblock : ∀ b, c.block = some b → mg.registeredBlocks.lookup b = none)
    (hleft : c.left = false) : Owned (s.goto m mg c) := by
  obtain ⟨D, hD, -⟩ := hsh.attached m mg hm
  refine h.change hm hD rfl (dispatchers_same hD) (fun _ _ hx _ => hx) ?_ ?_
  · intro mg' he
    obtain rfl := Option.some.inj he
    refine ⟨(h.manages m mg hm).registered, ?_, ?_, ?_⟩
    · intro c₁ he
      obtain rfl := Option.some.inj he
      exact hrefs
    · intro c₁ b he hb
      obtain rfl := Option.some.inj he
      exact hblock b hb
    · intro hl
      have hl : c.left = true := hl
      exact nomatch hleft.symm.trans hl
  · intro n d hl
    refine .inr ⟨hl, ?_⟩
    rintro b (hb | ⟨c₀, hc₀, -⟩) hd
    · exact ⟨_, rfl, rfl, .inl hb, hd⟩
    · exact nomatch hc.symm.trans hc₀

lemma Owned.remove (h : Owned s) {info : RegisteredBlockInfo} (hm : s.managers m = some mg)
    (hc : mg.call = some .removing) (hb : mg.registeredBlocks.lookup b = some info)
    (hD : s.dispatchers mg.dispatcher = some D) :
    Owned ((s.setDispatcher mg.dispatcher
      { D with socketToFd := D.socketToFd.erase info.serverSocket }).setManager m
        (some { mg with
          registeredBlocks := mg.registeredBlocks.erase b
          call := some
            (.epollDel b info.serverSocket (D.socketToFd.lookup info.serverSocket)) })) := by
  have hmanages := h.manages m mg hm
  have hn := hmanages.registered b info hb
  refine h.change hm hD rfl rfl (fun _ _ hx _ => hx) ?_ ?_
  · intro mg' he
    obtain rfl := Option.some.inj he
    refine ⟨?_, ?_, ?_, nofun⟩
    · intro b' info' hb'
      by_cases hx : b' = b
      · subst hx
        rw [AList.lookup_erase] at hb'
        exact nomatch hb'
      · rw [AList.lookup_erase_ne hx] at hb'
        exact hmanages.registered b' info' hb'
    · intro c₁ he
      obtain rfl := Option.some.inj he
      simp only [Call.refs, List.forall_mem_cons, List.mem_map, Option.mem_toList]
      refine ⟨hn, ?_⟩
      rintro _ ⟨d, hd, rfl⟩
      obtain ⟨i, mi, b', hi, -, hhas, hdup⟩ := h.maps _ D _ d hD hd
      have hlistener := (h.manages i mi hi).listener hhas
      obtain ⟨rfl, rfl⟩ := File.listener.inj (Option.some.inj (hn.symm.trans hlistener))
      exact hdup
    · intro c₁ b' he hb'
      obtain rfl := Option.some.inj he
      obtain rfl := Option.some.inj hb'
      exact AList.lookup_erase _ _
  · intro n d hl
    by_cases hx : n = info.serverSocket
    · subst hx
      rw [AList.lookup_erase] at hl
      exact nomatch hl
    · rw [AList.lookup_erase_ne hx] at hl
      refine .inr ⟨hl, ?_⟩
      rintro b' (⟨info', hb', rfl⟩ | ⟨c₀, hc₀, hins⟩) hd
      · have hne : b' ≠ b := by
          rintro rfl
          exact hx (congrArg _ (Option.some.inj (hb'.symm.trans hb)))
        exact ⟨_, rfl, rfl, .inl ⟨info', (AList.lookup_erase_ne hne).trans hb', rfl⟩, hd⟩
      · obtain rfl := Option.some.inj (hc.symm.trans hc₀)
        exact nomatch hins

lemma Owned.closeExported (h : Owned s) (hn : s.fds n = some (.exported m b))
    (hcall : ∀ mg, s.managers m = some mg → mg.call = none) : Owned (s.closeFd n) := by
  constructor
  · intro i mi hi
    rw [closeFd_managers] at hi
    rw [closeFd_fds]
    have hmanages := h.manages i mi hi
    refine ⟨?_, ?_, hmanages.unregistered, hmanages.left⟩
    · exact fun b' info hb' => closed_keeps hn (hmanages.registered b' info hb') nofun
    · intro c hc x hx
      refine closed_keeps hn (hmanages.refs c hc x hx) ?_
      intro he
      have hmi := Call.refs_manager hx
      rw [he] at hmi
      obtain rfl := Option.some.inj hmi
      exact nomatch (hcall mi hi).symm.trans hc
  · intro j E n' d hE hl
    rw [closeFd_dispatchers] at hE
    obtain ⟨i, mi, b', hi, hdis, hhas, hd⟩ := h.maps j E n' d hE hl
    refine ⟨i, mi, b', by simpa using hi, hdis, hhas, ?_⟩
    rw [closeFd_fds]
    exact closed_keeps hn hd nofun

lemma step_owned (hsh : Shared s) (hh : Handling s) (h : Owned s) (hs : s.step e = some (o, u)) :
    Owned u := by
  cases step_cases hs with
  | @shared _ k D _ hD =>
    refine h.join hsh (k := k) rfl ?_ rfl
    intro j E n d hE hl
    rcases update_some hE with ⟨rfl, he⟩ | ⟨_, hold⟩
    · obtain rfl := Option.some.inj he
      exact ⟨D, hD, hl⟩
    · exact ⟨E, hold, hl⟩
  | constructed _ =>
    refine h.join hsh (k := s.nextDispatcher) rfl ?_ rfl
    intro j E n d hE hl
    rcases update_some hE with ⟨rfl, he⟩ | ⟨_, hold⟩
    · obtain rfl := Option.some.inj he
      exact nomatch hl
    · exact ⟨E, hold, hl⟩
  | repeated _ _ _ => exact h
  | registering hm hc hnone he =>
    refine h.enter hsh hm hc ?_ ?_ rfl
    · intro x hx
      obtain rfl := List.mem_singleton.mp hx
      exact he
    · intro b hb
      obtain rfl := Option.some.inj hb
      exact hnone
  | called hm hc hD hs => exact calls_owned hsh h hm hc hD hs
  | destroying hm hc => exact h.enter hsh hm hc nofun nofun rfl
  | removing hm hc hb hD => exact h.remove hm hc hb hD
  | exiting hD _ _ => exact h.frame rfl (same_maps hD rfl) fun _ _ hx _ => hx
  | woken hD _ _ _ => exact h.frame rfl (same_maps hD rfl) fun _ _ hx _ => hx
  | dispatched hD hs => exact dispatches_owned h hh hD rfl hs
  | connected _ _ => exact h.frame rfl (fun _ E hE => ⟨E, hE, rfl⟩) fun _ _ hx _ => hx
  | disconnected _ => exact h.frame rfl (fun _ E hE => ⟨E, hE, rfl⟩) fun _ _ hx _ => hx
  | exported hn =>
    exact h.frame rfl (fun _ E hE => ⟨E, hE, rfl⟩) fun _ _ hx _ => opened_keeps hn hx
  | closedExported hn hcall => exact h.closeExported hn hcall
  | opened hn =>
    exact h.frame rfl (fun _ E hE => ⟨E, hE, rfl⟩) fun _ _ hx _ => opened_keeps hn hx
  | closed hn =>
    refine h.frame (by simp) (by simpa using fun _ E hE => ⟨E, hE, rfl⟩) ?_
    intro n f hx hf
    simpa using closed_keeps hn hx (by rintro rfl; exact nomatch hf)

end Owned

section Handling

lemma loopOf_of (hD : s.dispatchers k = some D) : loopOf s k = some D.loop := by
  simp [loopOf, hD]

lemma loopOf_update (hD : s.dispatchers k = some D)
    (hv : u.dispatchers = Function.update s.dispatchers k (some F)) (hl : F.loop = D.loop) :
    loopOf u = loopOf s := by
  funext j
  by_cases hj : j = k
  · subst hj
    simp [loopOf, hv, hD, hl]
  · simp [loopOf, hv, hj]

lemma loopOf_setLoop {l : Loop} (j : ℕ) :
    loopOf (s.setLoop k D l) j = if j = k then some l else loopOf s j := by
  by_cases hj : j = k
  · subst hj
    simp [loopOf, setLoop, Publisher.setDispatcher]
  · simp [loopOf, setLoop, Publisher.setDispatcher, hj]

lemma clientOf_congr (h : loopOf u = loopOf s) : clientOf u = clientOf s := by
  funext k
  rw [clientOf, clientOf, h]

lemma Handling.frame (h : Handling s) (hc : clientOf u = clientOf s)
    (hf : ∀ n c, u.fds n = some (.connection c) ↔ s.fds n = some (.connection c)) :
    Handling u := by
  refine ⟨?_, hc ▸ h.unique, ?_⟩
  · intro k n hk
    obtain ⟨c, hn⟩ := h.held k n (hc ▸ hk)
    exact ⟨c, (hf n c).mpr hn⟩
  · intro n c hn
    exact hc ▸ h.handled n c ((hf n c).mp hn)

lemma connection_of_opened {fds : ℕ → Option File} {x c : ℕ} (hn : fds n = none)
    (hf : ∀ c, f ≠ .connection c) : Function.update fds n (some f) x = some (.connection c) ↔
      fds x = some (.connection c) := by
  constructor
  · intro hx
    rcases update_some hx with ⟨_, he⟩ | ⟨_, hx⟩
    · exact absurd (Option.some.inj he) (hf c)
    · exact hx
  · exact opened_keeps hn

lemma connection_of_closed {fds : ℕ → Option File} {x c : ℕ} (hn : fds n = some f)
    (hf : ∀ c, f ≠ .connection c) : Function.update fds n none x = some (.connection c) ↔
      fds x = some (.connection c) := by
  constructor
  · intro hx
    rcases update_some hx with ⟨_, he⟩ | ⟨_, hx⟩
    · exact nomatch he
    · exact hx
  · exact fun hx => closed_keeps hn hx (hf c).symm

lemma calls_connections (hsh : Shared s) (h : Owned s) (hm : s.managers m = some mg)
    (hc : mg.call = some c) (hD : s.dispatchers mg.dispatcher = some D)
    (hs : Calls s m mg D result c o u) {x q : ℕ} :
    u.fds x = some (.connection q) ↔ s.fds x = some (.connection q) := by
  have hrefs := (h.manages m mg hm).refs c hc
  have hclose : ∀ {v : Publisher} {n : ℕ} {f : File}, (n, f) ∈ c.refs m →
      v.fds = Function.update s.fds n none →
      (v.fds x = some (.connection q) ↔ s.fds x = some (.connection q)) := by
    intro v n f hn hv
    rw [hv]
    refine connection_of_closed (hrefs _ hn) ?_
    rintro c rfl
    exact nomatch Call.refs_manager hn
  cases hs with
  | opened hn => exact connection_of_opened hn nofun
  | duplicated _ hd => exact connection_of_opened hd nofun
  | abandoned => exact hclose List.mem_cons_self (by simp [finish, Publisher.setManager])
  | closedDup =>
    exact hclose (List.mem_cons_of_mem _ List.mem_cons_self)
      (by simp [Publisher.goto, Publisher.setManager])
  | closedUnserved | closedServer | closedServed =>
    exact hclose List.mem_cons_self (by simp [Publisher.goto, Publisher.setManager])
  | cleared =>
    have hl : mg.leaving = true := by simp [CudaVmmIPCManager.leaving, hc, Call.left]
    rw [h.map_empty hsh hm hl hD]
    exact Iff.rfl
  | _ => exact Iff.rfl

lemma calls_loopOf (hsh : Shared s) (h : Owned s) (hm : s.managers m = some mg)
    (hc : mg.call = some c) (hD : s.dispatchers mg.dispatcher = some D)
    (hs : Calls s m mg D result c o u) : loopOf u = loopOf s := by
  cases hs with
  | inserted | erased | unwatched => exact loopOf_update hD rfl rfl
  | added _ => exact loopOf_update hD rfl rfl
  | released _ _ => exact loopOf_update hD rfl rfl
  | expired _ _ => exact loopOf_update hD rfl rfl
  | stopping _ => exact loopOf_update hD rfl rfl
  | cleared =>
    have hl : mg.leaving = true := by simp [CudaVmmIPCManager.leaving, hc, Call.left]
    rw [h.map_empty hsh hm hl hD]
    exact loopOf_update hD rfl rfl
  | abandoned | closedDup | closedUnserved | closedServer | closedServed =>
    funext j
    simp [loopOf, finish, Publisher.goto, Publisher.setManager]
  | _ => rfl

lemma clientOf_setLoop {l : Loop} (j : ℕ) :
    clientOf (s.setLoop k D l) j = if j = k then l.client else clientOf s j := by
  rw [clientOf, loopOf_setLoop]
  split <;> rfl

/-- The thread goes on with the same client, or with none as before. -/
lemma Handling.setLoop (h : Handling s) {v : Publisher} {l : Loop}
    (hD : s.dispatchers k = some D) (hl : l.client = D.loop.client)
    (hv : v.dispatchers = s.dispatchers) (hf : v.fds = s.fds) : Handling (v.setLoop k D l) := by
  refine h.frame ?_ fun n c => by rw [← hf]; rfl
  funext j
  rw [clientOf_setLoop, hl]
  by_cases hj : j = k
  · subst hj
    simp [clientOf, loopOf_of hD]
  · simp [clientOf, loopOf, hj, hv]

lemma dispatches_handling {l : Loop} (h : Handling s) (hD : s.dispatchers k = some D)
    (hl : D.loop = l) (hs : Dispatches s k D result l o u) : Handling u := by
  have hclient : clientOf s k = l.client := by simp [clientOf, loopOf, hD, hl]
  cases hs with
  | handled => exact h.setLoop hD (by rw [hl]; rfl) rfl rfl
  | missed _ => exact h.setLoop hD (by rw [hl]; rfl) rfl rfl
  | found _ => exact h.setLoop hD (by rw [hl]; rfl) rfl rfl
  | unaccepted => exact h.setLoop hD (by rw [hl]; rfl) rfl rfl
  | @accepted n d client m b c events queue _ _ hfree =>
    have hother : ∀ j, clientOf s j ≠ some client := by
      intro j hj
      obtain ⟨c', hc'⟩ := h.held j client hj
      exact nomatch hfree.symm.trans hc'
    have hof : ∀ j, clientOf (({ s with
        pending := Function.update s.pending (m, b) (some queue) }.openFd client
          (.connection c)).setLoop k D (.send client d events)) j =
        if j = k then some client else clientOf s j := fun j => clientOf_setLoop j
    refine ⟨?_, ?_, ?_⟩
    · intro j n' hj
      rw [hof] at hj
      split_ifs at hj with hjk
      · obtain rfl := Option.some.inj hj
        exact ⟨c, Function.update_self ..⟩
      · obtain ⟨c', hc'⟩ := h.held j n' hj
        exact ⟨c', opened_keeps hfree hc'⟩
    · intro j j' n' hj hj'
      rw [hof] at hj hj'
      split_ifs at hj hj' with hjk hjk' hjk'
      · exact hjk.trans hjk'.symm
      · obtain rfl := Option.some.inj hj
        exact absurd hj' (hother j')
      · obtain rfl := Option.some.inj hj'
        exact absurd hj (hother j)
      · exact h.unique j j' n' hj hj'
    · intro n' c' hn'
      rcases update_some hn' with ⟨rfl, _⟩ | ⟨_, hold⟩
      · exact ⟨k, by rw [hof, if_pos rfl]⟩
      · obtain ⟨j, hj⟩ := h.handled n' c' hold
        refine ⟨j, ?_⟩
        rw [hof, if_neg]
        · exact hj
        · rintro rfl
          exact nomatch hclient.symm.trans hj
  | sent hsend =>
    cases hsend <;> exact h.setLoop hD (by rw [hl]; rfl) rfl rfl
  | @closed _ client events =>
    have hof : ∀ j, clientOf ((s.closeFd client).setLoop k D (.handle events)) j =
        if j = k then none else clientOf s j := by
      intro j
      rw [clientOf_setLoop]
      simp [Loop.client, clientOf, loopOf]
    have hfds : ((s.closeFd client).setLoop k D (.handle events)).fds =
        Function.update s.fds client none := by
      simp [Publisher.setLoop, Publisher.setDispatcher]
    refine ⟨?_, ?_, ?_⟩
    · intro j n' hj
      rw [hof] at hj
      split_ifs at hj with hjk
      obtain ⟨c', hc'⟩ := h.held j n' hj
      have hne : n' ≠ client := by
        rintro rfl
        exact hjk (h.unique j k n' hj hclient)
      exact ⟨c', by rwa [hfds, Function.update_of_ne hne]⟩
    · intro j j' n' hj hj'
      rw [hof] at hj hj'
      split_ifs at hj hj'
      exact h.unique j j' n' hj hj'
    · intro n' c' hn'
      rw [hfds] at hn'
      rcases update_some hn' with ⟨_, he⟩ | ⟨hne, hold⟩
      · exact nomatch he
      · obtain ⟨j, hj⟩ := h.handled n' c' hold
        refine ⟨j, ?_⟩
        rw [hof, if_neg]
        · exact hj
        · rintro rfl
          exact hne (Option.some.inj (hj.symm.trans hclient))

lemma step_handling (hsh : Shared s) (hown : Owned s) (h : Handling s)
    (hs : s.step e = some (o, u)) : Handling u := by
  cases step_cases hs with
  | shared _ hD => exact h.frame (clientOf_congr (loopOf_update hD rfl rfl)) fun _ _ => Iff.rfl
  | @constructed ok _ =>
    refine h.frame ?_ fun _ _ => Iff.rfl
    have hnone : clientOf s s.nextDispatcher = none := by
      simp [clientOf, loopOf, hsh.dispatcher _ le_rfl]
    funext j
    by_cases hj : j = s.nextDispatcher
    · subst hj
      rw [hnone]
      cases ok <;> simp [clientOf, loopOf, Publisher.setManager, Publisher.setDispatcher,
        Loop.client]
    · simp [clientOf, loopOf, Publisher.setManager, Publisher.setDispatcher, hj]
  | repeated _ _ _ => exact h
  | registering _ _ _ _ => exact h.frame rfl fun _ _ => Iff.rfl
  | called hm hc hD hs =>
    exact h.frame (clientOf_congr (calls_loopOf hsh hown hm hc hD hs))
      fun _ _ => calls_connections hsh hown hm hc hD hs
  | destroying _ _ => exact h.frame rfl fun _ _ => Iff.rfl
  | removing _ _ _ hD =>
    exact h.frame (clientOf_congr (loopOf_update hD rfl rfl)) fun _ _ => Iff.rfl
  | exiting hD hl _ => exact h.setLoop hD (by rw [hl]; rfl) rfl rfl
  | woken hD hl _ _ => exact h.setLoop hD (by rw [hl]; rfl) rfl rfl
  | dispatched hD hs => exact dispatches_handling h hD rfl hs
  | connected _ _ => exact h.frame rfl fun _ _ => Iff.rfl
  | disconnected _ => exact h.frame rfl fun _ _ => Iff.rfl
  | exported hn => exact h.frame rfl fun _ _ => connection_of_opened hn nofun
  | closedExported hn _ =>
    refine h.frame (by funext j; simp [clientOf, loopOf]) fun x c => ?_
    rw [closeFd_fds]
    exact connection_of_closed hn nofun
  | opened hn => exact h.frame rfl fun _ _ => connection_of_opened hn nofun
  | closed hn =>
    refine h.frame (by funext j; simp [clientOf, loopOf]) fun x c => ?_
    rw [closeFd_fds]
    exact connection_of_closed hn nofun

end Handling

structure Sound (s : Publisher) : Prop where
  shared : Shared s
  owned : Owned s
  handling : Handling s

lemma step_sound (h : Sound s) (hs : s.step e = some (o, u)) : Sound u :=
  ⟨step_shared h.shared hs, step_owned h.shared h.handling h.owned hs,
    step_handling h.shared h.owned h.handling hs⟩

lemma sound_init (pid : ℕ) : Sound { pid := pid } where
  shared := ⟨fun _ _ => rfl, fun _ _ => rfl, fun _ _ h => absurd h nofun, fun _ h => absurd h nofun⟩
  owned := ⟨fun _ _ h => absurd h nofun, fun _ _ _ _ h => absurd h nofun⟩
  handling := ⟨fun _ _ h => absurd h nofun, fun _ _ _ h => absurd h nofun,
    fun _ _ h => absurd h nofun⟩

end RosidlBufferBackends.Dispatcher
