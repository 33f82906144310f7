import RosidlBufferBackends.Lib.Ledger
import RosidlBufferBackends.Plugin.Publishing

/-! `HostEndpointManager::get_instance`, with what its constructor acquires and gives back when a
call fails. -/

namespace RosidlBufferBackends.Plugin.AttachResources

open Registry Publishing

inductive Resource
  | segmentFd (fd : ℕ)
  | mapping (ptr : ℕ)
  | semaphore (sem : ℕ)
  deriving DecidableEq, Repr

/-- `fd` and `ptr` are the results of `shm_open` and `mmap`. -/
structure ConstructEnv extends AttachEnv where
  hostname : String
  fd : ℕ
  ptr : ℕ

structure Instance where
  domainId : ℕ
  hostname : String
  shmName : String
  shmFd : ℕ
  shmPtr : ℕ
  manager : HostEndpointManager

/-- `log` is what the process has acquired and released so far. -/
structure Process where
  pid : ℕ
  nextId : ℕ := 1
  instances : List (ℕ × Instance) := []
  registries : String → EndpointRegistry := fun _ => {}
  log : List (Action Resource) := []

/-- A `char` is signed. -/
def hashString (str : String) : ℕ :=
  str.toUTF8.toList.foldl
    (fun hash c =>
      (hash * 31 + if c.toNat < 128 then c.toNat else 2 ^ 32 - 256 + c.toNat) % 2 ^ 32) 0

def shmName (domainId : ℕ) (hostname : String) : String :=
  "/ros2_hem_d" ++ domainId.repr ++ "_h" ++ (hashString hostname).repr

/-- The destructor does not run when the constructor throws. -/
def construct (domainId : ℕ) (env : ConstructEnv) :
    List (Action Resource) × Except Exception Instance :=
  if env.gethostname = false then ([], .error (.runtimeError "Failed to get hostname"))
  else
    match env.shmOpen with
    | none => ([], .error (.runtimeError ("Failed to open shared memory: " ++ env.strerror)))
    | some seg =>
      if env.ftruncate = false then
        ([.acquire (.segmentFd env.fd), .release (.segmentFd env.fd)],
          .error (.runtimeError ("Failed to resize shared memory: " ++ env.strerror)))
      else if env.mmap = false then
        ([.acquire (.segmentFd env.fd), .release (.segmentFd env.fd)],
          .error (.runtimeError ("Failed to map shared memory: " ++ env.strerror)))
      else
        match env.semOpen with
        | none =>
          ([.acquire (.segmentFd env.fd), .acquire (.mapping env.ptr),
              .release (.mapping env.ptr), .release (.segmentFd env.fd)],
            .error (.runtimeError ("Failed to open mutex: " ++ env.strerror)))
        | some sem =>
          let log : List (Action Resource) :=
            [.acquire (.segmentFd env.fd), .acquire (.mapping env.ptr), .acquire (.semaphore sem)]
          if env.semTimedwait = false then
            (log, .error (.runtimeError
              "Failed to acquire shared memory mutex during initialization"))
          else
            (log, .ok
              { domainId := domainId
                hostname := env.hostname
                shmName := shmName domainId env.hostname
                shmFd := env.fd
                shmPtr := env.ptr
                manager := { identity := env.identity, seg := seg, sem := sem } })

namespace Process

/-- The number of the instance is drawn before anything can fail. -/
def identify (s : Process) (env : ConstructEnv) : ConstructEnv :=
  { env with
    identity := { env.identity with
      pid := s.pid
      instanceId := makeInstanceId s.pid s.nextId } }

def getInstance (s : Process) (domainId : ℕ) (env : ConstructEnv) :
    Process × Except Exception Instance :=
  match s.instances.lookup domainId with
  | some m => (s, .ok m)
  | none =>
    let drawn := { s with nextId := (s.nextId + 1) % 2 ^ 64 }
    match construct domainId (s.identify env) with
    | (log, .error e) => ({ drawn with log := s.log ++ log }, .error e)
    | (log, .ok m) =>
      ({ drawn with
          log := s.log ++ log
          instances := (domainId, m) :: s.instances
          registries := Function.update s.registries m.shmName
            ((s.registries m.shmName).attach env.alive) }, .ok m)

/-- The process after a sequence of calls of `get_instance`. -/
def afterCalls (pid : ℕ) (calls : List (ℕ × ConstructEnv)) : Process :=
  calls.foldl (fun s c => (s.getInstance c.1 c.2).1) { pid := pid }

end Process

def Instance.resources (m : Instance) : List Resource :=
  [.segmentFd m.shmFd, .mapping m.shmPtr, .semaphore m.manager.sem]

def Process.owned (s : Process) : List Resource := s.instances.flatMap fun x => x.2.resources

/-- What the process holds is one descriptor, one mapping and one semaphore for each instance. -/
def Balanced (s : Process) : Prop :=
  ∃ held, Ledger.holds [] s.log = some held ∧ held.Perm s.owned

/-- Every call before the wait for the semaphore succeeds. -/
structure ConstructEnv.Acquires (env : ConstructEnv) : Prop where
  gethostname : env.gethostname = true
  shmOpen : env.shmOpen.isSome
  ftruncate : env.ftruncate = true
  mmap : env.mmap = true
  semOpen : env.semOpen.isSome

/-- The domain has no instance yet, and only the wait for the semaphore fails. -/
structure TimesOut (s : Process) (domainId : ℕ) (env : ConstructEnv) : Prop where
  absent : s.instances.lookup domainId = none
  acquires : env.Acquires
  semTimedwait : env.semTimedwait = false

variable {s : Process} {domainId pid : ℕ} {env : ConstructEnv} {held leaked : List Resource}
  {calls : List (ℕ × ConstructEnv)} {c : ℕ × ConstructEnv}

section Constructor

/-- A constructor that does not get to the wait gives everything back. -/
lemma construct_cases (domainId : ℕ) (env : ConstructEnv) :
    (¬ env.Acquires ∧ ∃ e, (construct domainId env).2 = .error e ∧
      ∀ held, Ledger.holds held (construct domainId env).1 = some held) ∨
    (env.Acquires ∧ env.semTimedwait = false ∧ ∃ e resources,
      construct domainId env = (resources.map .acquire, .error e) ∧ resources ≠ []) ∨
    (env.Acquires ∧ env.semTimedwait = true ∧ ∃ m,
      construct domainId env = (m.resources.map .acquire, .ok m)) := by
  rw [construct]
  cases hhost : env.gethostname with
  | false => exact .inl ⟨(fun h => by cases hhost.symm.trans h.gethostname), _, rfl, fun _ => rfl⟩
  | true =>
  rw [if_neg (fun h => by cases h)]
  cases hshm : env.shmOpen with
  | none =>
    refine .inl ⟨fun h => ?_, _, rfl, fun _ => rfl⟩
    cases hshm ▸ h.shmOpen
  | some seg =>
  cases htruncate : env.ftruncate with
  | false =>
    refine .inl ⟨(fun h => by cases htruncate.symm.trans h.ftruncate), _, rfl, fun held => ?_⟩
    simp [Ledger.holds]
  | true =>
  cases hmmap : env.mmap with
  | false =>
    refine .inl ⟨(fun h => by cases hmmap.symm.trans h.mmap), _, rfl, fun held => ?_⟩
    simp [Ledger.holds]
  | true =>
  cases hsem : env.semOpen with
  | none =>
    refine .inl ⟨fun h => ?_, _, rfl, fun held => ?_⟩
    · cases hsem ▸ h.semOpen
    · simp [Ledger.holds]
  | some sem =>
  have hacquires : env.Acquires := by
    refine ⟨hhost, ?_, htruncate, hmmap, ?_⟩
    · rw [hshm]
      rfl
    · rw [hsem]
      rfl
  cases hwait : env.semTimedwait with
  | false =>
    exact .inr (.inl ⟨hacquires, rfl, _,
      [.segmentFd env.fd, .mapping env.ptr, .semaphore sem], rfl, (fun h => by cases h)⟩)
  | true =>
    let m : Instance :=
      { domainId := domainId
        hostname := env.hostname
        shmName := shmName domainId env.hostname
        shmFd := env.fd
        shmPtr := env.ptr
        manager := { identity := env.identity, seg := seg, sem := sem } }
    exact .inr (.inr ⟨hacquires, rfl, m, rfl⟩)

/-- Apart from its resources it is the constructor of the publishing model. -/
lemma construct_manager (domainId : ℕ) (env : ConstructEnv) :
    (construct domainId env).2.map Instance.manager =
      Publisher.constructManager env.toAttachEnv := by
  rw [construct, Publisher.constructManager]
  cases hhost : env.gethostname with
  | false => rfl
  | true =>
  cases hshm : env.shmOpen with
  | none => rfl
  | some seg =>
  cases htruncate : env.ftruncate with
  | false => rfl
  | true =>
  cases hmmap : env.mmap with
  | false => rfl
  | true =>
  cases hsem : env.semOpen with
  | none => rfl
  | some sem => cases hwait : env.semTimedwait <;> rfl

end Constructor

section Calls

/-- Next to what the instances own, the process holds what waits that failed have leaked. -/
def Retains (s : Process) (leaked : List Resource) : Prop :=
  ∃ held, Ledger.holds [] s.log = some held ∧ held.Perm (s.owned ++ leaked)

lemma balanced_iff_of_retains (h : Retains s leaked) : Balanced s ↔ leaked = [] := by
  obtain ⟨held, hheld, hperm⟩ := h
  constructor
  · rintro ⟨held', hheld', hperm'⟩
    obtain rfl := Option.some.inj (hheld.symm.trans hheld')
    have hlength := (hperm'.symm.trans hperm).length_eq
    rw [List.length_append] at hlength
    exact List.length_eq_zero_iff.mp (by omega)
  · rintro rfl
    rw [List.append_nil] at hperm
    exact ⟨held, hheld, hperm⟩

lemma getInstance_retains (h : Retains s leaked) (domainId : ℕ) (env : ConstructEnv) :
    ∃ leaked', Retains (s.getInstance domainId env).1 leaked' ∧
      (leaked' = [] ↔ leaked = [] ∧ ¬ TimesOut s domainId env) := by
  have ⟨held, hheld, hperm⟩ := h
  have happend : ∀ log, Ledger.holds [] (s.log ++ log) = Ledger.holds held log := by
    intro log
    rw [Ledger.holds_append, hheld]
    rfl
  rw [Process.getInstance]
  cases hfound : s.instances.lookup domainId with
  | some m =>
    refine ⟨leaked, h, ⟨fun hl => ⟨hl, fun ht => ?_⟩, And.left⟩⟩
    exact nomatch ht.absent.symm.trans hfound
  | none =>
    obtain ⟨hnot, e, he, hlog⟩ | ⟨hacquires, hwait, e, resources, hc, hne⟩ |
      ⟨hacquires, hwait, m, hc⟩ := construct_cases domainId (s.identify env)
    · have hc : construct domainId (s.identify env) =
          ((construct domainId (s.identify env)).1, .error e) := Prod.ext rfl he
      rw [hc]
      refine ⟨leaked, ⟨held, ?_, hperm⟩, ⟨fun hl => ⟨hl, fun ht => ?_⟩, And.left⟩⟩
      · exact (happend _).trans (hlog held)
      · exact hnot ⟨ht.acquires.gethostname, ht.acquires.shmOpen, ht.acquires.ftruncate,
          ht.acquires.mmap, ht.acquires.semOpen⟩
    · rw [hc]
      refine ⟨resources.reverse ++ leaked, ⟨resources.reverse ++ held, ?_, ?_⟩, ?_⟩
      · exact (happend _).trans (Ledger.holds_acquire_all held resources)
      · have hswap : (resources.reverse ++ s.owned ++ leaked).Perm
            (s.owned ++ resources.reverse ++ leaked) := List.perm_append_comm.append_right leaked
        rw [List.append_assoc, List.append_assoc] at hswap
        exact (hperm.append_left _).trans hswap
      · constructor
        · intro hnil
          exact absurd (List.reverse_eq_nil_iff.mp (List.append_eq_nil_iff.mp hnil).1) hne
        · rintro ⟨-, hnot⟩
          exact absurd ⟨hfound, ⟨hacquires.gethostname, hacquires.shmOpen, hacquires.ftruncate,
            hacquires.mmap, hacquires.semOpen⟩, hwait⟩ hnot
    · rw [hc]
      refine ⟨leaked, ⟨m.resources.reverse ++ held, ?_, ?_⟩, ⟨fun hl => ⟨hl, fun ht => ?_⟩,
        And.left⟩⟩
      · exact (happend _).trans (Ledger.holds_acquire_all held m.resources)
      · have hboth := (List.reverse_perm m.resources).append hperm
        rw [← List.append_assoc] at hboth
        exact hboth
      · exact nomatch ht.semTimedwait.symm.trans hwait

lemma afterCalls_snoc (pid : ℕ) (calls : List (ℕ × ConstructEnv)) (c : ℕ × ConstructEnv) :
    Process.afterCalls pid (calls ++ [c]) =
      ((Process.afterCalls pid calls).getInstance c.1 c.2).1 :=
  List.foldl_concat _ _ _ _

/-- No call of the sequence fails at the semaphore. -/
def Undelayed (pid : ℕ) (calls : List (ℕ × ConstructEnv)) : Prop :=
  ∀ pre c post, calls = pre ++ c :: post → ¬ TimesOut (Process.afterCalls pid pre) c.1 c.2

lemma undelayed_snoc : Undelayed pid (calls ++ [c]) ↔
    Undelayed pid calls ∧ ¬ TimesOut (Process.afterCalls pid calls) c.1 c.2 := by
  constructor
  · intro h
    refine ⟨fun pre c' post he => ?_, h calls c [] rfl⟩
    refine h pre c' (post ++ [c]) ?_
    rw [he, List.append_assoc, List.cons_append]
  · rintro ⟨hcalls, hlast⟩ pre c' post he
    rcases List.eq_nil_or_concat post with rfl | ⟨post, c'', rfl⟩
    · obtain ⟨rfl, hc⟩ := List.append_inj' he rfl
      obtain rfl := List.singleton_inj.mp hc
      exact hlast
    · rw [List.concat_eq_append, ← List.cons_append, ← List.append_assoc] at he
      exact hcalls pre c' post (List.append_inj' he rfl).1

lemma afterCalls_retains (pid : ℕ) (calls : List (ℕ × ConstructEnv)) :
    ∃ leaked, Retains (Process.afterCalls pid calls) leaked ∧
      (leaked = [] ↔ Undelayed pid calls) := by
  induction calls using List.reverseRecOn with
  | nil =>
    refine ⟨[], ⟨[], rfl, .nil⟩, ⟨fun _ pre c post he => ?_, fun _ => rfl⟩⟩
    exact nomatch (List.append_eq_nil_iff.mp he.symm).2
  | append_singleton calls c ih =>
    obtain ⟨leaked, hretains, hiff⟩ := ih
    obtain ⟨leaked', hretains', hiff'⟩ := getInstance_retains hretains c.1 c.2
    rw [afterCalls_snoc, undelayed_snoc, ← hiff]
    exact ⟨leaked', hretains', hiff'⟩

end Calls

/-- After each call of a sequence the process holds the resources of its instances and no others,
exactly when no wait for the semaphore fails in it. -/
theorem attach_balanced_iff (pid : ℕ) (calls : List (ℕ × ConstructEnv)) :
    (∀ pre, pre <+: calls → Balanced (Process.afterCalls pid pre)) ↔ Undelayed pid calls := by
  constructor
  · intro h
    obtain ⟨leaked, hretains, hiff⟩ := afterCalls_retains pid calls
    exact hiff.mp ((balanced_iff_of_retains hretains).mp (h calls List.prefix_rfl))
  · rintro h pre ⟨post, rfl⟩
    obtain ⟨leaked, hretains, hiff⟩ := afterCalls_retains pid pre
    refine (balanced_iff_of_retains hretains).mpr (hiff.mpr fun pre' c post' he => ?_)
    refine h pre' c (post' ++ post) ?_
    rw [he, List.append_assoc, List.cons_append]

/-- Another process has died with the semaphore. -/
def delayed (fd ptr : ℕ) : ConstructEnv where
  identity := ⟨11, 0, 0, 1000⟩
  gethostname := true
  shmOpen := some 0
  ftruncate := true
  mmap := true
  semOpen := some 0
  semTimedwait := false
  strerror := ""
  alive _ := true
  hostname := "host"
  fd := fd
  ptr := ptr

/-- Every retry adds a descriptor, a mapping and a semaphore, and there is no instance. -/
theorem attach_timeout_leaks :
    Ledger.holds [] (Process.afterCalls 11 [(0, delayed 3 4096), (0, delayed 4 8192)]).log =
        some [.semaphore 0, .mapping 8192, .segmentFd 4, .semaphore 0, .mapping 4096,
          .segmentFd 3] ∧
      (Process.afterCalls 11 [(0, delayed 3 4096), (0, delayed 4 8192)]).owned = [] ∧
      ¬ Balanced (Process.afterCalls 11 [(0, delayed 3 4096), (0, delayed 4 8192)]) := by
  refine ⟨rfl, rfl, ?_⟩
  rintro ⟨held, hheld, hperm⟩
  obtain rfl := Option.some.inj hheld
  exact nomatch hperm.length_eq

end RosidlBufferBackends.Plugin.AttachResources
