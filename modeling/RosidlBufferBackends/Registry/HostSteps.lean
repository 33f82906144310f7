import RosidlBufferBackends.Registry.Host

/-! What the steps of a host do, and which threads use the segment and the
semaphore. -/

namespace RosidlBufferBackends.Registry

namespace Pc

/-- The thread's manager has the segment open and may still access it. -/
def mapped : Pc → Bool
  | .shmOpen | .semClose _ | .munmap _ | .close _ | .shmUnlink | .semUnlink => false
  | _ => true

def opened : Pc → Bool
  | .ftruncate | .mmap | .semOpen => false
  | pc => pc.mapped

/-- The segment has been initialised. -/
def ready : Pc → Bool
  | .attachWait | .attachBody => false
  | pc => pc.opened

/-- Between `sem_wait` and `sem_post`. -/
def holding : Pc → Bool
  | .attachBody | .attachPost | .scan _ _ | .write _ _ _ | .fullPost | .registerPost _ _ | .read
  | .refreshPost _ | .detachBody | .detachPost _ => true
  | _ => false

/-- Behind `sem_post`, with a change of the cache to come. -/
def merging : Pc → Bool
  | .registerCache _ _ | .refreshCache _ => true
  | _ => false

def calling : Pc → Bool
  | .registerWait _ _ | .scan _ _ | .write _ _ _ | .fullPost | .registerPost _ _
  | .registerCache _ _ | .refreshWait | .read | .refreshPost _ | .refreshCache _ => true
  | _ => false

lemma opened_of_holding {pc : Pc} (h : pc.holding = true) : pc.opened = true := by
  cases pc <;> first | rfl | exact nomatch h

lemma mapped_of_opened {pc : Pc} (h : pc.opened = true) : pc.mapped = true := by
  cases pc <;> first | rfl | exact nomatch h

lemma opened_of_ready {pc : Pc} (h : pc.ready = true) : pc.opened = true := by
  cases pc <;> first | rfl | exact nomatch h

end Pc

/-- Calls that change neither a name nor a registry nor a semaphore. -/
inductive Passes : Pc → Pc → Prop
  | ftruncate : Passes .ftruncate .mmap
  | mmap : Passes .mmap .semOpen
  | semClose (unlink : Bool) : Passes (.semClose unlink) (.munmap unlink)
  | munmap (unlink : Bool) : Passes (.munmap unlink) (.close unlink)
  | close : Passes (.close true) .shmUnlink

inductive Acquires : Pc → Pc → Prop
  | attach : Acquires .attachWait .attachBody
  | register (gid : ℕ) (type : EntityType) : Acquires (.registerWait gid type) (.scan gid type)
  | refresh : Acquires .refreshWait .read
  | detach : Acquires .detachWait .detachBody

inductive Releases : Pc → Pc → Prop
  | register (gid : ℕ) (type : EntityType) :
      Releases (.registerPost gid type) (.registerCache gid type)
  | refresh (updates : Cache) : Releases (.refreshPost updates) (.refreshCache updates)
  | detach (unlink : Bool) : Releases (.detachPost unlink) (.semClose unlink)

namespace Host

variable {s u : Host} {e : Event} {o : Output} {t : ℕ} {th : Thread}

inductive Advance (s : Host) (t : ℕ) (th : Thread) : Output → Host → Prop
  | passed {pc : Pc} : Passes th.pc pc → Advance s t th .quiet (s.goto t th pc)
  | opened {seg : ℕ} : th.pc = .shmOpen → s.shmName = some seg →
      Advance s t th .quiet (s.goto t { th with seg := seg } .ftruncate)
  | created : th.pc = .shmOpen → s.shmName = none →
      Advance s t th .quiet (s.shmCreate.goto t { th with seg := s.nextSegment } .ftruncate)
  | semOpened {sem : ℕ} : th.pc = .semOpen → s.semName = some sem →
      Advance s t th .quiet (s.goto t { th with sem := sem } .attachWait)
  | semCreated : th.pc = .semOpen → s.semName = none →
      Advance s t th .quiet (s.semCreate.goto t { th with sem := s.nextSem } .attachWait)
  | acquired {pc : Pc} {o : Output} : Acquires th.pc pc → s.semValue th.sem ≠ 0 →
      (o = .quiet ∨ th.pc = .refreshWait ∧ o = .acquired t th.identity.pid) →
      Advance s t th o ((s.wait th.sem).goto t th pc)
  | released {pc : Pc} : Releases th.pc pc →
      Advance s t th .quiet ((s.post th.sem).goto t th pc)
  | attached : th.pc = .attachBody →
      Advance s t th .quiet
        ((s.modifyRegistry th.seg (fun r => r.attach s.isAlive)).goto t th .attachPost)
  | constructed : th.pc = .attachPost →
      Advance s t th .quiet (((s.post th.sem).put t none).modifyManager th.identity.pid
        (some { identity := th.identity, seg := th.seg, sem := th.sem }))
  | full {gid : ℕ} {type : EntityType} : th.pc = .scan gid type →
      (s.registries th.seg).findSlot gid = none →
      Advance s t th .quiet (s.goto t th .fullPost)
  | scanned {gid : ℕ} {type : EntityType} {slot : ℕ × Bool} : th.pc = .scan gid type →
      (s.registries th.seg).findSlot gid = some slot →
      Advance s t th .quiet (s.goto t th (.write gid type slot))
  | written {gid : ℕ} {type : EntityType} {slot : ℕ × Bool} {m : HostEndpointManager} :
      th.pc = .write gid type slot → s.managers th.identity.pid = some m →
      Advance s t th (.registered th.identity.pid (entryOf m gid type))
        ((s.modifyRegistry th.seg (fun r => r.writeSlot slot (entryOf m gid type))).goto t th
          (.registerPost gid type))
  | rejected : th.pc = .fullPost →
      Advance s t th (.returned t false) ((s.post th.sem).put t none)
  | registered {gid : ℕ} {type : EntityType} {m : HostEndpointManager} :
      th.pc = .registerCache gid type → s.managers th.identity.pid = some m →
      Advance s t th (.returned t true) ((s.put t none).modifyManager th.identity.pid
        (some { m with cache := Function.update m.cache gid (some (localInfo m type)) }))
  | read : th.pc = .read →
      Advance s t th .quiet (s.goto t th
        (.refreshPost ((s.registries th.seg).updates th.identity.instanceId)))
  | refreshed {updates : Cache} {m : HostEndpointManager} :
      th.pc = .refreshCache updates → s.managers th.identity.pid = some m →
      Advance s t th (.refreshed t) ((s.put t none).modifyManager th.identity.pid
        (some { m with cache := m.cache.merge updates }))
  | detached {r : EndpointRegistry} : th.pc = .detachBody →
      r = (s.registries th.seg).detach s.isAlive th.identity.instanceId →
      Advance s t th .quiet ((s.modifyRegistry th.seg (fun _ => r)).goto t th
        (.detachPost (!r.hasActiveEntries)))
  | closed : th.pc = .close false → Advance s t th .quiet (s.put t none)
  | shmUnlinked : th.pc = .shmUnlink →
      Advance s t th .quiet ({ s with shmName := none }.goto t th .semUnlink)
  | semUnlinked : th.pc = .semUnlink →
      Advance s t th .quiet ({ s with semName := none }.put t none)

/-- What a step can do. -/
inductive StepCase (s : Host) : Event → Output → Host → Prop
  | started {pid : ℕ} : 0 < pid → pid < 2 ^ 31 →
      StepCase s (.start pid) .quiet { s with alive := pid :: s.alive }
  | exited {pid : ℕ} :
      StepCase s (.exit pid) .quiet { s with
        alive := s.alive.filter (fun p => p ≠ pid)
        managers := Function.update s.managers pid none
        threads := fun t =>
          (s.threads t).bind (fun th => if th.identity.pid = pid then none else some th) }
  | constructing {pid k uid : ℕ} {deviceId : ℤ} : pid ∈ s.alive → s.managers pid = none →
      StepCase s (.construct pid k deviceId uid) .quiet (s.spawn
        { identity := ⟨pid, makeInstanceId pid k, deviceId, uid⟩, pc := .shmOpen })
  | flagged {pid : ℕ} {capable : Bool} {m : HostEndpointManager} : s.managers pid = some m →
      StepCase s (.setIpcCapable pid capable) .quiet
        (s.modifyManager pid (some { m with ipcCapable := capable }))
  | called {e : Event} {pid : ℕ} {m : HostEndpointManager} {pc : Pc} : s.managers pid = some m →
      (∃ gid type, pc = .registerWait gid type) ∨ pc = .refreshWait →
      StepCase s e .quiet
        (s.spawn { identity := m.identity, seg := m.seg, sem := m.sem, pc := pc })
  | destroying {pid : ℕ} {m : HostEndpointManager} : s.idle pid = true → s.managers pid = some m →
      StepCase s (.destroy pid) .quiet ((s.spawn
        { identity := m.identity, seg := m.seg, sem := m.sem, pc := .detachWait }).modifyManager
          pid none)
  | advanced {t : ℕ} {th : Thread} {o : Output} {u : Host} : s.threads t = some th →
      Advance s t th o u → StepCase s (.advance t) o u

lemma acquire_case {pc : Pc} {o' : Output} (hpc : Acquires th.pc pc)
    (ho : o' = .quiet ∨ th.pc = .refreshWait ∧ o' = .acquired t th.identity.pid)
    (hs : s.acquire t th pc o' = some (o, u)) : Advance s t th o u := by
  simp only [acquire] at hs
  split_ifs at hs with hz
  obtain ⟨rfl, rfl⟩ := Prod.mk.inj (Option.some.inj hs)
  exact .acquired hpc hz ho

lemma advance_cases (hs : s.advance t th = some (o, u)) : Advance s t th o u := by
  have hinj : ∀ {x : Output × Host}, some x = some (o, u) → x.1 = o ∧ x.2 = u :=
    fun h => Prod.mk.inj (Option.some.inj h)
  simp only [advance] at hs
  cases hpc : th.pc with
  | shmOpen =>
    simp only [hpc] at hs
    split at hs
    · rename_i hname
      obtain ⟨rfl, rfl⟩ := hinj hs
      exact .opened hpc hname
    · rename_i hname
      obtain ⟨rfl, rfl⟩ := hinj hs
      exact .created hpc hname
  | ftruncate =>
    simp only [hpc] at hs
    obtain ⟨rfl, rfl⟩ := hinj hs
    exact .passed (hpc ▸ .ftruncate)
  | mmap =>
    simp only [hpc] at hs
    obtain ⟨rfl, rfl⟩ := hinj hs
    exact .passed (hpc ▸ .mmap)
  | semOpen =>
    simp only [hpc] at hs
    split at hs
    · rename_i hname
      obtain ⟨rfl, rfl⟩ := hinj hs
      exact .semOpened hpc hname
    · rename_i hname
      obtain ⟨rfl, rfl⟩ := hinj hs
      exact .semCreated hpc hname
  | attachWait =>
    simp only [hpc] at hs
    exact acquire_case (hpc ▸ .attach) (.inl rfl) hs
  | attachBody =>
    simp only [hpc] at hs
    obtain ⟨rfl, rfl⟩ := hinj hs
    exact .attached hpc
  | attachPost =>
    simp only [hpc] at hs
    obtain ⟨rfl, rfl⟩ := hinj hs
    exact .constructed hpc
  | registerWait gid type =>
    simp only [hpc] at hs
    exact acquire_case (hpc ▸ .register gid type) (.inl rfl) hs
  | scan gid type =>
    simp only [hpc] at hs
    split at hs
    · rename_i hslot
      obtain ⟨rfl, rfl⟩ := hinj hs
      exact .full hpc hslot
    · rename_i hslot
      obtain ⟨rfl, rfl⟩ := hinj hs
      exact .scanned hpc hslot
  | write gid type slot =>
    simp only [hpc] at hs
    split at hs
    · exact nomatch hs
    · rename_i hm
      obtain ⟨rfl, rfl⟩ := hinj hs
      exact .written hpc hm
  | fullPost =>
    simp only [hpc] at hs
    obtain ⟨rfl, rfl⟩ := hinj hs
    exact .rejected hpc
  | registerPost gid type =>
    simp only [hpc] at hs
    obtain ⟨rfl, rfl⟩ := hinj hs
    exact .released (hpc ▸ .register gid type)
  | registerCache gid type =>
    simp only [hpc] at hs
    split at hs
    · exact nomatch hs
    · rename_i hm
      obtain ⟨rfl, rfl⟩ := hinj hs
      exact .registered hpc hm
  | refreshWait =>
    simp only [hpc] at hs
    exact acquire_case (hpc ▸ .refresh) (.inr ⟨hpc, rfl⟩) hs
  | read =>
    simp only [hpc] at hs
    obtain ⟨rfl, rfl⟩ := hinj hs
    exact .read hpc
  | refreshPost updates =>
    simp only [hpc] at hs
    obtain ⟨rfl, rfl⟩ := hinj hs
    exact .released (hpc ▸ .refresh updates)
  | refreshCache updates =>
    simp only [hpc] at hs
    split at hs
    · exact nomatch hs
    · rename_i hm
      obtain ⟨rfl, rfl⟩ := hinj hs
      exact .refreshed hpc hm
  | detachWait =>
    simp only [hpc] at hs
    exact acquire_case (hpc ▸ .detach) (.inl rfl) hs
  | detachBody =>
    simp only [hpc] at hs
    obtain ⟨rfl, rfl⟩ := hinj hs
    exact .detached hpc rfl
  | detachPost unlink =>
    simp only [hpc] at hs
    obtain ⟨rfl, rfl⟩ := hinj hs
    exact .released (hpc ▸ .detach unlink)
  | semClose unlink =>
    simp only [hpc] at hs
    obtain ⟨rfl, rfl⟩ := hinj hs
    exact .passed (hpc ▸ .semClose unlink)
  | munmap unlink =>
    simp only [hpc] at hs
    obtain ⟨rfl, rfl⟩ := hinj hs
    exact .passed (hpc ▸ .munmap unlink)
  | close unlink =>
    simp only [hpc] at hs
    cases unlink with
    | true =>
      obtain ⟨rfl, rfl⟩ := hinj hs
      exact .passed (hpc ▸ .close)
    | false =>
      obtain ⟨rfl, rfl⟩ := hinj hs
      exact .closed hpc
  | shmUnlink =>
    simp only [hpc] at hs
    obtain ⟨rfl, rfl⟩ := hinj hs
    exact .shmUnlinked hpc
  | semUnlink =>
    simp only [hpc] at hs
    obtain ⟨rfl, rfl⟩ := hinj hs
    exact .semUnlinked hpc

lemma call_case {pid : ℕ} {pc : Pc} {x : Output × Host} (hs : s.call pid pc = some x) :
    ∃ m, s.managers pid = some m ∧ x = (.quiet, s.spawn
      { identity := m.identity, seg := m.seg, sem := m.sem, pc := pc }) := by
  simp only [call] at hs
  split at hs
  · exact nomatch hs
  · rename_i m hm
    exact ⟨m, hm, (Option.some.inj hs).symm⟩

lemma step_cases (hs : step s e = some (o, u)) : StepCase s e o u := by
  cases e with
  | start pid =>
    simp only [step] at hs
    split_ifs at hs with hg
    obtain ⟨rfl, rfl⟩ := Prod.mk.inj (Option.some.inj hs)
    exact .started hg.1 hg.2.1
  | exit pid =>
    simp only [step] at hs
    split_ifs at hs with hg
    obtain ⟨rfl, rfl⟩ := Prod.mk.inj (Option.some.inj hs)
    exact .exited
  | construct pid k deviceId uid =>
    simp only [step] at hs
    split_ifs at hs with hg
    obtain ⟨rfl, rfl⟩ := Prod.mk.inj (Option.some.inj hs)
    exact .constructing hg.1 (Option.isNone_iff_eq_none.mp hg.2.1)
  | setIpcCapable pid capable =>
    simp only [step] at hs
    split at hs
    · exact nomatch hs
    · rename_i m hm
      obtain ⟨rfl, rfl⟩ := Prod.mk.inj (Option.some.inj hs)
      exact .flagged hm
  | registerEndpoint pid gid type =>
    obtain ⟨m, hm, he⟩ := call_case hs
    obtain ⟨rfl, rfl⟩ := Prod.mk.inj he
    exact .called hm (.inl ⟨gid, type, rfl⟩)
  | refreshFromRemote pid =>
    obtain ⟨m, hm, he⟩ := call_case hs
    obtain ⟨rfl, rfl⟩ := Prod.mk.inj he
    exact .called hm (.inr rfl)
  | destroy pid =>
    simp only [step] at hs
    split_ifs at hs with hi
    obtain ⟨x, hx, he⟩ := Option.map_eq_some_iff.mp hs
    obtain ⟨m, hm, rfl⟩ := call_case hx
    obtain ⟨rfl, rfl⟩ := Prod.mk.inj he
    exact .destroying hi hm
  | advance t =>
    simp only [step] at hs
    split at hs
    · exact nomatch hs
    · rename_i th hth
      exact .advanced hth (advance_cases hs)

end Host

end RosidlBufferBackends.Registry
