import RosidlBufferBackends.Dispatcher.Publisher

/-! What the steps of a publisher process do. -/

namespace RosidlBufferBackends.Dispatcher

namespace Publisher

variable {s u : Publisher} {e : Event} {o : Output} {m k : ℕ} {mg : CudaVmmIPCManager}
  {D : FDDispatcher} {result : Option ℕ}

/-- The next step of a manager's thread. -/
inductive Calls (s : Publisher) (m : ℕ) (mg : CudaVmmIPCManager) (D : FDDispatcher) :
    Option ℕ → Call → Output → Publisher → Prop
  | unopened {b e : ℕ} : Calls s m mg D none (.socket b e)
      (.threw m b "Failed to create FD server socket for block") (s.finish m mg)
  | opened {b e n : ℕ} : s.fds n = none → Calls s m mg D (some n) (.socket b e) .quiet
      ((s.openFd n (.listener m b)).goto m mg (.bind b e n))
  | refused {c : Call} {b e n : ℕ} : c = .bind b e n ∨ c = .listen b e n →
      Calls s m mg D none c .quiet (s.goto m mg (.abandon b n))
  | bound {r b e n : ℕ} : Calls s m mg D (some r) (.bind b e n) .quiet
      ({ s with bound := Function.update s.bound (s.socketPath b) (some (m, b)) }.goto m mg
        (.listen b e n))
  | listening {r b e n : ℕ} : Calls s m mg D (some r) (.listen b e n) .quiet
      ({ s with pending := Function.update s.pending (m, b) (some []) }.goto m mg (.dup b e n))
  | abandoned {r : Option ℕ} {b n : ℕ} : Calls s m mg D r (.abandon b n)
      (.threw m b "Failed to create FD server socket for block") ((s.closeFd n).finish m mg)
  | unduplicated {b e n : ℕ} : Calls s m mg D none (.dup b e n) .quiet (s.goto m mg (.record b n))
  | duplicated {b e n d m' b' : ℕ} : s.fds e = some (.exported m' b') → s.fds d = none →
      Calls s m mg D (some d) (.dup b e n) .quiet
        ((s.openFd d (.duplicate m' b')).goto m mg (.insert b n d))
  | inserted {r : Option ℕ} {b n d : ℕ} : Calls s m mg D r (.insert b n d) .quiet
      ((s.setDispatcher mg.dispatcher { D with socketToFd := D.socketToFd.insert n d }).goto m mg
        (.epollAdd b n d))
  | unadded {b n d : ℕ} : Calls s m mg D none (.epollAdd b n d) .quiet
      (s.goto m mg (.erase b n d))
  | added {r b n d : ℕ} : D.epoll = true → Calls s m mg D (some r) (.epollAdd b n d) .quiet
      ((s.setDispatcher mg.dispatcher { D with watched := Function.update D.watched n true }).goto
        m mg (.record b n))
  | erased {r : Option ℕ} {b n d : ℕ} : Calls s m mg D r (.erase b n d) .quiet
      ((s.setDispatcher mg.dispatcher { D with socketToFd := D.socketToFd.erase n }).goto m mg
        (.closeDup b n d))
  | closedDup {r : Option ℕ} {b n d : ℕ} : Calls s m mg D r (.closeDup b n d) .quiet
      ((s.closeFd d).goto m mg (.record b n))
  | recorded {r : Option ℕ} {b n : ℕ} : Calls s m mg D r (.record b n)
      (.returned m b (s.socketPath b)) (s.setManager m (some { mg with
        registeredBlocks := mg.registeredBlocks.insert b ⟨n, s.socketPath b⟩
        call := none }))
  | released {r : Option ℕ} : mg.registeredBlocks.entries = [] → D.owners.erase m ≠ [] →
      Calls s m mg D r .removing .quiet
        ((s.setDispatcher mg.dispatcher { D with owners := D.owners.erase m }).setManager m none)
  | expired {r : Option ℕ} : mg.registeredBlocks.entries = [] → D.owners.erase m = [] →
      Calls s m mg D r .removing .quiet
        { (s.setDispatcher mg.dispatcher { D with owners := D.owners.erase m }).goto m mg .stop with
          cached := if s.cached = some mg.dispatcher then none else s.cached }
  | unwatched {r : Option ℕ} {b n : ℕ} {d : Option ℕ} :
      Calls s m mg D r (.epollDel b n d) .quiet
        ((s.setDispatcher mg.dispatcher
          { D with watched := Function.update D.watched n false }).goto
          m mg (.closeServer b n d))
  | closedUnserved {r : Option ℕ} {b n : ℕ} : Calls s m mg D r (.closeServer b n none) .quiet
      ((s.closeFd n).goto m mg .removing)
  | closedServer {r : Option ℕ} {b n d : ℕ} : Calls s m mg D r (.closeServer b n (some d)) .quiet
      ((s.closeFd n).goto m mg (.closeServed b d))
  | closedServed {r : Option ℕ} {b d : ℕ} : Calls s m mg D r (.closeServed b d) .quiet
      ((s.closeFd d).goto m mg .removing)
  | stopping {r : Option ℕ} : D.running = true → Calls s m mg D r .stop .quiet
      ((s.setDispatcher mg.dispatcher { D with running := false }).goto m mg .join)
  | unstarted {r : Option ℕ} : D.running = false → Calls s m mg D r .stop .quiet
      (s.setManager m none)
  | joined {r : Option ℕ} : D.loop = .exited → Calls s m mg D r .join .quiet (s.goto m mg .clear)
  | cleared {r : Option ℕ} : Calls s m mg D r .clear .quiet
      ((D.socketToFd.keys.foldl closeFd
        (s.setDispatcher mg.dispatcher { D with socketToFd := ∅, epoll := false })).setManager m
          none)

/-- What `sendmsg` does. -/
inductive Sends (s : Publisher) (client d : ℕ) : Output → Publisher → Prop
  | failed : (∀ f c conn, s.fds d = some f → s.fds client = some (.connection c) →
      s.connections c = some conn → conn.closed = false) → Sends s client d .quiet s
  | killed {c : ℕ} {conn : Connection} {f : File} : s.fds d = some f →
      s.fds client = some (.connection c) → s.connections c = some conn → conn.closed = true →
      Sends s client d .killed { s with killed := true }
  | sent {c : ℕ} {conn : Connection} {f : File} : s.fds d = some f →
      s.fds client = some (.connection c) → s.connections c = some conn → conn.closed = false →
      Sends s client d (.sent c f) { s with
        connections := Function.update s.connections c (some { conn with received := some f }) }

/-- The next step of a dispatcher's thread. -/
inductive Dispatches (s : Publisher) (k : ℕ) (D : FDDispatcher) :
    Option ℕ → Loop → Output → Publisher → Prop
  | handled {r : Option ℕ} : Dispatches s k D r (.handle []) .quiet (s.setLoop k D .wait)
  | missed {r : Option ℕ} {n : ℕ} {events : List ℕ} : D.socketToFd.lookup n = none →
      Dispatches s k D r (.handle (n :: events)) .quiet (s.setLoop k D (.handle events))
  | found {r : Option ℕ} {n d : ℕ} {events : List ℕ} : D.socketToFd.lookup n = some d →
      Dispatches s k D r (.handle (n :: events)) .quiet (s.setLoop k D (.accept n d events))
  | unaccepted {n d : ℕ} {events : List ℕ} :
      Dispatches s k D none (.accept n d events) .quiet (s.setLoop k D (.handle events))
  | accepted {n d client m b c : ℕ} {events queue : List ℕ} : s.fds n = some (.listener m b) →
      s.pending (m, b) = some (c :: queue) → s.fds client = none →
      Dispatches s k D (some client) (.accept n d events) .quiet
        (({ s with pending := Function.update s.pending (m, b) (some queue) }.openFd client
          (.connection c)).setLoop k D (.send client d events))
  | sent {r : Option ℕ} {client d : ℕ} {events : List ℕ} {o : Output} {u : Publisher} :
      Sends s client d o u →
      Dispatches s k D r (.send client d events) o (u.setLoop k D (.close client events))
  | closed {r : Option ℕ} {client : ℕ} {events : List ℕ} :
      Dispatches s k D r (.close client events) .quiet
        ((s.closeFd client).setLoop k D (.handle events))

inductive StepCase (s : Publisher) : Event → Output → Publisher → Prop
  | shared {ok : Bool} {k : ℕ} {D : FDDispatcher} : s.cached = some k → s.dispatchers k = some D →
      StepCase s (.construct ok) (.constructed s.nextManager)
        { (s.setDispatcher k { D with owners := s.nextManager :: D.owners }).setManager
            s.nextManager (some { dispatcher := k }) with
          nextManager := s.nextManager + 1 }
  | constructed {ok : Bool} : (∀ k, s.cached = some k → s.dispatchers k = none) →
      StepCase s (.construct ok) (.constructed s.nextManager)
        { (s.setDispatcher s.nextDispatcher
            { epoll := ok, running := ok, owners := [s.nextManager],
              loop := if ok then .wait else .exited }).setManager s.nextManager
            (some { dispatcher := s.nextDispatcher }) with
          nextManager := s.nextManager + 1
          nextDispatcher := s.nextDispatcher + 1
          cached := some s.nextDispatcher }
  | repeated {m b e : ℕ} {mg : CudaVmmIPCManager} {info : RegisteredBlockInfo} :
      s.managers m = some mg → mg.call = none → mg.registeredBlocks.lookup b = some info →
      StepCase s (.registerBlock m b e) (.returned m b info.socketPath) s
  | registering {m b e : ℕ} {mg : CudaVmmIPCManager} : s.managers m = some mg → mg.call = none →
      mg.registeredBlocks.lookup b = none → s.fds e = some (.exported m b) →
      StepCase s (.registerBlock m b e) .quiet (s.goto m mg (.socket b e))
  | called {m : ℕ} {mg : CudaVmmIPCManager} {D : FDDispatcher} {result : Option ℕ} {c : Call}
      {o : Output} {u : Publisher} : s.managers m = some mg → mg.call = some c →
      s.dispatchers mg.dispatcher = some D → Calls s m mg D result c o u →
      StepCase s (.call m result) o u
  | destroying {m : ℕ} {mg : CudaVmmIPCManager} : s.managers m = some mg → mg.call = none →
      StepCase s (.destroy m) .quiet (s.goto m mg .removing)
  | removing {m b : ℕ} {mg : CudaVmmIPCManager} {D : FDDispatcher} {info : RegisteredBlockInfo} :
      s.managers m = some mg → mg.call = some .removing →
      mg.registeredBlocks.lookup b = some info → s.dispatchers mg.dispatcher = some D →
      StepCase s (.removeSocket m b) .quiet ((s.setDispatcher mg.dispatcher
        { D with socketToFd := D.socketToFd.erase info.serverSocket }).setManager m
          (some { mg with
            registeredBlocks := mg.registeredBlocks.erase b
            call := some (.epollDel b info.serverSocket
              (D.socketToFd.lookup info.serverSocket)) }))
  | exiting {k : ℕ} {ready : List ℕ} {D : FDDispatcher} : s.dispatchers k = some D →
      D.loop = .wait → D.running = false →
      StepCase s (.epollWait k ready) .quiet (s.setLoop k D .exited)
  | woken {k : ℕ} {ready : List ℕ} {D : FDDispatcher} : s.dispatchers k = some D →
      D.loop = .wait → D.running = true → (∀ n ∈ ready, s.readable D n = true) →
      StepCase s (.epollWait k ready) .quiet (s.setLoop k D (.handle ready))
  | dispatched {k : ℕ} {D : FDDispatcher} {result : Option ℕ} {o : Output} {u : Publisher} :
      s.dispatchers k = some D → Dispatches s k D result D.loop o u →
      StepCase s (.dispatch k result) o u
  | connected {path : String} {m b : ℕ} {queue : List ℕ} : s.bound path = some (m, b) →
      s.pending (m, b) = some queue →
      StepCase s (.connect path) .quiet { s with
        connections := Function.update s.connections s.nextConnection
          (some { manager := m, block := b })
        nextConnection := s.nextConnection + 1
        pending := Function.update s.pending (m, b) (some (queue ++ [s.nextConnection])) }
  | disconnected {c : ℕ} {conn : Connection} : s.connections c = some conn →
      StepCase s (.disconnect c) .quiet { s with
        connections := Function.update s.connections c (some { conn with closed := true }) }
  | exported {m b n : ℕ} : s.fds n = none →
      StepCase s (.export m b n) .quiet (s.openFd n (.exported m b))
  | closedExported {m b n : ℕ} : s.fds n = some (.exported m b) →
      (∀ mg, s.managers m = some mg → mg.call = none) →
      StepCase s (.closeExported n) .quiet (s.closeFd n)
  | opened {n x : ℕ} : s.fds n = none → StepCase s (.open n x) .quiet (s.openFd n (.other x))
  | closed {n x : ℕ} : s.fds n = some (.other x) → StepCase s (.close n) .quiet (s.closeFd n)

lemma call_cases {c : Call} (hs : s.call m mg D result c = some (o, u)) :
    Calls s m mg D result c o u := by
  have hinj : ∀ {x : Output × Publisher}, some x = some (o, u) → x.1 = o ∧ x.2 = u :=
    fun h => Prod.mk.inj (Option.some.inj h)
  cases c with
  | socket b e =>
    cases result with
    | none =>
      obtain ⟨rfl, rfl⟩ := hinj hs
      exact .unopened
    | some n =>
      simp only [call] at hs
      split_ifs at hs with hn
      obtain ⟨rfl, rfl⟩ := hinj hs
      exact .opened (by simpa using hn)
  | bind b e n =>
    cases result with
    | none =>
      obtain ⟨rfl, rfl⟩ := hinj hs
      exact .refused (.inl rfl)
    | some r =>
      simp only [call] at hs
      split_ifs at hs
      obtain ⟨rfl, rfl⟩ := hinj hs
      exact .bound
  | listen b e n =>
    cases result with
    | none =>
      obtain ⟨rfl, rfl⟩ := hinj hs
      exact .refused (.inr rfl)
    | some r =>
      obtain ⟨rfl, rfl⟩ := hinj hs
      exact .listening
  | abandon b n =>
    obtain ⟨rfl, rfl⟩ := hinj hs
    exact .abandoned
  | dup b e n =>
    cases result with
    | none =>
      obtain ⟨rfl, rfl⟩ := hinj hs
      exact .unduplicated
    | some d =>
      simp only [call] at hs
      split at hs
      · rename_i he
        split_ifs at hs with hd
        obtain ⟨rfl, rfl⟩ := hinj hs
        exact .duplicated he (by simpa using hd)
      · exact nomatch hs
  | insert b n d =>
    obtain ⟨rfl, rfl⟩ := hinj hs
    exact .inserted
  | epollAdd b n d =>
    cases result with
    | none =>
      obtain ⟨rfl, rfl⟩ := hinj hs
      exact .unadded
    | some r =>
      simp only [call] at hs
      split_ifs at hs with hepoll
      obtain ⟨rfl, rfl⟩ := hinj hs
      exact .added hepoll
  | erase b n d =>
    obtain ⟨rfl, rfl⟩ := hinj hs
    exact .erased
  | closeDup b n d =>
    obtain ⟨rfl, rfl⟩ := hinj hs
    exact .closedDup
  | record b n =>
    obtain ⟨rfl, rfl⟩ := hinj hs
    exact .recorded
  | removing =>
    simp only [call] at hs
    split_ifs at hs with hempty
    obtain ⟨rfl, rfl⟩ := hinj hs
    have hempty := List.isEmpty_iff.mp hempty
    by_cases howners : D.owners.erase m = []
    · have he : s.release m mg D = _ := if_pos howners
      exact he ▸ .expired hempty howners
    · have he : s.release m mg D = _ := if_neg howners
      exact he ▸ .released hempty howners
  | epollDel b n d =>
    obtain ⟨rfl, rfl⟩ := hinj hs
    exact .unwatched
  | closeServer b n d =>
    cases d with
    | none =>
      obtain ⟨rfl, rfl⟩ := hinj hs
      exact .closedUnserved
    | some d =>
      obtain ⟨rfl, rfl⟩ := hinj hs
      exact .closedServer
  | closeServed b d =>
    obtain ⟨rfl, rfl⟩ := hinj hs
    exact .closedServed
  | stop =>
    simp only [call] at hs
    split_ifs at hs with hrun
    · obtain ⟨rfl, rfl⟩ := hinj hs
      exact .stopping hrun
    · obtain ⟨rfl, rfl⟩ := hinj hs
      exact .unstarted (by simpa using hrun)
  | join =>
    simp only [call] at hs
    split_ifs at hs with hloop
    obtain ⟨rfl, rfl⟩ := hinj hs
    exact .joined hloop
  | clear =>
    obtain ⟨rfl, rfl⟩ := hinj hs
    exact .cleared

lemma sendmsg_cases {client d : ℕ} {x : Output × Publisher}
    (hx : s.sendmsg client d result = x) : Sends s client d x.1 x.2 := by
  simp only [sendmsg] at hx
  split at hx
  · rename_i f c hd hclient
    split at hx
    · rename_i hnone
      subst hx
      refine .failed ?_
      intro f' c' conn _ hclient' hconn
      obtain rfl := File.connection.inj (Option.some.inj (hclient.symm.trans hclient'))
      exact nomatch hnone.symm.trans hconn
    · rename_i conn hconn
      split at hx
      · rename_i hclosed
        exact hx ▸ .killed hd hclient hconn hclosed
      · rename_i hclosed
        have hopen : conn.closed = false := by simpa using hclosed
        split at hx
        · subst hx
          refine .failed ?_
          intro f' c' conn' _ hclient' hconn'
          obtain rfl := File.connection.inj (Option.some.inj (hclient.symm.trans hclient'))
          obtain rfl := Option.some.inj (hconn.symm.trans hconn')
          exact hopen
        · exact hx ▸ .sent hd hclient hconn hopen
  · rename_i hno
    subst hx
    exact .failed fun f c _ hd hclient _ => absurd hclient (hno f c hd)

lemma dispatch_cases {l : Loop} (hs : s.dispatch k D result l = some (o, u)) :
    Dispatches s k D result l o u := by
  have hinj : ∀ {x : Output × Publisher}, some x = some (o, u) → x.1 = o ∧ x.2 = u :=
    fun h => Prod.mk.inj (Option.some.inj h)
  cases l with
  | wait => exact nomatch hs
  | handle events =>
    cases events with
    | nil =>
      obtain ⟨rfl, rfl⟩ := hinj hs
      exact .handled
    | cons n events =>
      simp only [dispatch] at hs
      split at hs
      · obtain ⟨rfl, rfl⟩ := hinj hs
        exact .missed ‹_›
      · obtain ⟨rfl, rfl⟩ := hinj hs
        exact .found ‹_›
  | accept n d events =>
    cases result with
    | none =>
      obtain ⟨rfl, rfl⟩ := hinj hs
      exact .unaccepted
    | some client =>
      simp only [dispatch, accept] at hs
      split at hs
      · rename_i hn
        split at hs
        · rename_i hqueue
          split_ifs at hs with hclient
          obtain ⟨rfl, rfl⟩ := hinj hs
          exact .accepted hn hqueue (by simpa using hclient)
        · exact nomatch hs
      · exact nomatch hs
  | send client d events =>
    obtain ⟨rfl, rfl⟩ := hinj hs
    exact .sent (sendmsg_cases rfl)
  | close client events =>
    obtain ⟨rfl, rfl⟩ := hinj hs
    exact .closed
  | exited => exact nomatch hs

lemma construct_case (s : Publisher) (ok : Bool) :
    StepCase s (.construct ok) (.constructed s.nextManager) (s.construct ok) := by
  generalize hu : s.construct ok = u
  cases hc : s.cached with
  | none =>
    simp only [construct, hc, Option.bind_none] at hu
    exact hu ▸ .constructed (by simp [hc])
  | some k =>
    cases hD : s.dispatchers k with
    | none =>
      simp only [construct, hc, hD, Option.bind_some, Option.map_none] at hu
      refine hu ▸ .constructed ?_
      intro k' hk'
      obtain rfl := Option.some.inj (hc.symm.trans hk')
      exact hD
    | some D =>
      simp only [construct, hc, hD, Option.bind_some, Option.map_some] at hu
      exact hu ▸ .shared hc hD

lemma step_cases (hs : s.step e = some (o, u)) : StepCase s e o u := by
  have hinj : ∀ {x : Output × Publisher}, some x = some (o, u) → x.1 = o ∧ x.2 = u :=
    fun h => Prod.mk.inj (Option.some.inj h)
  simp only [step] at hs
  split_ifs at hs
  cases e with
  | construct ok =>
    obtain ⟨rfl, rfl⟩ := hinj hs
    exact construct_case s ok
  | registerBlock m b e =>
    simp only at hs
    split at hs
    · exact nomatch hs
    · rename_i mg hm
      split at hs
      · exact nomatch hs
      · rename_i hcall
        have hcall : mg.call = none := by simpa using hcall
        split at hs
        · rename_i info hinfo
          obtain ⟨rfl, rfl⟩ := hinj hs
          exact .repeated hm hcall hinfo
        · rename_i hnone
          split_ifs at hs with he
          obtain ⟨rfl, rfl⟩ := hinj hs
          exact .registering hm hcall hnone he
  | call m result =>
    simp only at hs
    split at hs
    · exact nomatch hs
    · rename_i mg hm
      split at hs
      · rename_i hc hD
        exact .called hm hc hD (call_cases hs)
      · exact nomatch hs
  | destroy m =>
    simp only at hs
    split at hs
    · exact nomatch hs
    · rename_i mg hm
      split_ifs at hs with hcall
      obtain ⟨rfl, rfl⟩ := hinj hs
      exact .destroying hm (by simpa using hcall)
  | removeSocket m b =>
    simp only at hs
    split at hs
    · exact nomatch hs
    · rename_i mg hm
      split_ifs at hs with hcall
      split at hs
      · rename_i hinfo hD
        obtain ⟨rfl, rfl⟩ := hinj hs
        exact .removing hm (not_not.mp hcall) hinfo hD
      · exact nomatch hs
  | epollWait k ready =>
    simp only at hs
    split at hs
    · exact nomatch hs
    · rename_i D hD
      split_ifs at hs with hloop hrun hready
      · obtain ⟨rfl, rfl⟩ := hinj hs
        exact .exiting hD (not_not.mp hloop) (by simpa using hrun)
      · obtain ⟨rfl, rfl⟩ := hinj hs
        exact .woken hD (not_not.mp hloop) (by simpa using hrun) (List.all_eq_true.mp hready.2.2)
  | dispatch k result =>
    simp only at hs
    split at hs
    · exact nomatch hs
    · rename_i D hD
      exact .dispatched hD (dispatch_cases hs)
  | connect path =>
    simp only at hs
    split at hs
    · exact nomatch hs
    · rename_i hbound
      split at hs
      · exact nomatch hs
      · rename_i hqueue
        obtain ⟨rfl, rfl⟩ := hinj hs
        exact .connected hbound hqueue
  | disconnect c =>
    simp only at hs
    split at hs
    · exact nomatch hs
    · rename_i hconn
      obtain ⟨rfl, rfl⟩ := hinj hs
      exact .disconnected hconn
  | «export» m b n =>
    simp only at hs
    split_ifs at hs with hg
    obtain ⟨rfl, rfl⟩ := hinj hs
    exact .exported (by simpa using hg.2)
  | closeExported n =>
    simp only at hs
    split at hs
    · rename_i hn
      split_ifs at hs with hcall
      obtain ⟨rfl, rfl⟩ := hinj hs
      refine .closedExported hn ?_
      intro mg hm
      simpa [hm] using hcall
    · exact nomatch hs
  | «open» n x =>
    simp only at hs
    split_ifs at hs with hn
    obtain ⟨rfl, rfl⟩ := hinj hs
    exact .opened (by simpa using hn)
  | close n =>
    simp only at hs
    split at hs
    · rename_i hn
      obtain ⟨rfl, rfl⟩ := hinj hs
      exact .closed hn
    · exact nomatch hs

end Publisher

end RosidlBufferBackends.Dispatcher
