import DistStore.Model.ClientConnection
import DistStore.Proofs.Sockets

/-! `client_fd` between the requests. A pass closes what it opened itself, with one exception:
the index closes the connection on which it refused a file. -/

namespace DSS

open Transition Sockets

/-! ## Events -/

/-- Only descriptors that were opened before are closed; `own` are those opened so far. -/
def OwnCloses : List ℕ → List SocketEvent → Prop
  | _, [] => True
  | own, .opened fd :: evs => OwnCloses (fd :: own) evs
  | own, .closed fd :: evs => fd ∈ own ∧ OwnCloses own evs

section events

variable {own own' : List ℕ} {evs evs' : List SocketEvent} {held clients : Finset ℕ} {fd : ℕ}

theorem OwnCloses.mono (h : OwnCloses own evs) (hsub : own ⊆ own') : OwnCloses own' evs := by
  induction evs generalizing own own' with
  | nil => trivial
  | cons ev evs ih =>
    cases ev with
    | opened fd =>
      have hrest : OwnCloses (fd :: own) evs := h
      exact ih hrest (List.cons_subset_cons fd hsub)
    | closed fd => exact ⟨hsub h.1, ih h.2 hsub⟩

theorem OwnCloses.append (h : OwnCloses own evs) (h' : OwnCloses [] evs') :
    OwnCloses own (evs ++ evs') := by
  induction evs generalizing own with
  | nil => exact h'.mono (List.nil_subset own)
  | cons ev evs ih =>
    cases ev with
    | opened fd =>
      have hrest : OwnCloses (fd :: own) evs := h
      exact ih hrest
    | closed fd => exact ⟨h.1, ih h.2⟩

theorem ownCloses_flatMap {α : Type} {l : List α} {f : α → List SocketEvent}
    (h : ∀ a ∈ l, OwnCloses [] (f a)) : OwnCloses [] (l.flatMap f) := by
  induction l with
  | nil => trivial
  | cons a l ih =>
    obtain ⟨ha, hl⟩ := List.forall_mem_cons.mp h
    rw [List.flatMap_cons]
    exact ha.append (ih hl)

theorem ownCloses_openedBy (x : Option ℕ) : OwnCloses own (openedBy x) := by
  cases x <;> trivial

theorem ownCloses_serverCloseSocket (listenerFd : Option ℕ) (h : fd ∈ own) :
    OwnCloses own (serverCloseSocket listenerFd fd) := by
  unfold serverCloseSocket
  split_ifs
  · exact ⟨h, trivial⟩
  · trivial

theorem ownCloses_procedureEvents (listenerFd x : Option ℕ) (done : Bool) :
    OwnCloses [] (procedureEvents listenerFd x done) := by
  cases x with
  | none => trivial
  | some fd =>
    unfold procedureEvents
    split_ifs
    · exact ownCloses_serverCloseSocket listenerFd (List.mem_cons_self ..)
    · trivial

/-- What was open before survives such events: none of them opens it again, so none closes it. -/
theorem OwnCloses.survives (h : OwnCloses own evs) (hfresh : FreshFds held evs) (hown : fd ∉ own)
    (hfd : fd ∈ held) (hclient : fd ∈ clients) :
    fd ∈ evs.foldl SocketEvent.apply held ∧ fd ∈ evs.foldl SocketEvent.forget clients := by
  induction evs generalizing own held clients with
  | nil => exact ⟨hfd, hclient⟩
  | cons ev evs ih =>
    cases ev with
    | opened c =>
      obtain ⟨hc, hfresh⟩ := hfresh
      have hne : fd ≠ c := by
        rintro rfl
        exact hc hfd
      have hrest : OwnCloses (c :: own) evs := h
      exact ih hrest hfresh (List.not_mem_cons_of_ne_of_not_mem hne hown)
        (Finset.mem_insert_of_mem hfd) (Finset.mem_erase_of_ne_of_mem hne hclient)
    | closed c =>
      have hne : fd ≠ c := by
        rintro rfl
        exact hown h.1
      exact ih h.2 hfresh hown (Finset.mem_erase_of_ne_of_mem hne hfd)
        (Finset.mem_erase_of_ne_of_mem hne hclient)

end events

/-! ## The events of a pass -/

section passes

variable {io : SocketIo} {s s' : Sockets}

theorem ownCloses_idleEvents (st : MainLoop) : OwnCloses [] (idleEvents io st) := by
  unfold idleEvents
  refine (ownCloses_openedBy _).append ?_
  have haccept : OwnCloses [] (idleAcceptEvents io) := by
    unfold idleAcceptEvents
    split
    · split_ifs
      · exact ⟨List.mem_cons_self .., trivial⟩
      · trivial
    · exact ownCloses_openedBy _
  split
  · trivial
  · exact haccept

theorem ownCloses_receivedRequestGatewayEvents (listenerFd : Option ℕ) (st : MainLoop) :
    OwnCloses [] (receivedRequestGatewayEvents io listenerFd st) := by
  unfold receivedRequestGatewayEvents
  split
  · trivial
  · split
    · split_ifs
      · exact ownCloses_serverCloseSocket listenerFd (List.mem_cons_self ..)
      · trivial
    · trivial

theorem ownCloses_fanoutEvents (st : MainLoop) : OwnCloses [] (fanoutEvents io st) := by
  unfold fanoutEvents
  split
  · trivial
  · refine ownCloses_flatMap fun entry _ => ?_
    split_ifs
    · trivial
    · exact ownCloses_openedBy _

theorem ownCloses_requestFragmentsEvents (listenerFd : Option ℕ) (st : MainLoop) :
    OwnCloses [] (requestFragmentsEvents io listenerFd st) := by
  unfold requestFragmentsEvents
  split
  · trivial
  · refine ownCloses_flatMap ?_
    rintro ⟨order, i⟩ -
    cases order with
    | useLocal => exact ownCloses_procedureEvents _ _ _
    | sendFragment => exact ownCloses_procedureEvents _ _ _
    | requestFragment => exact ownCloses_procedureEvents _ _ _

theorem ownCloses_waitRequestFragmentsEvents (listenerFd : Option ℕ) (st : MainLoop) :
    OwnCloses [] (waitRequestFragmentsEvents io listenerFd st) := by
  unfold waitRequestFragmentsEvents
  split_ifs
  · split
    · split_ifs
      · trivial
      · exact ownCloses_serverCloseSocket listenerFd (List.mem_cons_self ..)
    · exact ownCloses_openedBy _
  · trivial

theorem ownCloses_indexWaitingPeersKnowledgeEvents (listenerFd : Option ℕ) (st : MainLoop) :
    OwnCloses [] (indexWaitingPeersKnowledgeEvents io listenerFd st) := by
  unfold indexWaitingPeersKnowledgeEvents
  split
  · split_ifs
    · exact ⟨List.mem_cons_self .., trivial⟩
    · exact ownCloses_serverCloseSocket listenerFd (List.mem_cons_self ..)
  · exact ownCloses_openedBy _
  · trivial

theorem typeRequestFileIndex_eq_none_iff {sv : Server} {fs : XFileServer} {p : XPacket} :
    typeRequestFileIndex sv fs p = none ↔
      xfileserverFindFileByName fs (XRequestFile.ofContent (content p)).name = none := by
  unfold typeRequestFileIndex
  cases hfind : xfileserverFindFileByName fs (XRequestFile.ofContent (content p)).name with
  | none => exact iff_of_true rfl rfl
  | some slot =>
    have hlt : slot < fs.files.length := (List.findIdx?_eq_some_iff_getElem.mp hfind).1
    rw [Option.bind_eq_bind, Option.bind_some, List.getElem?_eq_getElem hlt]
    exact iff_of_false (Option.some_ne_none _) (Option.some_ne_none _)

theorem ownCloses_receivedPacketEvents (listenerFd : Option ℕ) {st : MainLoop}
    (hstate : st.sv.state = .receivedPacket) (h : ¬ Refuses st) :
    OwnCloses [] (receivedPacketEvents io listenerFd st) := by
  unfold receivedPacketEvents
  split_ifs with _ _ _ hrequest hindex hnone
  · trivial
  · exact ownCloses_openedBy _
  · trivial
  · exact absurd ⟨hstate, hrequest, hindex, typeRequestFileIndex_eq_none_iff.mp hnone⟩ h
  · trivial
  · exact ownCloses_receivedRequestGatewayEvents listenerFd st
  · exact ownCloses_procedureEvents _ _ _
  · trivial

theorem ownCloses_events (h : ¬ Refuses s.loop) : OwnCloses [] (s.events io) := by
  unfold events
  dsimp only
  cases hstate : s.loop.sv.state with
  | booting =>
    dsimp only
    split_ifs <;> trivial
  | connecting => exact (ownCloses_openedBy _).append (ownCloses_openedBy _)
  | waitingNewPeer => exact ownCloses_openedBy _
  | idle => exact ownCloses_idleEvents s.loop
  | receivedPacket => exact ownCloses_receivedPacketEvents s.listenerFd hstate h
  | waitRequestFragments => exact ownCloses_waitRequestFragmentsEvents s.listenerFd s.loop
  | indexWaitingPeersKnowledge =>
    exact ownCloses_indexWaitingPeersKnowledgeEvents s.listenerFd s.loop
  | indexFanoutFragments => exact ownCloses_fanoutEvents s.loop
  | indexRequestFragments => exact ownCloses_requestFragmentsEvents s.listenerFd s.loop
  | reportKnowledgeToIndex => exact ownCloses_openedBy _
  | beginOperation => trivial
  | waitingRawPackets => trivial
  | receivedFragment => trivial
  | indexPresentItself => trivial
  | indexHandleNewFile => trivial
  | waitIndexGossip => trivial

/-- A refusal closes the connection the request came on. -/
theorem events_of_refuses (h : Refuses s.loop) :
    s.events io = serverCloseSocket s.listenerFd s.loop.fromFd := by
  obtain ⟨hstate, hrequest, hindex, hnone⟩ := h
  unfold events
  simp only [hstate]
  unfold receivedPacketEvents
  rw [if_neg (by rw [hrequest]; decide), if_neg (by rw [hrequest]; decide), if_pos hrequest,
    if_pos hindex, if_pos (typeRequestFileIndex_eq_none_iff.mpr hnone)]

end passes

/-! ## `client_fd` in a pass -/

section clientFd

variable {io : PassIo} {st st' : MainLoop}

theorem serverReceivedPacket_clientFd (h : MainLoop.serverReceivedPacket io st = some st') :
    st'.sv.clientFd = st.sv.clientFd := by
  unfold MainLoop.serverReceivedPacket at h
  split_ifs at h with hcreate hstore hrequest hindex
  · by_cases hindex : serverIsIndex st.sv
    · exact (keepsFds_receivedCreateFile hindex h).clientFd
    · exact (dialsIndex_receivedCreateFile hindex h).keeps.clientFd
  · cases h
    rfl
  · cases h
    exact (keepsFds_receivedRequestIndex st).clientFd
  · exact (dialsIndex_receivedRequestGateway h).keeps.clientFd
  · cases h
    rfl

theorem serverConnecting_clientFd (accept : Option ℕ) (dial : Address → Option ℕ) (sv : Server) :
    (serverConnecting accept dial sv).clientFd = sv.clientFd := by
  rw [serverConnecting_eq]
  split_ifs <;> rfl

/-- No other state than `SERVER_IDLE` changes `client_fd`. -/
theorem pass_clientFd (h : MainLoop.pass io st = some st') (hstate : st.sv.state ≠ .idle) :
    st'.sv.clientFd = st.sv.clientFd := by
  unfold MainLoop.pass at h
  cases hst : st.sv.state <;> simp only [hst] at h
  case booting =>
    split_ifs at h
    cases h
    rfl
  case connecting =>
    cases h
    exact serverConnecting_clientFd _ _ _
  case idle => exact absurd hst hstate
  case waitingNewPeer =>
    cases h
    exact (serverWaitingNewPeer_fds io.accept st.sv).2.2.1
  case reportKnowledgeToIndex => exact (dialsIndex_reportKnowledge h).keeps.clientFd
  case receivedPacket => exact serverReceivedPacket_clientFd h
  case beginOperation => exact (keepsFds_beginOperation h).clientFd
  case waitingRawPackets => exact (keepsFds_waitingRawPackets h).clientFd
  case indexHandleNewFile => exact (keepsFds_handleNewFile h).clientFd
  case indexPresentItself => exact (keepsFds_indexPresentItself h).clientFd
  case waitIndexGossip => exact (keepsFds_waitIndexGossip h).clientFd
  case receivedFragment =>
    cases h
    rfl
  case waitRequestFragments => exact (keepsFds_waitRequestFragments h).clientFd
  case indexWaitingPeersKnowledge => exact (keepsFds_indexWaitingPeersKnowledge h).clientFd
  case indexFanoutFragments => exact (keepsFds_fanoutFragments h).clientFd
  case indexRequestFragments => exact (keepsFds_requestFragments h).clientFd

theorem idleAccept_clientFd {loop : MainLoop} (hloop : loop.sv.clientFd = st.sv.clientFd)
    (hstate : st.sv.state = .idle) (haccepts : st.sv.clientFd = none ∨ io.clientData = none)
    (h : MainLoop.idleAccept io loop = some st') :
    st'.sv.clientFd = st.sv.clientFd ∨
      ∃ c, st'.sv.clientFd = some c ∧ presentedClient io st = some c := by
  unfold presentedClient
  rw [if_pos ⟨hstate, haccepts⟩]
  unfold MainLoop.idleAccept at h
  cases haccept : io.accept with
  | none =>
    rw [haccept] at h
    cases h
    exact .inl hloop
  | some c =>
    rw [haccept] at h
    obtain ⟨r, rs, hconn, ⟨-, rfl⟩ | ⟨huser, rfl⟩ | ⟨-, r', rs', rfl, ⟨-, rfl⟩ | ⟨-, rfl⟩⟩⟩ :=
      MainLoop.idleAccepted_cases h
    · exact .inl hloop
    · rw [hconn]
      dsimp only
      rw [if_pos huser]
      exact .inr ⟨c, rfl, rfl⟩
    · exact .inl hloop
    · exact .inl hloop

/-- The idle node keeps `client_fd`, clears it, or puts the client in it that was presented. -/
theorem serverIdle_clientFd (hstate : st.sv.state = .idle)
    (h : MainLoop.serverIdle io st = some st') :
    st'.sv.clientFd = st.sv.clientFd ∨ st'.sv.clientFd = none ∨
      ∃ c, st'.sv.clientFd = some c ∧ presentedClient io st = some c := by
  obtain ⟨sv, hcheck, hserve⟩ := Option.bind_eq_some_iff.mp h
  have hsv : (st.withServer sv).sv.clientFd = st.sv.clientFd :=
    (checkPeerB_fds hcheck).2.clientFd.trans (keepsFds_healthcheck io.peekZero st.sv).clientFd
  unfold MainLoop.idleServe at hserve
  rw [hsv] at hserve
  cases hfd : st.sv.clientFd with
  | none =>
    rw [hfd] at hserve
    rw [← hfd]
    exact (idleAccept_clientFd hsv hstate (.inl hfd) hserve).imp_right .inr
  | some fd =>
    rw [hfd] at hserve
    rw [← hfd]
    cases hdata : io.clientData with
    | none =>
      rw [hdata] at hserve
      exact (idleAccept_clientFd hsv hstate (.inr hdata) hserve).imp_right .inr
    | some r =>
      rw [hdata] at hserve
      dsimp only at hserve
      split_ifs at hserve
      · cases hserve
        exact .inr (.inl rfl)
      · cases hserve
        exact .inl hsv

end clientFd

theorem pass_of_refuses {io : PassIo} {st : MainLoop} (h : Refuses st) :
    MainLoop.pass io st = some (st.setState .idle) := by
  obtain ⟨hstate, hrequest, hindex, hnone⟩ := h
  unfold MainLoop.pass
  simp only [hstate]
  unfold MainLoop.serverReceivedPacket
  rw [if_neg (by rw [hrequest]; decide), if_neg (by rw [hrequest]; decide), if_pos hrequest,
    if_pos hindex]
  unfold MainLoop.receivedRequestIndex
  rw [typeRequestFileIndex_eq_none_iff.mpr hnone]

theorem presentedClient_opened {io : SocketIo} {s : Sockets} {c : ℕ}
    (h : presentedClient io.toPassIo s.loop = some c) (held : Finset ℕ) :
    c ∈ (s.events io).foldl SocketEvent.apply held := by
  unfold presentedClient at h
  split_ifs at h with hcond
  obtain ⟨hstate, haccepts⟩ := hcond
  split at h
  · rename_i c' r rs haccept hconn
    split_ifs at h with huser
    obtain rfl := Option.some.inj h
    have hserved : s.events io = openedBy (redialed io.dial io.peerB
        (MainLoop.serverHealthcheck io.peekZero s.loop.sv)) ++ [.opened c'] := by
      have haccepted : idleAcceptEvents io = [.opened c'] := by
        unfold idleAcceptEvents
        simp only [haccept, hconn, huser]
        rfl
      unfold events
      simp only [hstate]
      unfold idleEvents
      rw [haccepted]
      rcases haccepts with hnone | hnone
      · rw [hnone]
      · rw [hnone]
        cases s.loop.sv.clientFd <;> rfl
    rw [hserved, List.foldl_append]
    exact Finset.mem_insert_self _ _
  · cases h

namespace Connections

/-! ## Runs -/

variable {io : SocketIo} {s t : Connections}

structure Inv (s : Connections) : Prop where
  live : s.ClientLive
  listening : s.state = .booting ∨ s.sockets.listenerFd.isSome = true

theorem inv_started (opts : Args) (index : XPeerConnection) (st : MainLoop) :
    Inv (started opts index st) := by
  refine ⟨?_, .inl rfl⟩
  intro fd hfd
  cases hfd

theorem step_cases (h : s.step io = some t) :
    s.sockets.step io = some t.sockets ∧ t.clients =
      (s.sockets.events io).foldl SocketEvent.forget s.clients ∪
        (presentedClient io.toPassIo s.sockets.loop).toFinset := by
  obtain ⟨sockets, hstep, rfl⟩ := Option.map_eq_some_iff.mp h
  exact ⟨hstep, rfl⟩

theorem step_listening {io : SocketIo} {s t : Sockets}
    (h : s.loop.sv.state = .booting ∨ s.listenerFd.isSome = true) (hstep : s.step io = some t) :
    t.listenerFd.isSome = true := by
  obtain ⟨loop, -, rfl⟩ := Option.map_eq_some_iff.mp hstep
  dsimp only
  split_ifs with hboot
  · rfl
  · exact h.resolve_left hboot

/-- A pass that does not refuse the client leaves its connection as it is. -/
theorem ClientLive.survives (h : s.ClientLive) (hnot : ¬ s.RefusesClient)
    (hfresh : FreshFds s.sockets.opened (s.sockets.events io)) {fd : ℕ} (hfd : s.clientFd = some fd) :
    fd ∈ (s.sockets.events io).foldl SocketEvent.apply s.sockets.opened ∧
      fd ∈ (s.sockets.events io).foldl SocketEvent.forget s.clients := by
  obtain ⟨hopen, hclient⟩ := h fd hfd
  by_cases hrefuses : Refuses s.sockets.loop
  · have hne : fd ≠ s.sockets.loop.fromFd := by
      rintro rfl
      exact hnot ⟨hrefuses, hfd⟩
    rw [events_of_refuses hrefuses]
    unfold serverCloseSocket
    split_ifs
    · exact ⟨Finset.mem_erase_of_ne_of_mem hne hopen, Finset.mem_erase_of_ne_of_mem hne hclient⟩
    · exact ⟨hopen, hclient⟩
  · exact (ownCloses_events hrefuses).survives hfresh List.not_mem_nil hopen hclient

theorem Inv.step (h : Inv s) (hnot : ¬ s.RefusesClient)
    (hfresh : FreshFds s.sockets.opened (s.sockets.events io)) (hstep : s.step io = some t) :
    Inv t := by
  obtain ⟨hsockets, hclients⟩ := step_cases hstep
  obtain ⟨hpass, hopened, hlistener⟩ := Sockets.step_cases hsockets
  constructor
  · intro fd hfd
    rw [hopened, hclients]
    have hsame (heq : t.clientFd = s.clientFd) :
        fd ∈ (s.sockets.events io).foldl SocketEvent.apply s.sockets.opened ∧
          fd ∈ (s.sockets.events io).foldl SocketEvent.forget s.clients ∪
            (presentedClient io.toPassIo s.sockets.loop).toFinset := by
      have hfd' : s.clientFd = some fd := heq.symm.trans hfd
      exact (h.live.survives hnot hfresh hfd').imp_right fun hmem => Finset.mem_union_left _ hmem
    by_cases hidle : s.sockets.loop.sv.state = .idle
    · have hserve : MainLoop.serverIdle io.toPassIo s.sockets.loop = some t.sockets.loop := by
        unfold MainLoop.pass at hpass
        simpa only [hidle] using hpass
      rcases serverIdle_clientFd hidle hserve with heq | hnone | ⟨c, hc, hpresented⟩
      · exact hsame heq
      · have hfd' : t.sockets.loop.sv.clientFd = some fd := hfd
        rw [hnone] at hfd'
        cases hfd'
      · obtain rfl : c = fd := Option.some.inj (hc.symm.trans hfd)
        refine ⟨presentedClient_opened hpresented _, Finset.mem_union_right _ ?_⟩
        rw [hpresented]
        exact Finset.mem_singleton_self c
    · exact hsame (pass_clientFd hpass hidle)
  · exact .inr (step_listening h.listening hsockets)

/-- The refusal leaves the node idle, with a `client_fd` that it just closed. -/
theorem Inv.not_clientLive_of_refuses (h : Inv s) (hrefuses : s.RefusesClient) :
    ∃ t ∈ s.step io, t.state = .idle ∧ ¬ t.ClientLive := by
  obtain ⟨hloop, hfd⟩ := hrefuses
  have hlistening : s.sockets.listenerFd.isSome = true := by
    refine h.listening.resolve_left fun hboot => ?_
    have hstate : s.sockets.loop.sv.state = .receivedPacket := hloop.1
    rw [show s.sockets.loop.sv.state = .booting from hboot] at hstate
    cases hstate
  have hevents : s.sockets.events io = [.closed s.sockets.loop.fromFd] := by
    rw [events_of_refuses hloop, serverCloseSocket, if_pos hlistening]
  have hstep : s.sockets.step io = some
      { loop := s.sockets.loop.setState .idle
        listenerFd := if s.sockets.loop.sv.state = .booting then some io.listenFd
          else s.sockets.listenerFd
        opened := s.sockets.opened.erase s.sockets.loop.fromFd } := by
    unfold Sockets.step
    rw [pass_of_refuses hloop, hevents]
    rfl
  refine ⟨_, Option.map_eq_some_iff.mpr ⟨_, hstep, rfl⟩, rfl, fun hlive => ?_⟩
  exact Finset.notMem_erase _ _ (hlive _ hfd).1

/-- A pass leaves an idle node with a live client unless it refuses that client a file. -/
theorem Inv.clientLive_iff (h : Inv s) (hfresh : FreshFds s.sockets.opened (s.sockets.events io)) :
    (∀ t ∈ s.step io, t.state = .idle → t.ClientLive) ↔ ¬ s.RefusesClient := by
  constructor
  · intro hlive hrefuses
    obtain ⟨t, ht, hidle, hdead⟩ := h.not_clientLive_of_refuses hrefuses
    exact hdead (hlive t ht hidle)
  · intro hnot t ht _
    exact (h.step hnot hfresh ht).live

end Connections

/-- Along every run of a node whose system gives out no open descriptor, `client_fd` is a live
client's in every idle state exactly as long as the index refuses no request that came on it. -/
theorem client_fd_live_iff (opts : Args) (index : XPeerConnection) (st : MainLoop)
    (ios : List SocketIo) (hfresh : Along Connections.step
      (fun io s => FreshFds s.sockets.opened (s.sockets.events io))
      (Connections.started opts index st) ios) :
    Along Connections.step (fun io s => ∀ t ∈ s.step io, t.state = .idle → t.ClientLive)
        (Connections.started opts index st) ios ↔
      Along Connections.step (fun _ s => ¬ s.RefusesClient) (Connections.started opts index st) ios :=
  along_iff (fun _ _ h hfresh => h.clientLive_iff hfresh)
    (fun _ _ _ h hfresh hnot hstep => h.step hnot hfresh hstep)
    (Connections.inv_started opts index st) hfresh

/-! ## A client of node 3 -/

/-- The client connects with the number of a connection that was closed. -/
def clientIos : List SocketIo :=
  refusedIos ++ [socketIo (connectionIo 9 [some (clientPacket TYPE_PRESENT_ITSELF [])]) none]

/-- It asks for a file the index does not have. -/
def unknownFileIos : List SocketIo :=
  clientIos ++ [socketIo (passIo false none (some (some (requestPacket CLIENT_NODE_ID))) none) none,
    socketIo (passIo false none none none) none]

def startedConnections : Connections :=
  Connections.started (Cluster.three.args 3) ⟨0, Address.zero, none, false⟩ servingNode

theorem client_fd_live_reused :
    (∃ s ∈ run Connections.step startedConnections clientIos, s.clientFd = some 9) ∧
      Along Connections.step (fun io s => ∀ t ∈ s.step io, t.state = .idle → t.ClientLive)
        startedConnections clientIos :=
  ⟨by decide +kernel,
    (client_fd_live_iff _ _ _ clientIos (by decide +kernel)).mpr (by decide +kernel)⟩

/-- The connection is closed, and stays in `client_fd`. -/
theorem not_client_fd_live :
    ¬ ∀ (opts : Args) (index : XPeerConnection) (st : MainLoop) (ios : List SocketIo),
      Along Connections.step (fun io s => FreshFds s.sockets.opened (s.sockets.events io))
        (Connections.started opts index st) ios →
      ∀ t ∈ run Connections.step (Connections.started opts index st) ios, t.state = .idle →
        t.ClientLive := by
  intro hall
  have hfresh : Along Connections.step (fun io s => FreshFds s.sockets.opened (s.sockets.events io))
      startedConnections unknownFileIos := by
    decide +kernel
  have hrun : ∃ t ∈ run Connections.step startedConnections unknownFileIos,
      t.state = .idle ∧ ¬ t.ClientLive := by
    decide +kernel
  obtain ⟨t, ht, hidle, hdead⟩ := hrun
  exact hdead (hall _ _ _ unknownFileIos hfresh t ht hidle)

end DSS
