import DistStore.Proofs.BackwardPeer
import DistStore.Proofs.SocketEvents
import DistStore.Proofs.SocketFrame
import DistStore.Proofs.TableRange

/-! Which sockets a node still holds when it is idle. It keeps track of five descriptors; any
other socket it opened for a request is lost unless the handler closes it. -/

namespace DSS

namespace Sockets

variable {io : SocketIo} {s s' : Sockets}

/-! ## The invariant -/

/-- A socket stays known over a pass in which each variable keeps its descriptor, or had none
that was open. -/
theorem kept_of_pass {o : Finset ℕ} {L F B I C L' F' B' I' C' : Option ℕ} {fd : ℕ}
    (h : ∀ fd ∈ o, some fd ∈ [L, F, B, I, C])
    (hnew : fd ∈ o ∨ some fd ∈ [L', F', B', I', C'])
    (hL : L' = L ∨ ∀ fd ∈ L, fd ∉ o) (hF : F' = F ∨ ∀ fd ∈ F, fd ∉ o)
    (hB : B' = B ∨ ∀ fd ∈ B, fd ∉ o) (hI : I' = I ∨ ∀ fd ∈ I, fd ∉ o)
    (hC : C' = C ∨ ∀ fd ∈ C, fd ∉ o) : some fd ∈ [L', F', B', I', C'] := by
  rcases hnew with ho | hk
  · have hmem := h fd ho
    simp only [List.mem_cons, List.not_mem_nil, or_false] at hmem ⊢
    rcases hmem with he | he | he | he | he
    · rcases hL with hL | hL
      · exact .inl (he.trans hL.symm)
      · exact absurd ho (hL fd he.symm)
    · rcases hF with hF | hF
      · exact .inr (.inl (he.trans hF.symm))
      · exact absurd ho (hF fd he.symm)
    · rcases hB with hB | hB
      · exact .inr (.inr (.inl (he.trans hB.symm)))
      · exact absurd ho (hB fd he.symm)
    · rcases hI with hI | hI
      · exact .inr (.inr (.inr (.inl (he.trans hI.symm))))
      · exact absurd ho (hI fd he.symm)
    · rcases hC with hC | hC
      · exact .inr (.inr (.inr (.inr (he.trans hC.symm))))
      · exact absurd ho (hC fd he.symm)
  · exact hk

/-- The node knows every socket it holds: it is kept, or the packet to be handled came on it. -/
structure Tracked (s : Sockets) : Prop where
  held : ∀ fd ∈ s.opened, some fd ∈ s.kept ∨ s.loop.sv.state = .receivedPacket ∧ fd = s.loop.fromFd
  listening : s.loop.sv.state = .booting ∨ s.listenerFd.isSome
  booting : s.loop.sv.state = .booting → s.opened = ∅
  fresh : s.loop.sv.state = .booting ∨ s.loop.sv.state = .connecting →
    (¬ s.loop.sv.peerF.statusOpen → s.loop.sv.peerF.streamFd = none) ∧
      (¬ s.loop.sv.peerB.statusOpen → s.loop.sv.peerB.streamFd = none)

theorem tracked_started (opts : Args) (index : XPeerConnection) (st : MainLoop) :
    Tracked (started opts index st) :=
  ⟨fun fd hfd => absurd hfd (Finset.notMem_empty fd), .inl rfl, fun _ => rfl,
    fun _ => ⟨fun _ => rfl, fun _ => rfl⟩⟩

theorem step_cases (h : s.step io = some s') :
    s.loop.pass io.toPassIo = some s'.loop ∧
      s'.opened = (s.events io).foldl SocketEvent.apply s.opened ∧
      (s.loop.sv.state ≠ .booting → s'.listenerFd = s.listenerFd) := by
  obtain ⟨loop, hpass, rfl⟩ := Option.map_eq_some_iff.mp h
  exact ⟨hpass, rfl, fun hstate => if_neg hstate⟩

theorem Replaces.track {new old : Option ℕ} (h : s.Replaces new old) :
    new.or old = old ∨ ∀ fd ∈ old, fd ∉ s.opened := by
  cases new with
  | none => exact .inl rfl
  | some fd => exact .inr (h rfl)

/-- All but the packet's own connection, before the packet is there. -/
theorem Tracked.kept (h : Tracked s) (hstate : s.loop.sv.state ≠ .receivedPacket) :
    ∀ fd ∈ s.opened, some fd ∈ s.kept :=
  fun fd hfd => (h.held fd hfd).resolve_right fun hr => hstate hr.1

theorem Tracked.pass (h : Tracked s) (hb : s.loop.sv.state ≠ .booting)
    (hc : s.loop.sv.state ≠ .connecting) (hlistener : s'.listenerFd = s.listenerFd)
    (hlater : s'.loop.sv.state = s.loop.sv.state ∨
      s'.loop.sv.state ≠ .booting ∧ s'.loop.sv.state ≠ .connecting)
    (hheld : ∀ fd ∈ s'.opened, some fd ∈ s'.kept ∨
      s'.loop.sv.state = .receivedPacket ∧ fd = s'.loop.fromFd) : Tracked s' := by
  have hnot : s'.loop.sv.state ≠ .booting ∧ s'.loop.sv.state ≠ .connecting := by
    rcases hlater with hs | hs
    · rw [hs]
      exact ⟨hb, hc⟩
    · exact hs
  refine ⟨hheld, .inr ?_, fun hs => absurd hs hnot.1, fun hs => ?_⟩
  · rw [hlistener]
    exact h.listening.resolve_left hb
  · exact (hs.elim hnot.1 hnot.2).elim

theorem Tracked.boot (h : Tracked s) (hstate : s.loop.sv.state = .booting)
    (hstep : s.step io = some s') : Tracked s' := by
  obtain ⟨loop, hpass, rfl⟩ := Option.map_eq_some_iff.mp hstep
  unfold MainLoop.pass at hpass
  simp only [hstate] at hpass
  split_ifs at hpass with hlisten
  cases hpass
  have hevents : s.events io = [.opened io.listenFd] := by
    unfold events
    simp only [hstate, if_pos hlisten]
  rw [hevents, h.booting hstate]
  refine ⟨fun fd hfd => .inl ?_, .inr ?_, fun hs => (by cases hs), fun _ => h.fresh (.inl hstate)⟩
  · rw [List.foldl_cons, List.foldl_nil, SocketEvent.apply, Finset.mem_insert] at hfd
    rw [hfd.resolve_right (Finset.notMem_empty fd), Sockets.kept, if_pos hstate]
    exact List.mem_cons_self ..
  · rw [if_pos hstate]
    rfl

/-- A peer that has no socket while it is not open: the pass loses none of its sockets, and
leaves it so. -/
theorem peerAfter_fresh {accept : Option ℕ} {peer : XPeerConnection}
    (h : ¬ peer.statusOpen → peer.streamFd = none) (o : Finset ℕ) :
    ((peerAfter accept peer).streamFd = peer.streamFd ∨ ∀ fd ∈ peer.streamFd, fd ∉ o) ∧
      (¬ (peerAfter accept peer).statusOpen → (peerAfter accept peer).streamFd = none) := by
  rcases peerAfter_cases accept peer with he | ⟨hclosed, hopen⟩
  · rw [he]
    exact ⟨.inl rfl, h⟩
  · refine ⟨.inr fun fd hfd => ?_, fun hno => absurd hopen hno⟩
    rw [h hclosed] at hfd
    cases hfd

theorem peerAfter_fd (io : SocketIo) (sv : Server) :
    (peerAfter io.accept sv.peerB).streamFd = (acceptedPeerB io sv).or sv.peerB.streamFd := by
  unfold peerAfter acceptedPeerB
  split_ifs
  · rfl
  · cases io.accept <;> rfl

theorem peerDialed_fd (io : SocketIo) (sv : Server) :
    (peerDialed io.dial sv.peerF).streamFd = (dialedPeerF io sv).or sv.peerF.streamFd := by
  unfold peerDialed dialedPeerF
  split_ifs
  · rfl
  · cases io.dial sv.peerF.ip <;> rfl

/-- The two connections of `SERVER_CONNECTING` go where none was. -/
theorem Tracked.connecting (h : Tracked s) (hstate : s.loop.sv.state = .connecting)
    (hstep : s.step io = some s') : Tracked s' := by
  obtain ⟨hpass, hopened, hlistener⟩ := step_cases hstep
  have hlistener := hlistener (by simp [hstate])
  have hlisten : s'.listenerFd.isSome := by
    rw [hlistener]
    exact h.listening.resolve_left (by simp [hstate])
  unfold MainLoop.pass at hpass
  simp only [hstate] at hpass
  have hsv : s'.loop.sv = serverConnecting io.accept io.dial s.loop.sv := by
    rw [← Option.some.inj hpass]
    rfl
  have hevents : s.events io =
      openedBy (acceptedPeerB io s.loop.sv) ++ openedBy (dialedPeerF io s.loop.sv) := by
    unfold events
    simp only [hstate]
  obtain ⟨hfreshF, hfreshB⟩ := h.fresh (.inr hstate)
  obtain ⟨hkeepsF, hclosedF⟩ := @peerAfter_fresh (io.dial s.loop.sv.peerF.ip) _ hfreshF s.opened
  obtain ⟨hkeepsB, hclosedB⟩ := @peerAfter_fresh io.accept _ hfreshB s.opened
  rw [← peerDialed_eq] at hkeepsF hclosedF
  have hheld : ∀ fd ∈ s'.opened, some fd ∈ [s'.listenerFd,
      (peerDialed io.dial s.loop.sv.peerF).streamFd, (peerAfter io.accept s.loop.sv.peerB).streamFd,
      s.loop.sv.index.streamFd, s.loop.sv.clientFd] := by
    intro fd hfd
    refine kept_of_pass (h.kept (by simp [hstate])) ?_ (.inl hlistener) hkeepsF hkeepsB (.inl rfl)
      (.inl rfl)
    rw [hopened, hevents, List.foldl_append, mem_openedBy, mem_openedBy] at hfd
    rcases hfd with (ho | hnew) | hnew
    · exact .inl ho
    · rw [peerAfter_fd, hnew]
      exact .inr (by simp)
    · rw [peerDialed_fd, hnew]
      exact .inr (by simp)
  rw [serverConnecting_eq] at hsv
  split_ifs at hsv
  · refine ⟨fun fd hfd => .inl ?_, .inr hlisten, fun hs => ?_, fun hs => ?_⟩
    · rw [Sockets.kept, hsv]
      exact hheld fd hfd
    · rw [hsv] at hs
      cases hs
    · rw [hsv] at hs
      rcases hs with hs | hs <;> cases hs
  · refine ⟨fun fd hfd => .inl ?_, .inr hlisten, fun hs => ?_, fun _ => ?_⟩
    · rw [Sockets.kept, hsv]
      exact hheld fd hfd
    · rw [hsv] at hs
      exact absurd (hstate.symm.trans hs) (by decide)
    · rw [hsv]
      exact ⟨hclosedF, hclosedB⟩

/-- A pass that keeps the descriptors, and what it opened it closes. -/
theorem Tracked.silent (h : Tracked s) (hb : s.loop.sv.state ≠ .booting)
    (hc : s.loop.sv.state ≠ .connecting) (hkept : ∀ fd ∈ s.opened, some fd ∈ s.kept)
    (hstep : s.step io = some s') (hkeeps : KeepsFds s.loop.sv s'.loop.sv)
    (hshrinks : Shrinks (s.events io)) : Tracked s' := by
  obtain ⟨-, hopened, hlistener⟩ := step_cases hstep
  refine h.pass hb hc (hlistener hb) hkeeps.later fun fd hfd => .inl ?_
  rw [hopened] at hfd
  rw [Sockets.kept, hlistener hb, hkeeps.peerF, hkeeps.peerB, hkeeps.index, hkeeps.clientFd]
  exact hkept fd (hshrinks _ hfd)

/-! ## SERVER_IDLE -/

/-- A client's descriptor is put where no open socket is, and a connection that sends a packet
is the packet's. -/
theorem idleAccept_fds {st st' : MainLoop} (hkeeps : KeepsAccepted io s)
    (hclient : st.sv.clientFd = s.loop.sv.clientFd)
    (h : MainLoop.idleAccept io.toPassIo st = some st') :
    KeepsFds { st.sv with clientFd := st'.sv.clientFd } st'.sv ∧
      (st'.sv.clientFd = st.sv.clientFd ∨ s.Free st.sv.clientFd) ∧
      ∀ o fd, fd ∈ (idleAcceptEvents io).foldl SocketEvent.apply o →
        fd ∈ o ∨ st'.sv.clientFd = some fd ∨ st'.sv.state = .receivedPacket ∧ fd = st'.fromFd := by
  unfold MainLoop.idleAccept at h
  unfold KeepsAccepted at hkeeps
  unfold idleAcceptEvents
  cases haccept : io.accept with
  | none =>
    rw [haccept] at h
    cases h
    exact ⟨.refl _, .inl rfl, fun o fd hfd => .inl hfd⟩
  | some c =>
    rw [haccept] at h hkeeps
    obtain ⟨r, rs, hconn, ⟨hrefused, rfl⟩ | ⟨huser, rfl⟩ | ⟨hnode, r', rs', rfl, ⟨hend, rfl⟩ | ⟨hend, rfl⟩⟩⟩ :=
      MainLoop.idleAccepted_cases h
    all_goals rw [hconn] at hkeeps ⊢; dsimp only at hkeeps ⊢
    · rw [if_pos hrefused]
      exact ⟨.refl _, .inl rfl, fun o fd hfd => .inl (shrinks_opened_closed c o hfd)⟩
    · rw [if_neg (by rw [huser]; decide)]
      refine ⟨.refl _, .inr ?_, fun o fd hfd => ?_⟩
      · rw [hclient]
        exact hkeeps.1 huser
      · rcases mem_opened.mp hfd with ho | rfl
        · exact .inl ho
        · exact .inr (.inl rfl)
    · exact absurd (congrArg some hend) (hkeeps.2 hnode.1 hnode.2)
    · rw [if_neg hnode.1]
      refine ⟨.setState st.sv ⟨by decide, by decide⟩, .inl rfl, fun o fd hfd => ?_⟩
      exact (mem_opened.mp hfd).imp id fun hnew => .inr ⟨rfl, hnew⟩

/-- What the idle node serves: its client, or a new connection. -/
theorem idleServe_fds {st' : MainLoop} {sv : Server} (hkeeps : KeepsIdle io s)
    (hsv : sv.clientFd = s.loop.sv.clientFd)
    (h : MainLoop.idleServe io.toPassIo (s.loop.withServer sv) = some st') :
    ∃ evs, idleEvents io s.loop =
        openedBy (redialed io.dial io.peerB
          (MainLoop.serverHealthcheck io.peekZero s.loop.sv)) ++ evs ∧
      KeepsFds { sv with clientFd := st'.sv.clientFd } st'.sv ∧
      (st'.sv.clientFd = sv.clientFd ∨ s.Free sv.clientFd) ∧
      ∀ o fd, fd ∈ evs.foldl SocketEvent.apply o →
        fd ∈ o ∨ st'.sv.clientFd = some fd ∨ st'.sv.state = .receivedPacket ∧ fd = st'.fromFd := by
  refine ⟨_, rfl, ?_⟩
  obtain ⟨-, hkeeps⟩ := hkeeps
  unfold MainLoop.idleServe at h
  have hclient : (s.loop.withServer sv).sv.clientFd = s.loop.sv.clientFd := hsv
  rw [hclient] at h
  cases hfd : s.loop.sv.clientFd with
  | none =>
    rw [hfd] at h hkeeps
    exact idleAccept_fds hkeeps hclient h
  | some fd =>
    rw [hfd] at h hkeeps
    cases hdata : io.clientData with
    | none =>
      rw [hdata] at h hkeeps
      exact idleAccept_fds hkeeps hclient h
    | some r =>
      rw [hdata] at h hkeeps
      dsimp only at h hkeeps ⊢
      by_cases hclosed : r = some []
      · rw [if_pos hclosed] at h
        cases h
        refine ⟨.refl _, .inr fun fd' hfd' => ?_, fun o fd' hfd' => .inl hfd'⟩
        obtain rfl := Option.some.inj (hfd.symm.trans (hsv.symm.trans hfd'))
        exact hkeeps hclosed
      · rw [if_neg hclosed] at h
        cases h
        exact ⟨.setState sv ⟨by decide, by decide⟩, .inl rfl, fun o fd' hfd' => .inl hfd'⟩

theorem Tracked.idle (h : Tracked s) (hstate : s.loop.sv.state = .idle) (hkeeps : KeepsIdle io s)
    (hstep : s.step io = some s') : Tracked s' := by
  obtain ⟨hpass, hopened, hlistener⟩ := step_cases hstep
  have hlistener := hlistener (by simp [hstate])
  unfold MainLoop.pass at hpass
  simp only [hstate] at hpass
  obtain ⟨sv, hcheck, hserve⟩ := Option.bind_eq_some_iff.mp hpass
  have hhealth := keepsFds_healthcheck io.peekZero s.loop.sv
  obtain ⟨hF, hcheck⟩ := checkPeerB_fds hcheck
  rw [hhealth.peerF] at hF
  have hB := hcheck.peerB.trans hhealth.peerB
  have hI := hcheck.index.trans hhealth.index
  have hC := hcheck.clientFd.trans hhealth.clientFd
  obtain ⟨evs, hevs, hserved, hclient, hnew⟩ := idleServe_fds hkeeps hC hserve
  have hevents : s.events io = idleEvents io s.loop := by
    unfold events
    simp only [hstate]
  rw [hevents, hevs, List.foldl_append] at hopened
  have hlater := later_trans (later_trans hhealth.later hcheck.later) hserved.later
  refine h.pass (by simp [hstate]) (by simp [hstate]) hlistener hlater fun fd hfd => ?_
  have hknown (hfd : fd ∈ s.opened ∨ some fd ∈ s'.kept) : some fd ∈ s'.kept := by
    refine kept_of_pass (h.kept (by simp [hstate])) hfd (.inl hlistener) ?_
      (.inl (hserved.peerB.trans hB)) (.inl (hserved.index.trans hI)) ?_
    · rw [hserved.peerF, hF]
      exact hkeeps.1.track
    · rw [← hC]
      exact hclient
  rw [hopened] at hfd
  rcases hnew _ fd hfd with hold | hkept | hreceived
  · rcases mem_openedBy.mp hold with hold | hdialed
    · exact .inl (hknown (.inl hold))
    · refine .inl (hknown (.inr ?_))
      rw [Sockets.kept, hserved.peerF, hF, hdialed]
      simp
  · refine .inl (hknown (.inr ?_))
    rw [Sockets.kept, hkept]
    simp
  · exact .inr hreceived

/-! ## The connections to the peers and the index -/

theorem Tracked.waitingNewPeer (h : Tracked s) (hstate : s.loop.sv.state = .waitingNewPeer)
    (hkeeps : s.Replaces (acceptedPeerB io s.loop.sv) s.loop.sv.peerB.streamFd)
    (hstep : s.step io = some s') : Tracked s' := by
  obtain ⟨hpass, hopened, hlistener⟩ := step_cases hstep
  have hlistener := hlistener (by simp [hstate])
  unfold MainLoop.pass at hpass
  simp only [hstate] at hpass
  have hsv : s'.loop.sv = serverWaitingNewPeer io.accept s.loop.sv := by
    rw [← Option.some.inj hpass]
    rfl
  have hB := (congrArg XPeerConnection.streamFd (serverWaitingNewPeer_peerB io.accept s.loop.sv)).trans
    (peerAfter_fd io s.loop.sv)
  have hevents : s.events io = openedBy (acceptedPeerB io s.loop.sv) := by
    unfold events
    simp only [hstate]
  obtain ⟨hF, hI, hC, hlater⟩ := serverWaitingNewPeer_fds io.accept s.loop.sv
  rw [← hsv] at hB hF hI hC hlater
  refine h.pass (by simp [hstate]) (by simp [hstate]) hlistener hlater fun fd hfd => .inl ?_
  refine kept_of_pass (h.kept (by simp [hstate])) ?_ (.inl hlistener) (.inl hF) ?_ (.inl hI) (.inl hC)
  · rw [hopened, hevents] at hfd
    refine (mem_openedBy.mp hfd).imp id fun hnew => ?_
    rw [hB, hnew]
    simp
  · rw [hB]
    exact hkeeps.track

/-- A pass that dials the index. -/
theorem Tracked.dialedIndex (h : Tracked s) (hb : s.loop.sv.state ≠ .booting)
    (hc : s.loop.sv.state ≠ .connecting) (hkept : ∀ fd ∈ s.opened, some fd ∈ s.kept)
    (hreplaces : s.Replaces (io.dial s.loop.sv.index.ip) s.loop.sv.index.streamFd)
    (hstep : s.step io = some s')
    (hdials : DialsIndex io.dial s.loop.sv s'.loop.sv)
    (hevents : ∀ o fd, fd ∈ (s.events io).foldl SocketEvent.apply o →
      fd ∈ o ∨ io.dial s.loop.sv.index.ip = some fd) : Tracked s' := by
  obtain ⟨-, hopened, hlistener⟩ := step_cases hstep
  have hlistener := hlistener hb
  refine h.pass hb hc hlistener hdials.keeps.later fun fd hfd => .inl ?_
  refine kept_of_pass hkept ?_ (.inl hlistener) (.inl hdials.keeps.peerF)
    (.inl hdials.keeps.peerB) ?_ (.inl hdials.keeps.clientFd)
  · rw [hopened] at hfd
    refine (hevents _ fd hfd).imp id fun hnew => ?_
    rw [hdials.streamFd, hnew]
    simp
  · rw [hdials.streamFd]
    exact hreplaces.track

theorem Tracked.reportKnowledge (h : Tracked s) (hstate : s.loop.sv.state = .reportKnowledgeToIndex)
    (hkeeps : s.Replaces (io.dial s.loop.sv.index.ip) s.loop.sv.index.streamFd)
    (hstep : s.step io = some s') : Tracked s' := by
  have hpass := (step_cases hstep).1
  unfold MainLoop.pass at hpass
  simp only [hstate] at hpass
  have hevents : s.events io = openedBy (io.dial s.loop.sv.index.ip) := by
    unfold events
    simp only [hstate]
  refine h.dialedIndex (by simp [hstate]) (by simp [hstate]) (h.kept (by simp [hstate])) hkeeps hstep
    (dialsIndex_reportKnowledge hpass) fun o fd hfd => ?_
  rw [hevents] at hfd
  exact mem_openedBy.mp hfd

/-! ## SERVER_RECEIVED_PACKET -/

/-- The client's connection is kept, whatever it asks for. -/
theorem Tracked.requested (h : Tracked s) (hclient : s.loop.sv.clientFd = some s.loop.fromFd) :
    ∀ fd ∈ s.opened, some fd ∈ s.kept := by
  intro fd hfd
  rcases h.held fd hfd with hk | ⟨-, rfl⟩
  · exact hk
  · rw [Sockets.kept, hclient]
    simp

/-- The index refuses a file it does not have, and closes the connection. -/
theorem Tracked.refused (h : Tracked s) (hstate : s.loop.sv.state = .receivedPacket)
    (hnone : typeRequestFileIndex s.loop.sv s.loop.node.fs s.loop.packet = none)
    (hstep : s.step io = some s') (hloop : s'.loop = MainLoop.receivedRequestIndex s.loop)
    (hevents : s.events io = serverCloseSocket s.listenerFd s.loop.fromFd) : Tracked s' := by
  have hb : s.loop.sv.state ≠ .booting := by simp [hstate]
  obtain ⟨-, hopened, hlistener⟩ := step_cases hstep
  have hlistener := hlistener hb
  unfold MainLoop.receivedRequestIndex at hloop
  rw [hnone] at hloop
  dsimp only at hloop
  rw [serverCloseSocket, if_pos (h.listening.resolve_left hb)] at hevents
  refine h.pass hb (by simp [hstate]) hlistener ?_ fun fd hfd => .inl ?_
  · rw [hloop]
    exact .inr ⟨by simp [MainLoop.setState, MainLoop.withServer, MainLoop.sv, serverSetState],
      by simp [MainLoop.setState, MainLoop.withServer, MainLoop.sv, serverSetState]⟩
  · rw [hopened, hevents, List.foldl_cons, List.foldl_nil, SocketEvent.apply, Finset.mem_erase] at hfd
    rw [Sockets.kept, hlistener, hloop]
    exact (h.held fd hfd.2).resolve_right fun hr => hfd.1 hr.2

theorem Tracked.receivedPacket (h : Tracked s) (hstate : s.loop.sv.state = .receivedPacket)
    (hkeeps : KeepsRequest io s) (hstep : s.step io = some s') : Tracked s' := by
  have hb : s.loop.sv.state ≠ .booting := by simp [hstate]
  have hc : s.loop.sv.state ≠ .connecting := by simp [hstate]
  have hpass := (step_cases hstep).1
  unfold MainLoop.pass at hpass
  simp only [hstate] at hpass
  have hevents : s.events io = receivedPacketEvents io s.listenerFd s.loop := by
    unfold events
    simp only [hstate]
  unfold MainLoop.serverReceivedPacket at hpass
  unfold receivedPacketEvents at hevents
  rcases hkeeps with ⟨htype, hindex, hnone⟩ | ⟨hclient, hdials, hdelivers⟩
  · rw [if_neg (by rw [htype]; decide), if_neg (by rw [htype]; decide), if_pos htype, if_pos hindex]
      at hpass hevents
    rw [if_pos hnone] at hevents
    exact h.refused hstate hnone hstep (Option.some.inj hpass).symm hevents
  have hkept := h.requested hclient
  by_cases hcreate : commType s.loop.packet = TYPE_CREATE_FILE
  · rw [if_pos hcreate] at hpass hevents
    by_cases hindex : serverIsIndex s.loop.sv
    · rw [if_pos hindex] at hevents
      refine h.silent hb hc hkept hstep (keepsFds_receivedCreateFile hindex hpass) ?_
      rw [hevents]
      exact shrinks_nil
    · rw [if_neg hindex] at hevents
      refine h.dialedIndex hb hc hkept (hdials (.inl hcreate) hindex) hstep
        (dialsIndex_receivedCreateFile hindex hpass) fun o fd hfd => ?_
      rw [hevents] at hfd
      exact mem_openedBy.mp hfd
  rw [if_neg hcreate] at hpass hevents
  by_cases hstore : commType s.loop.packet = TYPE_STORE_FRAGMENT
  · rw [if_pos hstore] at hpass hevents
    refine h.silent hb hc hkept hstep ?_ ?_
    · rw [← Option.some.inj hpass]
      exact .setState s.loop.sv ⟨by decide, by decide⟩
    · rw [hevents]
      exact shrinks_nil
  rw [if_neg hstore] at hpass hevents
  by_cases hfile : commType s.loop.packet = TYPE_REQUEST_FILE
  · rw [if_pos hfile] at hpass hevents
    by_cases hindex : serverIsIndex s.loop.sv
    · rw [if_pos hindex] at hpass hevents
      refine h.silent hb hc hkept hstep ?_ ?_
      · rw [← Option.some.inj hpass]
        exact keepsFds_receivedRequestIndex s.loop
      · rw [hevents]
        split_ifs
        · exact shrinks_serverCloseSocket s.listenerFd s.loop.fromFd
        · exact shrinks_nil
    · rw [if_neg hindex] at hpass hevents
      refine h.dialedIndex hb hc hkept (hdials (.inr hfile) hindex) hstep
        (dialsIndex_receivedRequestGateway hpass) fun o fd hfd => ?_
      rw [hevents] at hfd
      exact mem_receivedRequestGatewayEvents hfd
  rw [if_neg hfile] at hpass hevents
  refine h.silent hb hc hkept hstep ?_ ?_
  · rw [← Option.some.inj hpass]
    exact .setState s.loop.sv ⟨by decide, by decide⟩
  · rw [hevents]
    by_cases hfrag : commType s.loop.packet = TYPE_REQUEST_FRAG
    · rw [if_pos hfrag]
      exact shrinks_procedureEvents (h.listening.resolve_left hb) (hdelivers hfrag)
    · rw [if_neg hfrag]
      exact shrinks_nil

/-! ## Runs -/

/-- A pass of a state that asks for no condition on its connections to the ring. -/
theorem Tracked.quiet {state : EServerState} (h : Tracked s) (hstate : s.loop.sv.state = state)
    (hlater : state ≠ .booting ∧ state ≠ .connecting ∧ state ≠ .receivedPacket)
    (hstep : s.step io = some s') (hkeeps : KeepsFds s.loop.sv s'.loop.sv)
    (hshrinks : Shrinks (s.events io)) : Tracked s' := by
  subst hstate
  exact h.silent hlater.1 hlater.2.1 (h.kept hlater.2.2) hstep hkeeps hshrinks

/-- `SERVER_WAITING_RAW_PACKETS` and the like have no socket call. -/
theorem Tracked.socketless {state : EServerState} (h : Tracked s) (hstate : s.loop.sv.state = state)
    (hsocketless : state ∈ [.beginOperation, .waitingRawPackets, .receivedFragment,
      .indexPresentItself, .indexHandleNewFile, .waitIndexGossip])
    (hstep : s.step io = some s') (hkeeps : KeepsFds s.loop.sv s'.loop.sv) : Tracked s' := by
  have hevents : s.events io = [] := by
    unfold events
    simp only [hstate]
    simp only [List.mem_cons, List.not_mem_nil, or_false] at hsocketless
    rcases hsocketless with rfl | rfl | rfl | rfl | rfl | rfl <;> rfl
  refine h.quiet hstate ?_ hstep hkeeps ?_
  · simp only [List.mem_cons, List.not_mem_nil, or_false] at hsocketless
    rcases hsocketless with rfl | rfl | rfl | rfl | rfl | rfl <;> decide
  · rw [hevents]
    exact shrinks_nil

theorem Tracked.step (h : Tracked s) (htrack : KeepsTrack io s) (hstep : s.step io = some s') :
    Tracked s' := by
  have hpass := (step_cases hstep).1
  have hlistener (hb : s.loop.sv.state ≠ .booting) := h.listening.resolve_left hb
  unfold MainLoop.pass at hpass
  unfold KeepsTrack at htrack
  cases hstate : s.loop.sv.state <;> simp only [hstate] at hpass htrack
  case booting => exact h.boot hstate hstep
  case connecting => exact h.connecting hstate hstep
  case idle => exact h.idle hstate htrack hstep
  case waitingNewPeer => exact h.waitingNewPeer hstate htrack hstep
  case reportKnowledgeToIndex => exact h.reportKnowledge hstate htrack hstep
  case receivedPacket => exact h.receivedPacket hstate htrack hstep
  case beginOperation =>
    exact h.socketless hstate (by decide) hstep (keepsFds_beginOperation hpass)
  case waitingRawPackets =>
    exact h.socketless hstate (by decide) hstep (keepsFds_waitingRawPackets hpass)
  case indexHandleNewFile =>
    exact h.socketless hstate (by decide) hstep (keepsFds_handleNewFile hpass)
  case indexPresentItself =>
    exact h.socketless hstate (by decide) hstep (keepsFds_indexPresentItself hpass)
  case waitIndexGossip =>
    exact h.socketless hstate (by decide) hstep (keepsFds_waitIndexGossip hpass)
  case receivedFragment =>
    refine h.socketless hstate (by decide) hstep ?_
    rw [← Option.some.inj hpass]
    exact .setState s.loop.sv ⟨by decide, by decide⟩
  case waitRequestFragments =>
    refine h.quiet hstate (by decide) hstep (keepsFds_waitRequestFragments hpass) ?_
    unfold events
    simp only [hstate]
    exact shrinks_waitRequestFragmentsEvents (hlistener (by simp [hstate])) htrack
  case indexWaitingPeersKnowledge =>
    refine h.quiet hstate (by decide) hstep (keepsFds_indexWaitingPeersKnowledge hpass) ?_
    unfold events
    simp only [hstate]
    exact shrinks_indexWaitingPeersKnowledgeEvents (hlistener (by simp [hstate])) hpass
  case indexFanoutFragments =>
    refine h.quiet hstate (by decide) hstep (keepsFds_fanoutFragments hpass) ?_
    unfold events
    simp only [hstate]
    exact shrinks_fanoutEvents htrack
  case indexRequestFragments =>
    refine h.quiet hstate (by decide) hstep (keepsFds_requestFragments hpass) ?_
    unfold events
    simp only [hstate]
    exact shrinks_requestFragmentsEvents (hlistener (by simp [hstate])) htrack

theorem Tracked.run {ios : List SocketIo} (h : Tracked s)
    (htrack : Transition.Along Sockets.step KeepsTrack s ios)
    (hrun : Transition.run Sockets.step s ios = some s') : Tracked s' := by
  induction ios generalizing s with
  | nil =>
    cases hrun
    exact h
  | cons io ios ih =>
    obtain ⟨t, hstep, hrun⟩ := Transition.run_cons.mp hrun
    exact ih (h.step htrack.1 hstep) (htrack.2 t hstep) hrun

end Sockets

/-- An idle node keeps track of every socket it holds, after any run whose passes each keep
track of the connections they open and receive on. -/
theorem no_descriptor_leak (opts : Args) (index : XPeerConnection) (st : MainLoop)
    (ios : List SocketIo)
    (htrack : Transition.Along Sockets.step Sockets.KeepsTrack (Sockets.started opts index st) ios)
    (s : Sockets) (hrun : Transition.run Sockets.step (Sockets.started opts index st) ios = some s)
    (hidle : s.loop.sv.state = .idle) : ∀ fd ∈ s.opened, some fd ∈ s.kept := by
  have htracked := (Sockets.tracked_started opts index st).run htrack hrun
  exact htracked.kept (by simp [hidle])

/-! ## Two nodes of three -/

/-- `io` at a node that listens on 3; a dial of the pass returns `fd`. -/
def socketIo (io : PassIo) (fd : Option ℕ) : SocketIo :=
  { io with
    dial := fun _ => fd
    listenFd := 3
    dialed := fun _ => none
    waits := fun _ _ => none }

/-- A node starts, and has both its peers. -/
def startIos : List SocketIo :=
  [socketIo (passIo false none none none) none, socketIo (passIo false none none (some 5)) (some 6),
    socketIo (passIo false none none none) none]

/-- The index takes both reports, and refuses a file that node 2 asks for. -/
def refusedIos : List SocketIo :=
  startIos ++ [socketIo (passIo false none none none) none,
    socketIo (connectionIo 7 (emptyReport 1)) none, socketIo (connectionIo 8 (emptyReport 2)) none,
    socketIo (connectionIo 9 [some (xpacketPresentation (Cluster.three.bootedServer 2)),
      some (requestPacket 2)]) none,
    socketIo (passIo false none none none) none]

/-- Node 2 reports to the index, and stores a fragment that the index sends it. -/
def storedIos : List SocketIo :=
  startIos ++ [socketIo (passIo false
      (some (serverIndexPresentItself (Cluster.three.bootedServer 3)).2) none none) none,
    socketIo { passIo false none none none with
      index := [some (xpacketOk (Cluster.three.bootedServer 3))] } (some 7),
    socketIo (connectionIo 9 [some (xpacketPresentation (Cluster.three.bootedServer 3)),
      some (xpacketSendFragment (Cluster.three.bootedServer 3) ⟨[97], 1, 1, 1, 0, 1, 1⟩)]) none,
    socketIo (passIo false none none none) none, socketIo (connectionIo 9 [some [7]]) none,
    socketIo (passIo false none none none) none]

def startedSockets (n : ℕ) : Sockets :=
  Sockets.started (Cluster.three.args n) ⟨0, Address.zero, none, false⟩ servingNode

theorem no_descriptor_leak_refused :
    ∃ s ∈ Transition.run Sockets.step (startedSockets 3) refusedIos,
      s.loop.sv.state = .idle ∧ s.opened = {3, 5, 6} ∧ ∀ fd ∈ s.opened, some fd ∈ s.kept := by
  have hrun : (Transition.run Sockets.step (startedSockets 3) refusedIos).isSome := by
    decide +kernel
  obtain ⟨s, hs⟩ := Option.isSome_iff_exists.mp hrun
  have hend : ∀ s ∈ Transition.run Sockets.step (startedSockets 3) refusedIos,
      s.loop.sv.state = .idle ∧ s.opened = {3, 5, 6} := by
    decide +kernel
  obtain ⟨hidle, hopened⟩ := hend s hs
  exact ⟨s, hs, hidle, hopened,
    no_descriptor_leak _ _ _ refusedIos (by decide +kernel) s hs hidle⟩

/-- The connection on which the fragment came is still open when node 2 is idle again. -/
theorem not_no_descriptor_leak :
    ¬ ∀ (opts : Args) (index : XPeerConnection) (st : MainLoop) (ios : List SocketIo) (s : Sockets),
      Transition.run Sockets.step (Sockets.started opts index st) ios = some s →
        s.loop.sv.state = .idle → ∀ fd ∈ s.opened, some fd ∈ s.kept := by
  intro hall
  have hrun : ∃ s ∈ Transition.run Sockets.step (startedSockets 2) storedIos,
      s.loop.sv.state = .idle ∧ 9 ∈ s.opened ∧ some 9 ∉ s.kept := by
    decide +kernel
  obtain ⟨s, hs, hidle, hopened, hlost⟩ := hrun
  exact hlost (hall _ _ _ storedIos s hs hidle 9 hopened)

end DSS
