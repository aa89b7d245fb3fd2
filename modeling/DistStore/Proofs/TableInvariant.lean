import DistStore.Proofs.PassCases
import DistStore.Proofs.PlacementSlots
import DistStore.Proofs.TableFrame

/-! What a node's peer table is along every run of its main loop: as long as the node's own
id, known up to the others once it serves, and no entry of a file names a greater id. -/

namespace DSS

/-! ## The invariant -/

/-- A new index, until its last peer has reported. -/
def GathersPeers (state : EServerState) : Prop :=
  state = .indexPresentItself ∨ state = .indexWaitingPeersKnowledge

instance (state : EServerState) : Decidable (GathersPeers state) :=
  inferInstanceAs (Decidable (_ ∨ _))

def FromNodeOrClient (N id : ℕ) : Prop := (1 ≤ id ∧ id ≤ N) ∨ id = CLIENT_NODE_ID

instance (N id : ℕ) : Decidable (FromNodeOrClient N id) := inferInstanceAs (Decidable (_ ∨ _))

namespace MainLoop

structure TableInv (N n : ℕ) (st : MainLoop) : Prop where
  me : st.sv.me.nodeId = n
  peerB : st.sv.peerB.nodeId = backwardId n N
  length : ∀ d, st.sv.indexData = some d → d.peerIps.length = n
  known : ¬ GathersPeers st.sv.state → ∀ d, st.sv.indexData = some d → d.knownPeers = n - 1
  presents : st.sv.state = .indexPresentItself →
    st.sv.netSize = n ∧ ∃ d, st.sv.indexData = some d ∧ d.knownPeers = 0
  gathers : st.sv.state = .indexWaitingPeersKnowledge →
    st.sv.netSize = n ∧ st.sv.connected < N ∧
      ∃ d, st.sv.indexData = some d ∧ d.knownPeers = st.sv.connected
  entries : EntriesUpTo n st.node.fnetidx
  packet : st.sv.state = .receivedPacket → commType st.packet = TYPE_REQUEST_FILE →
    FromNodeOrClient N (commSenderId st.packet)
  deliverTo : st.sv.state = .indexRequestFragments → FromNodeOrClient N st.deliverTo

variable {N n : ℕ} {st st' : MainLoop} {io : PassIo}

/-- The states whose branch needs nothing of what came before. -/
def Plain (state : EServerState) : Prop :=
  ¬ GathersPeers state ∧ state ≠ .receivedPacket ∧ state ≠ .indexRequestFragments

instance (state : EServerState) : Decidable (Plain state) :=
  inferInstanceAs (Decidable (_ ∧ _ ∧ _))

theorem TableInv.keep (h : TableInv N n st) (hst : ¬ GathersPeers st.sv.state)
    (hsame : SameTable st.sv st'.sv) (hnet : EntriesUpTo n st'.node.fnetidx)
    (hst' : ¬ GathersPeers st'.sv.state)
    (hpacket : st'.sv.state = .receivedPacket → commType st'.packet = TYPE_REQUEST_FILE →
      FromNodeOrClient N (commSenderId st'.packet))
    (hdeliver : st'.sv.state = .indexRequestFragments → FromNodeOrClient N st'.deliverTo) :
    TableInv N n st' where
  me := (congrArg XWhoAmI.nodeId hsame.me).trans h.me
  peerB := hsame.peerB.trans h.peerB
  length d' hd' := by
    obtain ⟨d, hd, hlen, -⟩ := hsame.table d' hd'
    exact hlen.trans (h.length d hd)
  known _ d' hd' := by
    obtain ⟨d, hd, -, hknown⟩ := hsame.table d' hd'
    exact hknown.trans (h.known hst d hd)
  presents hp := absurd (.inl hp) hst'
  gathers hg := absurd (.inr hg) hst'
  entries := hnet
  packet := hpacket
  deliverTo := hdeliver

theorem TableInv.plain (h : TableInv N n st) (hst : ¬ GathersPeers st.sv.state)
    (hsame : SameTable st.sv st'.sv) (hnet : st'.node.fnetidx = st.node.fnetidx)
    (hst' : Plain st'.sv.state) : TableInv N n st' :=
  h.keep hst hsame (hnet ▸ h.entries) hst'.1 (fun hp => absurd hp hst'.2.1)
    (fun hd => absurd hd hst'.2.2)

/-! ## The passes of the states that keep the table -/

theorem TableInv.booting (h : TableInv N n st) (hstate : st.sv.state = .booting)
    (hpass : pass io st = some st') : TableInv N n st' := by
  simp only [pass, hstate] at hpass
  split_ifs at hpass
  obtain rfl := Option.some.inj hpass
  exact h.plain (by rw [hstate]; decide) (.of_eq rfl rfl rfl) rfl (by decide : Plain .connecting)

theorem TableInv.connecting (h : TableInv N n st) (hstate : st.sv.state = .connecting)
    (hpass : pass io st = some st') : TableInv N n st' := by
  simp only [pass, hstate] at hpass
  obtain rfl := Option.some.inj hpass
  obtain ⟨hsame, hnext⟩ := sameTable_serverConnecting io.accept io.dial st.sv
  refine h.plain (by rw [hstate]; decide) hsame rfl ?_
  show Plain (serverConnecting io.accept io.dial st.sv).state
  rcases hnext with hnext | hnext <;> rw [hnext]
  · rw [hstate]
    decide
  · decide

theorem TableInv.waitingNewPeer (h : TableInv N n st) (hstate : st.sv.state = .waitingNewPeer)
    (hpass : pass io st = some st') : TableInv N n st' := by
  simp only [pass, hstate] at hpass
  obtain rfl := Option.some.inj hpass
  obtain ⟨hsame, hnext⟩ := sameTable_serverWaitingNewPeer io.accept st.sv
  refine h.plain (by rw [hstate]; decide) hsame rfl ?_
  show Plain (serverWaitingNewPeer io.accept st.sv).state
  rcases hnext with hnext | hnext | hnext <;> rw [hnext]
  · rw [hstate]
    decide
  · decide
  · decide

theorem TableInv.waitIndexGossip (h : TableInv N n st) (hstate : st.sv.state = .waitIndexGossip)
    (hpass : pass io st = some st') : TableInv N n st' := by
  simp only [pass, hstate] at hpass
  rw [waitIndexGossip_cases hpass]
  exact h.plain (by rw [hstate]; decide) (.of_eq rfl rfl rfl) rfl
    (by decide : Plain .reportKnowledgeToIndex)

theorem TableInv.reportKnowledge (h : TableInv N n st)
    (hstate : st.sv.state = .reportKnowledgeToIndex) (hpass : pass io st = some st') :
    TableInv N n st' := by
  have hst : ¬ GathersPeers st.sv.state := by rw [hstate]; decide
  simp only [pass, hstate] at hpass
  rcases reportKnowledge_cases hpass with ⟨-, rfl⟩ | ⟨sv, hdial, rfl | rfl⟩
  · exact h
  · have hsv : sv.state = .reportKnowledgeToIndex := by
      obtain ⟨fd, -, rfl⟩ := Option.map_eq_some_iff.mp hdial
      exact hstate
    exact h.plain hst (sameTable_serverDialIndex hdial) rfl (by rw [withServer_sv, hsv]; decide)
  · exact h.plain hst ((sameTable_serverDialIndex hdial).setState _) rfl (by decide : Plain .idle)

theorem plain_rawPacketsDone (sv : Server) (trigger : ℕ) : Plain (rawPacketsDone sv trigger) := by
  rw [rawPacketsDone]
  split_ifs <;> decide

theorem TableInv.waitingRawPackets (h : TableInv N n st) (hstate : st.sv.state = .waitingRawPackets)
    (hpass : pass io st = some st') : TableInv N n st' := by
  simp only [pass, hstate] at hpass
  obtain ⟨buffer, rfl⟩ := waitingRawPackets_cases hpass
  exact h.plain (by rw [hstate]; decide) (.of_eq rfl rfl rfl) rfl (plain_rawPacketsDone _ _)

theorem TableInv.receivedFragment (h : TableInv N n st) (hstate : st.sv.state = .receivedFragment)
    (hpass : pass io st = some st') : TableInv N n st' := by
  simp only [pass, hstate] at hpass
  obtain rfl := Option.some.inj hpass
  exact h.plain (by rw [hstate]; decide) (.of_eq rfl rfl rfl) rfl (by decide : Plain .idle)

theorem TableInv.waitRequestFragments (h : TableInv N n st)
    (hstate : st.sv.state = .waitRequestFragments) (hpass : pass io st = some st') :
    TableInv N n st' := by
  have hst : ¬ GathersPeers st.sv.state := by rw [hstate]; decide
  simp only [pass, hstate] at hpass
  rcases waitRequestFragments_cases hpass with rfl | rfl | ⟨-, p, raw, requested, -, rfl⟩
  · exact h
  · exact h.plain hst (.of_eq rfl rfl rfl) rfl (by decide : Plain .idle)
  · refine h.plain hst (.of_eq rfl rfl rfl) rfl ?_
    show Plain st.sv.state
    rw [hstate]
    decide

theorem TableInv.requestFragments (h : TableInv N n st)
    (hstate : st.sv.state = .indexRequestFragments) (hpass : pass io st = some st') :
    TableInv N n st' := by
  simp only [pass, hstate] at hpass
  rw [requestFragments_cases hpass]
  exact h.plain (by rw [hstate]; decide) (.of_eq rfl rfl rfl) rfl (by decide : Plain .idle)

theorem TableInv.fanoutFragments (h : TableInv N n st)
    (hstate : st.sv.state = .indexFanoutFragments) (hpass : pass io st = some st') :
    TableInv N n st' := by
  simp only [pass, hstate] at hpass
  obtain ⟨fs, rfl⟩ := fanoutFragments_cases hpass
  exact h.plain (by rw [hstate]; decide) (.of_eq rfl rfl rfl) rfl (by decide : Plain .idle)

/-! ## SERVER_IDLE and SERVER_RECEIVED_PACKET -/

theorem serverHealthcheck_state (peekZero : Bool) (sv : Server) :
    (serverHealthcheck peekZero sv).state = sv.state ∨
      (serverHealthcheck peekZero sv).state = .waitingNewPeer := by
  rw [serverHealthcheck]
  split_ifs
  · rw [serverHealthcheckDead_eq]
    exact .inr rfl
  · exact .inl rfl

theorem checkPeerB_state {dial : Address → Option ℕ} {r : Recv} {sv sv' : Server}
    (h : checkPeerB dial r sv = some sv') : sv'.state = sv.state ∨ sv'.state = .beginOperation := by
  simp only [checkPeerB] at h
  split_ifs at h
  · rcases r with _ | _ | ⟨b, bs⟩
    · exact .inl (Option.some.inj h ▸ rfl)
    · exact .inl (Option.some.inj h ▸ rfl)
    · obtain ⟨hd, hhd, rfl⟩ := Option.map_eq_some_iff.mp h
      rw [xprocedureCheckPeerB] at hhd
      split_ifs at hhd
      · obtain ⟨r, hr, hhd⟩ := Option.bind_eq_some_iff.mp hhd
        obtain rfl := Option.some.inj hhd
        have hstate := (peerDiedNeighbour_clientFd hr).2
        simp only [peerDiedIndex]
        split_ifs
        · exact .inl hstate
        · exact .inr rfl
        · exact .inl hstate
      · exact .inl (Option.some.inj hhd ▸ rfl)
  · exact .inl (Option.some.inj h ▸ rfl)

/-- The rest of an idle pass: nothing, another client, or a packet that arrived in it. -/
theorem idleServe_cases (h : idleServe io st = some st') :
    (∃ clientFd, st' = st.withServer { st.sv with clientFd := clientFd }) ∨
      ∃ fd r, st' = st.receive fd (serverWaitFromSocket r) ∧
        (io.clientData = some r ∨ r ∈ io.conn) := by
  have hsame : st = st.withServer { st.sv with clientFd := st.sv.clientFd } := rfl
  have haccept (h : idleAccept io st = some st') :
      (∃ clientFd, st' = st.withServer { st.sv with clientFd := clientFd }) ∨
        ∃ fd r, st' = st.receive fd (serverWaitFromSocket r) ∧
          (io.clientData = some r ∨ r ∈ io.conn) := by
    rw [idleAccept] at h
    rcases haccept : io.accept with _ | c <;> simp only [haccept] at h
    · exact .inl ⟨_, (Option.some.inj h).symm.trans hsame⟩
    · obtain ⟨r, rs, hconn, ⟨-, rfl⟩ | ⟨-, rfl⟩ | ⟨-, r', rs', rfl, ⟨-, rfl⟩ | ⟨-, rfl⟩⟩⟩ :=
        idleAccepted_cases h
      · exact .inl ⟨_, hsame⟩
      · exact .inl ⟨_, rfl⟩
      · exact .inl ⟨_, hsame⟩
      · exact .inr ⟨c, r', rfl, .inr (by simp [hconn])⟩
  rw [idleServe] at h
  rcases hfd : st.sv.clientFd with _ | fd <;> simp only [hfd] at h
  · exact haccept h
  · rcases hdata : io.clientData with _ | r <;> simp only [hdata] at h
    · rw [← hdata]
      exact haccept h
    · split_ifs at h
      · exact .inl ⟨_, (Option.some.inj h).symm⟩
      · exact .inr ⟨fd, r, (Option.some.inj h).symm, .inl rfl⟩

/-- What reaches an idle node as a request comes from a node or a client. -/
def RequestsConform (N : ℕ) (io : PassIo) : Prop :=
  ∀ r ∈ io.clientData.toList ++ io.conn, commType (serverWaitFromSocket r) = TYPE_REQUEST_FILE →
    FromNodeOrClient N (commSenderId (serverWaitFromSocket r))

instance (N : ℕ) (io : PassIo) : Decidable (RequestsConform N io) :=
  inferInstanceAs (Decidable (∀ r ∈ io.clientData.toList ++ io.conn, _))

theorem TableInv.idle (h : TableInv N n st) (hstate : st.sv.state = .idle)
    (hreq : RequestsConform N io) (hpass : pass io st = some st') : TableInv N n st' := by
  obtain ⟨sv, hsv, -, hserve⟩ := pass_idle hstate hpass
  have hsame : SameTable st.sv sv := (sameTable_healthcheck _ _).trans (sameTable_checkPeerB hsv)
  have hplain : Plain sv.state := by
    rcases checkPeerB_state hsv with hs | hs
    · rcases serverHealthcheck_state io.peekZero st.sv with hs' | hs' <;> rw [hs, hs']
      · rw [hstate]
        decide
      · decide
    · rw [hs]
      decide
  have hst : ¬ GathersPeers st.sv.state := by rw [hstate]; decide
  rcases idleServe_cases hserve with ⟨clientFd, rfl⟩ | ⟨fd, r, rfl, hr⟩
  · exact h.plain hst (hsame.trans (.of_eq rfl rfl rfl)) rfl hplain
  · exact h.keep hst (hsame.trans (.of_eq rfl rfl rfl)) h.entries
      (by decide : ¬ GathersPeers .receivedPacket) (fun _ => hreq r (by simpa using hr))
      (fun hd => absurd hd (by rw [receive_state]; decide))

theorem TableInv.receivedPacket (h : TableInv N n st) (hstate : st.sv.state = .receivedPacket)
    (hpass : pass io st = some st') : TableInv N n st' := by
  have hst : ¬ GathersPeers st.sv.state := by rw [hstate]; decide
  have hidle : TableInv N n (st.setState .idle) :=
    h.plain hst (.of_eq rfl rfl rfl) rfl (by decide : Plain .idle)
  simp only [pass, hstate, serverReceivedPacket] at hpass
  split_ifs at hpass with hcreate hstore hrequest hindex
  · obtain ⟨sv, raw, hsv, rfl⟩ := receivedCreateFile_cases hpass
    have hsame : SameTable st.sv sv := by
      split_ifs at hsv
      · exact hsv ▸ .refl _
      · exact sameTable_serverDialIndex hsv
    exact h.plain hst (hsame.trans (.of_eq rfl rfl rfl)) rfl (by decide : Plain .waitingRawPackets)
  · obtain rfl := Option.some.inj hpass
    exact h.plain hst (.of_eq rfl rfl rfl) rfl (by decide : Plain .waitingRawPackets)
  · obtain rfl := Option.some.inj hpass
    rcases receivedRequestIndex_cases st with hnext | ⟨requested, hnext⟩ <;> rw [hnext]
    · exact hidle
    · exact h.keep hst (.of_eq rfl rfl rfl) h.entries
        (by decide : ¬ GathersPeers .indexRequestFragments)
        (fun hp => absurd hp (by decide : EServerState.indexRequestFragments ≠ .receivedPacket))
        (fun _ => h.packet hstate hrequest)
  · rcases receivedRequestGateway_cases hpass with ⟨-, rfl⟩ | ⟨sv, hdial, rfl | ⟨res, rfl⟩⟩
    · exact hidle
    · exact h.plain hst ((sameTable_serverDialIndex hdial).trans (.of_eq rfl rfl rfl)) rfl
        (by decide : Plain .idle)
    · exact h.plain hst ((sameTable_serverDialIndex hdial).trans (.of_eq rfl rfl rfl)) rfl
        (by decide : Plain .waitRequestFragments)
  · exact Option.some.inj hpass ▸ hidle

/-! ## A new file, and a new index -/

theorem TableInv.handleNewFile (h : TableInv N n st) (hstate : st.sv.state = .indexHandleNewFile)
    (hpass : pass io st = some st') : TableInv N n st' := by
  simp only [pass, hstate] at hpass
  obtain ⟨fs, net, file, hnew, rfl⟩ := handleNewFile_cases hpass
  have hnext : Plain .indexFanoutFragments := by decide
  exact h.keep (by rw [hstate]; decide) (.of_eq rfl rfl rfl)
    (h.entries.handleNewFile h.me h.length hnew) hnext.1 (fun hp => absurd hp hnext.2.1)
    (fun hd => absurd hd hnext.2.2)

/-- The table of a new index is allocated where `known_peers` reads zero. -/
def FreshTable (io : PassIo) (st : MainLoop) : Prop :=
  st.sv.state = .beginOperation → st.sv.netSize = st.sv.me.nodeId → io.knownPeers = 0

instance (io : PassIo) (st : MainLoop) : Decidable (FreshTable io st) :=
  inferInstanceAs (Decidable (_ → _ → _))

theorem TableInv.newIndex (h : TableInv N n st) (hlast : st.sv.netSize = n)
    (hsv : st'.sv = serverSetState (allocIndexData 0 st.sv) .indexPresentItself)
    (hnet : EntriesUpTo n st'.node.fnetidx) : TableInv N n st' where
  me := by rw [hsv]; exact h.me
  peerB := by rw [hsv]; exact h.peerB
  length d hd := by
    rw [hsv] at hd
    obtain rfl := Option.some.inj hd
    rw [List.length_replicate, hlast]
  known hno := absurd (.inl (by rw [hsv]; rfl)) hno
  presents _ := by
    rw [hsv]
    exact ⟨hlast, _, rfl, rfl⟩
  gathers hg := by
    rw [hsv] at hg
    exact absurd hg (by decide : EServerState.indexPresentItself ≠ .indexWaitingPeersKnowledge)
  entries := hnet
  packet hp := by
    rw [hsv] at hp
    exact absurd hp (by decide : EServerState.indexPresentItself ≠ .receivedPacket)
  deliverTo hd := by
    rw [hsv] at hd
    exact absurd hd (by decide : EServerState.indexPresentItself ≠ .indexRequestFragments)

theorem TableInv.beginOperation (h : TableInv N n st) (hstate : st.sv.state = .beginOperation)
    (hfresh : FreshTable io st) (hpass : pass io st = some st') : TableInv N n st' := by
  simp only [pass, hstate] at hpass
  obtain ⟨fs, net, hsave, rfl⟩ := beginOperation_cases hpass
  split_ifs at hsave with hlast
  · have hknown := hfresh hstate hlast
    rw [h.me] at hsave hlast
    refine h.newIndex hlast ?_ (h.entries.ownFiles hsave)
    show beginServer io.knownPeers st.sv = _
    rw [hknown, beginServer, if_pos (hlast.trans h.me.symm)]
  · obtain ⟨-, rfl⟩ := hsave
    have hsv : beginServer io.knownPeers st.sv = serverSetState st.sv .waitIndexGossip := if_neg hlast
    refine h.plain (by rw [hstate]; decide) ?_ rfl ?_
    · show SameTable st.sv (beginServer io.knownPeers st.sv)
      rw [hsv]
      exact .of_eq rfl rfl rfl
    · show Plain (beginServer io.knownPeers st.sv).state
      rw [hsv]
      exact (by decide : Plain .waitIndexGossip)

theorem TableInv.presentItself (h : TableInv N n st) (hN : 0 < N)
    (hstate : st.sv.state = .indexPresentItself) (hpass : pass io st = some st') :
    TableInv N n st' := by
  obtain ⟨hsize, d, hd, hknown⟩ := h.presents hstate
  simp only [pass, hstate] at hpass
  obtain rfl := indexPresentItself_cases hpass
  have hnext : (serverIndexPresentItself st.sv).1.state = .indexWaitingPeersKnowledge := rfl
  exact {
    me := h.me
    peerB := h.peerB
    length := h.length
    known := fun hno => absurd (.inr hnext) hno
    presents := fun hp => absurd (hnext.symm.trans hp) (by decide)
    gathers := fun _ => ⟨hsize, hN, d, hd, hknown⟩
    entries := h.entries
    packet := fun hp => absurd (hnext.symm.trans hp) (by decide)
    deliverTo := fun hd => absurd (hnext.symm.trans hd) (by decide) }

/-! ## SERVER_INDEX_WAITING_PEERS_KNOWLEDGE -/

/-- Every entry of a file report names its sender or no node, and the sender has reported
itself by the same connection. -/
def FilesConform (ps : List XPacket) : Prop :=
  ∀ p ∈ ps, commType p = TYPE_REPORT_FILE →
    (∃ q ∈ ps, commType q = TYPE_REPORT_SELF ∧ commSenderId q = commSenderId p) ∧
      ∀ e ∈ [(XReportFileKnowledge.ofContent (content p)).fragments0,
          (XReportFileKnowledge.ofContent (content p)).fragments1],
        e.nodeId = 0 ∨ e.nodeId = commSenderId p

/-- The reports a waiting index takes come from nodes of the ring, and no node reports twice
to it: there are fewer than `N`. -/
def ReportsConform (N : ℕ) (io : PassIo) (st : MainLoop) : Prop :=
  st.sv.connected + reportCount (knowledgePackets io.conn.tail) < N ∧
    (∀ p ∈ knowledgePackets io.conn.tail, commType p = TYPE_REPORT_SELF →
      1 ≤ commSenderId p ∧ commSenderId p ≤ N) ∧
    FilesConform (knowledgePackets io.conn.tail)

def ReportersBefore (n : ℕ) (io : PassIo) : Prop :=
  ∀ p ∈ knowledgePackets io.conn.tail, commType p = TYPE_REPORT_SELF → commSenderId p ≤ n

instance (ps : List XPacket) : Decidable (FilesConform ps) :=
  inferInstanceAs (Decidable (∀ p ∈ ps, _ → (∃ q ∈ ps, _) ∧ ∀ e ∈ _, _))

instance (N : ℕ) (io : PassIo) (st : MainLoop) : Decidable (ReportsConform N io st) :=
  inferInstanceAs (Decidable (_ ∧ (∀ p ∈ _, _ → _ ∧ _) ∧ FilesConform _))

instance (n : ℕ) (io : PassIo) : Decidable (ReportersBefore n io) :=
  inferInstanceAs (Decidable (∀ p ∈ knowledgePackets io.conn.tail, _))

theorem fileReports_upTo {ps : List XPacket} (hfiles : FilesConform ps)
    (hbefore : ∀ p ∈ ps, commType p = TYPE_REPORT_SELF → commSenderId p ≤ n) :
    ∀ r ∈ fileReports ps, ReportUpTo n r := by
  intro r hr
  obtain ⟨p, hp, hr⟩ := List.mem_filterMap.mp hr
  split_ifs at hr with htype
  obtain rfl := Option.some.inj hr
  obtain ⟨⟨q, hq, hself, hsender⟩, hentries⟩ := hfiles p hp htype
  have hle := hbefore q hq hself
  have hentry : ∀ e ∈ [(XReportFileKnowledge.ofContent (content p)).fragments0,
      (XReportFileKnowledge.ofContent (content p)).fragments1], e.nodeId ≤ n := by
    intro e he
    rcases hentries e he with h | h <;> omega
  exact ⟨hentry _ (by simp), hentry _ (by simp)⟩

/-- The index after a report: it waits on, or it knows all nodes before it. -/
theorem TableInv.reported (h : TableInv N n st) (hN : N < 2 ^ 31) (h1 : 1 ≤ n) (hn : n ≤ N)
    (hstate : st.sv.state = .indexWaitingPeersKnowledge) {sv : Server} {count : ℕ}
    (hgathered : Gathered st.sv sv count) (hcount : st.sv.connected + count < N)
    (hnet : EntriesUpTo n st'.node.fnetidx) (hsv : st'.sv = indexClientDone sv) :
    TableInv N n st' := by
  obtain ⟨hsize, -, d, hd, hknown⟩ := h.gathers hstate
  obtain ⟨d', hd', hlen', hknown'⟩ := hgathered.table d hd
  have hlength : d'.peerIps.length = n := hlen'.trans (h.length d hd)
  have hconn := hgathered.connected
  rw [u64_of_lt (by omega)] at hconn
  have hme : sv.me.nodeId = n := (congrArg XWhoAmI.nodeId hgathered.me).trans h.me
  have hpeerB : sv.peerB.nodeId = backwardId n N :=
    (congrArg XPeerConnection.nodeId hgathered.peerB).trans h.peerB
  have hsize' : sv.netSize = n := hgathered.netSize.trans hsize
  rw [indexClientDone, hsize', dec64_of_pos h1 (by omega)] at hsv
  split_ifs at hsv with hdone
  · have hidle : st'.sv.state = .idle := by rw [hsv]; rfl
    exact {
      me := by rw [hsv]; exact hme
      peerB := by rw [hsv]; exact hpeerB
      length := fun e he => by
        rw [hsv] at he
        obtain rfl : d' = e := Option.some.inj (hd'.symm.trans he)
        exact hlength
      known := fun _ e he => by
        rw [hsv] at he
        obtain rfl : d' = e := Option.some.inj (hd'.symm.trans he)
        omega
      presents := fun hp => absurd (hidle.symm.trans hp) (by decide)
      gathers := fun hg => absurd (hidle.symm.trans hg) (by decide)
      entries := hnet
      packet := fun hp => absurd (hidle.symm.trans hp) (by decide)
      deliverTo := fun hp => absurd (hidle.symm.trans hp) (by decide) }
  · have hwaits : st'.sv.state = .indexWaitingPeersKnowledge := by
      rw [hsv, hgathered.state]
      exact hstate
    exact {
      me := hsv ▸ hme
      peerB := hsv ▸ hpeerB
      length := fun e he => by
        obtain rfl : d' = e := Option.some.inj (hd'.symm.trans (hsv ▸ he))
        exact hlength
      known := fun hno => absurd (.inr hwaits) hno
      presents := fun hp => absurd (hwaits.symm.trans hp) (by decide)
      gathers := fun _ => by
        rw [hsv]
        exact ⟨hsize', by omega, d', hd', by omega⟩
      entries := hnet
      packet := fun hp => absurd (hwaits.symm.trans hp) (by decide)
      deliverTo := fun hp => absurd (hwaits.symm.trans hp) (by decide) }

theorem TableInv.waitingPeersKnowledge (h : TableInv N n st) (hN : N < 2 ^ 31) (h1 : 1 ≤ n) (hn : n ≤ N)
    (hstate : st.sv.state = .indexWaitingPeersKnowledge)
    (hconform : TakesReport io → ReportsConform N io st) (hbefore : TakesReport io → ReportersBefore n io)
    (hpass : pass io st = some st') : TableInv N n st' := by
  obtain ⟨hsize, hconn, d, hd, hknown⟩ := h.gathers hstate
  simp only [pass, hstate] at hpass
  rcases indexWaitingPeersKnowledge_cases hpass with rfl | ⟨htakes, nd, hnd, rfl⟩
  · exact h
  · obtain ⟨hcount, -, hfiles⟩ := hconform htakes
    rw [knowledgeLoop, foldlM_receiveKnowledge] at hnd
    obtain ⟨t, hsave, rfl⟩ := Option.map_eq_some_iff.mp hnd
    have hnet : EntriesUpTo n t.2 :=
      EntriesUpTo.saveReports (fileReports_upTo hfiles (hbefore htakes)) h.entries hsave
    have hgathered := gathered_foldl_savePeer (knowledgePackets io.conn.tail)
      (show st.sv.connected < 2 ^ 64 by omega)
    exact h.reported hN h1 hn hstate hgathered hcount hnet rfl

end MainLoop

end DSS
