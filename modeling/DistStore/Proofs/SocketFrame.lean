import DistStore.Model.Sockets
import DistStore.Proofs.PassCases

/-! What a pass of the main loop does to the descriptors a node keeps: most leave all of them
alone, the others put a new connection into one. -/

namespace DSS

/-- `sv'` keeps the descriptors of `sv`, and does not go back to the start. -/
structure KeepsFds (sv sv' : Server) : Prop where
  peerF : sv'.peerF.streamFd = sv.peerF.streamFd
  peerB : sv'.peerB.streamFd = sv.peerB.streamFd
  index : sv'.index.streamFd = sv.index.streamFd
  clientFd : sv'.clientFd = sv.clientFd
  later : sv'.state = sv.state ∨ sv'.state ≠ .booting ∧ sv'.state ≠ .connecting

theorem later_trans {a b d : EServerState} (h : b = a ∨ b ≠ .booting ∧ b ≠ .connecting)
    (h' : d = b ∨ d ≠ .booting ∧ d ≠ .connecting) : d = a ∨ d ≠ .booting ∧ d ≠ .connecting := by
  rcases h' with rfl | hd
  · exact h
  · exact .inr hd

namespace KeepsFds

variable {sv sv' sv'' : Server}

theorem refl (sv : Server) : KeepsFds sv sv := ⟨rfl, rfl, rfl, rfl, .inl rfl⟩

theorem trans (h : KeepsFds sv sv') (h' : KeepsFds sv' sv'') : KeepsFds sv sv'' :=
  ⟨h'.peerF.trans h.peerF, h'.peerB.trans h.peerB, h'.index.trans h.index,
    h'.clientFd.trans h.clientFd, later_trans h.later h'.later⟩

theorem setState (sv : Server) {st : EServerState} (h : st ≠ .booting ∧ st ≠ .connecting) :
    KeepsFds sv (serverSetState sv st) := ⟨rfl, rfl, rfl, rfl, .inr h⟩

end KeepsFds

theorem keepsFds_healthcheck (peekZero : Bool) (sv : Server) :
    KeepsFds sv (MainLoop.serverHealthcheck peekZero sv) := by
  unfold MainLoop.serverHealthcheck
  split_ifs
  · rw [serverHealthcheckDead_eq]
    exact ⟨rfl, rfl, rfl, rfl, .inr (by simp)⟩
  · exact .refl sv

theorem keepsFds_beginServer (knownPeers : ℕ) (sv : Server) :
    KeepsFds sv (beginServer knownPeers sv) := by
  unfold beginServer
  split_ifs <;> exact ⟨rfl, rfl, rfl, rfl, .inr (by simp [serverSetState])⟩

theorem keepsFds_receiveKnowledge {nd nd' : Node} {p : XPacket}
    (h : receiveKnowledge nd p = some nd') : KeepsFds nd.sv nd'.sv := by
  unfold receiveKnowledge at h
  split_ifs at h
  · cases h
    exact ⟨rfl, rfl, rfl, rfl, .inl rfl⟩
  · obtain ⟨r, -, h⟩ := Option.bind_eq_some_iff.mp h
    cases h
    exact .refl _
  · cases h
    exact .refl _

theorem keepsFds_knowledgeLoop {nd nd' : Node} {rs : List Recv} (h : knowledgeLoop nd rs = some nd') :
    KeepsFds nd.sv nd'.sv := by
  unfold knowledgeLoop at h
  generalize knowledgePackets rs = ps at h
  induction ps generalizing nd with
  | nil =>
    cases h
    exact .refl _
  | cons p ps ih =>
    rw [List.foldlM_cons] at h
    obtain ⟨nd₁, hp, h⟩ := Option.bind_eq_some_iff.mp h
    exact (keepsFds_receiveKnowledge hp).trans (ih h)

theorem keepsFds_indexClientDone (sv : Server) : KeepsFds sv (indexClientDone sv) := by
  unfold indexClientDone
  split_ifs
  · exact .setState sv ⟨by decide, by decide⟩
  · exact .refl sv

theorem keepsFds_peerDiedIndex (sv : Server) (dead : ℕ) : KeepsFds sv (peerDiedIndex sv dead) := by
  unfold peerDiedIndex
  split_ifs
  · exact ⟨rfl, rfl, rfl, rfl, .inl rfl⟩
  · exact .setState sv ⟨by decide, by decide⟩
  · exact .refl sv

/-- The neighbour's replacement is dialed; nothing is, if it was not the neighbour. -/
theorem peerDiedNeighbour_fds {dial : Address → Option ℕ} {sv : Server} {p : XPacket} {r : Handled}
    (h : peerDiedNeighbour dial sv p = some r) :
    let c := XPeerDied.ofContent (content p)
    r.sv.peerF.streamFd = (if sv.peerF.nodeId = c.peerId then dial c.senderAddress else none).or
        sv.peerF.streamFd ∧
      KeepsFds { sv with peerF := r.sv.peerF } r.sv := by
  unfold peerDiedNeighbour at h
  dsimp only at h ⊢
  split_ifs at h ⊢
  · obtain rfl := Option.some.inj h
    unfold serverDialPeer
    dsimp only
    cases dial (XPeerDied.ofContent (content p)).senderAddress with
    | none => exact ⟨rfl, rfl, rfl, rfl, rfl, .inl rfl⟩
    | some fd => exact ⟨rfl, rfl, rfl, rfl, rfl, .inl rfl⟩
  · obtain rfl := Option.some.inj h
    exact ⟨rfl, .refl _⟩

/-- After `xprocedure_check_peer_b`, `peer_f` has the connection it dialed, if it dialed one. -/
theorem checkPeerB_fds {dial : Address → Option ℕ} {r : Recv} {sv sv' : Server}
    (h : MainLoop.checkPeerB dial r sv = some sv') :
    sv'.peerF.streamFd = (Sockets.redialed dial r sv).or sv.peerF.streamFd ∧
      KeepsFds { sv with peerF := sv'.peerF } sv' := by
  unfold MainLoop.checkPeerB at h
  unfold Sockets.redialed
  by_cases hopen : sv.peerB.statusOpen
  · rw [if_pos hopen] at h ⊢
    rcases r with _ | _ | ⟨b, bs⟩
    · cases h
      exact ⟨rfl, .refl _⟩
    · cases h
      exact ⟨rfl, .refl _⟩
    · obtain ⟨⟨sv₁, sent⟩, hcheck, rfl⟩ := Option.map_eq_some_iff.mp h
      dsimp only
      unfold xprocedureCheckPeerB at hcheck
      by_cases htype : commType (b :: bs) = TYPE_PEER_DIED
      · rw [if_pos htype] at hcheck
        obtain ⟨⟨sv₂, sent'⟩, hneighbour, hcheck⟩ := Option.bind_eq_some_iff.mp hcheck
        cases hcheck
        have hindex := keepsFds_peerDiedIndex sv₂ (XPeerDied.ofContent (content (b :: bs))).peerId
        obtain ⟨hfd, hkeeps⟩ := peerDiedNeighbour_fds hneighbour
        refine ⟨hindex.peerF.trans ?_, ⟨rfl, hindex.peerB.trans hkeeps.peerB,
          hindex.index.trans hkeeps.index, hindex.clientFd.trans hkeeps.clientFd, ?_⟩⟩
        · rw [hfd]
          simp only [htype, true_and]
        · exact (hkeeps.trans hindex).later
      · rw [if_neg htype] at hcheck
        cases hcheck
        rw [if_neg fun hc => htype hc.1]
        exact ⟨rfl, .refl _⟩
  · rw [if_neg hopen] at h ⊢
    cases h
    exact ⟨rfl, .refl _⟩

theorem serverWaitingNewPeer_fds (accept : Option ℕ) (sv : Server) :
    let sv' := serverWaitingNewPeer accept sv
    sv'.peerF.streamFd = sv.peerF.streamFd ∧ sv'.index.streamFd = sv.index.streamFd ∧
      sv'.clientFd = sv.clientFd ∧
      (sv'.state = sv.state ∨ sv'.state ≠ .booting ∧ sv'.state ≠ .connecting) := by
  dsimp only
  unfold serverWaitingNewPeer
  split_ifs
  · exact ⟨rfl, rfl, rfl, .inl rfl⟩
  · cases accept with
    | none => exact ⟨rfl, rfl, rfl, .inl rfl⟩
    | some client =>
      dsimp only
      unfold serverNewPeer
      split_ifs <;> exact ⟨rfl, rfl, rfl, .inr (by simp [serverSetState])⟩

/-! ## The passes that keep the descriptors -/

section passes

open MainLoop

variable {io : PassIo} {st st' : MainLoop}

theorem keepsFds_beginOperation (h : beginOperation io st = some st') : KeepsFds st.sv st'.sv := by
  obtain ⟨fs, fnetidx, -, rfl⟩ := beginOperation_cases h
  exact keepsFds_beginServer _ _

theorem keepsFds_waitingRawPackets (h : waitingRawPackets io st = some st') :
    KeepsFds st.sv st'.sv := by
  obtain ⟨buffer, rfl⟩ := waitingRawPackets_cases h
  refine .setState st.sv ?_
  unfold rawPacketsDone
  split_ifs <;> decide

theorem keepsFds_handleNewFile (h : handleNewFile st = some st') : KeepsFds st.sv st'.sv := by
  obtain ⟨fs, fnetidx, file, -, rfl⟩ := handleNewFile_cases h
  exact .setState st.sv ⟨by decide, by decide⟩

theorem keepsFds_fanoutFragments (h : fanoutFragments io st = some st') : KeepsFds st.sv st'.sv := by
  obtain ⟨fs, rfl⟩ := fanoutFragments_cases h
  exact .setState st.sv ⟨by decide, by decide⟩

theorem keepsFds_requestFragments (h : requestFragments st = some st') : KeepsFds st.sv st'.sv := by
  rw [requestFragments_cases h]
  exact .setState st.sv ⟨by decide, by decide⟩

theorem keepsFds_waitRequestFragments (h : waitRequestFragments io st = some st') :
    KeepsFds st.sv st'.sv := by
  rcases waitRequestFragments_cases h with rfl | rfl | ⟨-, p, raw, requested, -, rfl⟩
  · exact .refl _
  · exact .setState st.sv ⟨by decide, by decide⟩
  · exact .refl _

theorem keepsFds_indexWaitingPeersKnowledge (h : indexWaitingPeersKnowledge io st = some st') :
    KeepsFds st.sv st'.sv := by
  rcases indexWaitingPeersKnowledge_cases h with rfl | ⟨-, nd, hnd, rfl⟩
  · exact .refl _
  · exact (keepsFds_knowledgeLoop hnd).trans (keepsFds_indexClientDone _)

theorem keepsFds_indexPresentItself (h : indexPresentItself io st = some st') :
    KeepsFds st.sv st'.sv := by
  rw [indexPresentItself_cases h]
  exact ⟨rfl, rfl, rfl, rfl, .inr (by simp [withServer, sv, serverIndexPresentItself, serverSetState])⟩

theorem keepsFds_waitIndexGossip (h : waitIndexGossip io st = some st') : KeepsFds st.sv st'.sv := by
  rw [waitIndexGossip_cases h]
  exact ⟨rfl, rfl, rfl, rfl, .inr (by simp [withServer, sv, serverWaitIndexGossip, serverSetState])⟩

theorem keepsFds_receivedRequestIndex (st : MainLoop) : KeepsFds st.sv (receivedRequestIndex st).sv := by
  rcases receivedRequestIndex_cases st with h | ⟨requested, h⟩ <;> rw [h]
  · exact .setState st.sv ⟨by decide, by decide⟩
  · exact .setState st.sv ⟨by decide, by decide⟩

theorem keepsFds_receivedCreateFile (hindex : serverIsIndex st.sv)
    (h : receivedCreateFile io st = some st') : KeepsFds st.sv st'.sv := by
  obtain ⟨sv, raw, hsv, rfl⟩ := receivedCreateFile_cases h
  rw [if_pos hindex] at hsv
  cases hsv
  exact .setState st.sv ⟨by decide, by decide⟩

/-! ## The passes that dial the index -/

/-- `index` has the connection of `server_dial_index`, if there is one. -/
structure DialsIndex (dial : Address → Option ℕ) (sv sv' : Server) : Prop where
  streamFd : sv'.index.streamFd = (dial sv.index.ip).or sv.index.streamFd
  keeps : KeepsFds { sv with index := sv'.index } sv'

theorem DialsIndex.setState {dial : Address → Option ℕ} {sv sv' : Server}
    (h : DialsIndex dial sv sv') {state : EServerState}
    (hlater : state ≠ .booting ∧ state ≠ .connecting) :
    DialsIndex dial sv (serverSetState sv' state) :=
  ⟨h.streamFd, h.keeps.trans (.setState sv' hlater)⟩

theorem dialsIndex_failed {dial : Address → Option ℕ} {sv : Server}
    (h : serverDialIndex dial sv = none) : DialsIndex dial sv sv := by
  refine ⟨?_, .refl sv⟩
  rw [Option.map_eq_none_iff.mp h]
  rfl

theorem dialsIndex_serverDialIndex {dial : Address → Option ℕ} {sv sv' : Server}
    (h : serverDialIndex dial sv = some sv') : DialsIndex dial sv sv' := by
  obtain ⟨fd, hdial, rfl⟩ := Option.map_eq_some_iff.mp h
  refine ⟨?_, .refl _⟩
  rw [hdial]
  rfl

theorem dialsIndex_receivedCreateFile (hindex : ¬ serverIsIndex st.sv)
    (h : receivedCreateFile io st = some st') : DialsIndex io.dial st.sv st'.sv := by
  obtain ⟨sv, raw, hsv, rfl⟩ := receivedCreateFile_cases h
  rw [if_neg hindex] at hsv
  exact (dialsIndex_serverDialIndex hsv).setState ⟨by decide, by decide⟩

theorem dialsIndex_receivedRequestGateway (h : receivedRequestGateway io st = some st') :
    DialsIndex io.dial st.sv st'.sv := by
  rcases receivedRequestGateway_cases h with ⟨hdial, rfl⟩ | ⟨sv, hdial, rfl | ⟨res, rfl⟩⟩
  · exact (dialsIndex_failed hdial).setState ⟨by decide, by decide⟩
  · exact (dialsIndex_serverDialIndex hdial).setState ⟨by decide, by decide⟩
  · exact (dialsIndex_serverDialIndex hdial).setState ⟨by decide, by decide⟩

theorem dialsIndex_reportKnowledge (h : reportKnowledge io st = some st') :
    DialsIndex io.dial st.sv st'.sv := by
  rcases reportKnowledge_cases h with ⟨hdial, rfl⟩ | ⟨sv, hdial, rfl | rfl⟩
  · exact dialsIndex_failed hdial
  · exact dialsIndex_serverDialIndex hdial
  · exact (dialsIndex_serverDialIndex hdial).setState ⟨by decide, by decide⟩

end passes

end DSS
