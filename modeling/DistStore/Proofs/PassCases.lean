import DistStore.Model.PeerTable

/-! What a pass leaves, state by state: one inversion lemma for each branch of the main loop,
with what the branch found on its way. -/

namespace DSS

namespace MainLoop

variable {io : PassIo} {st st' : MainLoop}

/-! ## SERVER_IDLE -/

/-- The accepted connection says nothing that counts, presents a client, or presents a node
whose packet follows. -/
theorem idleAccepted_cases {c : ℕ} (h : idleAccepted io st c = some st') :
    ∃ r rs, io.conn = r :: rs ∧
      (serverWaitClientPresentation (serverWaitFromSocket r) = 0 ∧ st' = st ∨
        serverWaitClientPresentation (serverWaitFromSocket r) = CLIENT_NODE_ID ∧
          st' = st.withServer { st.sv with clientFd := some c } ∨
        (serverWaitClientPresentation (serverWaitFromSocket r) ≠ 0 ∧
            serverWaitClientPresentation (serverWaitFromSocket r) ≠ CLIENT_NODE_ID) ∧
          ∃ r' rs', rs = r' :: rs' ∧
            (r' = some [] ∧ st' = st ∨
              r' ≠ some [] ∧ st' = st.receive c (serverWaitFromSocket r'))) := by
  unfold idleAccepted at h
  rcases hconn : io.conn with _ | ⟨r, rs⟩
  · rw [hconn] at h
    cases h
  rw [hconn] at h
  dsimp only at h
  refine ⟨r, rs, rfl, ?_⟩
  split_ifs at h with hrefused huser
  · exact .inl ⟨hrefused, (Option.some.inj h).symm⟩
  · exact .inr (.inl ⟨huser, (Option.some.inj h).symm⟩)
  · refine .inr (.inr ⟨⟨hrefused, huser⟩, ?_⟩)
    rcases rs with _ | ⟨r', rs⟩
    · cases h
    · dsimp only at h
      split_ifs at h with hend
      · exact ⟨r', rs, rfl, .inl ⟨hend, (Option.some.inj h).symm⟩⟩
      · exact ⟨r', rs, rfl, .inr ⟨hend, (Option.some.inj h).symm⟩⟩

/-! ## SERVER_RECEIVED_PACKET -/

theorem receivedCreateFile_cases (h : receivedCreateFile io st = some st') :
    ∃ sv raw, (if serverIsIndex st.sv then sv = st.sv else serverDialIndex io.dial st.sv = some sv) ∧
      st' = { (st.withServer sv).setState .waitingRawPackets with raw := raw } := by
  simp only [receivedCreateFile, Option.bind_eq_bind, Option.pure_def] at h
  split_ifs at h ⊢ with hindex
  · cases h
    exact ⟨_, _, rfl, rfl⟩
  · obtain ⟨sv, hsv, h⟩ := Option.bind_eq_some_iff.mp h
    cases h
    exact ⟨sv, _, hsv, rfl⟩

theorem receivedRequestIndex_cases (st : MainLoop) :
    receivedRequestIndex st = st.setState .idle ∨
      ∃ requested, receivedRequestIndex st =
        { st.setState .indexRequestFragments with
          requested := requested, requestFd := st.fromFd, deliverTo := commSenderId st.packet } := by
  unfold receivedRequestIndex
  split
  · exact .inl rfl
  · exact .inr ⟨_, rfl⟩

theorem receivedRequestGateway_cases (h : receivedRequestGateway io st = some st') :
    (serverDialIndex io.dial st.sv = none ∧ st' = st.setState .idle) ∨
      ∃ sv, serverDialIndex io.dial st.sv = some sv ∧
        (st' = (st.withServer sv).setState .idle ∨
          ∃ res, st' = { (st.withServer sv).setState .waitRequestFragments with
            requested := typeRequestFileGateway res, requestFd := st.fromFd }) := by
  unfold receivedRequestGateway at h
  cases hdial : serverDialIndex io.dial st.sv with
  | none =>
    rw [hdial] at h
    cases h
    exact .inl ⟨rfl, rfl⟩
  | some sv =>
    rw [hdial] at h
    dsimp only at h
    split at h
    · split_ifs at h
      · cases h
        exact .inr ⟨sv, rfl, .inl rfl⟩
      · cases h
        exact .inr ⟨sv, rfl, .inr ⟨_, rfl⟩⟩
    · cases h

/-! ## Raw packets, and files at the index -/

theorem waitingRawPackets_cases (h : waitingRawPackets io st = some st') :
    ∃ buffer, st' = { st.setState (rawPacketsDone st.sv st.raw.triggerPkt) with buffer := buffer } := by
  unfold waitingRawPackets at h
  split at h
  · cases h
    exact ⟨_, rfl⟩
  · cases h

theorem handleNewFile_cases (h : handleNewFile st = some st') :
    ∃ fs fnetidx file,
      serverIndexHandleNewFile st.sv st.node.fs st.node.fnetidx st.raw.fc st.raw.totalSize =
        some (fs, fnetidx, file) ∧
      st' = { st with
        node := ⟨serverSetState st.sv .indexFanoutFragments, fs, fnetidx⟩
        file := file } := by
  obtain ⟨⟨fs, fnetidx, file⟩, hnew, h⟩ := Option.bind_eq_some_iff.mp h
  cases h
  exact ⟨fs, fnetidx, file, hnew, rfl⟩

theorem fanoutFragments_cases (h : fanoutFragments io st = some st') :
    ∃ fs, st' = { st with node := ⟨serverSetState st.sv .idle, fs, st.node.fnetidx⟩ } := by
  obtain ⟨out, hout, h⟩ := Option.bind_eq_some_iff.mp h
  cases h
  obtain ⟨⟨fs, qs⟩, -, rfl⟩ := Option.map_eq_some_iff.mp hout
  exact ⟨fs, rfl⟩

theorem requestFragments_cases (h : requestFragments st = some st') : st' = st.setState .idle := by
  obtain ⟨-, -, h⟩ := Option.bind_eq_some_iff.mp h
  cases h
  rfl

/-! ## SERVER_WAIT_REQUEST_FRAGMENTS -/

theorem waitRequestFragments_cases (h : waitRequestFragments io st = some st') :
    st' = st ∨ st' = st.setState .idle ∨
      st.requested.fragmentCount ≠ st.requested.fragmentFound ∧
        ∃ p raw requested, collectFrom io st p raw = some requested ∧
          st' = { st with requested := requested } := by
  unfold waitRequestFragments at h
  split_ifs at h with hmissing
  · split at h
    · cases h
      exact .inl rfl
    · cases h
    · split_ifs at h
      · cases h
        exact .inl rfl
      · split at h
        · cases h
        · split_ifs at h
          · cases h
            exact .inl rfl
          · obtain ⟨requested, hcollect, rfl⟩ := Option.map_eq_some_iff.mp h
            exact .inr (.inr ⟨hmissing, _, _, requested, hcollect, rfl⟩)
  · split at h
    · cases h
    · cases h
      exact .inr (.inl rfl)

/-! ## A new index -/

theorem beginOperation_cases (h : beginOperation io st = some st') :
    ∃ fs fnetidx,
      (if st.sv.netSize = st.sv.me.nodeId then
        st.node.fs.files.foldlM
          (fun st' f => xprocedureSaveFileToIndex st'.1 st'.2 (reportOf st.sv.me.nodeId f))
          (st.node.fs, st.node.fnetidx) = some (fs, fnetidx)
      else fs = st.node.fs ∧ fnetidx = st.node.fnetidx) ∧
      st' = { st with node := ⟨beginServer io.knownPeers st.sv, fs, fnetidx⟩ } := by
  obtain ⟨nd, hnd, rfl⟩ := Option.map_eq_some_iff.mp h
  change serverBeginOperation io.knownPeers ⟨st.sv, st.node.fs, st.node.fnetidx⟩ = some nd at hnd
  unfold serverBeginOperation at hnd
  dsimp only at hnd
  by_cases hlast : st.sv.netSize = st.sv.me.nodeId
  · rw [if_pos hlast] at hnd
    obtain ⟨⟨fs, fnetidx⟩, hsave, hnd⟩ := Option.bind_eq_some_iff.mp hnd
    cases hnd
    refine ⟨fs, fnetidx, ?_, rfl⟩
    rw [if_pos hlast]
    exact hsave
  · rw [if_neg hlast] at hnd
    cases hnd
    refine ⟨st.node.fs, st.node.fnetidx, ?_, rfl⟩
    rw [if_neg hlast]
    exact ⟨rfl, rfl⟩

theorem indexPresentItself_cases (h : indexPresentItself io st = some st') :
    st' = st.withServer (serverIndexPresentItself st.sv).1 := by
  unfold indexPresentItself at h
  split_ifs at h
  cases h
  rfl

theorem indexWaitingPeersKnowledge_cases (h : indexWaitingPeersKnowledge io st = some st') :
    st' = st ∨ TakesReport io ∧ ∃ nd, knowledgeLoop st.node io.conn.tail = some nd ∧
      st' = { st with node := { nd with sv := indexClientDone nd.sv } } := by
  unfold indexWaitingPeersKnowledge at h
  rcases hd : st.sv.indexData with _ | d <;> rcases haccept : io.accept with _ | c <;>
    rcases hconn : io.conn with _ | ⟨r, rs⟩ <;> simp only [hd, haccept, hconn] at h
  case some.some.nil => cases h
  case some.some.cons =>
    split_ifs at h with hrefused
    · cases h
      exact .inl rfl
    · rw [not_or, Bool.not_eq_false] at hrefused
      obtain ⟨nd, hnd, h⟩ := Option.bind_eq_some_iff.mp h
      cases h
      refine .inr ⟨⟨?_, hrefused.2, ?_⟩, nd, hnd, rfl⟩
      · rw [haccept]
        rfl
      · rw [hconn]
        exact hrefused.1
  all_goals
    cases h
    exact .inl rfl

/-! ## The other nodes -/

theorem waitIndexGossip_cases (h : waitIndexGossip io st = some st') :
    st' = st.withServer (serverWaitIndexGossip st.sv (serverWaitFromSocket io.peerB)).sv := by
  unfold waitIndexGossip at h
  dsimp only at h
  split_ifs at h
  cases h
  rfl

theorem reportKnowledge_cases (h : reportKnowledge io st = some st') :
    (serverDialIndex io.dial st.sv = none ∧ st' = st) ∨
      ∃ sv, serverDialIndex io.dial st.sv = some sv ∧
        (st' = st.withServer sv ∨ st' = (st.withServer sv).setState .idle) := by
  unfold reportKnowledge at h
  cases hdial : serverDialIndex io.dial st.sv with
  | none =>
    rw [hdial] at h
    cases h
    exact .inl ⟨rfl, rfl⟩
  | some sv =>
    rw [hdial] at h
    dsimp only at h
    split_ifs at h
    · cases h
      exact .inr ⟨sv, rfl, .inl rfl⟩
    · split at h
      · cases h
      · split_ifs at h
        · cases h
          exact .inr ⟨sv, rfl, .inr rfl⟩
        · cases h
          exact .inr ⟨sv, rfl, .inl rfl⟩

end MainLoop

end DSS
