import DistStore.Model.RingNet

/-! What a step of the ring does, once for each kind, and what no step changes. -/

namespace DSS

theorem backwardId_le {netsize : ℕ} (h : 1 ≤ netsize) (id : ℕ) : backwardId id netsize ≤ netsize := by
  rw [backwardId]
  exact Nat.mod_lt _ h

theorem Cluster.bootedServer_facts (c : Cluster) (n : ℕ) :
    (c.bootedServer n).me = ⟨c.addr n, n⟩ ∧ (c.bootedServer n).netSize = c.N ∧
      (c.bootedServer n).deathCount = 0 ∧ (c.bootedServer n).index.nodeId = c.N := by
  rw [bootedServer]
  by_cases hn : n = c.N
  · subst hn
    simp only [if_true]
    exact ⟨rfl, rfl, rfl, rfl⟩
  · simp only [if_neg hn]
    exact ⟨rfl, rfl, rfl, rfl⟩

namespace RingNet

variable {c : Cluster} {s s' : RingNet} {n : ℕ}

/-! ## Fields of an updated ring -/

section fields

variable (s) (n) (sv : Server) (e : RingEvent) (p : XPacket) (o : Option XPacket)

@[simp] theorem setServer_server : (s.setServer n sv).server = Function.update s.server n sv := rfl
@[simp] theorem setServer_wire : (s.setServer n sv).wire = s.wire := rfl
@[simp] theorem setServer_dialer : (s.setServer n sv).dialer = s.dialer := rfl
@[simp] theorem setServer_listener : (s.setServer n sv).listener = s.listener := rfl
@[simp] theorem setServer_nextFd : (s.setServer n sv).nextFd = s.nextFd := rfl
@[simp] theorem setServer_backlog : (s.setServer n sv).backlog = s.backlog := rfl
@[simp] theorem setServer_admitted : (s.setServer n sv).admitted = s.admitted := rfl
@[simp] theorem setServer_deaths : (s.setServer n sv).deaths = s.deaths := rfl
@[simp] theorem setServer_trace : (s.setServer n sv).trace = s.trace := rfl

@[simp] theorem setServing_server (b : Bool) : (s.setServing n b).server = s.server := rfl
@[simp] theorem setServing_wire (b : Bool) : (s.setServing n b).wire = s.wire := rfl
@[simp] theorem setServing_dialer (b : Bool) : (s.setServing n b).dialer = s.dialer := rfl
@[simp] theorem setServing_listener (b : Bool) : (s.setServing n b).listener = s.listener := rfl
@[simp] theorem setServing_nextFd (b : Bool) : (s.setServing n b).nextFd = s.nextFd := rfl
@[simp] theorem setServing_backlog (b : Bool) : (s.setServing n b).backlog = s.backlog := rfl
@[simp] theorem setServing_admitted (b : Bool) : (s.setServing n b).admitted = s.admitted := rfl
@[simp] theorem setServing_deaths (b : Bool) : (s.setServing n b).deaths = s.deaths := rfl
@[simp] theorem setServing_trace (b : Bool) : (s.setServing n b).trace = s.trace := rfl
@[simp] theorem setServing_serving (b : Bool) :
    (s.setServing n b).serving = Function.update s.serving n b := rfl
@[simp] theorem setServer_serving : (s.setServer n sv).serving = s.serving := rfl
@[simp] theorem addEvent_serving : (s.addEvent e).serving = s.serving := rfl
@[simp] theorem read_serving (f : ℕ) (rest : List XPacket) :
    (s.read n f p rest).serving = s.serving := rfl
@[simp] theorem write_serving : (s.write n p).serving = s.serving := by rw [write]; split <;> rfl
@[simp] theorem writeOpt_serving : (s.writeOpt n o).serving = s.serving := by
  cases o
  · rfl
  · exact write_serving ..

@[simp] theorem addEvent_server : (s.addEvent e).server = s.server := rfl
@[simp] theorem addEvent_wire : (s.addEvent e).wire = s.wire := rfl
@[simp] theorem addEvent_dialer : (s.addEvent e).dialer = s.dialer := rfl
@[simp] theorem addEvent_listener : (s.addEvent e).listener = s.listener := rfl
@[simp] theorem addEvent_nextFd : (s.addEvent e).nextFd = s.nextFd := rfl
@[simp] theorem addEvent_backlog : (s.addEvent e).backlog = s.backlog := rfl
@[simp] theorem addEvent_admitted : (s.addEvent e).admitted = s.admitted := rfl
@[simp] theorem addEvent_deaths : (s.addEvent e).deaths = s.deaths := rfl
@[simp] theorem addEvent_trace : (s.addEvent e).trace = s.trace ++ [e] := rfl

@[simp] theorem read_server (f : ℕ) (rest : List XPacket) :
    (s.read n f p rest).server = s.server := rfl
@[simp] theorem read_wire (f : ℕ) (rest : List XPacket) :
    (s.read n f p rest).wire = Function.update s.wire f rest := rfl
@[simp] theorem read_dialer (f : ℕ) (rest : List XPacket) :
    (s.read n f p rest).dialer = s.dialer := rfl
@[simp] theorem read_listener (f : ℕ) (rest : List XPacket) :
    (s.read n f p rest).listener = s.listener := rfl
@[simp] theorem read_nextFd (f : ℕ) (rest : List XPacket) :
    (s.read n f p rest).nextFd = s.nextFd := rfl
@[simp] theorem read_backlog (f : ℕ) (rest : List XPacket) :
    (s.read n f p rest).backlog = s.backlog := rfl
@[simp] theorem read_admitted (f : ℕ) (rest : List XPacket) :
    (s.read n f p rest).admitted = s.admitted := rfl
@[simp] theorem read_deaths (f : ℕ) (rest : List XPacket) :
    (s.read n f p rest).deaths = s.deaths := rfl

@[simp] theorem write_server : (s.write n p).server = s.server := by rw [write]; split <;> rfl
@[simp] theorem write_dialer : (s.write n p).dialer = s.dialer := by rw [write]; split <;> rfl
@[simp] theorem write_listener : (s.write n p).listener = s.listener := by rw [write]; split <;> rfl
@[simp] theorem write_nextFd : (s.write n p).nextFd = s.nextFd := by rw [write]; split <;> rfl
@[simp] theorem write_backlog : (s.write n p).backlog = s.backlog := by rw [write]; split <;> rfl
@[simp] theorem write_admitted : (s.write n p).admitted = s.admitted := by rw [write]; split <;> rfl
@[simp] theorem write_deaths : (s.write n p).deaths = s.deaths := by rw [write]; split <;> rfl

@[simp] theorem writeOpt_none : s.writeOpt n none = s := rfl
@[simp] theorem writeOpt_some : s.writeOpt n (some p) = s.write n p := rfl
@[simp] theorem writeOpt_server : (s.writeOpt n o).server = s.server := by cases o <;> simp
@[simp] theorem writeOpt_dialer : (s.writeOpt n o).dialer = s.dialer := by cases o <;> simp
@[simp] theorem writeOpt_listener : (s.writeOpt n o).listener = s.listener := by cases o <;> simp
@[simp] theorem writeOpt_nextFd : (s.writeOpt n o).nextFd = s.nextFd := by cases o <;> simp
@[simp] theorem writeOpt_backlog : (s.writeOpt n o).backlog = s.backlog := by cases o <;> simp
@[simp] theorem writeOpt_admitted : (s.writeOpt n o).admitted = s.admitted := by cases o <;> simp
@[simp] theorem writeOpt_deaths : (s.writeOpt n o).deaths = s.deaths := by cases o <;> simp

end fields

theorem write_eq {f : ℕ} (hf : (s.server n).peerF.streamFd = some f) (p : XPacket) :
    s.write n p = { s with
      wire := Function.update s.wire f (s.wire f ++ [p])
      trace := s.trace ++ [.wrote n (s.listener f)] } := by
  rw [write, hf]

@[simp] theorem connect_server : (s.connect c n).server = s.server := by
  rw [connect]; split <;> [split; skip] <;> rfl

@[simp] theorem connect_wire : (s.connect c n).wire = s.wire := by
  rw [connect]; split <;> [split; skip] <;> rfl

@[simp] theorem connect_admitted : (s.connect c n).admitted = s.admitted := by
  rw [connect]; split <;> [split; skip] <;> rfl

@[simp] theorem connect_serving : (s.connect c n).serving = s.serving := by
  rw [connect]; split <;> [split; skip] <;> rfl

@[simp] theorem connect_deaths : (s.connect c n).deaths = s.deaths := by
  rw [connect]; split <;> [split; skip] <;> rfl

@[simp] theorem connect_trace : (s.connect c n).trace = s.trace := by
  rw [connect]; split <;> [split; skip] <;> rfl

theorem connect_same (h : (s.server n).peerF.streamFd ≠ some s.nextFd) : s.connect c n = s := by
  rw [connect, if_neg h]

theorem connect_eq (h : (s.server n).peerF.streamFd = some s.nextFd) {m : ℕ}
    (hm : c.nodeAt (s.server n).peerF.ip = some m) : s.connect c n = { s with
      dialer := Function.update s.dialer s.nextFd n
      listener := Function.update s.listener s.nextFd m
      backlog := Function.update s.backlog m (s.backlog m ++ [s.nextFd])
      nextFd := s.nextFd + 1 } := by
  rw [connect, if_pos h, hm]

theorem connect_cases (s : RingNet) (n : ℕ) : s.connect c n = s ∨
    ∃ m, (s.server n).peerF.streamFd = some s.nextFd ∧ c.nodeAt (s.server n).peerF.ip = some m ∧
      s.connect c n = { s with
        dialer := Function.update s.dialer s.nextFd n
        listener := Function.update s.listener s.nextFd m
        backlog := Function.update s.backlog m (s.backlog m ++ [s.nextFd])
        nextFd := s.nextFd + 1 } := by
  by_cases hf : (s.server n).peerF.streamFd = some s.nextFd
  · rcases hm : c.nodeAt (s.server n).peerF.ip with _ | m
    · exact .inl (by rw [connect, if_pos hf, hm])
    · exact .inr ⟨m, hf, rfl, connect_eq hf hm⟩
  · exact .inl (connect_same hf)

/-! ## The steps -/

theorem step_health (h : s.step c (.health n) = some s') :
    Idle c s n ∧ ∃ f, peerB s n = some f ∧ Eof s f ∧
      s' = ((s.setServing n true).setServer n (serverHealthcheckDead (s.server n)).sv).writeOpt n
        (serverHealthcheckDead (s.server n)).sent := by
  have h : s.health c n = some s' := h
  rw [health] at h
  split_ifs at h with hidle
  obtain ⟨f, hf, h⟩ := Option.bind_eq_some_iff.mp h
  split_ifs at h with heof
  exact ⟨hidle, f, hf, heof, (Option.some.inj h).symm⟩

theorem step_check (h : s.step c (.check n) = some s') :
    Idle c s n ∧ ∃ f p rest r, peerB s n = some f ∧ s.wire f = p :: rest ∧
      xprocedureCheckPeerB (s.dial c) (s.server n) p = some r ∧
      s' = ((((s.read n f p rest).setServing n true).setServer n r.sv).writeOpt n r.sent).connect c n := by
  have h : s.check c n = some s' := h
  rw [check] at h
  split_ifs at h with hidle
  obtain ⟨f, hf, h⟩ := Option.bind_eq_some_iff.mp h
  rcases hw : s.wire f with _ | ⟨p, rest⟩
  · rw [hw] at h
    exact absurd h (by simp)
  · rw [hw] at h
    obtain ⟨r, hr, h⟩ := Option.bind_eq_some_iff.mp h
    exact ⟨hidle, f, p, rest, r, hf, hw, hr, (Option.some.inj h).symm⟩

theorem step_accept (h : s.step c (.accept n) = some s') :
    Serves c s n ∧ ∃ f rest, s.backlog n = f :: rest ∧ s' = setServing { s with
      backlog := Function.update s.backlog n rest
      admitted := Function.update s.admitted n (some f) } n false := by
  have h : s.accept c n = some s' := h
  rw [accept] at h
  split_ifs at h with hserves
  split at h
  · exact absurd h (by simp)
  · exact ⟨hserves, _, _, ‹_›, (Option.some.inj h).symm⟩

theorem step_identify (h : s.step c (.identify n) = some s') :
    Alive c s n ∧ ∃ f p rest, s.admitted n = some f ∧ s.wire f = p :: rest ∧ s' = { s with
      wire := Function.update s.wire f rest
      admitted := Function.update s.admitted n none } := by
  have h : s.identify c n = some s' := h
  rw [identify] at h
  split_ifs at h with halive
  obtain ⟨f, hf, h⟩ := Option.bind_eq_some_iff.mp h
  rcases hw : s.wire f with _ | ⟨p, rest⟩
  · rw [hw] at h
    exact absurd h (by simp)
  · rw [hw] at h
    dsimp only at h
    split_ifs at h
    exact ⟨halive, f, p, rest, hf, hw, (Option.some.inj h).symm⟩

theorem step_newPeer (h : s.step c (.newPeer n) = some s') :
    Alive c s n ∧ (s.server n).state = .waitingNewPeer ∧ (s.server n).peerB.statusOpen = false ∧
      ∃ f rest, s.backlog n = f :: rest ∧
        s' = setServer (setServing { s with backlog := Function.update s.backlog n rest } n false) n
          (serverNewPeer (s.server n) f) := by
  have h : s.newPeer c n = some s' := h
  rw [newPeer] at h
  split_ifs at h with hw
  split at h
  · exact absurd h (by simp)
  · exact ⟨hw.1, hw.2.2.1, hw.2.2.2, _, _, ‹_›, (Option.some.inj h).symm⟩

theorem step_begin (h : s.step c (.begin n) = some s') :
    Alive c s n ∧ (s.server n).state = .beginOperation ∧
      s' = ((s.setServing n false).setServer n (beginServer 0 (s.server n))).addEvent
        (if (s.server n).netSize = (s.server n).me.nodeId then .leads n else .follows n) := by
  have h : s.begin c n = some s' := h
  rw [begin] at h
  split_ifs at h with hb
  · exact ⟨hb.1, hb.2.2, (Option.some.inj h).symm.trans (by rw [if_pos ‹_›])⟩
  · exact ⟨hb.1, hb.2.2, (Option.some.inj h).symm.trans (by rw [if_neg ‹_›])⟩

theorem step_present (h : s.step c (.present n) = some s') :
    Alive c s n ∧ (s.server n).state = .indexPresentItself ∧
      s' = (s.setServer n (serverIndexPresentItself (s.server n)).1).write n
        (serverIndexPresentItself (s.server n)).2 := by
  have h : s.present c n = some s' := h
  rw [present] at h
  split_ifs at h with hp
  exact ⟨hp.1, hp.2, (Option.some.inj h).symm⟩

theorem step_gossip (h : s.step c (.gossip n) = some s') :
    Alive c s n ∧ (s.server n).state = .waitIndexGossip ∧
      ∃ f p rest, (s.server n).peerB.streamFd = some f ∧ s.wire f = p :: rest ∧
        s' = (setServer { s with wire := Function.update s.wire f rest } n
          (serverWaitIndexGossip (s.server n) p).sv).writeOpt n
            (serverWaitIndexGossip (s.server n) p).sent := by
  have h : s.gossip c n = some s' := h
  rw [gossip] at h
  split_ifs at h with hg
  obtain ⟨f, hf, h⟩ := Option.bind_eq_some_iff.mp h
  rcases hw : s.wire f with _ | ⟨p, rest⟩
  · rw [hw] at h
    exact absurd h (by simp)
  · rw [hw] at h
    exact ⟨hg.1, hg.2, f, p, rest, hf, hw, (Option.some.inj h).symm⟩

/-- A living node that cannot begin is not about to. -/
theorem begin_eq_none (halive : Alive c s n) (hadmitted : s.admitted n = none)
    (h : s.begin c n = none) : (s.server n).state ≠ .beginOperation := by
  intro hs
  rw [begin, if_pos ⟨halive, hadmitted, hs⟩] at h
  cases h

theorem present_eq_none (halive : Alive c s n) (h : s.present c n = none) :
    (s.server n).state ≠ .indexPresentItself := by
  intro hs
  rw [present, if_pos ⟨halive, hs⟩] at h
  cases h

/-- Nor is one that has a packet to take waiting for the gossip. -/
theorem gossip_eq_none (halive : Alive c s n) {f : ℕ} {p : XPacket} {rest : List XPacket}
    (hf : (s.server n).peerB.streamFd = some f) (hw : s.wire f = p :: rest)
    (h : s.gossip c n = none) : (s.server n).state ≠ .waitIndexGossip := by
  intro hs
  rw [gossip, if_pos ⟨halive, hs⟩, hf, Option.bind_eq_bind, Option.bind_some, hw] at h
  cases h

theorem step_report (h : s.step c (.report n) = some s') :
    Alive c s n ∧ (s.server n).state = .reportKnowledgeToIndex ∧
      ∃ i, c.nodeAt (s.server n).index.ip = some i ∧ Alive c s i ∧
        (s.server i).state = .indexWaitingPeersKnowledge ∧ (s.server i).indexData ≠ none ∧
        s' = (s.setServer n (serverSetState { s.server n with
            index := { (s.server n).index with statusOpen := true } } .idle)).setServer i
          (indexClientDone (countReportedPeer (s.server i) (xpacketReportSelf (s.server n)))) := by
  have h : s.report c n = some s' := h
  rw [report] at h
  split_ifs at h with hr
  obtain ⟨i, hi, h⟩ := Option.bind_eq_some_iff.mp h
  split_ifs at h with hw
  exact ⟨hr.1, hr.2, i, hi, hw.1, hw.2.1, hw.2.2, (Option.some.inj h).symm⟩

theorem step_die (h : s.step c (.die n) = some s') :
    Alive c s n ∧ s' = { s with deaths := s.deaths ++ [n], trace := [] } := by
  have h : s.die c n = some s' := h
  rw [die] at h
  split_ifs at h with halive
  exact ⟨halive, (Option.some.inj h).symm⟩

end RingNet

end DSS
