import DistStore.Proofs.DeathNotice

/-! The ring as long as its index lives: whatever nodes die, no survivor looks for a new
index, since no label names the index but node 1's, and node 1 hears from the index. -/

namespace DSS

/-! ## What the check of `peer_b` writes and dials -/

theorem xprocedureCheckPeerB_io {dial : Address → Option ℕ} {sv : Server} {p : XPacket} {r : Handled}
    (h : xprocedureCheckPeerB dial sv p = some r) :
    (r.sv.peerF.streamFd = sv.peerF.streamFd ∨
      (r.sent = none ∧ ∃ fd, dial r.sv.peerF.ip = some fd ∧ r.sv.peerF.streamFd = some fd)) ∧
    (r.sent = none ∨ r.sent = some (setCommSender sv.me.nodeId p) ∧ commType p = TYPE_PEER_DIED) := by
  rw [xprocedureCheckPeerB] at h
  split_ifs at h with ht
  · obtain ⟨⟨sv1, sent⟩, hr, hrun⟩ := Option.bind_eq_some_iff.mp h
    obtain rfl := Option.some.inj hrun
    have hF := (peerDiedIndex_frame sv1 (XPeerDied.ofContent (content p)).peerId).2.1
    simp only [hF]
    rw [peerDiedNeighbour] at hr
    dsimp only at hr
    split_ifs at hr
    · have hinj := Option.some.inj hr
      rw [serverDialPeer] at hinj
      split at hinj
      · obtain ⟨rfl, rfl⟩ := Handled.mk.inj hinj
        exact ⟨.inl rfl, .inl rfl⟩
      · rename_i fd hfd
        obtain ⟨rfl, rfl⟩ := Handled.mk.inj hinj
        exact ⟨.inr ⟨rfl, fd, hfd, rfl⟩, .inl rfl⟩
    · obtain ⟨rfl, rfl⟩ := Handled.mk.inj (Option.some.inj hr)
      exact ⟨.inl rfl, .inr ⟨rfl, ht⟩⟩
  · obtain rfl := Option.some.inj h
    exact ⟨.inl rfl, .inl rfl⟩

/-- A notice that does not name the index leaves the state alone. -/
theorem xprocedureCheckPeerB_state {dial : Address → Option ℕ} {sv : Server} {p : XPacket}
    {r : Handled} (h : xprocedureCheckPeerB dial sv p = some r)
    (hp : commType p = TYPE_PEER_DIED → (XPeerDied.ofContent (content p)).peerId ≠ sv.index.nodeId) :
    r.sv.state = sv.state ∧ r.sv.index = sv.index := by
  rw [xprocedureCheckPeerB] at h
  split_ifs at h with ht
  · obtain ⟨⟨sv1, sent⟩, hr, hrun⟩ := Option.bind_eq_some_iff.mp h
    obtain rfl := Option.some.inj hrun
    obtain ⟨-, -, -, -, -, hindex, hstate⟩ :=
      peerDiedIndex_frame sv1 (XPeerDied.ofContent (content p)).peerId
    have hsv1 : sv1.state = sv.state ∧ sv1.index = sv.index := by
      rw [peerDiedNeighbour] at hr
      dsimp only at hr
      split_ifs at hr
      · obtain ⟨rfl, -⟩ := Handled.mk.inj (Option.some.inj hr)
        rw [serverDialPeer]
        split <;> exact ⟨rfl, rfl⟩
      · obtain ⟨rfl, -⟩ := Handled.mk.inj (Option.some.inj hr)
        exact ⟨rfl, rfl⟩
    refine ⟨?_, hindex.trans hsv1.2⟩
    rw [hstate, hsv1.2, if_neg fun he => hp ht he.2, hsv1.1]
  · obtain rfl := Option.some.inj h
    exact ⟨rfl, rfl⟩

namespace RingNet

variable {c : Cluster} {I k j n : ℕ} {sv : Server} {s s' : RingNet} {a : RingAct}

/-! ## New connections are empty -/

/-- Nobody writes to a connection that is not open yet. -/
structure Dry (c : Cluster) (s : RingNet) : Prop where
  peerF : ∀ n ≤ c.N, ∀ f, (s.server n).peerF.streamFd = some f → f < s.nextFd
  wire : ∀ f, s.nextFd ≤ f → s.wire f = []

theorem Dry.setServer (h : Dry c s)
    (hsv : sv.peerF.streamFd = (s.server n).peerF.streamFd) : Dry c (s.setServer n sv) := by
  refine ⟨fun m hm f hf => ?_, h.wire⟩
  by_cases hmn : m = n
  · subst hmn
    rw [setServer_server, Function.update_self, hsv] at hf
    exact h.peerF m hm f hf
  · rw [setServer_server, Function.update_of_ne hmn] at hf
    exact h.peerF m hm f hf

theorem Dry.setServing (h : Dry c s) (b : Bool) : Dry c (s.setServing n b) := ⟨h.peerF, h.wire⟩

theorem Dry.write (h : Dry c s) (hn : n ≤ c.N) (p : XPacket) : Dry c (s.write n p) := by
  rw [RingNet.write]
  split
  · rename_i f hf
    have hlt := h.peerF n hn f hf
    refine ⟨h.peerF, fun g hg => ?_⟩
    have hne : g ≠ f := fun he => absurd (he ▸ hlt) (not_lt.mpr hg)
    simp only [Function.update_of_ne hne]
    exact h.wire g hg
  · exact h

theorem Dry.writeOpt (h : Dry c s) (hn : n ≤ c.N) (o : Option XPacket) : Dry c (s.writeOpt n o) := by
  rcases o with _ | p
  · exact h
  · exact h.write hn p

theorem Dry.pop (h : Dry c s) {f : ℕ} {p : XPacket} {rest : List XPacket} (hw : s.wire f = p :: rest)
    (hserver : s'.server = s.server) (hnext : s'.nextFd = s.nextFd)
    (hwire : s'.wire = Function.update s.wire f rest) : Dry c s' := by
  refine ⟨by rw [hserver, hnext]; exact h.peerF, fun g hg => ?_⟩
  rw [hnext] at hg
  have hne : g ≠ f := fun he => by
    rw [← he, h.wire g hg] at hw
    exact List.cons_ne_nil _ _ hw.symm
  rw [hwire, Function.update_of_ne hne]
  exact h.wire g hg

theorem Dry.step (h : Dry c s) (hstep : s.step c a = some s') : Dry c s' := by
  have hset : ∀ {t : RingNet} {n : ℕ} {sv : Server}, Dry c t → SameRing (t.server n) sv →
      Dry c (t.setServer n sv) := fun ht hsv =>
    ht.setServer (congrArg XPeerConnection.streamFd hsv.peerF)
  cases a with
  | health n =>
    obtain ⟨hidle, f, -, -, rfl⟩ := step_health hstep
    refine ((h.setServing true).setServer ?_).writeOpt hidle.1.2.1 _
    rw [serverHealthcheckDead_eq]
    rfl
  | check n =>
    obtain ⟨hidle, f, p, rest, r, -, hw, hr, rfl⟩ := step_check hstep
    have hn := hidle.1.2.1
    have hpop : Dry c (s.read n f p rest) := h.pop hw rfl rfl rfl
    have hread := hpop.setServing (n := n) true
    rcases (xprocedureCheckPeerB_io hr).1 with hsame | ⟨hsent, fd, hfd, hstream⟩
    · have hwrote := (hread.setServer (n := n) hsame).writeOpt hn r.sent
      rcases connect_cases (c := c)
        ((((s.read n f p rest).setServing n true).setServer n r.sv).writeOpt n r.sent) n with
        he | ⟨m, hF, -, he⟩
      · rw [he]
        exact hwrote
      · exact absurd (hwrote.peerF n hn _ hF) (lt_irrefl _)
    · -- the dial is what `connect` completes
      obtain ⟨m, hm, hnext⟩ := Option.bind_eq_some_iff.mp hfd
      split_ifs at hnext
      obtain rfl := Option.some.inj hnext
      rw [hsent, writeOpt_none, connect_eq (m := m) (by simpa using hstream) (by simpa using hm)]
      refine ⟨fun i hiN g hg => ?_, fun g hg => hread.wire g (Nat.le_of_succ_le hg)⟩
      by_cases hi : i = n
      · subst hi
        rw [setServer_server, Function.update_self, hstream] at hg
        exact Option.some.inj hg ▸ Nat.lt_succ_self _
      · rw [setServer_server, Function.update_of_ne hi] at hg
        exact (h.peerF i hiN g hg).trans (Nat.lt_succ_self _)
  | accept n =>
    obtain ⟨-, f, rest, -, rfl⟩ := step_accept hstep
    exact ⟨h.peerF, h.wire⟩
  | identify n =>
    obtain ⟨-, f, p, rest, -, hw, rfl⟩ := step_identify hstep
    exact h.pop hw rfl rfl rfl
  | newPeer n =>
    obtain ⟨-, -, -, f, rest, -, rfl⟩ := step_newPeer hstep
    have hdry : Dry c { s with backlog := Function.update s.backlog n rest } := ⟨h.peerF, h.wire⟩
    refine (hdry.setServing false).setServer ?_
    rw [serverNewPeer]
    split_ifs <;> rfl
  | begin n =>
    obtain ⟨-, -, rfl⟩ := step_begin hstep
    have hbegun := hset (h.setServing (n := n) false) (sameRing_beginServer (s.server n))
    exact ⟨hbegun.peerF, hbegun.wire⟩
  | present n =>
    obtain ⟨halive, -, rfl⟩ := step_present hstep
    exact (hset h (sameRing_serverIndexPresentItself _)).write halive.2.1 _
  | gossip n =>
    obtain ⟨halive, -, f, p, rest, -, hw, rfl⟩ := step_gossip hstep
    have hpop : Dry c { s with wire := Function.update s.wire f rest } := h.pop hw rfl rfl rfl
    exact (hset hpop (sameRing_serverWaitIndexGossip _ p)).writeOpt halive.2.1 _
  | report n =>
    obtain ⟨-, -, i, -, -, -, -, rfl⟩ := step_report hstep
    have hone := hset h (sameRing_reported (s.server n))
    refine hone.setServer ?_
    rw [(sameRing_countReportedPeer _ _).peerF]
    by_cases hin : i = n
    · subst hin
      rw [setServer_server, Function.update_self]
      rfl
    · rw [setServer_server, Function.update_of_ne hin]
  | die n =>
    obtain ⟨-, rfl⟩ := step_die hstep
    exact ⟨h.peerF, h.wire⟩

theorem dry_of_reachable (h : c.Reachable s) : Dry c s := by
  induction h with
  | booted =>
    refine ⟨fun n hn f hf => ?_, fun _ _ => rfl⟩
    obtain rfl : n = f := Option.some.inj hf
    exact Nat.lt_succ_of_le hn
  | step _ _ hstep ih => exact ih.step hstep
  | die _ _ hstep ih => exact ih.step hstep

/-! ## The index lives -/

/-- A notice that does not name node `I`. -/
def Harmless (I : ℕ) (p : XPacket) : Prop := ∃ sender x addr, u64 x ≠ I ∧
  p = commPacket SIZEOF_COMM sender TYPE_PEER_DIED (XPeerDied.bytes ⟨x, addr⟩) SIZEOF_COMM

theorem Harmless.peerId {p : XPacket} (h : Harmless I p) :
    commType p = TYPE_PEER_DIED ∧ (XPeerDied.ofContent (content p)).peerId ≠ I := by
  obtain ⟨sender, x, addr, hx, rfl⟩ := h
  rw [commType_commPacket, content_commPacket, XPeerDied.ofContent_bytes]
  exact ⟨rfl, hx⟩

theorem Harmless.forward {p : XPacket} (h : Harmless I p) (m : ℕ) : Harmless I (setCommSender m p) := by
  obtain ⟨sender, x, addr, hx, rfl⟩ := h
  exact ⟨m, x, addr, hx, setCommSender_commPacket ..⟩

/-- Every survivor knows `I` as the index, nobody looks for another one, and nothing
that a survivor may read says that `I` died. -/
structure Quiet (c : Cluster) (I : ℕ) (s : RingNet) : Prop where
  alive : Alive c s I
  state : ∀ n, Alive c s n → (s.server n).state = .idle ∨ n ≠ 1 ∧ (s.server n).state = .waitingNewPeer
  index : ∀ n, Alive c s n → (s.server n).index.nodeId = I
  label : ∀ n, Alive c s n → n ≠ 1 → u64 (backwardId n c.N) ≠ I
  first : Alive c s 1 → ∃ f, s.peerB 1 = some f ∧ s.dialer f = I
  heard : ∀ n, Alive c s n → ∀ f, (s.server n).peerB.streamFd = some f ∨ f ∈ s.backlog n →
    ∀ p ∈ s.wire f, Harmless I p

theorem mem_writeOpt {o : Option XPacket} {f : ℕ} {p : XPacket}
    (hp : p ∈ (s.writeOpt n o).wire f) : p ∈ s.wire f ∨ o = some p := by
  rcases o with _ | q
  · exact .inl hp
  · rw [writeOpt_some, RingNet.write] at hp
    split at hp
    · rename_i g hg
      by_cases hf : f = g
      · subst hf
        simp only [Function.update_self, List.mem_append, List.mem_singleton] at hp
        rcases hp with hp | rfl
        · exact .inl hp
        · exact .inr rfl
      · simp only [Function.update_of_ne hf] at hp
        exact .inl hp
    · exact .inl hp

theorem mem_pop {f g : ℕ} {p q : XPacket} {rest : List XPacket} (hw : s.wire f = q :: rest)
    (hp : p ∈ Function.update s.wire f rest g) : p ∈ s.wire g := by
  by_cases hg : g = f
  · subst hg
    rw [Function.update_self] at hp
    rw [hw]
    exact List.mem_cons_of_mem _ hp
  · rwa [Function.update_of_ne hg] at hp

/-- What a step leaves of the quiet ring in the nodes, and what it writes. -/
structure Kept (c : Cluster) (I : ℕ) (s s' : RingNet) : Prop where
  state : ∀ n, Alive c s n →
    (s'.server n).state = .idle ∨ n ≠ 1 ∧ (s'.server n).state = .waitingNewPeer
  index : ∀ n, Alive c s n → (s'.server n).index.nodeId = I
  wire : ∀ f, ∀ p ∈ s'.wire f, p ∈ s.wire f ∨ Harmless I p

theorem Quiet.same (h : Quiet c I s) (hserver : s'.server = s.server)
    (hwire : ∀ f, ∀ p ∈ s'.wire f, p ∈ s.wire f) : Kept c I s s' where
  state := by rw [hserver]; exact h.state
  index := by rw [hserver]; exact h.index
  wire f p hp := .inl (hwire f p hp)

theorem Quiet.one (h : Quiet c I s) (hserver : s'.server = Function.update s.server n sv)
    (hstate : sv.state = .idle ∨ n ≠ 1 ∧ sv.state = .waitingNewPeer) (hindex : sv.index.nodeId = I)
    (hwire : ∀ f, ∀ p ∈ s'.wire f, p ∈ s.wire f ∨ Harmless I p) : Kept c I s s' := by
  refine ⟨fun m hm => ?_, fun m hm => ?_, hwire⟩
  · rw [hserver]
    by_cases hmn : m = n
    · subst hmn
      rwa [Function.update_self]
    · rw [Function.update_of_ne hmn]
      exact h.state m hm
  · rw [hserver]
    by_cases hmn : m = n
    · subst hmn
      rwa [Function.update_self]
    · rw [Function.update_of_ne hmn]
      exact h.index m hm

/-- Node 1 does not find its predecessor dead: that is the index. -/
theorem Quiet.health (h : Quiet c I s) (hst : Streams c s)
    (hstep : s.step c (.health n) = some s') : Kept c I s s' := by
  obtain ⟨hn, f, hf, heof, rfl⟩ := step_health hstep
  have hne : n ≠ 1 := fun he => by
    subst he
    obtain ⟨g, hg, hdial⟩ := h.first hn.1
    obtain rfl := Option.some.inj (hf.symm.trans hg)
    exact h.alive.2.2 (hdial ▸ heof.2)
  refine h.one (writeOpt_server ..) ?_ ?_ fun g p hp => ?_
  · rw [serverHealthcheckDead_eq]
    exact .inr ⟨hne, rfl⟩
  · rw [serverHealthcheckDead_eq]
    exact h.index n hn.1
  · rcases mem_writeOpt hp with hp | hp
    · exact .inl hp
    · refine .inr ?_
      rw [serverHealthcheckDead_eq] at hp
      obtain rfl := Option.some.inj hp
      refine ⟨_, (s.server n).peerB.nodeId, (s.server n).me.ip, ?_, setCommSender_commPacket ..⟩
      rw [hst.label]
      exact h.label n hn.1 hne

/-- A notice that does not name the index is passed on as one. -/
theorem Quiet.check (h : Quiet c I s) (hstep : s.step c (.check n) = some s') : Kept c I s s' := by
  obtain ⟨hn, f, p, rest, r, hf, hw, hr, rfl⟩ := step_check hstep
  have hfd : (s.server n).peerB.streamFd = some f := by
    rw [RingNet.peerB] at hf
    split_ifs at hf
    exact hf
  have hharm : Harmless I p := h.heard n hn.1 f (.inl hfd) p (by rw [hw]; exact List.mem_cons_self)
  obtain ⟨hstate, hindex⟩ := xprocedureCheckPeerB_state hr fun _ => by
    rw [h.index n hn.1]
    exact hharm.peerId.2
  refine h.one (connect_server.trans (writeOpt_server ..)) ?_ ?_ fun g q hq => ?_
  · rw [hstate]
    exact h.state n hn.1
  · rw [hindex]
    exact h.index n hn.1
  · rw [connect_wire] at hq
    rcases mem_writeOpt hq with hq | hq
    · exact .inl (mem_pop hw hq)
    · rcases (xprocedureCheckPeerB_io hr).2 with hnone | ⟨hsome, -⟩
      · rw [hnone] at hq
        exact absurd hq (by simp)
      · rw [hsome] at hq
        exact .inr (Option.some.inj hq ▸ hharm.forward _)

theorem Quiet.newPeer (h : Quiet c I s) (hst : Streams c s)
    (hstep : s.step c (.newPeer n) = some s') : Kept c I s s' := by
  obtain ⟨halive, hwait, -, f, rest, -, rfl⟩ := step_newPeer hstep
  have hne : n ≠ 1 := by
    rcases h.state n halive with he | ⟨hne, -⟩
    · exact absurd (hwait.symm.trans he) (by decide)
    · exact hne
  have hsv : serverNewPeer (s.server n) f = { s.server n with
      peerB := { (s.server n).peerB with statusOpen := true, streamFd := some f }
      state := .idle } := by
    rw [serverNewPeer, if_neg (by rw [hst.me]; exact hne)]
    rfl
  refine h.one rfl ?_ ?_ fun _ _ hp => .inl hp
  · rw [hsv]
    exact .inl rfl
  · rw [hsv]
    exact h.index n halive

/-- Nobody is in another state. -/
theorem Quiet.not_busy (h : Quiet c I s) (hn : Alive c s n) {st : EServerState}
    (hs : (s.server n).state = st) : st = .idle ∨ st = .waitingNewPeer := by
  rcases h.state n hn with he | ⟨-, he⟩
  · exact .inl (hs.symm.trans he)
  · exact .inr (hs.symm.trans he)

theorem Quiet.nodes (h : Quiet c I s) (hst : Streams c s) (ha : a.Survivor)
    (hstep : s.step c a = some s') : Kept c I s s' := by
  cases a with
  | health n => exact h.health hst hstep
  | check n => exact h.check hstep
  | accept n =>
    obtain ⟨-, f, rest, -, rfl⟩ := step_accept hstep
    exact h.same rfl fun _ _ hp => hp
  | identify n =>
    obtain ⟨-, f, p, rest, -, hw, rfl⟩ := step_identify hstep
    exact h.same rfl fun _ _ hp => mem_pop hw hp
  | newPeer n => exact h.newPeer hst hstep
  | begin n =>
    obtain ⟨halive, hs, -⟩ := step_begin hstep
    exact absurd (h.not_busy halive hs) (by decide)
  | present n =>
    obtain ⟨halive, hs, -⟩ := step_present hstep
    exact absurd (h.not_busy halive hs) (by decide)
  | gossip n =>
    obtain ⟨halive, hs, -⟩ := step_gossip hstep
    exact absurd (h.not_busy halive hs) (by decide)
  | report n =>
    obtain ⟨halive, hs, -⟩ := step_report hstep
    exact absurd (h.not_busy halive hs) (by decide)
  | die n => exact absurd rfl (ha n)

theorem Quiet.step (h : Quiet c I s) (hst : Streams c s) (hdry : Dry c s) (ha : a.Survivor)
    (hstep : s.step c a = some s') : Quiet c I s' := by
  have hkept := h.nodes hst ha hstep
  have hss := step_streams ha hstep
  have halive : ∀ n, Alive c s' n ↔ Alive c s n := fun n => by rw [Alive, Alive, hss.deaths]
  refine ⟨(halive I).mpr h.alive, fun n hn => hkept.state n ((halive n).mp hn),
    fun n hn => hkept.index n ((halive n).mp hn), fun n hn => h.label n ((halive n).mp hn),
    fun hn => ?_, fun n hn f hf p hp => ?_⟩
  · obtain ⟨f, hf, hdial⟩ := h.first ((halive 1).mp hn)
    have hfd : (s.server 1).peerB.streamFd = some f ∧ (s.server 1).peerB.statusOpen = true := by
      rw [RingNet.peerB] at hf
      split_ifs at hf with hopen
      exact ⟨hf, hopen⟩
    refine ⟨f, ?_, (hss.dialer f (hst.peerB 1 f hfd.1)).trans hdial⟩
    rcases (step_counts hstep 1).1 with ⟨-, -, hp⟩ | ⟨g, hg, heof, -, -, -⟩ | ⟨-, -, hp⟩ |
      ⟨g, hclosed, -, -, -, -⟩
    · rw [RingNet.peerB, hp]
      exact hf
    · obtain rfl := Option.some.inj (hf.symm.trans hg)
      exact absurd (hdial ▸ heof.2) h.alive.2.2
    · rw [RingNet.peerB, hp]
      exact hf
    · exact absurd (hclosed.symm.trans hfd.2) (by decide)
  · rcases hkept.wire f p hp with hp | hp
    · -- the packet was there, so the connection is not new
      have hold : f < s.nextFd := by
        by_contra hge
        rw [hdry.wire f (by omega)] at hp
        exact List.not_mem_nil hp
      refine h.heard n ((halive n).mp hn) f ?_ p hp
      rcases hf with hf | hf
      · rcases (step_counts hstep n).1 with ⟨-, -, hpeer⟩ | ⟨-, -, -, -, -, hpeer⟩ | ⟨-, -, hpeer⟩ |
          ⟨g, -, hg, -, -, hpeer⟩
        · exact .inl (by rwa [hpeer] at hf)
        · exact .inl (by rwa [hpeer] at hf)
        · exact .inl (by rwa [hpeer] at hf)
        · rw [hpeer] at hf
          exact .inr (Option.some.inj hf ▸ hg)
      · rcases hss.backlog n f hf with hf | ⟨hf, -, -⟩
        · exact .inr hf
        · omega
    · exact hp

theorem Quiet.die (h : Quiet c I s) (hstep : s.step c (.die n) = some s') (hne : n ≠ I) :
    Quiet c I s' := by
  obtain ⟨-, rfl⟩ := step_die hstep
  have halive : ∀ m, Alive c { s with deaths := s.deaths ++ [n], trace := [] } m → Alive c s m :=
    fun m hm => ⟨hm.1, hm.2.1, fun hd => hm.2.2 (List.mem_append_left _ hd)⟩
  refine ⟨⟨h.alive.1, h.alive.2.1, fun hd => ?_⟩, fun m hm => h.state m (halive m hm),
    fun m hm => h.index m (halive m hm), fun m hm => h.label m (halive m hm),
    fun hm => h.first (halive 1 hm), fun m hm => h.heard m (halive m hm)⟩
  rcases List.mem_append.mp hd with hd | hd
  · exact h.alive.2.2 hd
  · exact hne (List.mem_singleton.mp hd).symm

theorem quiet_booted (h3 : 3 ≤ c.N) : Quiet c c.N c.booted where
  alive := ⟨by omega, le_refl _, List.not_mem_nil⟩
  state _ _ := .inl rfl
  index n _ := (c.bootedServer_facts n).2.2.2
  label n hn hne := by
    have hnN := hn.2.1
    have hN := c.N_lt
    rw [c.backwardId_eq_if hn.1 hn.2.1, if_neg hne, u64_of_lt (by omega)]
    omega
  first _ := ⟨backwardId 1 c.N, rfl, by
    rw [c.backwardId_eq_if (le_refl 1) (by omega), if_pos rfl]
    rfl⟩
  heard _ _ _ _ p hp := absurd hp List.not_mem_nil

end RingNet

end DSS
