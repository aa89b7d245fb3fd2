import DistStore.Proofs.RingNotice

/-! The ring after one death, step by step: who can step at all while the notice goes
around, and how much is left to do. -/

namespace DSS

theorem Cluster.pos_zero_eq_one {c : Cluster} {d : ℕ} (hd : 1 ≤ d) (hdN : d ≤ c.N) :
    c.pos d 0 = 1 ↔ d = c.N := by
  rw [pos]
  split_ifs <;> omega

theorem Cluster.pos_N {c : Cluster} (j : ℕ) : c.pos c.N j = j + 1 := by
  rw [pos, if_neg (by omega)]
  omega

namespace RingNet

variable {c : Cluster} {d k j n : ℕ} {sv : Server} {s s' : RingNet} {a : RingAct}

theorem SameRing.update (h : SameRing (s.server n) sv)
    (hserver : s'.server = Function.update s.server n sv) (m : ℕ) :
    SameRing (s.server m) (s'.server m) := by
  by_cases hm : m = n
  · subst hm
    rwa [hserver, Function.update_self]
  · rw [hserver, Function.update_of_ne hm]
    exact .refl _

/-- The connection on which node `pos c d j` hears from its predecessor, once the ring
is closed. -/
def inFd (c : Cluster) (d j : ℕ) : ℕ := if j = 0 then c.N + 1 else c.pos d (j - 1)

/-- The place after `j` among the survivors. -/
def nextPos (c : Cluster) (j : ℕ) : ℕ := if j + 2 = c.N then 0 else j + 1

theorem nextPos_lt (h3 : 3 ≤ c.N) (hj : j < c.N - 1) : nextPos c j < c.N - 1 := by
  rw [nextPos]
  split_ifs <;> omega

theorem inFd_inj (hdN : d ≤ c.N) {i : ℕ} (hi : i < c.N - 1) (hj : j < c.N - 1)
    (h : inFd c d i = inFd c d j) : i = j := by
  have hi' := c.pos_le hdN (show i - 1 < c.N by omega)
  have hj' := c.pos_le hdN (show j - 1 < c.N by omega)
  rw [inFd, inFd] at h
  split_ifs at h
  · omega
  · omega
  · omega
  · have := c.pos_inj (by omega) (by omega) h
    omega

/-- A node that has taken the notice writes to the next survivor. -/
theorem Spread.stream (hb : Spread c d k s) (hj : j < c.N - 1) (hjk : j < k) :
    (s.server (c.pos d j)).peerF.streamFd = some (inFd c d (nextPos c j)) ∧
      (s.server (c.pos d j)).peerF.ip = c.addr (c.pos d (nextPos c j)) ∧
      s.listener (inFd c d (nextPos c j)) = c.pos d (nextPos c j) := by
  have hpeer := (hb.node j hj).peerF
  by_cases hlast : j + 2 = c.N
  · rw [if_pos (by omega)] at hpeer
    rw [nextPos, if_pos hlast, inFd, if_pos rfl]
    exact ⟨hpeer.1, hpeer.2, (hb.redial (by omega)).2⟩
  · rw [if_neg (by omega)] at hpeer
    rw [nextPos, if_neg hlast, inFd, if_neg (by omega), Nat.add_sub_cancel]
    exact ⟨hpeer.1, hpeer.2.1, hb.listener j hj⟩

theorem Spread.peerB (hb : Spread c d k s) (hj : j < c.N - 1) (h0 : j = 0 → k = c.N) :
    s.peerB (c.pos d j) = some (inFd c d j) ∧
      (s.server (c.pos d j)).peerB.streamFd = some (inFd c d j) := by
  have hnode := hb.node j hj
  have hfd : (s.server (c.pos d j)).peerB.streamFd = some (inFd c d j) := by
    rw [hnode.streamFd, inFd]
    split_ifs with h hk
    · rfl
    · exact absurd (h0 h) hk
    · rfl
  refine ⟨?_, hfd⟩
  rw [RingNet.peerB, hnode.statusOpen, decide_eq_false (by omega), hfd]
  rfl

theorem Spread.setServer (hb : Spread c d k s) (hsv : SameRing (s.server n) sv) :
    Spread c d k (s.setServer n sv) :=
  hb.frame rfl rfl rfl rfl (hsv.update rfl) (List.append_nil _).symm (by simp)

/-- A write by a node that has taken the notice does not go to `d`. -/
theorem Spread.write (hb : Spread c d k s) (h3 : 3 ≤ c.N) (hd : 1 ≤ d) (hj : j < c.N - 1)
    (hjk : j < k) (p : XPacket) : Spread c d k (s.write (c.pos d j) p) := by
  obtain ⟨hfd, -, hto⟩ := hb.stream hj hjk
  rw [write_eq hfd, hto]
  refine hb.frame rfl rfl rfl rfl (fun _ => .refl _) rfl fun e he => ?_
  rw [List.mem_singleton.mp he]
  refine ⟨fun n x => by simp, fun n h => ?_⟩
  exact c.pos_ne hd (nextPos_lt h3 hj) (RingEvent.wrote.inj h).2

theorem Spread.writeOpt (hb : Spread c d k s) (h3 : 3 ≤ c.N) (hd : 1 ≤ d) (hj : j < c.N - 1)
    (hjk : j < k) (o : Option XPacket) : Spread c d k (s.writeOpt (c.pos d j) o) := by
  rcases o with _ | p
  · exact hb
  · exact hb.write h3 hd hj hjk p

theorem Base.setServer (hb : Base c d k s) (hsv : SameRing (s.server n) sv) :
    Base c d k (s.setServer n sv) :=
  hb.keep (hb.toSpread.setServer hsv) rfl rfl fun _ => rfl

/-! ## Who can step -/

/-- The ring while the notice goes around: it is on the stream of the node that wrote it
last, nodes it has not reached are idle, and nothing else waits for an idle node. -/
structure Carried (c : Cluster) (d k : ℕ) (s : RingNet) : Prop extends Base c d k s where
  wire : k + 2 ≤ c.N → s.wire = carrying c d k
  quiet : c.N < k + 2 → ∀ j < c.N - 1, (s.server (c.pos d j)).state = .idle →
    ∀ f, s.peerB (c.pos d j) = some f → s.wire f = []
  closed : 1 ≤ k → k < c.N → (s.server (c.pos d 0)).state = .waitingNewPeer
  fresh : ∀ j < c.N - 1, k ≤ j →
    (s.server (c.pos d j)).state = .idle ∧ (s.server (c.pos d j)).index.nodeId = c.N

def Busy (n : ℕ) (a : RingAct) : Prop :=
  a = .begin n ∨ a = .present n ∨ a = .gossip n ∨ a = .report n

theorem sameRing_beginServer (sv : Server) : SameRing sv (beginServer 0 sv) := by
  rw [beginServer]
  split_ifs <;> exact ⟨rfl, rfl, rfl, rfl, rfl⟩

theorem sameRing_serverIndexPresentItself (sv : Server) :
    SameRing sv (serverIndexPresentItself sv).1 := ⟨rfl, rfl, rfl, rfl, rfl⟩

theorem sameRing_serverWaitIndexGossip (sv : Server) (p : XPacket) :
    SameRing sv (serverWaitIndexGossip sv p).sv := ⟨rfl, rfl, rfl, rfl, rfl⟩

def reported (sv : Server) : Server :=
  serverSetState { sv with index := { sv.index with statusOpen := true } } .idle

theorem sameRing_reported (sv : Server) : SameRing sv (reported sv) := ⟨rfl, rfl, rfl, rfl, rfl⟩

theorem sameRing_countReportedPeer (sv : Server) (p : XPacket) :
    SameRing sv (indexClientDone (countReportedPeer sv p)) := by
  rw [indexClientDone]
  split_ifs <;> exact ⟨rfl, rfl, rfl, rfl, rfl⟩

/-- A node the notice has not reached is idle. -/
theorem Carried.lt (h : Carried c d k s) (hj : j < c.N - 1)
    (hstate : (s.server (c.pos d j)).state ≠ .idle) : j < k :=
  not_le.mp fun hk => hstate (h.fresh j hj hk).1

theorem Spread.begin (hb : Spread c d k s) (hstep : s.step c (.begin n) = some s') :
    Spread c d k s' := by
  obtain ⟨-, -, rfl⟩ := step_begin hstep
  refine hb.frame rfl rfl rfl rfl ((sameRing_beginServer _).update rfl) rfl fun e he => ?_
  rw [List.mem_singleton.mp he]
  split_ifs <;> simp

theorem Spread.present (hb : Spread c d k s) (h3 : 3 ≤ c.N) (hd : 1 ≤ d) (hj : j < c.N - 1)
    (hjk : j < k) (hstep : s.step c (.present (c.pos d j)) = some s') : Spread c d k s' := by
  obtain ⟨-, -, rfl⟩ := step_present hstep
  exact (hb.setServer (sameRing_serverIndexPresentItself _)).write h3 hd hj hjk _

/-- The steps of busy nodes leave the notice alone. -/
theorem Carried.busy (h : Carried c d k s) (h3 : 3 ≤ c.N) (hd : 1 ≤ d) (hdN : d ≤ c.N)
    (ha : Busy n a) (hstep : s.step c a = some s') :
    ∃ j < c.N - 1, j < k ∧ n = c.pos d j ∧ Base c d k s' := by
  have hb := h.toBase
  rcases ha with rfl | rfl | rfl | rfl
  · obtain ⟨halive, hstate, rfl⟩ := step_begin hstep
    obtain ⟨j, hj, rfl⟩ := (hb.alive_iff hd hdN).mp halive
    have hjk := h.lt hj (by simp [hstate])
    refine ⟨j, hj, hjk, rfl, hb.keep (hb.toSpread.begin hstep) rfl rfl fun hk => ?_⟩
    apply Function.update_of_ne
    intro he
    -- the successor of `d` waits until the ring is closed
    obtain rfl : 0 = j := c.pos_inj (by omega) (by omega) he
    exact absurd (hstate.symm.trans (h.closed (by omega) hk)) (by decide)
  · obtain ⟨halive, hstate, rfl⟩ := step_present hstep
    obtain ⟨j, hj, rfl⟩ := (hb.alive_iff hd hdN).mp halive
    have hjk := h.lt hj (by simp [hstate])
    exact ⟨j, hj, hjk, rfl, hb.keep (hb.toSpread.present h3 hd hj hjk hstep) (write_admitted ..)
      (write_backlog ..) fun _ => congrFun (write_serving ..) _⟩
  · obtain ⟨halive, hstate, f, p, rest, -, -, rfl⟩ := step_gossip hstep
    obtain ⟨j, hj, rfl⟩ := (hb.alive_iff hd hdN).mp halive
    have hjk := h.lt hj (by simp [hstate])
    have hread : Spread c d k { s with wire := Function.update s.wire f rest } :=
      hb.frame rfl rfl rfl rfl (fun _ => .refl _) (List.append_nil _).symm (by simp)
    have hset := hread.setServer (n := c.pos d j) (sameRing_serverWaitIndexGossip _ p)
    exact ⟨j, hj, hjk, rfl, hb.keep (hset.writeOpt h3 hd hj hjk _) (writeOpt_admitted ..)
      (writeOpt_backlog ..) fun _ => congrFun (writeOpt_serving ..) _⟩
  · obtain ⟨halive, hstate, i, -, -, hwait, -, rfl⟩ := step_report hstep
    obtain ⟨j, hj, rfl⟩ := (hb.alive_iff hd hdN).mp halive
    have hne : i ≠ c.pos d j := fun hi => by
      rw [hi, hstate] at hwait
      exact absurd hwait (by decide)
    refine ⟨j, hj, h.lt hj (by simp [hstate]), rfl,
      (hb.setServer (sameRing_reported _)).setServer ?_⟩
    rw [setServer_server, Function.update_of_ne hne]
    exact sameRing_countReportedPeer _ _

/-- The successor of `d` accepts in the pass in which it found it dead. -/
theorem Carried.late (h : Carried c d k s) (hstep : s.step c (.accept n) = some s') :
    n = c.pos d 0 ∧ k + 1 = c.N ∧ (s.server n).state = .waitingNewPeer ∧ s' = setServing { s with
      backlog := Function.update s.backlog n []
      admitted := Function.update s.admitted n (some (c.N + 1)) } n false := by
  have h2 := c.two_le
  obtain ⟨-, f, rest, hback, rfl⟩ := step_accept hstep
  rw [h.backlog] at hback
  split_ifs at hback with hk
  obtain ⟨rfl, rfl⟩ := List.cons.inj hback
  exact ⟨hk.2, by omega, hk.2 ▸ h.closed (by omega) (by omega), rfl⟩

/-- The step is not the one in which the successor of `d` accepts in the pass in which it
found it dead. -/
def Patient (c : Cluster) (d : ℕ) (s : RingNet) (a : RingAct) : Prop :=
  a = .accept (c.pos d 0) → (s.server (c.pos d 0)).state = .idle

theorem patient_of_orderly (ha : a.Orderly s) : Patient c c.N s a := by
  rw [Patient, c.pos_N]
  exact ha.2

theorem along_orderly {as : List RingAct} (has : ∀ a ∈ as, a.Survivor ∧ a ≠ .accept 1) :
    Transition.Along (RingNet.step c) RingAct.Orderly s as := by
  refine Transition.along_imp ?_ (Transition.along_of_mem has)
  intro a s ha
  exact ⟨ha.1, fun he => absurd he ha.2⟩

/-- What can happen in the ring while the successor of `d` is patient: one of the three steps of
the notice, each by one node only, or a step of a busy node. -/
theorem Carried.cases (h : Carried c d k s) (h3 : 3 ≤ c.N) (hd : 1 ≤ d) (hdN : d ≤ c.N)
    (ha : a.Survivor) (hp : Patient c d s a)
    (hstep : s.step c a = some s') :
    (k = 0 ∧ NoticeStep c d 1 0 s s' ∧ s'.wire = carrying c d 1 ∧
      (s'.server (c.pos d 0)).state = .waitingNewPeer) ∨
    (1 ≤ k ∧ k + 2 ≤ c.N ∧ NoticeStep c d (k + 1) k s s' ∧ s'.wire = carrying c d (k + 1) ∧
      (s'.server (c.pos d k)).state = if d = c.N then .beginOperation else .idle) ∨
    (k + 1 = c.N ∧ NoticeStep c d c.N 0 s s' ∧ s'.wire = s.wire ∧
      (s'.server (c.pos d 0)).state = if d = c.N then .beginOperation else .idle) ∨
    ∃ j < c.N - 1, j < k ∧ Busy (c.pos d j) a ∧ Base c d k s' := by
  have hb := h.toBase
  cases a with
  | health n =>
    obtain ⟨rfl, rfl, hnotice, hwire, hstate⟩ := hb.health h3 hd hdN h.wire hstep
    exact .inl ⟨rfl, hnotice, hwire, hstate⟩
  | check n =>
    obtain ⟨hidle, f, p, rest, r, hf, hw, hr, hs'⟩ := step_check hstep
    obtain ⟨j, hj, rfl⟩ := (hb.alive_iff hd hdN).mp hidle.1
    by_cases hk : k + 2 ≤ c.N
    · rw [h.wire hk, carrying] at hw
      split_ifs at hw with hcarry
      obtain ⟨h1, -, rfl⟩ := hcarry
      obtain ⟨rfl, rfl⟩ := List.cons.inj hw
      have hfd : (s.server (c.pos d j)).peerB.streamFd = some (c.pos d (k - 1)) := by
        rw [RingNet.peerB] at hf
        split_ifs at hf
        exact hf
      have hjk := hb.reader hd hdN hj (by omega) hfd
      rw [Nat.sub_add_cancel h1] at hjk
      subst hjk
      obtain ⟨hnotice, hwire, hstate⟩ := hb.pass h1 hk hd hdN (h.wire hk) hr hs'
      obtain ⟨hidle, hindex⟩ := h.fresh j hj (le_refl j)
      refine .inr (.inl ⟨h1, hk, hnotice, hwire, ?_⟩)
      rw [hstate, hindex, hidle, serverIsIndex, hindex, (hb.node j hj).me]
      by_cases hdead : d = c.N
      · have hne : c.N ≠ c.pos d j := fun he => c.pos_ne hd hj (he.symm.trans hdead.symm)
        rw [if_pos hdead, if_pos ⟨decide_eq_false hne, hdead⟩]
      · rw [if_neg hdead, if_neg fun h => hdead h.2]
    · rw [h.quiet (by omega) j hj hidle.2.1 f hf] at hw
      exact absurd hw (by simp)
  | accept n =>
    obtain ⟨rfl, -, hwait, -⟩ := h.late hstep
    exact absurd ((hp rfl).symm.trans hwait) (by decide)
  | identify n =>
    obtain ⟨-, f, p, rest, hadm, -, -⟩ := step_identify hstep
    rw [hb.admitted] at hadm
    exact absurd hadm (by simp)
  | newPeer n =>
    obtain ⟨rfl, hk, hnotice, hwire, hstate⟩ := hb.newPeer hd hdN hstep
    simp only [c.pos_zero_eq_one hd hdN] at hstate
    exact .inr (.inr (.inl ⟨hk, hnotice, hwire, hstate⟩))
  | begin n =>
    obtain ⟨j, hj, hjk, rfl, hb'⟩ := h.busy h3 hd hdN (.inl rfl) hstep
    exact .inr (.inr (.inr ⟨j, hj, hjk, .inl rfl, hb'⟩))
  | present n =>
    obtain ⟨j, hj, hjk, rfl, hb'⟩ := h.busy h3 hd hdN (.inr (.inl rfl)) hstep
    exact .inr (.inr (.inr ⟨j, hj, hjk, .inr (.inl rfl), hb'⟩))
  | gossip n =>
    obtain ⟨j, hj, hjk, rfl, hb'⟩ := h.busy h3 hd hdN (.inr (.inr (.inl rfl))) hstep
    exact .inr (.inr (.inr ⟨j, hj, hjk, .inr (.inr (.inl rfl)), hb'⟩))
  | report n =>
    obtain ⟨j, hj, hjk, rfl, hb'⟩ := h.busy h3 hd hdN (.inr (.inr (.inr rfl))) hstep
    exact .inr (.inr (.inr ⟨j, hj, hjk, .inr (.inr (.inr rfl)), hb'⟩))
  | die n => exact absurd rfl (ha n)

/-! ## What is left to do -/

def stateWork : EServerState → ℕ
  | .waitingNewPeer => 4
  | .beginOperation => 3
  | .indexPresentItself | .waitIndexGossip => 2
  | .indexWaitingPeersKnowledge | .reportKnowledgeToIndex => 1
  | _ => 0

/-- The steps node `n` still has to take. One that has not counted the death has all of them
before it; one that took the connection of its new predecessor for a client's is left with
what it identifies itself with. -/
def work (s : RingNet) (n : ℕ) : ℕ :=
  if (s.server n).deathCount = 0 then 5
  else if (s.server n).state = .waitingNewPeer ∧ s.serving n = false then
    if s.admitted n = none then 0 else 1
  else stateWork (s.server n).state

def todo (c : Cluster) (s : RingNet) : ℕ := ∑ n ∈ Finset.Icc 1 c.N, work s n

theorem stateWork_le (st : EServerState) : stateWork st ≤ 4 := by
  cases st <;> decide

theorem work_le (s : RingNet) (n : ℕ) : work s n ≤ 5 := by
  have := stateWork_le (s.server n).state
  rw [work]
  split_ifs <;> omega

theorem work_of_ne (h : (s.server n).state ≠ .waitingNewPeer) :
    work s n = if (s.server n).deathCount = 0 then 5 else stateWork (s.server n).state := by
  rw [work, if_neg fun hs : _ ∧ _ => h hs.1]

theorem work_counted (h : (s.server n).deathCount = 1)
    (hstate : (s.server n).state ≠ .waitingNewPeer ∨ s.serving n = true) :
    work s n = stateWork (s.server n).state := by
  rw [work, if_neg (by omega), if_neg]
  rintro ⟨hwait, hserving⟩
  rcases hstate with hs | hs
  · exact hs hwait
  · exact absurd (hserving.symm.trans hs) (by decide)

theorem work_congr (hserver : s'.server n = s.server n) (hserving : s'.serving n = s.serving n)
    (hadmitted : s'.admitted n = s.admitted n) : work s' n = work s n := by
  rw [work, work, hserver, hserving, hadmitted]

theorem todo_le (s : RingNet) : todo c s ≤ 5 * c.N := by
  have h := Finset.sum_le_card_nsmul (Finset.Icc 1 c.N) (work s) 5 fun n _ => work_le s n
  rwa [Nat.card_Icc, Nat.add_sub_cancel, smul_eq_mul, mul_comm] at h

theorem todo_lt (h1 : 1 ≤ n) (hn : n ≤ c.N) (hlt : work s' n < work s n)
    (hle : ∀ m, m ≠ n → work s' m ≤ work s m) : todo c s' < todo c s := by
  refine Finset.sum_lt_sum (fun m _ => ?_) ⟨n, Finset.mem_Icc.mpr ⟨h1, hn⟩, hlt⟩
  by_cases hm : m = n
  · exact hm ▸ hlt.le
  · exact hle m hm

theorem stateWork_begin {sv : Server} (hstate : sv.state = .beginOperation) :
    stateWork (beginServer 0 sv).state < stateWork sv.state := by
  rw [hstate, beginServer]
  split_ifs <;> exact (by decide : 2 < 3)

/-- The index has no more to do after a report. -/
theorem todo_indexClientDone (hstate : (s.server n).state = .indexWaitingPeersKnowledge) (p : XPacket) :
    todo c (s.setServer n (indexClientDone (countReportedPeer (s.server n) p))) ≤ todo c s := by
  refine Finset.sum_le_sum fun m _ => ?_
  by_cases hm : m = n
  · subst hm
    have hnew : (indexClientDone (countReportedPeer (s.server m) p)).state = .idle ∨
        (indexClientDone (countReportedPeer (s.server m) p)).state = .indexWaitingPeersKnowledge := by
      rw [indexClientDone]
      split_ifs
      · exact .inl rfl
      · exact .inr hstate
    have hself : (s.setServer m (indexClientDone (countReportedPeer (s.server m) p))).server m =
        indexClientDone (countReportedPeer (s.server m) p) := Function.update_self ..
    rw [work_of_ne (s := s) (by simp [hstate]), work_of_ne, hself,
      (sameRing_countReportedPeer _ p).deathCount, hstate]
    · split_ifs
      · exact le_rfl
      · rcases hnew with hs | hs
        · rw [hs]
          decide
        · rw [hs]
    · rw [hself]
      rcases hnew with hs | hs <;> simp [hs]
  · apply le_of_eq
    apply work_congr
    · rw [setServer_server, Function.update_of_ne hm]
    · rfl
    · rfl

/-- A busy node that has counted the death gets on. -/
theorem Spread.todo_lt (hb : Spread c d k s) (hdN : d ≤ c.N) (hj : j < c.N - 1) (hjk : j < k)
    (hserver : s'.server = Function.update s.server (c.pos d j) sv)
    (hserving : ∀ m, m ≠ c.pos d j → s'.serving m = s.serving m) (hadmitted : s'.admitted = s.admitted)
    (hsv : SameRing (s.server (c.pos d j)) sv)
    (hstate : (s.server (c.pos d j)).state ≠ .waitingNewPeer) (hstate' : sv.state ≠ .waitingNewPeer)
    (hlt : stateWork sv.state < stateWork (s.server (c.pos d j)).state) : todo c s' < todo c s := by
  have hdeath : (s.server (c.pos d j)).deathCount = 1 := by rw [(hb.node j hj).deathCount, if_pos hjk]
  have hself : s'.server (c.pos d j) = sv := by rw [hserver, Function.update_self]
  refine RingNet.todo_lt (c.one_le_pos d j) (c.pos_le hdN (by omega)) ?_ fun m hm => ?_
  · rw [work_counted hdeath (.inl hstate), work_counted, hself]
    · exact hlt
    · rw [hself, hsv.deathCount, hdeath]
    · rw [hself]
      exact .inl hstate'
  · apply le_of_eq
    apply work_congr
    · rw [hserver, Function.update_of_ne hm]
    · exact hserving m hm
    · rw [hadmitted]

theorem Spread.todo_begin (hb : Spread c d k s) (hdN : d ≤ c.N) (hj : j < c.N - 1) (hjk : j < k)
    (hstep : s.step c (.begin (c.pos d j)) = some s') : todo c s' < todo c s := by
  obtain ⟨-, hstate, rfl⟩ := step_begin hstep
  refine hb.todo_lt hdN hj hjk rfl (fun m hm => Function.update_of_ne hm _ _) rfl
    (sameRing_beginServer _) (by simp [hstate]) ?_ (stateWork_begin hstate)
  rw [beginServer]
  split_ifs <;> simp [serverSetState]

theorem Spread.todo_present (hb : Spread c d k s) (hdN : d ≤ c.N) (hj : j < c.N - 1) (hjk : j < k)
    (hstep : s.step c (.present (c.pos d j)) = some s') : todo c s' < todo c s := by
  obtain ⟨-, hstate, rfl⟩ := step_present hstep
  refine hb.todo_lt hdN hj hjk (write_server ..) (fun _ _ => congrFun (write_serving ..) _)
    (write_admitted ..) (sameRing_serverIndexPresentItself _) (by simp [hstate]) ?_ ?_
  · simp [serverIndexPresentItself, serverSetState]
  · rw [hstate]
    exact (by decide : 1 < 2)

/-- A step of the notice by a node that has all its steps before it, or waits to be reached. -/
theorem NoticeStep.todo_lt {k' : ℕ} (h : NoticeStep c d k' j s s') (hb : Base c d k s)
    (hdN : d ≤ c.N) (hj : j < c.N - 1) (hjk : j < k')
    (hstate : (s'.server (c.pos d j)).state ≠ .waitingNewPeer ∨ s'.serving (c.pos d j) = true)
    (hlt : stateWork (s'.server (c.pos d j)).state < work s (c.pos d j)) : todo c s' < todo c s := by
  refine RingNet.todo_lt (c.one_le_pos d j) (c.pos_le hdN (by omega)) ?_ fun m hm => ?_
  · rwa [work_counted _ hstate]
    rw [(h.base.node j hj).deathCount, if_pos hjk]
  · apply le_of_eq
    apply work_congr
    · rw [h.server, Function.update_of_ne hm]
    · exact h.serving m hm
    · rw [h.base.admitted, hb.admitted]

/-- Every step of the ring leaves less to do. -/
theorem Carried.todo_lt (h : Carried c d k s) (h3 : 3 ≤ c.N) (hd : 1 ≤ d) (hdN : d ≤ c.N)
    (ha : a.Survivor) (hp : Patient c d s a)
    (hstep : s.step c a = some s') : todo c s' < todo c s := by
  have hb := h.toBase
  have hbefore : ∀ j < c.N - 1, k ≤ j → work s (c.pos d j) = 5 := fun j hj hk => by
    rw [work, if_pos (by rw [(hb.node j hj).deathCount, if_neg (by omega)])]
  rcases h.cases h3 hd hdN ha hp hstep with ⟨rfl, hn, -, hstate⟩ | ⟨h1, hk, hn, -, hstate⟩ |
    ⟨hk, hn, -, hstate⟩ | ⟨j, hj, hjk, rfl | rfl | rfl | rfl, -⟩
  · refine hn.todo_lt hb hdN (by omega) (by omega) (.inr (hn.base.serving le_rfl (by omega))) ?_
    rw [hbefore 0 (by omega) le_rfl, hstate]
    decide
  · refine hn.todo_lt hb hdN (by omega) (by omega) (.inl ?_) ?_
    · rw [hstate]
      split_ifs <;> decide
    · rw [hbefore k (by omega) le_rfl, hstate]
      split_ifs <;> decide
  · refine hn.todo_lt hb hdN (by omega) (by omega) (.inl ?_) ?_
    · rw [hstate]
      split_ifs <;> decide
    · rw [work_counted (by rw [(hb.node 0 (by omega)).deathCount, if_pos (by omega)])
        (.inr (hb.serving (by omega) (by omega))), hstate, h.closed (by omega) (by omega)]
      split_ifs <;> decide
  · exact hb.todo_begin hdN hj hjk hstep
  · exact hb.todo_present hdN hj hjk hstep
  · obtain ⟨-, hstate, f, p, rest, -, -, rfl⟩ := step_gossip hstep
    refine hb.toSpread.todo_lt hdN hj hjk (writeOpt_server ..) (fun _ _ => congrFun (writeOpt_serving ..) _)
      (writeOpt_admitted ..) (sameRing_serverWaitIndexGossip _ p) (by simp [hstate]) ?_ ?_
    · simp [serverWaitIndexGossip, serverSetState]
    · rw [hstate]
      exact (by decide : 1 < 2)
  · obtain ⟨-, hstate, i, -, hi, hwait, -, rfl⟩ := step_report hstep
    obtain ⟨m, hm, rfl⟩ := (hb.alive_iff hd hdN).mp hi
    have hne : c.pos d m ≠ c.pos d j := fun he => by
      rw [he, hstate] at hwait
      exact absurd hwait (by decide)
    have hlt : todo c (s.setServer (c.pos d j) (reported (s.server (c.pos d j)))) < todo c s := by
      refine hb.toSpread.todo_lt hdN hj hjk rfl (fun _ _ => rfl) rfl (sameRing_reported _)
        (by simp [hstate]) (by simp [reported, serverSetState]) ?_
      rw [hstate]
      exact (by decide : 0 < 1)
    have hold : (s.setServer (c.pos d j) (reported (s.server (c.pos d j)))).server (c.pos d m) =
        s.server (c.pos d m) := by rw [setServer_server, Function.update_of_ne hne]
    have hle := todo_indexClientDone (c := c) (hold.symm ▸ hwait) (xpacketReportSelf (s.server (c.pos d j)))
    rw [hold] at hle
    exact hle.trans_lt hlt

/-! ## The notice arrives -/

theorem xprocedureCheckPeerB_isSome {dial : Address → Option ℕ} (hnet : dec64 sv.netSize ≠ 0)
    (p : XPacket) : ∃ r, xprocedureCheckPeerB dial sv p = some r := by
  simp only [xprocedureCheckPeerB, peerDiedNeighbour, hnet, if_false]
  split_ifs <;> simp

/-- As long as the notice has not come around, some node can step. -/
theorem Carried.enabled (h : Carried c d k s) (h3 : 3 ≤ c.N) (hd : 1 ≤ d) (hdN : d ≤ c.N)
    (hk : k < c.N) : ∃ a : RingAct, a.Survivor ∧ s.step c a ≠ none := by
  have hb := h.toBase
  have hN := c.N_lt
  have halive : ∀ j < c.N - 1, Alive c s (c.pos d j) := fun j hj =>
    (hb.alive_iff hd hdN).mpr ⟨j, hj, rfl⟩
  have hidle : ∀ j < c.N - 1, k ≤ j → Idle c s (c.pos d j) := fun j hj hkj =>
    ⟨halive j hj, (h.fresh j hj hkj).1, hb.admitted _⟩
  rcases Nat.eq_zero_or_pos k with rfl | h1
  · refine ⟨.health (c.pos d 0), fun n => by simp, ?_⟩
    have hnode := hb.node 0 (by omega)
    have hfd : s.peerB (c.pos d 0) = some d := by
      rw [RingNet.peerB, hnode.statusOpen, hnode.streamFd, decide_eq_false (by omega)]
      simp only [Bool.not_false, if_true]
      rw [if_neg (by omega)]
    have heof : s.Eof d := by
      refine ⟨?_, ?_⟩
      · rw [h.wire (by omega), carrying, if_neg (by omega)]
      · rw [hb.dialer d hdN, hb.deaths, List.mem_singleton]
    simp only [step, health, hidle 0 (by omega) (le_refl 0), if_true, hfd, Option.bind_eq_bind,
      Option.bind_some, heof]
    simp
  · by_cases hlast : k + 1 = c.N
    · refine ⟨.newPeer (c.pos d 0), fun n => by simp, ?_⟩
      have hopen := (hb.node 0 (by omega)).statusOpen
      rw [decide_eq_true (by omega)] at hopen
      have hback := hb.backlog (c.pos d 0)
      rw [if_pos ⟨by omega, rfl⟩] at hback
      simp only [step, newPeer, hback]
      rw [if_pos ⟨halive 0 (by omega), hb.admitted _, h.closed h1 hk, hopen⟩]
      simp
    · refine ⟨.check (c.pos d k), fun n => by simp, ?_⟩
      have hfd := (hb.peerB (show k < c.N - 1 by omega) (by omega)).1
      rw [inFd, if_neg (by omega)] at hfd
      have hwire : s.wire (c.pos d (k - 1)) = [c.notice d (c.pos d (k - 1))] := by
        rw [h.wire (by omega), carrying_head h1 (by omega)]
      have hnet : dec64 (s.server (c.pos d k)).netSize ≠ 0 := by
        rw [(hb.node k (by omega)).netSize, if_neg (lt_irrefl k), dec64_of_pos (by omega) (by omega)]
        omega
      obtain ⟨r, hr⟩ : ∃ r, xprocedureCheckPeerB (s.dial c) (s.server (c.pos d k))
          (c.notice d (c.pos d (k - 1))) = some r := xprocedureCheckPeerB_isSome hnet _
      simp only [step, check, hidle k (by omega) (le_refl k), if_true, hfd, Option.bind_eq_bind,
        Option.bind_some, hwire, hr]
      simp

/-! ## A death that is not the index's -/

theorem NoticeStep.other {k' : ℕ} (h : NoticeStep c d k' j s s') {i : ℕ} (hi : i < c.N)
    (hj : j < c.N) (hij : i ≠ j) : s'.server (c.pos d i) = s.server (c.pos d i) := by
  rw [h.server, Function.update_of_ne fun he => hij (c.pos_inj hi hj he)]

/-- Only the successor of `d` is not idle, until the ring is closed. -/
structure Passing (c : Cluster) (d k : ℕ) (s : RingNet) : Prop extends Base c d k s where
  wire : s.wire = carrying c d k
  state : ∀ j < c.N - 1, (s.server (c.pos d j)).state =
    if j = 0 ∧ 1 ≤ k ∧ k < c.N then .waitingNewPeer else .idle
  index : ∀ j < c.N - 1, (s.server (c.pos d j)).index.nodeId = c.N

theorem Passing.carried (h : Passing c d k s) (h3 : 3 ≤ c.N) : Carried c d k s where
  toBase := h.toBase
  wire _ := h.wire
  quiet hk j _ _ f _ := by rw [h.wire, carrying_none (.inr hk)]
  closed h1 hk := by rw [h.state 0 (by omega), if_pos ⟨rfl, h1, hk⟩]
  fresh j hj hkj := ⟨by rw [h.state j hj, if_neg (by omega)], h.index j hj⟩

theorem Passing.step (h : Passing c d k s) (h3 : 3 ≤ c.N) (hd : 1 ≤ d) (hdN : d < c.N)
    (ha : a.Survivor) (hp : Patient c d s a)
    (hstep : s.step c a = some s') : ∃ k', Passing c d k' s' := by
  rcases (h.carried h3).cases h3 hd hdN.le ha hp hstep with ⟨rfl, hn, hwire, hstate⟩ |
    ⟨h1, hk, hn, hwire, hstate⟩ | ⟨hk, hn, hwire, hstate⟩ | ⟨j, hj, -, hbusy, -⟩
  · refine ⟨1, hn.base, hwire, fun i hi => ?_, fun i hi => ?_⟩
    · by_cases hi0 : i = 0
      · rw [hi0, hstate, if_pos ⟨rfl, le_refl 1, by omega⟩]
      · rw [hn.other (by omega) (by omega) hi0, h.state i hi, if_neg (by omega), if_neg (by omega)]
    · by_cases hi0 : i = 0
      · rw [hi0, hn.index, h.index 0 (by omega)]
      · rw [hn.other (by omega) (by omega) hi0, h.index i hi]
  · refine ⟨k + 1, hn.base, hwire, fun i hi => ?_, fun i hi => ?_⟩
    · by_cases hik : i = k
      · rw [hik, hstate, if_neg hdN.ne, if_neg (by omega)]
      · rw [hn.other (by omega) (by omega) hik, h.state i hi]
        simp only [show (1 ≤ k + 1 ∧ k + 1 < c.N) ↔ (1 ≤ k ∧ k < c.N) by omega]
    · by_cases hik : i = k
      · rw [hik, hn.index, h.index k (by omega)]
      · rw [hn.other (by omega) (by omega) hik, h.index i hi]
  · refine ⟨c.N, hn.base, ?_, fun i hi => ?_, fun i hi => ?_⟩
    · rw [hwire, h.wire, carrying_none (.inr (by omega)), carrying_none (.inr (by omega))]
    · by_cases hi0 : i = 0
      · rw [hi0, hstate, if_neg hdN.ne, if_neg (by omega)]
      · rw [hn.other (by omega) (by omega) hi0, h.state i hi, if_neg (by omega), if_neg (by omega)]
    · by_cases hi0 : i = 0
      · rw [hi0, hn.index, h.index 0 (by omega)]
      · rw [hn.other (by omega) (by omega) hi0, h.index i hi]
  · -- nobody is busy
    have hstate := h.state j hj
    rcases hbusy with rfl | rfl | rfl | rfl
    · rw [(step_begin hstep).2.1] at hstate
      split_ifs at hstate
    · rw [(step_present hstep).2.1] at hstate
      split_ifs at hstate
    · rw [(step_gossip hstep).2.1] at hstate
      split_ifs at hstate
    · rw [(step_report hstep).2.1] at hstate
      split_ifs at hstate

end RingNet

end DSS
