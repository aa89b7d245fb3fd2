import DistStore.Model.MainLoop
import DistStore.Model.RingNet
import DistStore.Proofs.PassCases

/-! A repair that is pending: what an idle pass that finds `peer_b` dead, or hears that the
index died, leaves as the next state. -/

namespace DSS

open Transition

namespace MainLoop

/-! ## What a pass finds out -/

/-- At this node, `p` means that the index died. -/
def IndexDiedNotice (sv : Server) (p : XPacket) : Prop :=
  p ≠ [] ∧ commType p = TYPE_PEER_DIED ∧ serverIsIndex sv = false ∧
    (XPeerDied.ofContent (content p)).peerId = sv.index.nodeId

instance (sv : Server) (p : XPacket) : Decidable (IndexDiedNotice sv p) :=
  inferInstanceAs (Decidable (_ ∧ _ ∧ _ ∧ _))

/-- `server_healthcheck` finds the backward peer dead in this pass. -/
def FindsDead (io : PassIo) (st : MainLoop) : Prop :=
  st.sv.state = .idle ∧ st.sv.peerB.statusOpen = true ∧ io.peekZero = true

/-- `xprocedure_check_peer_b` takes a notice, in this pass, that names the index. -/
def LearnsIndexDied (io : PassIo) (st : MainLoop) : Prop :=
  st.sv.state = .idle ∧ st.sv.peerB.statusOpen = true ∧ io.peekZero = false ∧
    ∃ p, io.peerB = some p ∧ IndexDiedNotice st.sv p

/-- The listener yields a backward peer in this pass. -/
def AcceptsPeer (io : PassIo) (st : MainLoop) : Prop :=
  AwaitsPeer st.sv ∧ st.sv.peerB.statusOpen = false ∧ io.accept.isSome

/-- An accepted connection identifies a node and brings a packet, not its end. -/
def BringsPacket : List Recv → Prop
  | r :: r' :: _ => r' ≠ some [] ∧
      serverWaitClientPresentation (serverWaitFromSocket r) ≠ 0 ∧
      serverWaitClientPresentation (serverWaitFromSocket r) ≠ CLIENT_NODE_ID
  | _ => False

/-- An idle pass takes a packet in: of the connected client, or else of a node that has
connected. -/
def TakesPacket (io : PassIo) (st : MainLoop) : Prop :=
  match st.sv.clientFd, io.clientData with
  | some _, some r => r ≠ some []
  | _, _ => io.accept.isSome ∧ BringsPacket io.conn

instance (io : PassIo) (st : MainLoop) : Decidable (FindsDead io st) :=
  inferInstanceAs (Decidable (_ ∧ _ ∧ _))

instance (io : PassIo) (st : MainLoop) : Decidable (AcceptsPeer io st) :=
  inferInstanceAs (Decidable (_ ∧ _ ∧ _))

instance (io : PassIo) (st : MainLoop) : Decidable (LearnsIndexDied io st) :=
  inferInstanceAs (Decidable (_ ∧ _ ∧ _ ∧ _))

/-! ## The idle pass -/

theorem serverHealthcheck_dead {sv : Server} (h : sv.peerB.statusOpen = true) :
    (serverHealthcheck true sv).state = .waitingNewPeer ∧
      (serverHealthcheck true sv).peerB.statusOpen = false ∧
      (serverHealthcheck true sv).clientFd = sv.clientFd := by
  simp [serverHealthcheck, h, serverHealthcheckDead_eq]

theorem checkPeerB_closed {dial : Address → Option ℕ} {r : Recv} {sv : Server}
    (h : sv.peerB.statusOpen = false) : checkPeerB dial r sv = some sv := by
  simp [checkPeerB, h]

theorem peerDiedNeighbour_clientFd {dial : Address → Option ℕ} {sv : Server} {p : XPacket}
    {r : Handled} (h : peerDiedNeighbour dial sv p = some r) :
    r.sv.clientFd = sv.clientFd ∧ r.sv.state = sv.state := by
  simp only [peerDiedNeighbour] at h
  split_ifs at h
  · obtain rfl := Option.some.inj h
    simp only [serverDialPeer]
    split <;> simp
  · obtain rfl := Option.some.inj h
    simp

theorem checkPeerB_clientFd {dial : Address → Option ℕ} {r : Recv} {sv sv' : Server}
    (h : checkPeerB dial r sv = some sv') : sv'.clientFd = sv.clientFd := by
  simp only [checkPeerB] at h
  split_ifs at h
  · cases r with
    | none => exact Option.some.inj h ▸ rfl
    | some p =>
      cases p with
      | nil => exact Option.some.inj h ▸ rfl
      | cons b bs =>
        obtain ⟨hd, hhd, rfl⟩ := Option.map_eq_some_iff.mp h
        simp only [xprocedureCheckPeerB] at hhd
        split_ifs at hhd
        · obtain ⟨r, hr, hhd⟩ := Option.bind_eq_some_iff.mp hhd
          obtain rfl := Option.some.inj hhd
          rw [← (peerDiedNeighbour_clientFd hr).1]
          simp only [peerDiedIndex]
          split_ifs <;> rfl
        · exact Option.some.inj hhd ▸ rfl
  · exact Option.some.inj h ▸ rfl

theorem checkPeerB_indexDied {dial : Address → Option ℕ} {p : XPacket} {sv sv' : Server}
    (hopen : sv.peerB.statusOpen = true) (hp : IndexDiedNotice sv p)
    (h : checkPeerB dial (some p) sv = some sv') : sv'.state = .beginOperation := by
  obtain ⟨hne, htype, hindex, hid⟩ := hp
  obtain ⟨b, bs, rfl⟩ := List.exists_cons_of_ne_nil hne
  simp only [checkPeerB, hopen, if_true] at h
  obtain ⟨hd, hhd, rfl⟩ := Option.map_eq_some_iff.mp h
  simp only [xprocedureCheckPeerB, if_pos htype] at hhd
  obtain ⟨r, hr, hhd⟩ := Option.bind_eq_some_iff.mp hhd
  obtain rfl := Option.some.inj hhd
  obtain ⟨hme, -, -, -, hidx, -⟩ := peerDiedNeighbour_frame hr
  have hno : serverIsIndex r.sv = false := by
    rw [← hindex, serverIsIndex, serverIsIndex, hme, hidx]
  simp only [peerDiedIndex, hno, Bool.false_eq_true, if_false]
  rw [if_pos (hid.trans (by rw [hidx]))]
  rfl

theorem receive_state (st : MainLoop) (fd : ℕ) (p : XPacket) :
    (st.receive fd p).sv.state = .receivedPacket := rfl

theorem withServer_sv (st : MainLoop) (sv : Server) : (st.withServer sv).sv = sv := rfl

theorem BringsPacket.presented {r : Recv} {rs : List Recv} (h : BringsPacket (r :: rs)) :
    serverWaitClientPresentation (serverWaitFromSocket r) ≠ 0 ∧
      serverWaitClientPresentation (serverWaitFromSocket r) ≠ CLIENT_NODE_ID := by
  cases rs with
  | nil => exact h.elim
  | cons r' rs => exact h.2

theorem idleAccepted_state {io : PassIo} {st st' : MainLoop} {c : ℕ}
    (h : idleAccepted io st c = some st') :
    (BringsPacket io.conn → st'.sv.state = .receivedPacket) ∧
      (¬ BringsPacket io.conn → st'.sv.state = st.sv.state) := by
  obtain ⟨r, rs, hconn, ⟨hrefused, rfl⟩ | ⟨huser, rfl⟩ | ⟨hnode, r', rs', rfl, ⟨hend, rfl⟩ | ⟨hend, rfl⟩⟩⟩ :=
    idleAccepted_cases h
  · refine ⟨fun hb => ?_, fun _ => rfl⟩
    rw [hconn] at hb
    exact absurd hrefused hb.presented.1
  · refine ⟨fun hb => ?_, fun _ => rfl⟩
    rw [hconn] at hb
    exact absurd huser hb.presented.2
  · refine ⟨fun hb => ?_, fun _ => rfl⟩
    rw [hconn] at hb
    exact absurd hend hb.1
  · refine ⟨fun _ => receive_state st c _, fun hno => ?_⟩
    rw [hconn] at hno
    exact absurd ⟨hend, hnode⟩ hno

theorem idleAccept_state {io : PassIo} {st st' : MainLoop} (h : idleAccept io st = some st') :
    (io.accept.isSome ∧ BringsPacket io.conn → st'.sv.state = .receivedPacket) ∧
      (¬ (io.accept.isSome ∧ BringsPacket io.conn) → st'.sv.state = st.sv.state) := by
  rw [idleAccept] at h
  cases ha : io.accept with
  | none =>
    rw [ha] at h
    obtain rfl := Option.some.inj h
    simp
  | some c =>
    rw [ha] at h
    simpa using idleAccepted_state h

/-- The rest of the pass overwrites the state exactly when it takes a packet in. -/
theorem idleServe_state {io : PassIo} {st st' : MainLoop} (h : idleServe io st = some st') :
    (TakesPacket io st → st'.sv.state = .receivedPacket) ∧
      (¬ TakesPacket io st → st'.sv.state = st.sv.state) := by
  rw [idleServe] at h
  unfold TakesPacket
  cases hfd : st.sv.clientFd with
  | none =>
    simp only [hfd] at h
    exact idleAccept_state h
  | some fd =>
    cases hdata : io.clientData with
    | none =>
      simp only [hfd, hdata] at h
      exact idleAccept_state h
    | some r =>
      simp only [hfd, hdata] at h
      split_ifs at h with hempty
      · obtain rfl := Option.some.inj h
        exact ⟨fun hne => absurd hempty hne, fun _ => rfl⟩
      · obtain rfl := Option.some.inj h
        exact ⟨fun _ => receive_state st fd _, fun hno => absurd hempty hno⟩

/-- An idle pass in two parts: what the checks of `peer_b` leave, and the rest on it. -/
theorem pass_idle {io : PassIo} {st st' : MainLoop} (hidle : st.sv.state = .idle)
    (h : pass io st = some st') :
    ∃ sv, checkPeerB io.dial io.peerB (serverHealthcheck io.peekZero st.sv) = some sv ∧
      (TakesPacket io (st.withServer sv) ↔ TakesPacket io st) ∧
      idleServe io (st.withServer sv) = some st' := by
  simp only [pass, hidle, serverIdle] at h
  obtain ⟨sv, hsv, hserve⟩ := Option.bind_eq_some_iff.mp h
  refine ⟨sv, hsv, ?_, hserve⟩
  have hhealth : (serverHealthcheck io.peekZero st.sv).clientFd = st.sv.clientFd := by
    simp only [serverHealthcheck]
    split_ifs
    · rw [serverHealthcheckDead_eq]
    · rfl
  rw [TakesPacket, TakesPacket, withServer_sv, checkPeerB_clientFd hsv, hhealth]

theorem pass_findsDead {io : PassIo} {st st' : MainLoop} (hdead : FindsDead io st)
    (h : pass io st = some st') :
    (TakesPacket io st → st'.sv.state = .receivedPacket) ∧
      (¬ TakesPacket io st → st'.sv.state = .waitingNewPeer) := by
  obtain ⟨hidle, hopen, hpeek⟩ := hdead
  obtain ⟨sv, hsv, htakes, hserve⟩ := pass_idle hidle h
  obtain ⟨hstate, hclosed, -⟩ := serverHealthcheck_dead hopen
  rw [hpeek, checkPeerB_closed hclosed] at hsv
  obtain rfl := Option.some.inj hsv
  obtain ⟨htake, hkeep⟩ := idleServe_state hserve
  exact ⟨fun ht => htake (htakes.mpr ht), fun hno => (hkeep fun ht => hno (htakes.mp ht)).trans hstate⟩

theorem pass_learnsIndexDied {io : PassIo} {st st' : MainLoop} (hlearns : LearnsIndexDied io st)
    (h : pass io st = some st') :
    (TakesPacket io st → st'.sv.state = .receivedPacket) ∧
      (¬ TakesPacket io st → st'.sv.state = .beginOperation) := by
  obtain ⟨hidle, hopen, hpeek, p, hp, hnotice⟩ := hlearns
  obtain ⟨sv, hsv, htakes, hserve⟩ := pass_idle hidle h
  rw [hpeek, hp, serverHealthcheck, Bool.and_false, if_neg Bool.false_ne_true] at hsv
  have hstate := checkPeerB_indexDied hopen hnotice hsv
  obtain ⟨htake, hkeep⟩ := idleServe_state hserve
  exact ⟨fun ht => htake (htakes.mpr ht), fun hno => (hkeep fun ht => hno (htakes.mp ht)).trans hstate⟩

/-- A node that waits for a new backward peer waits on until it gets one. -/
theorem pass_waitingNewPeer {io : PassIo} {st st' : MainLoop}
    (hstate : st.sv.state = .waitingNewPeer) (haccept : ¬ AcceptsPeer io st)
    (h : pass io st = some st') : st'.sv.state = .waitingNewPeer := by
  simp only [pass, hstate] at h
  obtain rfl := Option.some.inj h
  simp only [withServer_sv, serverWaitingNewPeer]
  split_ifs with hopen
  · exact hstate
  · cases hio : io.accept with
    | none => exact hstate
    | some c => exact absurd ⟨.inr hstate, by simpa using hopen, by simp [hio]⟩ haccept

end MainLoop

/-! ## Runs -/

/-- The loop, and what is pending at its head: a repair since the backward peer was found
dead, until a new one is accepted; an election since the last pass. -/
structure Watched where
  loop : MainLoop
  repairPending : Bool
  indexDied : Bool
  deriving DecidableEq, Repr

def Watched.step (w : Watched) (io : PassIo) : Option Watched :=
  (w.loop.pass io).map fun loop =>
    { loop := loop
      repairPending := w.loop.FindsDead io ∨ (w.repairPending ∧ ¬ w.loop.AcceptsPeer io)
      indexDied := w.loop.LearnsIndexDied io }

/-- What is pending is the state the loop executes next. -/
structure RepairKept (w : Watched) : Prop where
  repair : w.repairPending = true → w.loop.sv.state = .waitingNewPeer
  election : w.indexDied = true → w.loop.sv.state = .beginOperation

instance (w : Watched) : Decidable (RepairKept w) :=
  decidable_of_iff ((w.repairPending = true → w.loop.sv.state = .waitingNewPeer) ∧
      (w.indexDied = true → w.loop.sv.state = .beginOperation))
    ⟨fun h => ⟨h.1, h.2⟩, fun h => ⟨h.repair, h.election⟩⟩

theorem RepairKept.step {w w' : Watched} {io : PassIo} (hw : RepairKept w)
    (htakes : w.loop.FindsDead io ∨ w.loop.LearnsIndexDied io → ¬ w.loop.TakesPacket io)
    (hstep : w.step io = some w') : RepairKept w' := by
  obtain ⟨loop, hpass, rfl⟩ := Option.map_eq_some_iff.mp hstep
  constructor
  · intro hpending
    rcases of_decide_eq_true hpending with hdead | ⟨hbefore, haccept⟩
    · exact (MainLoop.pass_findsDead hdead hpass).2 (htakes (.inl hdead))
    · exact MainLoop.pass_waitingNewPeer (hw.repair hbefore) haccept hpass
  · intro hdied
    have hlearns := of_decide_eq_true hdied
    exact (MainLoop.pass_learnsIndexDied hlearns hpass).2 (htakes (.inr hlearns))

/-- A packet taken in by the pass that finds the death out drops the repair. -/
theorem not_repairKept_of_takesPacket {w w' : Watched} {io : PassIo}
    (hfinds : w.loop.FindsDead io ∨ w.loop.LearnsIndexDied io) (htakes : w.loop.TakesPacket io)
    (hstep : w.step io = some w') : ¬ RepairKept w' := by
  obtain ⟨loop, hpass, rfl⟩ := Option.map_eq_some_iff.mp hstep
  intro hkept
  rcases hfinds with hdead | hlearns
  · have hstate := hkept.repair (decide_eq_true (.inl hdead))
    rw [(MainLoop.pass_findsDead hdead hpass).1 htakes] at hstate
    exact absurd hstate (by decide)
  · have hstate := hkept.election (decide_eq_true hlearns)
    rw [(MainLoop.pass_learnsIndexDied hlearns hpass).1 htakes] at hstate
    exact absurd hstate (by decide)

/-- At every loop head of the run, what is pending is the state executed next. -/
def AlwaysRepairKept (w : Watched) (ios : List PassIo) : Prop :=
  ∀ as bs u, ios = as ++ bs → run Watched.step w as = some u → RepairKept u

/-- Along a run nothing that is pending is dropped, exactly when no pass that finds a death
out also takes a packet in. -/
theorem repair_kept_iff {st : MainLoop} {ios : List PassIo} {w : Watched}
    (hrun : run Watched.step ⟨st, false, false⟩ ios = some w) :
    AlwaysRepairKept ⟨st, false, false⟩ ios ↔
      ∀ as io bs u, ios = as ++ io :: bs → run Watched.step ⟨st, false, false⟩ as = some u →
        u.loop.FindsDead io ∨ u.loop.LearnsIndexDied io → ¬ u.loop.TakesPacket io := by
  constructor
  · intro hkept as io bs u hsplit hu hfinds htakes
    rw [hsplit, run_append] at hrun
    obtain ⟨u', hu', hrest⟩ := hrun
    obtain rfl : u = u' := Option.some.inj (hu.symm.trans hu')
    obtain ⟨v, hv, -⟩ := run_cons.mp hrest
    refine not_repairKept_of_takesPacket hfinds htakes hv
      (hkept (as ++ [io]) bs v (by simp [hsplit]) ?_)
    exact run_append.mpr ⟨u, hu, run_cons.mpr ⟨v, hv, rfl⟩⟩
  · intro htakes as bs u hsplit hu
    induction as using List.reverseRecOn generalizing bs u with
    | nil =>
      obtain rfl := Option.some.inj hu
      exact ⟨fun h => absurd h (by simp), fun h => absurd h (by simp)⟩
    | append_singleton as io ih =>
      obtain ⟨t, ht, hlast⟩ := run_append.mp hu
      obtain ⟨u', hu', hu''⟩ := run_cons.mp hlast
      obtain rfl := Option.some.inj hu''
      rw [List.append_assoc] at hsplit
      exact (ih (io :: bs) t hsplit ht).step (htakes as io bs t hsplit ht) hu'

/-- Nothing happens at the sockets, or what is given at `peer_b` and from the client. -/
def passIo (peekZero : Bool) (peerB : Recv) (clientData : Option Recv) (accept : Option ℕ) :
    PassIo where
  listening := true
  accept := accept
  dial _ := some 20
  peekZero := peekZero
  peerB := peerB
  clientData := clientData
  conn := []
  index := []
  sent := true
  fanout _ := ⟨none, [], []⟩
  mem _ := 0
  knownPeers := 0

def servingNode : MainLoop where
  node := ⟨{ Cluster.three.bootedServer 2 with clientFd := some 9 },
    xfileserverInit, xfilenetindexInit⟩
  packet := []
  fromFd := 0
  raw := ⟨0, 0, 0, 0, ⟨[], 0⟩, ⟨[], 0, 0, 0, 0, 0, 0⟩⟩
  buffer := []
  file := 0
  requested := ⟨0, 0, 0, 0, []⟩
  requestFd := 0
  deliverTo := 0

/-- Node 1 died and its replacement connects; the client is silent. -/
theorem repair_kept_quiet_client :
    AlwaysRepairKept ⟨servingNode, false, false⟩ [passIo true none none none,
      passIo false none none none, passIo false none none (some 12)] := by
  have hrun : (run Watched.step ⟨servingNode, false, false⟩ [passIo true none none none,
      passIo false none none none, passIo false none none (some 12)]).isSome := by decide +kernel
  refine (repair_kept_iff (Option.some_get hrun).symm).mpr fun as io bs u hsplit _ _ htakes => ?_
  have hio : io ∈ [passIo true none none none, passIo false none none none,
      passIo false none none (some 12)] := by simp [hsplit]
  have hquiet : io.clientData = none ∧ io.conn = [] := by
    simp only [List.mem_cons, List.not_mem_nil, or_false] at hio
    rcases hio with rfl | rfl | rfl <;> exact ⟨rfl, rfl⟩
  unfold MainLoop.TakesPacket at htakes
  cases hfd : u.loop.sv.clientFd <;> simp [hfd, hquiet, MainLoop.BringsPacket] at htakes

/-- The client's packet arrives in the pass that finds node 1 dead: the repair is dropped,
and not made up for when the node is idle again. In the pass that hears of the index's
death the election is dropped. -/
theorem not_repair_kept :
    (∃ w ∈ run Watched.step ⟨servingNode, false, false⟩ [passIo true none (some (some [0, 0])) none],
      ¬ RepairKept w ∧ w.loop.sv.state = .receivedPacket) ∧
    (∃ w ∈ run Watched.step ⟨servingNode, false, false⟩ [passIo true none (some (some [0, 0])) none,
        passIo false none none none],
      ¬ RepairKept w ∧ w.loop.sv.state = .idle) ∧
    ∃ w ∈ run Watched.step ⟨servingNode, false, false⟩ [passIo false
        (some (xpacketPeerDead (Cluster.three.bootedServer 1) 3))
        (some (some [0, 0])) none],
      ¬ RepairKept w ∧ w.loop.sv.state = .receivedPacket := by
  decide +kernel

end DSS
