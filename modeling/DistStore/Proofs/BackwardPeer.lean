import DistStore.Model.Listener
import DistStore.Model.RingNet

/-! Who becomes the backward peer. The first connection in line when a pass looks is
taken, once, and kept. -/

namespace DSS

open Transition

/-! ## One pass -/

/-- `peer_b` after a pass that asked the listener. -/
def peerAfter (accept : Option ℕ) (peer : XPeerConnection) : XPeerConnection :=
  if peer.statusOpen then peer
  else match accept with
    | some client => { peer with statusOpen := true, streamFd := some client }
    | none => peer

theorem acceptPeerB_eq (accept : Option ℕ) (sv : Server) :
    acceptPeerB accept sv = { sv with peerB := peerAfter accept sv.peerB } := by
  simp only [acceptPeerB, peerAfter]
  split_ifs
  · rfl
  · cases accept <;> rfl

/-- `peer_f` after a pass that dialed it unless it was open. -/
def peerDialed (dial : Address → Option ℕ) (peer : XPeerConnection) : XPeerConnection :=
  if peer.statusOpen then peer
  else match dial peer.ip with
    | some fd => { peer with streamFd := some fd, statusOpen := true }
    | none => peer

theorem serverConnecting_eq (accept : Option ℕ) (dial : Address → Option ℕ) (sv : Server) :
    serverConnecting accept dial sv =
      if (peerDialed dial sv.peerF).statusOpen ∧ (peerAfter accept sv.peerB).statusOpen then
        serverSetState { sv with
          peerF := peerDialed dial sv.peerF
          peerB := peerAfter accept sv.peerB } .beginOperation
      else { sv with peerF := peerDialed dial sv.peerF, peerB := peerAfter accept sv.peerB } := by
  have hdial : (if sv.peerF.statusOpen then { sv with peerB := peerAfter accept sv.peerB }
      else serverDialPeer dial { sv with peerB := peerAfter accept sv.peerB }) =
      { sv with peerF := peerDialed dial sv.peerF, peerB := peerAfter accept sv.peerB } := by
    unfold serverDialPeer peerDialed
    split_ifs
    · rfl
    · cases dial sv.peerF.ip <;> rfl
  unfold serverConnecting
  rw [acceptPeerB_eq]
  dsimp only
  rw [hdial]

theorem serverConnecting_peerB (accept : Option ℕ) (dial : Address → Option ℕ) (sv : Server) :
    (serverConnecting accept dial sv).peerB = peerAfter accept sv.peerB := by
  rw [serverConnecting_eq]
  split_ifs <;> rfl

theorem peerAfter_open (accept : Option ℕ) (peer : XPeerConnection) :
    (peerAfter accept peer).statusOpen ↔ peer.statusOpen ∨ accept.isSome := by
  unfold peerAfter
  split_ifs with hopen
  · exact iff_of_true hopen (.inl hopen)
  · cases accept <;> simp [hopen]

theorem peerAfter_cases (accept : Option ℕ) (peer : XPeerConnection) :
    peerAfter accept peer = peer ∨ ¬ peer.statusOpen ∧ (peerAfter accept peer).statusOpen := by
  unfold peerAfter
  split_ifs with hopen
  · exact .inl rfl
  · cases accept with
    | none => exact .inl rfl
    | some fd => exact .inr ⟨hopen, rfl⟩

theorem peerDialed_eq (dial : Address → Option ℕ) (peer : XPeerConnection) :
    peerDialed dial peer = peerAfter (dial peer.ip) peer := by
  unfold peerDialed peerAfter
  split_ifs
  · rfl
  · cases dial peer.ip <;> rfl

theorem peerDialed_cases (dial : Address → Option ℕ) (peer : XPeerConnection) :
    peerDialed dial peer = peer ∨ ¬ peer.statusOpen ∧ (peerDialed dial peer).statusOpen := by
  rw [peerDialed_eq]
  exact peerAfter_cases (dial peer.ip) peer

theorem serverWaitingNewPeer_peerB (accept : Option ℕ) (sv : Server) :
    (serverWaitingNewPeer accept sv).peerB = peerAfter accept sv.peerB := by
  simp only [serverWaitingNewPeer, peerAfter]
  split_ifs
  · rfl
  · cases accept with
    | none => rfl
    | some client =>
      simp only [serverNewPeer]
      split_ifs <;> rfl

theorem joiningPass_peerB (accept : Option ℕ) (dial : Address → Option ℕ) (sv : Server) :
    (joiningPass accept dial sv).peerB = peerAfter accept sv.peerB := by
  rw [joiningPass]
  split_ifs
  · exact serverConnecting_peerB accept dial sv
  · exact serverWaitingNewPeer_peerB accept sv

theorem joiningPass_none_state {dial : Address → Option ℕ} {sv : Server}
    (hclosed : sv.peerB.statusOpen = false) : (joiningPass none dial sv).state = sv.state := by
  rw [joiningPass]
  split_ifs
  · rw [serverConnecting_eq]
    simp [peerAfter, hclosed]
  · simp [serverWaitingNewPeer, hclosed]

/-! ## Runs -/

/-- The first connection in line at the first pass that finds one, from the connections
that wait and the deaths so far. -/
def firstInLine : List Connection → List ℕ → List JoinAct → Option TakenPeer
  | _, _, [] => none
  | q, deaths, .arrive connection :: as => firstInLine (q ++ [connection]) deaths as
  | q, deaths, .death node :: as => firstInLine q (deaths ++ [node]) as
  | [], deaths, .pass _ :: as => firstInLine [] deaths as
  | connection :: _, deaths, .pass _ :: _ => some ⟨connection, deaths⟩

/-- The node has taken `x` for its backward peer, and nothing else. -/
structure Took (x : TakenPeer) (s : Joining) : Prop where
  taken : s.taken = [x]
  statusOpen : s.sv.peerB.statusOpen = true
  streamFd : s.sv.peerB.streamFd = some x.connection.fd

theorem Took.step {x : TakenPeer} {s s' : Joining} {a : JoinAct} (h : Took x s)
    (hstep : s.step a = some s') : Took x s' := by
  cases a with
  | arrive connection =>
    obtain rfl := Option.some.inj hstep
    exact ⟨h.taken, h.statusOpen, h.streamFd⟩
  | death node =>
    obtain rfl := Option.some.inj hstep
    exact ⟨h.taken, h.statusOpen, h.streamFd⟩
  | pass dial =>
    simp only [Joining.step, h.statusOpen, if_true] at hstep
    split_ifs at hstep
    obtain rfl := Option.some.inj hstep
    have hpeer : (joiningPass none dial s.sv).peerB = s.sv.peerB := by
      rw [joiningPass_peerB, peerAfter, if_pos h.statusOpen]
    exact ⟨h.taken, hpeer ▸ h.statusOpen, hpeer ▸ h.streamFd⟩

/-- The node still waits: it has taken nothing. -/
structure Waits (s : Joining) : Prop where
  awaits : AwaitsPeer s.sv
  closed : s.sv.peerB.statusOpen = false
  taken : s.taken = []

theorem waits_run {s s' : Joining} (hs : Waits s) {acts : List JoinAct}
    (hrun : run Joining.step s acts = some s') :
    (firstInLine s.backlog s.deaths acts = none ∧ Waits s') ∨
      ∃ x, firstInLine s.backlog s.deaths acts = some x ∧ Took x s' := by
  induction acts generalizing s with
  | nil =>
    obtain rfl := Option.some.inj hrun
    exact .inl ⟨by rw [firstInLine], hs⟩
  | cons a acts ih =>
    obtain ⟨t, ht, hrest⟩ := run_cons.mp hrun
    cases a with
    | arrive connection =>
      obtain rfl := Option.some.inj ht
      have hwaits : Waits { s with backlog := s.backlog ++ [connection] } :=
        ⟨hs.awaits, hs.closed, hs.taken⟩
      rw [firstInLine]
      exact ih hwaits hrest
    | death node =>
      obtain rfl := Option.some.inj ht
      have hwaits : Waits { s with deaths := s.deaths ++ [node] } :=
        ⟨hs.awaits, hs.closed, hs.taken⟩
      rw [firstInLine]
      exact ih hwaits hrest
    | pass dial =>
      simp only [Joining.step, if_pos hs.awaits, hs.closed, Bool.false_eq_true, if_false] at ht
      cases hq : s.backlog with
      | nil =>
        rw [hq] at ht
        obtain rfl := Option.some.inj ht
        have hstate : (joiningPass none dial s.sv).state = s.sv.state :=
          joiningPass_none_state hs.closed
        have hpeer : (joiningPass none dial s.sv).peerB = s.sv.peerB := by
          simp [joiningPass_peerB, peerAfter]
        have hwaits : Waits ⟨joiningPass none dial s.sv, [], s.deaths, s.taken⟩ :=
          ⟨by simpa only [AwaitsPeer, hstate] using hs.awaits, hpeer ▸ hs.closed, hs.taken⟩
        rw [firstInLine]
        exact ih hwaits hrest
      | cons connection rest =>
        rw [hq] at ht
        obtain rfl := Option.some.inj ht
        rw [firstInLine]
        refine .inr ⟨_, rfl, run_invariant (A := fun _ => True) (fun _ _ _ h _ => h.step) ?_
          (fun _ _ => trivial) hrest⟩
        have hpeer : (joiningPass (some connection.fd) dial s.sv).peerB =
            { s.sv.peerB with statusOpen := true, streamFd := some connection.fd } := by
          simp [joiningPass_peerB, peerAfter, hs.closed]
        exact ⟨by rw [hs.taken]; rfl, by rw [hpeer], by rw [hpeer]⟩

/-! ## The predecessor -/

/-- The connection is the one the living predecessor of node `n` opened to it. -/
def TakenPeer.OpenedByPredecessor (N n : ℕ) (x : TakenPeer) : Prop :=
  ∃ p, livingPredecessor N x.deaths n = some p ∧ x.connection.opener = .dialPeer p

/-- The stream of an open `peer_b` comes from the living predecessor, and no connection
of anyone else was taken for it. -/
structure PeerBIsPredecessor (N n : ℕ) (s : Joining) : Prop where
  stored : s.sv.peerB.statusOpen = true →
    ∃ x ∈ s.taken, s.sv.peerB.streamFd = some x.connection.fd ∧ x.OpenedByPredecessor N n
  only : ∀ x ∈ s.taken, x.OpenedByPredecessor N n

/-- The backward peer is the ring predecessor exactly when its connection is the first in
line at the first pass that finds one. -/
theorem peerB_predecessor_iff (N n : ℕ) {s s' : Joining} (hs : Waits s) {acts : List JoinAct}
    (hrun : run Joining.step s acts = some s') :
    PeerBIsPredecessor N n s' ↔
      ∀ x, firstInLine s.backlog s.deaths acts = some x → x.OpenedByPredecessor N n := by
  rcases waits_run hs hrun with ⟨hnone, hwaits⟩ | ⟨x, hfirst, htook⟩
  · refine ⟨fun _ x hx => absurd (hx.symm.trans hnone) (by simp), fun _ => ⟨fun h => ?_, ?_⟩⟩
    · exact absurd (h.symm.trans hwaits.closed) (by simp)
    · simp [hwaits.taken]
  · constructor
    · intro h y hy
      obtain rfl := Option.some.inj (hfirst.symm.trans hy)
      exact h.only x (by simp [htook.taken])
    · intro h
      have hx := h x hfirst
      exact ⟨fun _ => ⟨x, by simp [htook.taken], htook.streamFd, hx⟩, by simpa [htook.taken] using hx⟩

/-- Node `n` of three while it waits for its backward peer. -/
def joining (n : ℕ) (state : EServerState) (deaths : List ℕ) : Joining :=
  ⟨{ serverInit (Cluster.three.args n) ⟨3, .zero, none, false⟩ with
    state := state }, [], deaths, []⟩

theorem joining_waits {n : ℕ} {state : EServerState} (deaths : List ℕ)
    (h : state = .connecting ∨ state = .waitingNewPeer) : Waits (joining n state deaths) :=
  ⟨h, rfl, rfl⟩

/-- Node 2 has died; node 1 reaches node 3 before a client does. -/
theorem peerB_predecessor_first :
    PeerBIsPredecessor 3 3 (((run Joining.step (joining 3 .waitingNewPeer [2])
      [.arrive ⟨7, .dialPeer 1⟩, .arrive ⟨8, .client⟩, .pass fun _ => none])).get (by decide)) := by
  refine (peerB_predecessor_iff 3 3 (joining_waits [2] (.inr rfl))
    (Option.some_get _).symm).mpr fun x hx => ?_
  obtain rfl := Option.some.inj hx
  exact ⟨1, by decide, rfl⟩

/-- At boot a client reaches node 2 before node 1 does: its connection becomes `peer_b`. -/
theorem not_peerB_predecessor :
    ((run Joining.step (joining 2 .connecting [])
      [.arrive ⟨7, .client⟩, .arrive ⟨8, .dialPeer 1⟩, .pass fun _ => none]).map
        fun s => (s.sv.peerB.statusOpen, s.sv.peerB.streamFd)) = some (true, some 7) ∧
    ¬ PeerBIsPredecessor 3 2 (((run Joining.step (joining 2 .connecting [])
      [.arrive ⟨7, .client⟩, .arrive ⟨8, .dialPeer 1⟩, .pass fun _ => none])).get (by decide)) := by
  refine ⟨by decide, fun h => ?_⟩
  obtain ⟨p, -, hp⟩ := h.only ⟨⟨7, .client⟩, []⟩ (by decide)
  exact absurd hp (by simp)

end DSS
