import DistStore.Lib.Transition
import DistStore.Model.Failover

/-! A node that waits for its backward peer: `SERVER_CONNECTING` at boot and
`SERVER_WAITING_NEW_PEER` after a death. The listener hands out connections in the order
they arrived in, whoever opened them. -/

namespace DSS

/-- `SERVER_CONNECTING`, first part; `accept` is what `server_accept` returns. -/
def acceptPeerB (accept : Option ℕ) (sv : Server) : Server :=
  if sv.peerB.statusOpen then sv
  else match accept with
    | some client => { sv with peerB := { sv.peerB with statusOpen := true, streamFd := some client } }
    | none => sv

/-- `SERVER_CONNECTING`. A failed dial leaves `peer_f` closed, and the pass is over. -/
def serverConnecting (accept : Option ℕ) (dial : Address → Option ℕ) (sv : Server) : Server :=
  let sv1 := acceptPeerB accept sv
  let sv2 := if sv1.peerF.statusOpen then sv1 else serverDialPeer dial sv1
  if sv2.peerF.statusOpen ∧ sv2.peerB.statusOpen then serverSetState sv2 .beginOperation else sv2

def serverWaitingNewPeer (accept : Option ℕ) (sv : Server) : Server :=
  if sv.peerB.statusOpen then sv
  else match accept with
    | some client => serverNewPeer sv client
    | none => sv

/-- Who opened a connection, and in which call. -/
inductive Opener where
  /-- `server_dial_peer` -/
  | dialPeer (node : ℕ)
  | client
  /-- `SERVER_INDEX_FANOUT_FRAGMENTS` -/
  | fanout (index : ℕ)
  /-- `xprocedure_send_request_fragment` -/
  | requestFragment (index : ℕ)
  /-- `xprocedure_send_use_local` -/
  | useLocal (index : ℕ)
  /-- `xprocedure_send_fragment` -/
  | sendFragment (node : ℕ)
  /-- `server_dial_index` -/
  | dialIndex (node : ℕ)
  deriving DecidableEq, Repr

structure Connection where
  fd : ℕ
  opener : Opener
  deriving DecidableEq, Repr

structure TakenPeer where
  connection : Connection
  deaths : List ℕ
  deriving DecidableEq, Repr

structure Joining where
  sv : Server
  backlog : List Connection
  deaths : List ℕ
  taken : List TakenPeer
  deriving DecidableEq, Repr

inductive JoinAct where
  /-- A connection reaches the listener. -/
  | arrive (connection : Connection)
  /-- A node dies. -/
  | death (node : ℕ)
  /-- One pass of the main loop. -/
  | pass (dial : Address → Option ℕ)

/-- The two states in which the listener is asked for the backward peer. -/
def AwaitsPeer (sv : Server) : Prop := sv.state = .connecting ∨ sv.state = .waitingNewPeer

instance (sv : Server) : Decidable (AwaitsPeer sv) := inferInstanceAs (Decidable (_ ∨ _))

/-- The pass of the main loop in these states. -/
def joiningPass (accept : Option ℕ) (dial : Address → Option ℕ) (sv : Server) : Server :=
  if sv.state = .connecting then serverConnecting accept dial sv else serverWaitingNewPeer accept sv

def Joining.step (s : Joining) : JoinAct → Option Joining
  | .arrive connection => some { s with backlog := s.backlog ++ [connection] }
  | .death node => some { s with deaths := s.deaths ++ [node] }
  | .pass dial =>
    if AwaitsPeer s.sv then
      if s.sv.peerB.statusOpen then some { s with sv := joiningPass none dial s.sv }
      else match s.backlog with
        | [] => some { s with sv := joiningPass none dial s.sv }
        | connection :: rest =>
          some ⟨joiningPass (some connection.fd) dial s.sv, rest, s.deaths,
            s.taken ++ [⟨connection, s.deaths⟩]⟩
    else none

/-- The nearest node before `n` on the ring of `N` nodes that is not dead. -/
def livingPredecessor (N : ℕ) (deaths : List ℕ) (n : ℕ) : Option ℕ :=
  ((List.range' 1 N).map fun k => (n + N - 1 - k) % N + 1).find? (· ∉ deaths)

end DSS
