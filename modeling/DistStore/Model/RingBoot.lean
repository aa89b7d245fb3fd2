import DistStore.Model.Listener
import DistStore.Model.RingNet

/-! The ring as it comes up: a node opens its listener (`SERVER_BOOTING`), dials its
forward peer and accepts its backward peer (`SERVER_CONNECTING`); from
`SERVER_BEGIN_OPERATION` on its steps are those of the ring. Connection `n` is the one
node `n` opens. -/

namespace DSS

namespace RingNet

variable (c : Cluster) (s : RingNet)

/-- `SERVER_BOOTING`. -/
def boot (n : ℕ) : Option RingNet :=
  if Alive c s n ∧ (s.server n).state = .booting then
    some (setServer s n (serverSetState (s.server n) .connecting))
  else none

/-- `tcp_open` by node `n`: it reaches a node that has opened its listener. -/
def bootDial (n : ℕ) (a : Address) : Option ℕ :=
  (c.nodeAt a).bind fun m => if (s.server m).state = .booting then none else some n

/-- `server_accept` in a pass of `SERVER_CONNECTING`, made while `peer_b` is not open. -/
def bootAccept (n : ℕ) : Option ℕ :=
  if (s.server n).peerB.statusOpen then none else (s.backlog n).head?

/-- The connection node `n` has just opened waits at the listener it dialed. -/
def arrive (n : ℕ) : RingNet :=
  match c.nodeAt (s.server n).peerF.ip with
  | some m => { s with backlog := Function.update s.backlog m (s.backlog m ++ [n]) }
  | none => s

def bootConnect (n : ℕ) : Option RingNet :=
  if Alive c s n ∧ (s.server n).state = .connecting then
    let sv := serverConnecting (bootAccept s n) (bootDial c s n) (s.server n)
    let rest := if (bootAccept s n).isSome then (s.backlog n).tail else s.backlog n
    let s1 := setServer { s with backlog := Function.update s.backlog n rest } n sv
    if sv = s.server n then none
    else some (if sv.peerF.statusOpen = (s.server n).peerF.statusOpen then s1 else arrive c s1 n)
  else none

/-- The first packet on the stream of node `n`'s backward peer. -/
def backwardPacket (n : ℕ) : Option XPacket :=
  (s.server n).peerB.streamFd.bind fun f => (s.wire f).head?

def received : RingAct → List (ℕ × XPacket)
  | .check n | .gossip n => (backwardPacket s n).toList.map (n, ·)
  | _ => []

end RingNet

def SIZEOF_INDEX_PRESENTATION : ℕ := 24

/-- The packet is an `xIndexPresentationPacket`: it has the size of one, and carries no
type. -/
def IsIndexPresentation (p : XPacket) : Prop := p.length = SIZEOF_INDEX_PRESENTATION

instance (p : XPacket) : Decidable (IsIndexPresentation p) := inferInstanceAs (Decidable (_ = _))

inductive BootAct where
  | boot (n : ℕ) | connect (n : ℕ) | ring (a : RingAct)
  deriving DecidableEq, Repr

/-- A step of a node; none dies. -/
def BootAct.Living (a : BootAct) : Prop := ∀ n, a ≠ .ring (.die n)

def RingNet.bootStep (c : Cluster) (s : RingNet) : BootAct → Option RingNet
  | .boot n => s.boot c n
  | .connect n => s.bootConnect c n
  | .ring a => s.step c a

def RingNet.bootReceived (s : RingNet) : BootAct → List (ℕ × XPacket)
  | .ring a => s.received a
  | _ => []

/-- The nodes as `boot.sh` starts them; `index` is what each finds on its stack. -/
def Cluster.started (c : Cluster) (index : ℕ → XPeerConnection) : RingNet where
  server n := serverInit (c.args n) (index n)
  wire _ := []
  dialer f := f
  listener f := f % c.N + 1
  nextFd := c.N + 1
  backlog _ := []
  admitted _ := none
  serving _ := false
  deaths := []
  trace := []

end DSS
