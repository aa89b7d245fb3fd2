import DistStore.Lib.Transition
import DistStore.Model.Failover

/-! The ring: every node's control state, the streams between neighbours, and the
nodes that died. A node steps by one pass of its state's branch in `main.c`; a pass
of `SERVER_IDLE` is taken apart into the health check, the packet of `peer_b` and
the accepted connection, and comes to the last also when one of the first two has
left `SERVER_IDLE`. Packets arrive whole and in order, and end of file is
seen once the writer is dead and everything it wrote is read. -/

namespace DSS

/-- What happened on the ring since the last death. -/
inductive RingEvent where
  /-- `node` took a `TYPE_PEER_DIED` message that names `dead`. -/
  | processed (node dead : ℕ)
  /-- `node` wrote to its stream to `dest`. -/
  | wrote (node dest : ℕ)
  /-- `node` took the branch `net_size == node_id` of `SERVER_BEGIN_OPERATION`. -/
  | leads (node : ℕ)
  /-- `node` went to `SERVER_WAIT_INDEX_GOSSIP`. -/
  | follows (node : ℕ)
  deriving DecidableEq, Repr

structure RingNet where
  server : ℕ → Server
  /-- What was written to a connection and is not read yet. -/
  wire : ℕ → List XPacket
  /-- The node that opened a connection. -/
  dialer : ℕ → ℕ
  /-- The node that listened. -/
  listener : ℕ → ℕ
  /-- The number of the next connection. -/
  nextFd : ℕ
  /-- The connections a node has not accepted yet. -/
  backlog : ℕ → List ℕ
  /-- The connection on which a node waits for an identification. -/
  admitted : ℕ → Option ℕ
  /-- The pass in which a node found its predecessor dead, or took a packet of it, may
  still come to its `server_accept`. -/
  serving : ℕ → Bool
  deaths : List ℕ
  trace : List RingEvent

namespace RingNet

variable (c : Cluster) (s : RingNet)

def Alive (n : ℕ) : Prop := 1 ≤ n ∧ n ≤ c.N ∧ n ∉ s.deaths

instance (n : ℕ) : Decidable (Alive c s n) := inferInstanceAs (Decidable (_ ∧ _))

/-- A node that waits for nothing in `SERVER_IDLE`. -/
def Idle (n : ℕ) : Prop :=
  Alive c s n ∧ (s.server n).state = .idle ∧ s.admitted n = none

instance (n : ℕ) : Decidable (Idle c s n) := inferInstanceAs (Decidable (_ ∧ _))

/-- A node that may come to the `server_accept` of a pass of `SERVER_IDLE`. -/
def Serves (n : ℕ) : Prop :=
  Alive c s n ∧ s.admitted n = none ∧ ((s.server n).state = .idle ∨ s.serving n = true)

instance (n : ℕ) : Decidable (Serves c s n) := inferInstanceAs (Decidable (_ ∧ _))

def peerB (n : ℕ) : Option ℕ :=
  if (s.server n).peerB.statusOpen then (s.server n).peerB.streamFd else none

/-- A read from `f` returns zero. -/
def Eof (f : ℕ) : Prop := s.wire f = [] ∧ s.dialer f ∈ s.deaths

instance (f : ℕ) : Decidable (Eof s f) := inferInstanceAs (Decidable (_ ∧ _))

/-- `tcp_open`: a living node listens at its address. -/
def dial (a : Address) : Option ℕ :=
  (c.nodeAt a).bind fun m => if m ∈ s.deaths then none else some s.nextFd

def setServer (n : ℕ) (sv : Server) : RingNet :=
  { s with server := Function.update s.server n sv }

def setServing (n : ℕ) (b : Bool) : RingNet :=
  { s with serving := Function.update s.serving n b }

def addEvent (e : RingEvent) : RingNet := { s with trace := s.trace ++ [e] }

/-- `server_send_to_peer_f` by node `n`. -/
def write (n : ℕ) (p : XPacket) : RingNet :=
  match (s.server n).peerF.streamFd with
  | some f => { s with
      wire := Function.update s.wire f (s.wire f ++ [p])
      trace := s.trace ++ [.wrote n (s.listener f)] }
  | none => s

def writeOpt (n : ℕ) : Option XPacket → RingNet
  | some p => write s n p
  | none => s

def read (n f : ℕ) (p : XPacket) (rest : List XPacket) : RingNet :=
  { s with
    wire := Function.update s.wire f rest
    trace := s.trace ++ if commType p = TYPE_PEER_DIED then
      [.processed n (XPeerDied.ofContent (content p)).peerId] else [] }

/-- The connection node `n` has just opened reaches the listener it dialed. -/
def connect (n : ℕ) : RingNet :=
  if (s.server n).peerF.streamFd = some s.nextFd then
    match c.nodeAt (s.server n).peerF.ip with
    | some m => { s with
        dialer := Function.update s.dialer s.nextFd n
        listener := Function.update s.listener s.nextFd m
        backlog := Function.update s.backlog m (s.backlog m ++ [s.nextFd])
        nextFd := s.nextFd + 1 }
    | none => s
  else s

/-- `server_healthcheck`. The pass goes on, with `SERVER_WAITING_NEW_PEER` for the next. -/
def health (n : ℕ) : Option RingNet :=
  if Idle c s n then do
    let f ← peerB s n
    if Eof s f then
      let h := serverHealthcheckDead (s.server n)
      return writeOpt (setServer (setServing s n true) n h.sv) n h.sent
    else none
  else none

/-- `xprocedure_check_peer_b`. A division by zero ends the node's program. -/
def check (n : ℕ) : Option RingNet :=
  if Idle c s n then do
    let f ← peerB s n
    match s.wire f with
    | [] => none
    | p :: rest =>
      let h ← xprocedureCheckPeerB (dial c s) (s.server n) p
      let s1 := setServer (setServing (read s n f p rest) n true) n h.sv
      return connect c (writeOpt s1 n h.sent) n
  else none

/-- The `server_accept` of a pass of `SERVER_IDLE`. It also takes the connection that the
predecessor of a node found dead in this pass has dialed meanwhile. -/
def accept (n : ℕ) : Option RingNet :=
  if Serves c s n then
    match s.backlog n with
    | [] => none
    | f :: rest => some (setServing { s with
        backlog := Function.update s.backlog n rest
        admitted := Function.update s.admitted n (some f) } n false)
  else none

/-- The identification on it; a packet that is none closes it. What a node does
for a peer that identifies itself is not the ring's concern. -/
def identify (n : ℕ) : Option RingNet :=
  if Alive c s n then do
    let f ← s.admitted n
    match s.wire f with
    | [] => none
    | p :: rest =>
      if commType p = TYPE_PRESENT_ITSELF then none
      else some { s with
        wire := Function.update s.wire f rest
        admitted := Function.update s.admitted n none }
  else none

/-- `SERVER_WAITING_NEW_PEER`. -/
def newPeer (n : ℕ) : Option RingNet :=
  if Alive c s n ∧ s.admitted n = none ∧ (s.server n).state = .waitingNewPeer ∧
      (s.server n).peerB.statusOpen = false then
    match s.backlog n with
    | [] => none
    | f :: rest =>
      some (setServer (setServing { s with backlog := Function.update s.backlog n rest } n false) n
        (serverNewPeer (s.server n) f))
  else none

/-- `SERVER_BEGIN_OPERATION`; `knownPeers` is never read while nodes report. -/
def begin (n : ℕ) : Option RingNet :=
  if Alive c s n ∧ s.admitted n = none ∧ (s.server n).state = .beginOperation then
    some (addEvent (setServer (setServing s n false) n (beginServer 0 (s.server n)))
      (if (s.server n).netSize = (s.server n).me.nodeId then .leads n else .follows n))
  else none

/-- `SERVER_INDEX_PRESENT_ITSELF`. -/
def present (n : ℕ) : Option RingNet :=
  if Alive c s n ∧ (s.server n).state = .indexPresentItself then
    let (sv, p) := serverIndexPresentItself (s.server n)
    some (write (setServer s n sv) n p)
  else none

/-- `SERVER_WAIT_INDEX_GOSSIP`. At end of file the node's program ends. -/
def gossip (n : ℕ) : Option RingNet :=
  if Alive c s n ∧ (s.server n).state = .waitIndexGossip then do
    let f ← (s.server n).peerB.streamFd
    match s.wire f with
    | [] => none
    | p :: rest =>
      let h := serverWaitIndexGossip (s.server n) p
      return writeOpt (setServer { s with wire := Function.update s.wire f rest } n h.sv) n h.sent
  else none

/-- `SERVER_REPORT_KNOWLEDGE_TO_INDEX` of node `n`, with the index that takes the
report. Each waits for the other until the report is over. -/
def report (n : ℕ) : Option RingNet :=
  if Alive c s n ∧ (s.server n).state = .reportKnowledgeToIndex then do
    let i ← c.nodeAt (s.server n).index.ip
    if Alive c s i ∧ (s.server i).state = .indexWaitingPeersKnowledge ∧
        (s.server i).indexData ≠ none then
      let sv := serverSetState { s.server n with
        index := { (s.server n).index with statusOpen := true } } .idle
      let index := indexClientDone (countReportedPeer (s.server i) (xpacketReportSelf (s.server n)))
      return setServer (setServer s n sv) i index
    else none
  else none

def die (n : ℕ) : Option RingNet :=
  if Alive c s n then some { s with deaths := s.deaths ++ [n], trace := [] } else none

end RingNet

inductive RingAct where
  | health (n : ℕ) | check (n : ℕ) | accept (n : ℕ) | identify (n : ℕ) | newPeer (n : ℕ)
  | begin (n : ℕ) | present (n : ℕ) | gossip (n : ℕ) | report (n : ℕ) | die (n : ℕ)
  deriving DecidableEq, Repr

/-- A step of a survivor. -/
def RingAct.Survivor (a : RingAct) : Prop := ∀ n, a ≠ .die n

/-- A step of a survivor. Node 1, whose predecessor is the index, accepts nothing in the pass
in which it finds it dead. -/
def RingAct.Orderly (a : RingAct) (s : RingNet) : Prop :=
  a.Survivor ∧ (a = .accept 1 → (s.server 1).state = .idle)

def RingNet.step (c : Cluster) (s : RingNet) : RingAct → Option RingNet
  | .health n => s.health c n
  | .check n => s.check c n
  | .accept n => s.accept c n
  | .identify n => s.identify c n
  | .newPeer n => s.newPeer c n
  | .begin n => s.begin c n
  | .present n => s.present c n
  | .gossip n => s.gossip c n
  | .report n => s.report c n
  | .die n => s.die c n

/-- Every death is processed: the survivors are idle, each reads from a living node,
and nothing is under way. -/
def RingNet.Settled (c : Cluster) (s : RingNet) : Prop :=
  ∀ n, Alive c s n → Idle c s n ∧ s.backlog n = [] ∧
    ∃ f ∈ peerB s n, s.wire f = [] ∧ s.dialer f ∉ s.deaths

instance (c : Cluster) (s : RingNet) : Decidable (s.Settled c) :=
  decidable_of_iff (∀ n ∈ c.nodes, s.Alive c n → s.Idle c n ∧ s.backlog n = [] ∧
      ∃ f ∈ s.peerB n, s.wire f = [] ∧ s.dialer f ∉ s.deaths)
    ⟨fun h n hn => h n (List.mem_range'_1.mpr ⟨hn.1, by have := hn.2.1; omega⟩) hn,
      fun h n _ => h n⟩

def RingNet.survivors (c : Cluster) (s : RingNet) : List ℕ := c.nodes.filter fun n => Alive c s n

/-- `m` is the first living node after `n` on the ring. -/
def RingNet.NextLiving (c : Cluster) (s : RingNet) (n m : ℕ) : Prop :=
  Alive c s m ∧ ∃ k, 1 ≤ k ∧ m = (n + k - 1) % c.N + 1 ∧
    ∀ i, 1 ≤ i → i < k → ¬ Alive c s ((n + i - 1) % c.N + 1)

namespace Cluster

variable (c : Cluster)

/-- Node `n` once the ring is up: connection `n` is its forward stream. -/
def bootedServer (n : ℕ) : Server :=
  let sv := if n = c.N then c.readyIndex
    else serverInit (c.args n) ⟨c.N, c.addr c.N, none, true⟩
  { sv with
    peerF := ⟨n % c.N + 1, c.addr (n % c.N + 1), some n, true⟩
    peerB := ⟨backwardId n c.N, Address.zero, some (backwardId n c.N), true⟩
    state := .idle }

def booted : RingNet where
  server := c.bootedServer
  wire _ := []
  dialer f := f
  listener f := f % c.N + 1
  nextFd := c.N + 1
  backlog _ := []
  admitted _ := none
  serving _ := false
  deaths := []
  trace := []

/-- The states of runs in which every death is processed before the next. -/
inductive Reachable : RingNet → Prop
  | booted : Reachable c.booted
  | step {s s' : RingNet} {a : RingAct} (h : Reachable s) (ha : a.Survivor)
    (hstep : s.step c a = some s') : Reachable s'
  | die {s s' : RingNet} {n : ℕ} (h : Reachable s) (hs : s.Settled c)
    (hstep : s.step c (.die n) = some s') : Reachable s'

end Cluster

end DSS
