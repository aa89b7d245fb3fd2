import DistStore.Lib.Padding
import DistStore.Model.RawTransfer

/-! Control packets on a connection: every handler takes what one receive brings for one
packet. The handlers are given the successive results of `recv`; each function below is
the list of packets its handler goes through. -/

namespace DSS

/-- `p.bytes.raw` after a receive into a cleared packet. -/
def rawBytes (p : XPacket) : List UInt8 := Padding.pad 0 4096 p

/-- `server_wait_from_socket`; an error leaves the cleared packet. -/
def serverWaitFromSocket (r : Recv) : XPacket := r.getD []

def serverWaitClientPresentation (p : XPacket) : ℕ :=
  if p.length = 0 then 0 else if commType p ≠ TYPE_PRESENT_ITSELF then 0 else commSenderId p

/-- The `while (1)` of `SERVER_INDEX_WAITING_PEERS_KNOWLEDGE`. -/
def knowledgePackets : List Recv → List XPacket
  | [] => []
  | none :: _ => []
  | some p :: rs => if commType p = TYPE_OK then [p] else p :: knowledgePackets rs

def knowledgeLoop (nd : Node) (rs : List Recv) : Option Node :=
  (knowledgePackets rs).foldlM receiveKnowledge nd

/-! The same loop, round by round, on a connection that need not end the report. -/

/-- `closed` once `server_close_socket(&sv, c)` was called. `none` is a node whose handler wrote
outside its tables; the loop looks at the packets only. -/
structure KnowledgeLoop where
  node : Option Node
  closed : Bool
  deriving DecidableEq, Repr

/-- From `client_done` on. -/
def KnowledgeLoop.clientDone (st : KnowledgeLoop) : KnowledgeLoop :=
  ⟨st.node.map fun nd => { nd with sv := indexClientDone nd.sv }, true⟩

/-- One round: only a negative size and a `TYPE_OK` leave the loop. -/
def knowledgeRound (st : KnowledgeLoop) (r : Recv) : KnowledgeLoop :=
  if st.closed then st
  else match r with
    | none => st.clientDone
    | some p =>
      if commType p = TYPE_OK then st.clientDone
      else { st with node := st.node.bind fun nd => receiveKnowledge nd p }

def knowledgeRounds (nd : Node) (recv : ℕ → Recv) : ℕ → KnowledgeLoop
  | 0 => ⟨some nd, false⟩
  | n + 1 => knowledgeRound (knowledgeRounds nd recv n) (recv n)

/-- How a connection ends: `recv` returns 0 from then on, or an error. -/
inductive ConnectionEnd where
  | closed | error
  deriving DecidableEq, Repr

def ConnectionEnd.recv : ConnectionEnd → Recv
  | .closed => some []
  | .error => none

def connectionRecv (packets : List XPacket) (ending : ConnectionEnd) (i : ℕ) : Recv :=
  (packets.map some).getD i ending.recv

/-- A connection accepted in `SERVER_IDLE`: the identification, and from a node one more. -/
def idlePackets : List Recv → List XPacket
  | [] => []
  | r :: rs =>
    let p := serverWaitFromSocket r
    let n := serverWaitClientPresentation p
    if n = 0 ∨ n = CLIENT_NODE_ID then [p] else p :: (rs.take 1).map serverWaitFromSocket

/-- `peer_b`, read by `xprocedure_check_peer_b` and in `SERVER_WAIT_INDEX_GOSSIP`. -/
def peerBPackets (rs : List Recv) : List XPacket := rs.map serverWaitFromSocket

end DSS
