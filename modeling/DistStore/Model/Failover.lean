import DistStore.Model.Network

/-! A node that becomes index: `SERVER_BEGIN_OPERATION`, the reports of the others
(`SERVER_REPORT_KNOWLEDGE_TO_INDEX`) and their reception
(`SERVER_INDEX_WAITING_PEERS_KNOWLEDGE`). -/

namespace DSS

structure Node where
  sv : Server
  fs : XFileServer
  fnetidx : XFileNetworkIndex
  deriving DecidableEq, Repr

/-- `SERVER_WAITING_NEW_PEER` when a connection is accepted. -/
def serverNewPeer (sv : Server) (client : ℕ) : Server :=
  let sv1 := { sv with peerB := { sv.peerB with statusOpen := true, streamFd := some client } }
  if sv.me.nodeId = 1 then serverSetState sv1 .beginOperation else serverSetState sv1 .idle

/-- The `index_data` of a new index. The `peer_ips` are taken to be zero where they were
never written; `knownPeers` is what `malloc` left in `known_peers`. -/
def allocIndexData (knownPeers : ℕ) (sv : Server) : Server :=
  { sv with indexData := some ⟨List.replicate sv.netSize Address.zero, knownPeers⟩ }

/-- `SERVER_BEGIN_OPERATION`, the files aside. -/
def beginServer (knownPeers : ℕ) (sv : Server) : Server :=
  if sv.netSize = sv.me.nodeId then
    serverSetState (allocIndexData knownPeers sv) .indexPresentItself
  else serverSetState sv .waitIndexGossip

def serverBeginOperation (knownPeers : ℕ) (nd : Node) : Option Node :=
  if nd.sv.netSize = nd.sv.me.nodeId then do
    let (fs, fnetidx) ← nd.fs.files.foldlM
      (fun st f => xprocedureSaveFileToIndex st.1 st.2 (reportOf nd.sv.me.nodeId f))
      (nd.fs, nd.fnetidx)
    return ⟨beginServer knownPeers nd.sv, fs, fnetidx⟩
  else some { nd with sv := beginServer knownPeers nd.sv }

/-- `SERVER_INDEX_PRESENT_ITSELF`: the node, and the packet it writes to `peer_f`. -/
def serverIndexPresentItself (sv : Server) : Server × XPacket :=
  (serverSetState { sv with index := { sv.index with nodeId := sv.me.nodeId } }
      .indexWaitingPeersKnowledge,
    XIndexPresentationPacket.bytes ⟨sv.me.nodeId, sv.me.nodeId, sv.me.ip⟩)

def serverWaitIndexGossip (sv : Server) (p : XPacket) : Handled :=
  let p2 := XIndexPresentationPacket.ofPacket p
  ⟨serverSetState { sv with index := { sv.index with ip := p2.indexAddr, nodeId := p2.indexId } }
      .reportKnowledgeToIndex,
    if p2.indexId ≠ sv.peerF.nodeId then some (setPresentationSender sv.me.nodeId p) else none⟩

def xpacketReportFile (sv : Server) (rn : XReportFileKnowledge) : XPacket :=
  xpacketNew sv TYPE_REPORT_FILE rn.bytes SIZEOF_COMM

/-- What a node sends between its presentation and the final `TYPE_OK`. -/
def reportPackets (sv : Server) (fs : XFileServer) : List XPacket :=
  xpacketReportSelf sv :: fs.files.map fun f => xpacketReportFile sv (reportOf sv.me.nodeId f)

/-- `TYPE_REPORT_SELF` at the index. -/
def countReportedPeer (sv : Server) (p : XPacket) : Server :=
  { serverIndexSaveReportedPeer sv p with connected := inc64 sv.connected }

/-- One packet of a report, at the index. -/
def receiveKnowledge (nd : Node) (p : XPacket) : Option Node :=
  if commType p = TYPE_REPORT_SELF then some { nd with sv := countReportedPeer nd.sv p }
  else if commType p = TYPE_REPORT_FILE then do
    let (fs, fnetidx) ←
      xprocedureSaveFileToIndex nd.fs nd.fnetidx (XReportFileKnowledge.ofContent (content p))
    return ⟨nd.sv, fs, fnetidx⟩
  else some nd

/-- `client_done`: the index is idle again once all its peers have reported. -/
def indexClientDone (sv : Server) : Server :=
  if sv.connected = dec64 sv.netSize then serverSetState sv .idle else sv

/-- `sv` is node `n`, no index, and no node has died. -/
structure Cluster.NodeReady (c : Cluster) (n : ℕ) (sv : Server) : Prop where
  me : sv.me = ⟨c.addr n, n⟩
  peerF : sv.peerF.nodeId = n % c.N + 1
  netSize : sv.netSize = c.N
  deathCount : sv.deathCount = 0
  index : sv.index.nodeId = c.N

end DSS
