import DistStore.Model.Packet

/-! `lib/server/server.{h,c}`: the state of one node and the packets it builds.
A descriptor is the number of a connection; `-1` is `none`. -/

namespace DSS

structure XWhoAmI where
  ip : Address
  nodeId : ℕ
  deriving DecidableEq, Repr

structure XPeerConnection where
  nodeId : ℕ
  ip : Address
  streamFd : Option ℕ
  statusOpen : Bool
  deriving DecidableEq, Repr

structure XIndexData where
  peerIps : List Address
  knownPeers : ℕ
  deriving DecidableEq, Repr

/-- `*(peer_ips + n - 1)`: the address kept for node `n`. -/
def XIndexData.peerIp (d : XIndexData) (n : ℕ) : Address := d.peerIps.getD (n - 1) Address.zero

inductive EServerState where
  | booting | connecting | beginOperation | idle | receivedPacket | waitingRawPackets
  | receivedFragment | waitRequestFragments | indexPresentItself | indexWaitingPeersKnowledge
  | indexHandleNewFile | indexFanoutFragments | indexRequestFragments | waitIndexGossip
  | reportKnowledgeToIndex | waitingNewPeer
  deriving DecidableEq, Repr

structure Server where
  me : XWhoAmI
  peerF : XPeerConnection
  peerB : XPeerConnection
  state : EServerState
  /-- `machine_state.StateIndexWaitingPeers.connected`. -/
  connected : ℕ
  netSize : ℕ
  deathCount : ℕ
  index : XPeerConnection
  indexData : Option XIndexData
  clientFd : Option ℕ
  deriving DecidableEq, Repr

/-- The options of a node; `peerIp` is the address of its forward peer. -/
structure Args where
  id : ℕ
  ip : Address
  peerId : ℕ
  peerIp : Address
  netsize : ℕ
  deriving DecidableEq, Repr

/-- `(me.node_id - 2 + netsize) % netsize + 1`, on `uint64_t`. -/
def backwardId (id netsize : ℕ) : ℕ := u64 (id + (2 ^ 64 - 2) + netsize) % netsize + 1

/-- `index` is left as it was on the stack. -/
def serverInit (opts : Args) (index : XPeerConnection) : Server :=
  { me := ⟨opts.ip, opts.id⟩
    peerF := ⟨opts.peerId, opts.peerIp, none, false⟩
    peerB := ⟨backwardId opts.id opts.netsize, Address.zero, none, false⟩
    state := .booting
    connected := 0
    netSize := opts.netsize
    deathCount := 0
    index := index
    indexData := none
    clientFd := none }

def serverSetState (sv : Server) (st : EServerState) : Server :=
  { sv with
    state := st
    connected := if st = .indexWaitingPeersKnowledge then 0 else sv.connected }

def serverIsIndex (sv : Server) : Bool := sv.index.nodeId = sv.me.nodeId

def serverIsValidNode (sv : Server) (n : ℕ) : Bool :=
  if n = 0 then false
  else if n = sv.me.nodeId then true
  else match sv.indexData with
    | some d => (d.peerIp n).port ≠ 0
    | none => false

/-- `memset(&peer_ips[id - 1], 0, sizeof(Address))` -/
def forgetPeer (id : ℕ) (d : XIndexData) : XIndexData :=
  { d with peerIps := d.peerIps.set (id - 1) Address.zero }

def serverIndexSaveReportedPeer (sv : Server) (p : XPacket) : Server :=
  { sv with indexData := sv.indexData.map fun d =>
      { peerIps :=
          d.peerIps.set (commSenderId p - 1) (XPeerReportMessage.ofContent (content p)).peerAddr
        knownPeers := d.knownPeers + 1 } }

/-! The packets. `xpacket_ok`, `xpacket_presentation` and their like count the two
bytes of `size` into it and into `packet_size`. -/

def xpacketNew (sv : Server) (type : ℕ) (c : List UInt8) (size : ℕ) : XPacket :=
  commPacket 0 sv.me.nodeId type c size

def xpacketSized (sv : Server) (type : ℕ) (c : List UInt8) : XPacket :=
  commPacket (SIZEOF_COMM + 2) sv.me.nodeId type c (SIZEOF_COMM + 2)

def xpacketReportSelf (sv : Server) : XPacket :=
  xpacketNew sv TYPE_REPORT_SELF (XPeerReportMessage.bytes ⟨sv.me.ip⟩) SIZEOF_COMM

def xpacketOk (sv : Server) : XPacket := xpacketSized sv TYPE_OK []

def xpacketNotOk (sv : Server) : XPacket := xpacketSized sv TYPE_NOT_OK []

def xpacketPresentation (sv : Server) : XPacket := xpacketSized sv TYPE_PRESENT_ITSELF []

def xpacketSendFragment (sv : Server) (frag : XRequestFragmentCreation) : XPacket :=
  xpacketSized sv TYPE_STORE_FRAGMENT frag.bytes

/-- `file_id` and `frag_count` come as `int`. -/
def xpacketRequestFileResponse (sv : Server) (fileId : ℤ) (filesize : ℕ) (fragCount : ℤ) :
    XPacket :=
  xpacketSized sv TYPE_RESPONSE_FILE
    (XResponseRequestFile.bytes ⟨filesize, toU64 fileId, u8 (toU64 fragCount)⟩)

def xpacketPeerDead (sv : Server) (peer : ℕ) : XPacket :=
  commPacket SIZEOF_COMM sv.me.nodeId TYPE_PEER_DIED (XPeerDied.bytes ⟨peer, sv.me.ip⟩) SIZEOF_COMM

/-- `file_name` is copied whole. -/
def xreqfragcreationNew (fc : XFileContainer) (frag : XFragmentNetworkPointer) (ptrIndex : ℕ) :
    XRequestFragmentCreation :=
  { fileName := fc.fileName
    fileSize := fc.size
    fileId := fc.fileId
    fragmentCountTotal := fc.fragmentCountTotal
    ptrIndex := u16 ptrIndex
    fragId := frag.fragment
    fragSize := frag.size }

def serverWaitOk (p : XPacket) : Bool := commType p = TYPE_OK

/-- The number of raw packets a buffer is sent in, and the number waited for. -/
def nPackets (bufferSize : ℕ) : ℕ := bufferSize / SERVER_BUCKET_SIZE + 1

def largeBufferPackets (buffer : List UInt8) : List (List UInt8) :=
  (List.range (nPackets buffer.length)).map fun i =>
    (buffer.drop (i * SERVER_BUCKET_SIZE)).take SERVER_BUCKET_SIZE

theorem peerIp_forgetPeer {d : XIndexData} {id n : ℕ} (hid : 1 ≤ id) (hn : 1 ≤ n) :
    (forgetPeer id d).peerIp n = if n = id then Address.zero else d.peerIp n := by
  simp only [XIndexData.peerIp, forgetPeer, List.getD_eq_getElem?_getD, List.getElem?_set]
  by_cases h : id - 1 = n - 1
  · rw [if_pos h, if_pos (show n = id by omega)]
    split_ifs <;> rfl
  · rw [if_neg h, if_neg (show ¬ n = id by omega)]

theorem backwardId_eq {id netsize : ℕ} (h1 : 1 ≤ id) (h2 : id ≤ netsize) (h3 : netsize < 2 ^ 62) :
    backwardId id netsize = (id + netsize - 2) % netsize + 1 := by
  have h : u64 (id + (2 ^ 64 - 2) + netsize) = id + netsize - 2 := by
    rw [u64]
    omega
  rw [backwardId, h]

end DSS
