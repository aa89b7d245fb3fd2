import DistStore.Model.ControlStream
import DistStore.Model.FanoutIO
import DistStore.Model.Listener

/-! The main loop of a node: one pass of `while(1)` for each state, on what the pass
meets at its sockets. A pass that never returns, ends the program or faults is `none`. -/

namespace DSS

/-- What the calls of one pass return. -/
structure PassIo where
  /-- `server_open` -/
  listening : Bool
  /-- `server_accept`, where it is positive. -/
  accept : Option ℕ
  /-- `tcp_open` -/
  dial : Address → Option ℕ
  /-- The peek of `peer_b` is zero. -/
  peekZero : Bool
  /-- The receive on `peer_b`. -/
  peerB : Recv
  /-- `FD_tcp_has_data` on the client's connection, and what is received there. -/
  clientData : Option Recv
  /-- The receives on an accepted connection, or the one that is being served. -/
  conn : List Recv
  /-- The receives on the connection to the index. -/
  index : List Recv
  /-- The sends return more than zero. -/
  sent : Bool
  /-- What the fan-out meets. -/
  fanout : ℕ → FanoutAnswers
  /-- What `malloc` returns had held before. -/
  mem : ℕ → UInt8
  /-- `known_peers` in what `malloc` returned. -/
  knownPeers : ℕ

/-- A node at the head of its loop, with the members of `machine_state`. -/
structure MainLoop where
  node : Node
  /-- `StateReceivedPacket` -/
  packet : XPacket
  fromFd : ℕ
  raw : StateRawPackets
  /-- The buffer of `StateRawPackets` and `StateHandleNewFile`. -/
  buffer : List UInt8
  /-- The slot `StateHandleNewFile.fc` points at. -/
  file : ℕ
  requested : StateRequestedFile
  requestFd : ℕ
  deliverTo : ℕ
  deriving DecidableEq, Repr

namespace MainLoop

def sv (st : MainLoop) : Server := st.node.sv

def withServer (st : MainLoop) (sv : Server) : MainLoop := { st with node := { st.node with sv := sv } }

def setState (st : MainLoop) (state : EServerState) : MainLoop :=
  st.withServer (serverSetState st.sv state)

/-! ## SERVER_IDLE -/

/-- `SERVER_RECEIVED_PACKET` comes next, on packet `p` from `fd`. -/
def receive (st : MainLoop) (fd : ℕ) (p : XPacket) : MainLoop :=
  { st.setState .receivedPacket with packet := p, fromFd := fd }

def serverHealthcheck (peekZero : Bool) (sv : Server) : Server :=
  if sv.peerB.statusOpen && peekZero then (serverHealthcheckDead sv).sv else sv

/-- `xprocedure_check_peer_b` returns if its receive is not positive. -/
def checkPeerB (dial : Address → Option ℕ) (r : Recv) (sv : Server) : Option Server :=
  if sv.peerB.statusOpen then
    match r with
    | some (b :: bs) => (xprocedureCheckPeerB dial sv (b :: bs)).map Handled.sv
    | _ => some sv
  else some sv

def idleAccepted (io : PassIo) (st : MainLoop) (c : ℕ) : Option MainLoop :=
  match io.conn with
  | [] => none
  | r :: rs =>
    let n := serverWaitClientPresentation (serverWaitFromSocket r)
    if n = 0 then some st
    else if n = CLIENT_NODE_ID then some (st.withServer { st.sv with clientFd := some c })
    else match rs with
      | [] => none
      | r' :: _ =>
        if r' = some [] then some st else some (st.receive c (serverWaitFromSocket r'))

def idleAccept (io : PassIo) (st : MainLoop) : Option MainLoop :=
  match io.accept with
  | none => some st
  | some c => idleAccepted io st c

/-- The pass after the two checks of `peer_b`. -/
def idleServe (io : PassIo) (st : MainLoop) : Option MainLoop :=
  match st.sv.clientFd, io.clientData with
  | some fd, some r =>
    if r = some [] then some (st.withServer { st.sv with clientFd := none })
    else some (st.receive fd (serverWaitFromSocket r))
  | _, _ => idleAccept io st

def serverIdle (io : PassIo) (st : MainLoop) : Option MainLoop := do
  let sv ← checkPeerB io.dial io.peerB (serverHealthcheck io.peekZero st.sv)
  idleServe io (st.withServer sv)

/-! ## SERVER_RECEIVED_PACKET -/

def serverDialIndex (dial : Address → Option ℕ) (sv : Server) : Option Server :=
  (dial sv.index.ip).map fun fd =>
    { sv with index := { sv.index with streamFd := some fd, statusOpen := true } }

/-- `TYPE_CREATE_FILE`: a gateway dials the index until it answers. -/
def receivedCreateFile (io : PassIo) (st : MainLoop) : Option MainLoop := do
  let sv ← if serverIsIndex st.sv then some st.sv else serverDialIndex io.dial st.sv
  let raw := (typeCreateFile st.sv st.raw st.packet st.fromFd).1
  return { (st.withServer sv).setState .waitingRawPackets with raw := raw }

def receivedStoreFragment (st : MainLoop) : MainLoop :=
  let (fs, raw, _) := typeStoreFragmentRaw st.sv st.node.fs st.raw st.packet st.fromFd
  let st := st.setState .waitingRawPackets
  { st with node := { st.node with fs := fs }, raw := raw }

/-- `TYPE_REQUEST_FILE` at the index; the other members of `StateRequestedFile` stay. -/
def receivedRequestIndex (st : MainLoop) : MainLoop :=
  match typeRequestFileIndex st.sv st.node.fs st.packet with
  | none => st.setState .idle
  | some (fc, _) =>
    { st.setState .indexRequestFragments with
      requested := { st.requested with
        fileId := fc.fileId
        fileSize := fc.size
        fragmentCount := fc.fragmentCountTotal }
      requestFd := st.fromFd
      deliverTo := commSenderId st.packet }

def receivedRequestGateway (io : PassIo) (st : MainLoop) : Option MainLoop :=
  match serverDialIndex io.dial st.sv with
  | none => some (st.setState .idle)
  | some sv =>
    match io.index with
    | _ :: res :: _ =>
      if commType (serverWaitFromSocket res) = TYPE_NOT_OK then
        some ((st.withServer sv).setState .idle)
      else
        some { (st.withServer sv).setState .waitRequestFragments with
          requested := typeRequestFileGateway (serverWaitFromSocket res)
          requestFd := st.fromFd }
    | _ => none

def requestGatewaySent (io : PassIo) (st : MainLoop) : Option (List XPacket) :=
  match serverDialIndex io.dial st.sv with
  | none => some []
  | some sv =>
    match io.index with
    | _ :: res :: _ =>
      if commType (serverWaitFromSocket res) = TYPE_NOT_OK then some [xpacketNotOk sv]
      else
        let requested := typeRequestFileGateway (serverWaitFromSocket res)
        some [xpacketRequestFileResponse sv requested.fileId requested.fileSize
          requested.fragmentCount]
    | _ => none

def serverReceivedPacket (io : PassIo) (st : MainLoop) : Option MainLoop :=
  if commType st.packet = TYPE_CREATE_FILE then receivedCreateFile io st
  else if commType st.packet = TYPE_STORE_FRAGMENT then some (receivedStoreFragment st)
  else if commType st.packet = TYPE_REQUEST_FILE then
    if serverIsIndex st.sv then some (receivedRequestIndex st) else receivedRequestGateway io st
  else some (st.setState .idle)

/-! ## The other states -/

def waitingRawPackets (io : PassIo) (st : MainLoop) : Option MainLoop :=
  match serverWaitingRawPackets io.mem st.sv st.raw io.conn with
  | .done loop _ =>
    some { st.setState (rawPacketsDone st.sv st.raw.triggerPkt) with buffer := loop.buffer }
  | _ => none

def receivedFragment (st : MainLoop) : MainLoop :=
  let st' := st.setState .idle
  { st' with node := { st'.node with fs := serverReceivedFragment st.node.fs st.raw.fragc st.buffer } }

def handleNewFile (st : MainLoop) : Option MainLoop := do
  let (fs, fnetidx, file) ←
    serverIndexHandleNewFile st.sv st.node.fs st.node.fnetidx st.raw.fc st.raw.totalSize
  return { st with
    node := ⟨serverSetState st.sv .indexFanoutFragments, fs, fnetidx⟩
    file := file }

def fanoutFragments (io : PassIo) (st : MainLoop) : Option MainLoop := do
  let out ← serverIndexFanoutIo st.sv st.node.fs st.node.fnetidx st.file st.buffer io.fanout
  return { st with node := ⟨out.sv, out.fs, out.fnetidx⟩ }

def requestFragments (st : MainLoop) : Option MainLoop := do
  let _ ← serverIndexRequestFragments st.sv st.node.fnetidx st.requested.fileId
    st.requested.fragmentCount (cInt st.deliverTo)
  return st.setState .idle

/-- The packet after the identification, and the raw bytes of a delivery. -/
def collectFrom (io : PassIo) (st : MainLoop) (p : XPacket) (raw : List Recv) :
    Option StateRequestedFile :=
  if commType p = TYPE_DECLARE_USE_LOCAL then collectLocal st.node.fs st.requested p
  else
    let fragSize := cInt (XDeclareFragmentTransport.ofContent (content p)).fragSize
    match serverWaitLargeBufferFrom fragSize (malloc io.mem fragSize) raw with
    | .done loop _ => collectDelivery st.requested p loop.buffer
    | _ => none

def waitRequestFragments (io : PassIo) (st : MainLoop) : Option MainLoop :=
  if st.requested.fragmentCount ≠ st.requested.fragmentFound then
    match io.accept, io.conn with
    | none, _ => some st
    | some _, [] => none
    | some _, r :: rs =>
      if serverWaitClientPresentation (serverWaitFromSocket r) = 0 then some st
      else match rs with
        | [] => none
        | r' :: raw =>
          if r' = some [] then some st
          else (collectFrom io st (serverWaitFromSocket r') raw).map fun requested =>
            { st with requested := requested }
  else match io.conn with
    | [] => none
    | _ :: _ => some (st.setState .idle)

/-- The loop over a report ends at an error or at a `TYPE_OK`. -/
def knowledgeEnds (rs : List Recv) : Bool :=
  rs.any fun r => r.elim true fun p => commType p = TYPE_OK

def indexWaitingPeersKnowledge (io : PassIo) (st : MainLoop) : Option MainLoop :=
  match st.sv.indexData, io.accept, io.conn with
  | none, _, _ => some st
  | _, none, _ => some st
  | _, some _, [] => none
  | _, some _, r :: rs =>
    if serverWaitClientPresentation (serverWaitFromSocket r) = 0 ∨ io.sent = false then some st
    else if knowledgeEnds rs then do
      let nd ← knowledgeLoop st.node rs
      return { st with node := { nd with sv := indexClientDone nd.sv } }
    else none

/-- A failed send ends the program. -/
def indexPresentItself (io : PassIo) (st : MainLoop) : Option MainLoop :=
  if io.sent then some (st.withServer (serverIndexPresentItself st.sv).1) else none

def waitIndexGossip (io : PassIo) (st : MainLoop) : Option MainLoop :=
  let h := serverWaitIndexGossip st.sv (serverWaitFromSocket io.peerB)
  if h.sent = none ∨ io.sent then some (st.withServer h.sv) else none

/-- `SERVER_REPORT_KNOWLEDGE_TO_INDEX`: any failure before the files means another try.
The index answers the identification and every file. -/
def reportKnowledge (io : PassIo) (st : MainLoop) : Option MainLoop :=
  match serverDialIndex io.dial st.sv with
  | none => some st
  | some sv =>
    if io.sent = false then some (st.withServer sv)
    else match io.index with
      | [] => none
      | r :: rs =>
        if ¬ serverWaitOk (serverWaitFromSocket r) then some (st.withServer sv)
        else if st.node.fs.fileCount ≤ rs.length then some ((st.withServer sv).setState .idle)
        else none

def beginOperation (io : PassIo) (st : MainLoop) : Option MainLoop :=
  (serverBeginOperation io.knownPeers st.node).map fun nd => { st with node := nd }

/-- `switch (sv.state)` -/
def pass (io : PassIo) (st : MainLoop) : Option MainLoop :=
  match st.sv.state with
  | .booting => if io.listening then some (st.setState .connecting) else none
  | .connecting => some (st.withServer (serverConnecting io.accept io.dial st.sv))
  | .beginOperation => beginOperation io st
  | .idle => serverIdle io st
  | .receivedPacket => serverReceivedPacket io st
  | .waitingRawPackets => waitingRawPackets io st
  | .receivedFragment => some (receivedFragment st)
  | .waitRequestFragments => waitRequestFragments io st
  | .indexPresentItself => indexPresentItself io st
  | .indexWaitingPeersKnowledge => indexWaitingPeersKnowledge io st
  | .indexHandleNewFile => handleNewFile st
  | .indexFanoutFragments => fanoutFragments io st
  | .indexRequestFragments => requestFragments st
  | .waitIndexGossip => waitIndexGossip io st
  | .reportKnowledgeToIndex => reportKnowledge io st
  | .waitingNewPeer => some (st.withServer (serverWaitingNewPeer io.accept st.sv))

end MainLoop

end DSS
