import Mathlib.Data.Finset.Basic
import DistStore.Model.MainLoop

/-! The sockets a node holds: what each pass of the main loop opens by `tcp_listen`, `accept`
and `tcp_open`, and what it closes by `tcp_close`, in order. -/

namespace DSS

inductive SocketEvent where
  | opened (fd : ℕ)
  | closed (fd : ℕ)
  deriving DecidableEq, Repr

def SocketEvent.apply (held : Finset ℕ) : SocketEvent → Finset ℕ
  | .opened fd => insert fd held
  | .closed fd => held.erase fd

/-- What the calls of one pass return; the dials in its loops are numbered. -/
structure SocketIo extends PassIo where
  /-- `tcp_listen` -/
  listenFd : ℕ
  /-- `server_dial`: for each order of `SERVER_INDEX_REQUEST_FRAGMENTS`, and for the fragment
  of a `TYPE_REQUEST_FRAG` at 0. -/
  dialed : ℕ → Option ℕ
  /-- What the calls of `server_wait_ok` on that connection receive. -/
  waits : ℕ → ℕ → Recv

/-- A node at the head of its loop, with the sockets it holds. -/
structure Sockets where
  loop : MainLoop
  listenerFd : Option ℕ
  opened : Finset ℕ

namespace Sockets

def openedBy : Option ℕ → List SocketEvent
  | some fd => [.opened fd]
  | none => []

/-- `server_close_socket` does nothing before the node listens. -/
def serverCloseSocket (listenerFd : Option ℕ) (fd : ℕ) : List SocketEvent :=
  if listenerFd.isSome then [.closed fd] else []

/-! ## The procedures -/

def confirmed (waits : ℕ → Recv) (n : ℕ) : Bool :=
  (List.range n).all fun i => serverWaitOk (serverWaitFromSocket (waits i))

/-- The procedures that dial return early wherever something is missing or refused; only the
last line closes the connection. -/
def procedureEvents (listenerFd fd : Option ℕ) (done : Bool) : List SocketEvent :=
  match fd with
  | none => []
  | some fd => .opened fd :: if done then serverCloseSocket listenerFd fd else []

def xprocedureSendRequestFragmentEvents (listenerFd fd : Option ℕ) (waits : ℕ → Recv) :
    List SocketEvent := procedureEvents listenerFd fd (confirmed waits 2)

def xprocedureSendUseLocalEvents (listenerFd fd : Option ℕ) (waits : ℕ → Recv) :
    List SocketEvent := procedureEvents listenerFd fd (confirmed waits 2)

/-- `delivery` is what the procedure finds to deliver, or its error code. -/
def xprocedureSendFragmentEvents (listenerFd fd : Option ℕ) (delivery : Except ℤ Arrival)
    (waits : ℕ → Recv) : List SocketEvent :=
  procedureEvents listenerFd fd (delivery.toOption.isSome && confirmed waits 3)

def orderEvents (io : SocketIo) (listenerFd : Option ℕ) (sv : Server) (fs : XFileServer)
    (order : FragmentOrder × ℕ) : List SocketEvent :=
  let (o, i) := order
  match o with
  | .useLocal _ _ => xprocedureSendUseLocalEvents listenerFd (io.dialed i) (io.waits i)
  | .sendFragment fileId fragmentId _ =>
    xprocedureSendFragmentEvents listenerFd (io.dialed i)
      (xprocedureSendFragment sv fs fileId fragmentId) (io.waits i)
  | .requestFragment _ _ =>
    xprocedureSendRequestFragmentEvents listenerFd (io.dialed i) (io.waits i)

/-! ## SERVER_IDLE -/

/-- `xprocedure_check_peer_b` dials when the forward peer is the one that died. -/
def redialed (dial : Address → Option ℕ) (r : Recv) (sv : Server) : Option ℕ :=
  if sv.peerB.statusOpen then
    match r with
    | some (b :: bs) =>
      let c := XPeerDied.ofContent (content (b :: bs))
      if commType (b :: bs) = TYPE_PEER_DIED ∧ sv.peerF.nodeId = c.peerId then dial c.senderAddress
      else none
    | _ => none
  else none

/-- Only a connection that does not identify itself is closed. -/
def idleAcceptEvents (io : SocketIo) : List SocketEvent :=
  match io.accept, io.conn with
  | some c, r :: _ =>
    .opened c ::
      if serverWaitClientPresentation (serverWaitFromSocket r) = 0 then [.closed c] else []
  | accept, _ => openedBy accept

def idleEvents (io : SocketIo) (st : MainLoop) : List SocketEvent :=
  openedBy (redialed io.dial io.peerB (MainLoop.serverHealthcheck io.peekZero st.sv)) ++
    match st.sv.clientFd, io.clientData with
    | some _, some _ => []
    | _, _ => idleAcceptEvents io

/-! ## SERVER_RECEIVED_PACKET -/

def receivedRequestGatewayEvents (io : SocketIo) (listenerFd : Option ℕ) (st : MainLoop) :
    List SocketEvent :=
  match io.dial st.sv.index.ip with
  | none => []
  | some fd =>
    .opened fd :: match io.index with
      | _ :: res :: _ =>
        if commType (serverWaitFromSocket res) = TYPE_NOT_OK then serverCloseSocket listenerFd fd
        else []
      | _ => []

def receivedPacketEvents (io : SocketIo) (listenerFd : Option ℕ) (st : MainLoop) :
    List SocketEvent :=
  if commType st.packet = TYPE_CREATE_FILE then
    if serverIsIndex st.sv then [] else openedBy (io.dial st.sv.index.ip)
  else if commType st.packet = TYPE_STORE_FRAGMENT then []
  else if commType st.packet = TYPE_REQUEST_FILE then
    if serverIsIndex st.sv then
      if typeRequestFileIndex st.sv st.node.fs st.packet = none then
        serverCloseSocket listenerFd st.fromFd
      else []
    else receivedRequestGatewayEvents io listenerFd st
  else if commType st.packet = TYPE_REQUEST_FRAG then
    xprocedureSendFragmentEvents listenerFd (io.dialed 0)
      (typeRequestFrag st.sv st.node.fs st.packet).2 (io.waits 0)
  else []

/-! ## The other states -/

/-- The connections of the fan-out are not closed. -/
def fanoutEvents (io : SocketIo) (st : MainLoop) : List SocketEvent :=
  match (st.node.fs.files[st.file]?).bind fun fc => st.node.fnetidx.found fc.fileId with
  | none => []
  | some f => f.fragments.zipIdx.flatMap fun entry =>
    if entry.1.nodeId = st.sv.me.nodeId then [] else openedBy (io.fanout entry.2).fd

def requestFragmentsEvents (io : SocketIo) (listenerFd : Option ℕ) (st : MainLoop) :
    List SocketEvent :=
  match serverIndexRequestFragments st.sv st.node.fnetidx st.requested.fileId
      st.requested.fragmentCount (cInt st.deliverTo) with
  | none => []
  | some (_, orders) => orders.zipIdx.flatMap (orderEvents io listenerFd st.sv st.node.fs)

/-- Only the connection of a delivery is closed. -/
def waitRequestFragmentsEvents (io : SocketIo) (listenerFd : Option ℕ) (st : MainLoop) :
    List SocketEvent :=
  if st.requested.fragmentCount ≠ st.requested.fragmentFound then
    match io.accept, io.conn with
    | some c, r :: r' :: _ =>
      .opened c ::
        if serverWaitClientPresentation (serverWaitFromSocket r) = 0 ∨ r' = some [] ∨
          commType (serverWaitFromSocket r') = TYPE_DECLARE_USE_LOCAL then []
        else serverCloseSocket listenerFd c
    | accept, _ => openedBy accept
  else []

/-- A report is closed whether it is refused or read to its end. -/
def indexWaitingPeersKnowledgeEvents (io : SocketIo) (listenerFd : Option ℕ) (st : MainLoop) :
    List SocketEvent :=
  match st.sv.indexData, io.accept, io.conn with
  | some _, some c, r :: _ =>
    .opened c ::
      if serverWaitClientPresentation (serverWaitFromSocket r) = 0 ∨ io.sent = false then
        [.closed c]
      else serverCloseSocket listenerFd c
  | some _, accept, _ => openedBy accept
  | none, _, _ => []

/-- `server_accept` for the backward peer. -/
def acceptedPeerB (io : SocketIo) (sv : Server) : Option ℕ :=
  if sv.peerB.statusOpen then none else io.accept

/-- `server_dial_peer` in `SERVER_CONNECTING`. -/
def dialedPeerF (io : SocketIo) (sv : Server) : Option ℕ :=
  if sv.peerF.statusOpen then none else io.dial sv.peerF.ip

def events (io : SocketIo) (s : Sockets) : List SocketEvent :=
  let sv := s.loop.sv
  match sv.state with
  | .booting => if io.listening then [.opened io.listenFd] else []
  | .connecting => openedBy (acceptedPeerB io sv) ++ openedBy (dialedPeerF io sv)
  | .waitingNewPeer => openedBy (acceptedPeerB io sv)
  | .idle => idleEvents io s.loop
  | .receivedPacket => receivedPacketEvents io s.listenerFd s.loop
  | .waitRequestFragments => waitRequestFragmentsEvents io s.listenerFd s.loop
  | .indexWaitingPeersKnowledge => indexWaitingPeersKnowledgeEvents io s.listenerFd s.loop
  | .indexFanoutFragments => fanoutEvents io s.loop
  | .indexRequestFragments => requestFragmentsEvents io s.listenerFd s.loop
  | .reportKnowledgeToIndex => openedBy (io.dial sv.index.ip)
  | .beginOperation | .waitingRawPackets | .receivedFragment | .indexPresentItself
  | .indexHandleNewFile | .waitIndexGossip => []

def step (s : Sockets) (io : SocketIo) : Option Sockets :=
  (s.loop.pass io.toPassIo).map fun loop =>
    { loop := loop
      listenerFd := if s.loop.sv.state = .booting then some io.listenFd else s.listenerFd
      opened := (s.events io).foldl SocketEvent.apply s.opened }

/-- The node as its program starts; `st` is the rest of its memory. -/
def started (opts : Args) (index : XPeerConnection) (st : MainLoop) : Sockets :=
  ⟨st.withServer (serverInit opts index), none, ∅⟩

/-- The descriptors a node keeps from one request to the next. -/
def kept (s : Sockets) : List (Option ℕ) :=
  [s.listenerFd, s.loop.sv.peerF.streamFd, s.loop.sv.peerB.streamFd, s.loop.sv.index.streamFd,
    s.loop.sv.clientFd]

end Sockets

end DSS
