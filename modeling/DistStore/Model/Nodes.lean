import DistStore.Lib.Transition
import DistStore.Model.ClientCommands
import DistStore.Model.MainLoop
import DistStore.Model.StoreRun

/-! A file that is sent and a file that is requested, pass by pass: the main loops of a gateway, of the
index and of the nodes that hold the fragments, each on what the others sent. Every send arrives as one
receive, and nothing else comes meanwhile. -/

namespace DSS

open MainLoop

/-- Nothing comes, and every call succeeds. `mem` is what `malloc` returns, `fd` is what a dial does. -/
def PassIo.quiet (mem : ℕ → UInt8) (fd : ℕ) : PassIo where
  listening := true
  accept := none
  dial _ := some fd
  peekZero := false
  peerB := none
  clientData := none
  conn := []
  index := []
  sent := true
  fanout _ := ⟨none, [], []⟩
  mem := mem
  knownPeers := 0

section

variable (mem : ℕ → UInt8) (fd : ℕ)

def PassIo.accepts (ps : List XPacket) : PassIo :=
  { PassIo.quiet mem fd with accept := some fd, conn := ps.map some }

def PassIo.receives (ps : List XPacket) : PassIo := { PassIo.quiet mem fd with conn := ps.map some }

def PassIo.fromClient (p : XPacket) : PassIo :=
  { PassIo.quiet mem fd with clientData := some (some p) }

/-- The index answers the identification, and then `reply`. -/
def PassIo.answered (index : Server) (reply : XPacket) : PassIo :=
  { PassIo.quiet mem fd with index := [some (xpacketOk index), some reply] }

def PassIo.notified (dial : Address → Option ℕ) (p : XPacket) : PassIo :=
  { PassIo.quiet mem fd with dial := dial, peerB := some p }

namespace MainLoop

def passes (st : MainLoop) (ios : List PassIo) : Option MainLoop :=
  Transition.run (fun st io => pass io st) st ios

/-! ## A file is sent -/

def storesFragment (peer : Server) (t : FragmentTransmission) (st : MainLoop) : Option MainLoop :=
  st.passes [.accepts mem fd [xpacketPresentation peer, t.packet], .quiet mem fd,
    .receives mem fd (serverSendLargeBufferTo t.raw), .quiet mem fd]

/-- What the raw packets `chunks` make the gateway send to the index. -/
def forwards (chunks : List XPacket) (st : MainLoop) : Option (List XPacket) :=
  match serverWaitingRawPackets mem st.sv st.raw (chunks.map some) with
  | .done loop _ => some loop.forwarded
  | _ => none

/-- A gateway whose client sends the packet `p` and `chunks`; what it sends to the index. -/
def relaysFile (p : XPacket) (chunks : List XPacket) (st : MainLoop) :
    Option (MainLoop × List XPacket) := do
  let st ← pass (.fromClient mem fd p) st
  let announced := (typeCreateFile st.sv st.raw st.packet st.fromFd).2
  let st ← pass (.quiet mem fd) st
  let forwarded ← forwards mem chunks st
  let st ← pass (.receives mem fd chunks) st
  return (st, announced ++ forwarded)

/-- The index that is sent `written` on one connection; what it sends to the other nodes. -/
def placesFile (answers : ℕ → FanoutAnswers) (written : List XPacket) (st : MainLoop) :
    Option (MainLoop × List FragmentTransmission) := do
  let st ← st.passes [.accepts mem fd (written.take 2), .quiet mem fd,
    .receives mem fd (written.drop 2), .quiet mem fd]
  let out ← serverIndexFanoutIo st.sv st.node.fs st.node.fnetidx st.file st.buffer answers
  let st ← pass { PassIo.quiet mem fd with fanout := answers } st
  return (st, out.requests.filterMap StoreRequest.sent)

/-! ## A file is requested -/

/-- A node that is asked for a fragment by `peer`; what it sends, and where to. -/
def deliversFragment (peer : Server) (packet : XPacket) (st : MainLoop) :
    Option (MainLoop × Address × Except ℤ Arrival) := do
  let st ← pass (.accepts mem fd [xpacketPresentation peer, packet]) st
  let delivered := typeRequestFrag st.sv st.node.fs st.packet
  let st ← pass (.quiet mem fd) st
  return (st, delivered)

def collects (a : Server × Arrival) : PassIo :=
  .accepts mem fd (xpacketPresentation a.1 :: a.2.packet :: serverSendLargeBufferTo a.2.raw)

end MainLoop

end

/-! ## All nodes -/

namespace Cluster

variable (c : Cluster) (mem : ℕ → UInt8) (fd : ℕ)

def storesFragments (peer : Server) (loops : ℕ → MainLoop) (sent : List FragmentTransmission) :
    Option (ℕ → MainLoop) :=
  sent.foldlM (fun loops t => do
    let n ← c.nodeAt t.dest
    let st ← storesFragment mem fd peer t (loops n)
    return Function.update loops n st) loops

/-- A client of the gateway `g` sends the packet `p` and `chunks`. -/
def sendFile (answers : ℕ → FanoutAnswers) (loops : ℕ → MainLoop) (g : ℕ) (p : XPacket)
    (chunks : List XPacket) : Option (ℕ → MainLoop) := do
  let (gateway, written) ← relaysFile mem fd p chunks (loops g)
  let (index, sent) ← placesFile mem fd answers written (loops c.N)
  c.storesFragments mem fd index.sv (Function.update (Function.update loops g gateway) c.N index) sent

/-- An order of `index`: who reaches the gateway `g` because of it, and with what. -/
def carriesOut (index : MainLoop) (g : ℕ) (loops : ℕ → MainLoop) :
    FragmentOrder → Option ((ℕ → MainLoop) × Option (Server × Arrival))
  | .useLocal dest packet =>
    some (loops, if c.nodeAt dest = some g then some (index.sv, ⟨packet, []⟩) else none)
  | .sendFragment fileId fragmentId deliverTo =>
    some (loops, if c.nodeAt deliverTo = some g then
      (xprocedureSendFragment index.sv index.node.fs fileId fragmentId).toOption.map (index.sv, ·)
      else none)
  | .requestFragment dest packet =>
    match c.nodeAt dest with
    | none => some (loops, none)
    | some n => do
      let (st, deliverTo, sent) ← deliversFragment mem fd index.sv packet (loops n)
      return (Function.update loops n st,
        if c.nodeAt deliverTo = some g then sent.toOption.map (st.sv, ·) else none)

def carriesOutAll (index : MainLoop) (g : ℕ) (loops : ℕ → MainLoop) (orders : List FragmentOrder) :
    Option ((ℕ → MainLoop) × List (Server × Arrival)) :=
  orders.foldlM (fun st o => do
    let (loops, a) ← c.carriesOut mem fd index g st.1 o
    return (loops, st.2 ++ a.toList)) (loops, [])

structure Answered where
  loops : ℕ → MainLoop
  toClient : List XPacket

/-- A client of the gateway `g` sends the request `req`: the gateway and the index afterwards, and what
the gateway sent to its client. -/
def asksIndex (loops : ℕ → MainLoop) (g : ℕ) (req : XPacket) :
    Option (MainLoop × MainLoop × List XPacket) := do
  let gateway ← MainLoop.pass (.fromClient mem fd req) (loops g)
  let forwarded := setCommSender gateway.sv.me.nodeId gateway.packet
  let index ← MainLoop.pass (.accepts mem fd [xpacketPresentation gateway.sv, forwarded]) (loops c.N)
  let reply := (typeRequestFileIndex index.sv index.node.fs index.packet).elim
    (xpacketNotOk index.sv) Prod.snd
  let io := PassIo.answered mem fd index.sv reply
  let index ← MainLoop.pass (.quiet mem fd) index
  let told ← requestGatewaySent io gateway
  let gateway ← MainLoop.pass io gateway
  return (gateway, index, told)

/-- A client of the gateway `g` sends the request `req`, and `ok` for the response. The connections reach
the gateway in the order `arranged`. -/
def requestFile (arranged : List (Server × Arrival) → List (Server × Arrival))
    (loops : ℕ → MainLoop) (g : ℕ) (req ok : XPacket) : Option Answered := do
  let (gateway, index, told) ← c.asksIndex mem fd loops g req
  if index.sv.state = .idle then
    return ⟨Function.update (Function.update loops g gateway) c.N index, told⟩
  else do
    let (_, orders) ← serverIndexRequestFragments index.sv index.node.fnetidx index.requested.fileId
      index.requested.fragmentCount (cInt index.deliverTo)
    let idle ← MainLoop.pass (.quiet mem fd) index
    let (loops, arrivals) ← c.carriesOutAll mem fd index g (Function.update loops c.N idle) orders
    let gateway ← gateway.passes ((arranged arrivals).map (collects mem fd))
    match bufferToClient gateway.requested with
    | none => return ⟨Function.update loops g gateway, told⟩
    | some buffer => do
      let gateway ← MainLoop.pass (.receives mem fd [ok]) gateway
      return ⟨Function.update loops g gateway, told ++ serverSendLargeBufferTo buffer⟩

end Cluster

/-! ## A run -/

/-- A client on whose connection `stream` arrives; its reads end early where `cut` says so. -/
def ClientState.connectedTo (cut : ℕ → Bool) (stream : List UInt8) : ClientState :=
  ⟨.connected, some ⟨0, stream, cut⟩⟩

def allWritten : ℕ → SendOutcome := fun _ => .complete

/-- The packet of `request file <name>`. -/
def requestOf (name : List UInt8) : XPacket :=
  (goPacket RequestFilePacket (⟨toFixed200 name, char200_length _⟩ : FileRequestPacket)).serialize

def requestRefused (name : List UInt8) : CommandOutcome :=
  ⟨.failure (goString "Server responded with NOT OK"), [requestOf name], none⟩

def requestSaved (name bytes : List UInt8) : CommandOutcome :=
  ⟨.success (goString "File successfully saved to " ++ goString "./files" ++ goString " as " ++ name),
    [requestOf name, goPacketOk.serialize], some ⟨goString "./files", name, bytes⟩⟩

/-- `request` with `args` is over when `stream` has arrived: whatever else comes, also nothing, the outcome
is `o`. -/
def RequestEnds (cut : ℕ → Bool) (stream : List UInt8) (args : List (List UInt8)) (o : CommandOutcome) :
    Prop :=
  ∀ more, (ClientState.connectedTo cut (stream ++ more)).handleRequest allWritten (fun _ => true) args =
    some o

def writtenAuth (answer : XPacket) : List XPacket :=
  ((ClientState.connectedTo (fun _ => false) answer).handleSend allWritten (fun _ => none)
    [goString "auth"]).elim [] CommandOutcome.written

/-- What a client writes for `send file <path>`, where the file has this name and content. -/
def writtenFile (path : List UInt8) (file : List UInt8 × List UInt8) : List XPacket :=
  ((ClientState.connectedTo (fun _ => false) []).handleSend allWritten
    (fun _ => some ⟨some (file.1, file.2.length), file.2⟩) [goString "file", path]).elim []
    CommandOutcome.written

inductive NodesOp where
  /-- A client connects to the node `g`. -/
  | present (g : ℕ)
  /-- The client of `g` sends a file. -/
  | send (g : ℕ) (path : List UInt8) (file : List UInt8 × List UInt8)
  /-- The client of `g` asks for a file. -/
  | request (g : ℕ) (name : List UInt8) (arranged : List (Server × Arrival) → List (Server × Arrival))
  /-- The index takes the notice `p` of a death from `peer_b`. -/
  | notice (dial : Address → Option ℕ) (p : XPacket)

namespace Cluster

variable (c : Cluster) (mem : ℕ → UInt8) (fd : ℕ) (answers : ℕ → FanoutAnswers)

def nodesStep (loops : ℕ → MainLoop) : NodesOp → Option (ℕ → MainLoop)
  | .present g => do
    let st ← MainLoop.pass (.accepts mem fd (writtenAuth (xpacketOk (loops g).sv))) (loops g)
    return Function.update loops g st
  | .send g path file =>
    match writtenFile path file with
    | [] => none
    | p :: chunks => c.sendFile mem fd answers loops g p chunks
  | .request g name arranged =>
    (c.requestFile mem fd arranged loops g (requestOf name) goPacketOk.serialize).map Answered.loops
  | .notice dial p => do
    let st ← MainLoop.pass (.notified mem fd dial p) (loops c.N)
    return Function.update loops c.N st

end Cluster

/-- The nodes once they know their index, and it knows them. -/
def Cluster.readyLoop (c : Cluster) (n : ℕ) : MainLoop where
  node := ⟨if n = c.N then c.readyIndex
    else { serverInit (c.args n) ⟨c.N, c.addr c.N, none, true⟩ with state := .idle },
    xfileserverInit, xfilenetindexInit⟩
  packet := []
  fromFd := 0
  raw := ⟨0, 0, 0, 0, ⟨[], 0⟩, ⟨[], 0, 0, 0, 0, 0, 0⟩⟩
  buffer := []
  file := 0
  requested := ⟨0, 0, 0, 0, []⟩
  requestFd := 0
  deliverTo := 0

/-! ## What it is for -/

/-- The store, and the gateways that have a client. -/
structure ServedStore where
  store : FileStore
  clients : List ℕ
  deriving DecidableEq, Repr

namespace ServedStore

def empty (c : Cluster) : ServedStore := ⟨FileStore.empty c, []⟩

def after (s : ServedStore) : NodesOp → ServedStore
  | .present g => { s with clients := g :: s.clients }
  | .send _ _ file => { s with store := s.store.after (.upload file) }
  | .request _ _ _ => s
  | .notice dial p => { s with store := s.store.after (.notice dial p) }

def afterAll (s : ServedStore) (ops : List NodesOp) : ServedStore := ops.foldl after s

/-- What `request file <name>` comes to. Of a file that cannot be read the client waits for the bytes. -/
def outcome (s : ServedStore) (name : List UInt8) : Option CommandOutcome :=
  match s.store.find name with
  | none => some (requestRefused name)
  | some f => (s.store.read f).map (requestSaved name)

end ServedStore

end DSS
