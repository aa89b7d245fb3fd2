import DistStore.Lib.Chunks
import DistStore.Model.Failover

/-! Raw bytes on a connection: the two senders, the two loops that receive, and
what a node does with the buffer. The loops are given the successive results of
`recv` on the connection. -/

namespace DSS

/-- A result of `recv`: `none` is `-1`, the empty string is `0` from a connection the
other end has closed. -/
abbrev Recv := Option XPacket

/-! ## Senders -/

/-- `tcp_send` writes nothing for an empty buffer. -/
def tcpSends (packets : List XPacket) : List XPacket := packets.filter (· ≠ [])

/-- The writes of the client's `HandleFileTransmission` after the declaration, with the
exact ceiling for `math.Ceil`. -/
def handleFileTransmission (buffer : List UInt8) : List XPacket :=
  Chunks.chunks SERVER_BUCKET_SIZE ((buffer.length + (SERVER_BUCKET_SIZE - 1)) / SERVER_BUCKET_SIZE)
    buffer

def serverSendLargeBufferTo (buffer : List UInt8) : List XPacket :=
  tcpSends (largeBufferPackets buffer)

/-! ## Receivers -/

/-- `malloc(size)`, where `mem` is what the memory held. A negative size is too large a
request: nothing can be written to what it returns. -/
def malloc (mem : ℕ → UInt8) (size : ℤ) : List UInt8 := (List.range size.toNat).map mem

/-- The variables of a receiving loop; `forwarded` is what it sent on to the index. -/
structure RawLoop where
  buffer : List UInt8
  populated : ℕ
  forwarded : List XPacket
  deriving DecidableEq, Repr

/-- `memcpy(file_buffer + populated, p.bytes.raw, p.size)`. A size of `-1` is a huge one. -/
def receiveRaw (forward : Bool) (st : RawLoop) (r : Recv) : Option RawLoop := do
  let bs ← r
  let buffer ← writeBuffer st.buffer st.populated bs
  return ⟨buffer, st.populated + bs.length, if forward then st.forwarded ++ [bs] else st.forwarded⟩

/-- Where a receiving loop ends: it waits for a `recv` that does not return, it writes
outside its buffer, or it is done and leaves some results to whoever reads next. -/
inductive Received where
  | blocked (st : RawLoop)
  | fault
  | done (st : RawLoop) (rest : List Recv)
  deriving DecidableEq, Repr

/-- `for (i = 0; i < n; i++)`, one `recv` a round. -/
def receiveLoop (forward : Bool) : ℕ → RawLoop → List Recv → Received
  | 0, st, rs => .done st rs
  | _ + 1, st, [] => .blocked st
  | n + 1, st, r :: rs =>
    match receiveRaw forward st r with
    | none => .fault
    | some st' => receiveLoop forward n st' rs

/-- The calls of `recv` the loop makes. The last one may be one that does not return, or one
whose bytes have no room. -/
def receivesMade (forward : Bool) : ℕ → RawLoop → List Recv → ℕ
  | 0, _, _ => 0
  | _ + 1, _, [] => 1
  | n + 1, st, r :: rs =>
    match receiveRaw forward st r with
    | none => 1
    | some st' => receivesMade forward n st' rs + 1

/-- `machine_state.StateRawPackets`, its buffer aside. -/
structure StateRawPackets where
  triggerPkt : ℕ
  nPkts : ℕ
  totalSize : ℕ
  clientFd : ℕ
  fc : XRequestFileCreation
  fragc : XRequestFragmentCreation
  deriving DecidableEq, Repr

/-- The rounds of `SERVER_WAITING_RAW_PACKETS`: `int n = n_pkts`. -/
def rawReceives (raw : StateRawPackets) : ℕ := (cInt raw.nPkts).toNat

/-- `SERVER_WAITING_RAW_PACKETS`, up to the `switch` on the trigger. -/
def serverWaitingRawPackets (mem : ℕ → UInt8) (sv : Server) (raw : StateRawPackets)
    (rs : List Recv) : Received :=
  receiveLoop (raw.triggerPkt = TYPE_CREATE_FILE && !serverIsIndex sv) (rawReceives raw)
    ⟨malloc mem (cInt raw.totalSize), 0, []⟩ rs

def rawReceivesMade (mem : ℕ → UInt8) (sv : Server) (raw : StateRawPackets) (rs : List Recv) : ℕ :=
  receivesMade (raw.triggerPkt = TYPE_CREATE_FILE && !serverIsIndex sv) (rawReceives raw)
    ⟨malloc mem (cInt raw.totalSize), 0, []⟩ rs

def largeBufferReceives (bufferSize : ℤ) : ℕ := (bufferSize.tdiv SERVER_BUCKET_SIZE + 1).toNat

/-- `server_wait_large_buffer_from` into a buffer its caller has allocated. -/
def serverWaitLargeBufferFrom (bufferSize : ℤ) (fileBuffer : List UInt8) (rs : List Recv) :
    Received :=
  receiveLoop false (largeBufferReceives bufferSize) ⟨fileBuffer, 0, []⟩ rs

def largeBufferReceivesMade (bufferSize : ℤ) (fileBuffer : List UInt8) (rs : List Recv) : ℕ :=
  receivesMade false (largeBufferReceives bufferSize) ⟨fileBuffer, 0, []⟩ rs

/-! ## What the raw packets are for -/

/-- `TYPE_CREATE_FILE` in `SERVER_RECEIVED_PACKET`: the state, and what goes to the index
first. `fragc` is left from an earlier transfer. -/
def typeCreateFile (sv : Server) (old : StateRawPackets) (p : XPacket) (fd : ℕ) :
    StateRawPackets × List XPacket :=
  let fc := XRequestFileCreation.ofContent (content p)
  ({ old with
      triggerPkt := TYPE_CREATE_FILE
      nPkts := nPackets fc.fileSize
      totalSize := fc.fileSize
      clientFd := fd
      fc := fc },
    if serverIsIndex sv then [] else [xpacketPresentation sv, p])

/-- `TYPE_STORE_FRAGMENT` in `SERVER_RECEIVED_PACKET`: the store, the state, and the answer. -/
def typeStoreFragmentRaw (sv : Server) (fs : XFileServer) (old : StateRawPackets) (p : XPacket)
    (fd : ℕ) : XFileServer × StateRawPackets × XPacket :=
  let (fs', fragc) := typeStoreFragment fs p
  (fs',
    { old with
      triggerPkt := TYPE_STORE_FRAGMENT
      nPkts := nPackets fragc.fragSize
      totalSize := fragc.fragSize
      clientFd := fd
      fragc := fragc },
    xpacketOk sv)

def announceRaw (nd : Node) (old : StateRawPackets) (p : XPacket) (fd : ℕ) :
    Node × StateRawPackets :=
  if commType p = TYPE_CREATE_FILE then (nd, (typeCreateFile nd.sv old p fd).1)
  else
    let (fs, raw, _) := typeStoreFragmentRaw nd.sv nd.fs old p fd
    ({ nd with fs := fs }, raw)

/-- The `switch` on the trigger. It has no default. -/
def rawPacketsDone (sv : Server) (trigger : ℕ) : EServerState :=
  if trigger = TYPE_CREATE_FILE then
    if serverIsIndex sv then .indexHandleNewFile else .idle
  else if trigger = TYPE_STORE_FRAGMENT then .receivedFragment
  else .waitingRawPackets

/-- A node once the transfer is dealt with; `stored` says whether a container and an
entry were created or a fragment was added. -/
structure Transferred where
  node : Node
  stored : Bool
  deriving DecidableEq, Repr

/-- `SERVER_INDEX_HANDLE_NEW_FILE` or `SERVER_RECEIVED_FRAGMENT` on the buffer. -/
def handleBuffer (nd : Node) (raw : StateRawPackets) (buffer : List UInt8) : Option Transferred :=
  match rawPacketsDone nd.sv raw.triggerPkt with
  | .indexHandleNewFile => do
    let (fs, fnetidx, _) ← serverIndexHandleNewFile nd.sv nd.fs nd.fnetidx raw.fc raw.totalSize
    return ⟨⟨serverSetState nd.sv .indexFanoutFragments, fs, fnetidx⟩, true⟩
  | .receivedFragment =>
    some ⟨⟨serverSetState nd.sv .idle, serverReceivedFragment nd.fs raw.fragc buffer, nd.fnetidx⟩,
      (xfileserverFindFile nd.fs raw.fragc.fileId).isSome⟩
  | st => some ⟨{ nd with sv := serverSetState nd.sv st }, false⟩

/-- The loop and what follows it. `none` is a fault, or a loop that still waits. -/
def rawTransfer (mem : ℕ → UInt8) (nd : Node) (raw : StateRawPackets) (rs : List Recv) :
    Option Transferred :=
  match serverWaitingRawPackets mem nd.sv raw rs with
  | .done st _ => handleBuffer nd raw st.buffer
  | _ => none

end DSS
