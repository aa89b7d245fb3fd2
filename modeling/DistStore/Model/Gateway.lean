import DistStore.Model.IndexFiles

/-! The other nodes' side of `main.c`: storing a fragment, delivering one, and a
gateway collecting a file for its client. -/

namespace DSS

open Splice

/-! ## TYPE_STORE_FRAGMENT and SERVER_RECEIVED_FRAGMENT -/

/-- `TYPE_STORE_FRAGMENT`: the container exists afterwards. -/
def typeStoreFragment (fs : XFileServer) (p : XPacket) : XFileServer × XRequestFragmentCreation :=
  let fragc := XRequestFragmentCreation.ofContent (content p)
  match xfileserverFindFile fs fragc.fileId with
  | some _ => (fs, fragc)
  | none =>
    ((xfileserverAddFile fs fragc.fileName fragc.fileId fragc.fileSize
      fragc.fragmentCountTotal).1, fragc)

/-- `buffer` is what the raw packets left; the store's own `malloc` succeeds. -/
def serverReceivedFragment (fs : XFileServer) (c : XRequestFragmentCreation)
    (buffer : List UInt8) : XFileServer :=
  match xfileserverFindFile fs c.fileId with
  | none => fs
  | some slot =>
    fs.update slot fun fc => (xfileserverAddFragment true fc c.fragId buffer c.fragSize).2

/-- A whole transmission of the fan-out, at the node that takes it. -/
def receiveTransmission (fs : XFileServer) (p : XPacket) (raw : List UInt8) : XFileServer :=
  let (fs', fragc) := typeStoreFragment fs p
  serverReceivedFragment fs' fragc raw

/-! ## TYPE_REQUEST_FRAG and xprocedure_send_fragment -/

/-- A connection that reaches a collecting gateway: the packet after the
presentation, and the raw bytes that follow it. -/
structure Arrival where
  packet : XPacket
  raw : List UInt8
  deriving DecidableEq, Repr, Inhabited

def declareFragmentPacket (sv : Server) (fileId fragmentId : ℤ) (fragSize fileSize : ℕ) : XPacket :=
  xpacketNew sv TYPE_DECLARE_FRAG (XDeclareFragmentTransport.bytes
    ⟨toU64 fileId, toU64 fragmentId, fragSize, fileSize⟩) (SIZEOF_COMM + 2)

/-- The outcome of `xprocedure_send_fragment` after the dial: its error code, or
what it delivers. -/
def xprocedureSendFragment (sv : Server) (fs : XFileServer) (fileId fragmentId : ℤ) :
    Except ℤ Arrival :=
  match fs.found (toU64 fileId) with
  | none => .error (-1)
  | some fc =>
    match [fc.fragments0, fc.fragments1].find? fun fr => (fr.fragmentId : ℤ) = fragmentId with
    | none => .error (-2)
    | some fragment =>
      .ok ⟨declareFragmentPacket sv fileId fragmentId fragment.fragmentSize fc.size,
        fragment.fragmentBytes.take fragment.fragmentSize⟩

def typeRequestFrag (sv : Server) (fs : XFileServer) (p : XPacket) : Address × Except ℤ Arrival :=
  let c := XDeliverFragmentTo.ofContent (content p)
  (c.toAddress, xprocedureSendFragment sv fs (cInt c.fileId) (cInt c.fragId))

/-! ## TYPE_REQUEST_FILE -/

/-- `StateRequestedFile`, without the descriptor and the request itself. -/
structure StateRequestedFile where
  fileId : ℤ
  fileSize : ℕ
  fragmentCount : ℤ
  fragmentFound : ℤ
  buffer : List UInt8
  deriving DecidableEq, Repr

/-- The index's answer: `none` stands for `TYPE_NOT_OK`. -/
def typeRequestFileIndex (sv : Server) (fs : XFileServer) (p : XPacket) :
    Option (XFileContainer × XPacket) := do
  let slot ← xfileserverFindFileByName fs (XRequestFile.ofContent (content p)).name
  let fc ← fs.files[slot]?
  return (fc, xpacketRequestFileResponse sv fc.fileId fc.size fc.fragmentCountTotal)

/-- What a gateway takes from the index's response. -/
def typeRequestFileGateway (res : XPacket) : StateRequestedFile :=
  let c := XResponseRequestFile.ofContent (content res)
  { fileId := cInt c.fileId
    fileSize := c.fileSize
    fragmentCount := c.fragmentCountTotal
    fragmentFound := 0
    buffer := List.replicate c.fileSize 46 }

/-! ## SERVER_WAIT_REQUEST_FRAGMENTS -/

/-- `TYPE_DECLARE_USE_LOCAL`: the second slot is taken whenever the first holds
another fragment. Where that slot is empty, the `memcpy` is one of no bytes to before the buffer: `none`
here, and without effect in the compiled code. -/
def collectLocal (fs : XFileServer) (st : StateRequestedFile) (p : XPacket) :
    Option StateRequestedFile :=
  match fs.found (toU64 st.fileId) with
  | none => some st
  | some fc => do
    let c := XDeclareFragmentUseLocal.ofContent (content p)
    let fp := if fc.fragments0.fragmentId ≠ c.fragId then fc.fragments1 else fc.fragments0
    let sizePerFrag := cInt (fc.size / toU64 st.fragmentCount)
    let buffer ← writeBuffer st.buffer (sizePerFrag * ((fp.fragmentId : ℤ) - 1))
      (fp.fragmentBytes.take fp.fragmentSize)
    return { st with buffer := buffer, fragmentFound := st.fragmentFound + 1 }

/-- Any other packet is taken for a delivery. -/
def collectDelivery (st : StateRequestedFile) (p : XPacket) (raw : List UInt8) :
    Option StateRequestedFile := do
  let c := XDeclareFragmentTransport.ofContent (content p)
  let fragSize := cInt c.fragSize
  let sizePerFrag := cInt (st.fileSize / toU64 st.fragmentCount)
  let buffer ← writeBuffer st.buffer (sizePerFrag * (cInt c.fragId - 1)) (raw.take fragSize.toNat)
  return { st with buffer := buffer, fragmentFound := st.fragmentFound + 1 }

/-- One accepted connection while fragments are missing. -/
def serverWaitRequestFragments (fs : XFileServer) (st : StateRequestedFile) (a : Arrival) :
    Option StateRequestedFile :=
  if commType a.packet = TYPE_DECLARE_USE_LOCAL then collectLocal fs st a.packet
  else collectDelivery st a.packet a.raw

def bufferToClient (st : StateRequestedFile) : Option (List UInt8) :=
  if st.fragmentCount = st.fragmentFound then
    some (st.buffer.take (cInt st.fileSize).toNat)
  else none

end DSS
