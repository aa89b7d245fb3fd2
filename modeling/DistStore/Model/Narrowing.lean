import DistStore.Model.RawTransfer

/-! The local variables of `main.c` that keep a 64-bit size or a count in a narrower type, and
what they have to be for a file of `size` bytes in `count` fragments. -/

namespace DSS

/-! ## The variables -/

/-- `int size` in `SERVER_WAITING_RAW_PACKETS` -/
def waitedSize (raw : StateRawPackets) : ℤ := cInt raw.totalSize

/-- `int n` in `SERVER_WAITING_RAW_PACKETS` -/
def waitedPackets (raw : StateRawPackets) : ℤ := cInt raw.nPkts

theorem serverWaitingRawPackets_eq (mem : ℕ → UInt8) (sv : Server) (raw : StateRawPackets)
    (rs : List Recv) :
    serverWaitingRawPackets mem sv raw rs =
      receiveLoop (raw.triggerPkt = TYPE_CREATE_FILE && !serverIsIndex sv) (waitedPackets raw).toNat
        ⟨malloc mem (waitedSize raw), 0, []⟩ rs := rfl

/-- `int baseoffset` in `SERVER_INDEX_FANOUT_FRAGMENTS` -/
def baseoffset (fc : XFileContainer) (f : XFileInNetwork) : ℤ :=
  cInt (fc.size / (f.totalFragments / REDUNDANCY))

/-- `int offset` in `SERVER_INDEX_FANOUT_FRAGMENTS` -/
def fragmentOffset (fc : XFileContainer) (f : XFileInNetwork) (frag : XFragmentNetworkPointer) : ℤ :=
  baseoffset fc f * ((frag.fragment : ℤ) - 1)

theorem fanoutFragment_eq (sv : Server) (d : XIndexData) (fc : XFileContainer) (f : XFileInNetwork)
    (buffer : List UInt8) (st : XFileContainer × List FragmentTransmission)
    (frag : XFragmentNetworkPointer) (i : ℕ) :
    fanoutFragment sv d (baseoffset fc f) buffer st (frag, i) =
      if frag.nodeId = sv.me.nodeId then do
        let buf ← readBuffer buffer (fragmentOffset fc f frag) frag.size
        return (storeOwnFragment frag buf st.1, st.2)
      else do
        let raw ← readBuffer buffer (fragmentOffset fc f frag) (cInt frag.size).toNat
        return (st.1, st.2 ++ [⟨d.peerIp frag.nodeId,
          xpacketSendFragment sv (xreqfragcreationNew st.1 frag i), raw⟩]) := rfl

/-- `int file_sz` in `SERVER_WAIT_REQUEST_FRAGMENTS` -/
def fileSz (requested : StateRequestedFile) : ℤ := cInt requested.fileSize

/-- `int size_per_frag` in `SERVER_WAIT_REQUEST_FRAGMENTS` -/
def sizePerFrag (requested : StateRequestedFile) : ℤ :=
  cInt (requested.fileSize / toU64 requested.fragmentCount)

/-- `int frag_size` and `int offset`, when a fragment is delivered. -/
def deliveredSize (c : XDeclareFragmentTransport) : ℤ := cInt c.fragSize

def deliveredOffset (requested : StateRequestedFile) (c : XDeclareFragmentTransport) : ℤ :=
  sizePerFrag requested * (cInt c.fragId - 1)

theorem bufferToClient_eq (requested : StateRequestedFile) :
    bufferToClient requested =
      if requested.fragmentCount = requested.fragmentFound then
        some (requested.buffer.take (fileSz requested).toNat)
      else none := rfl

theorem collectDelivery_eq (requested : StateRequestedFile) (p : XPacket) (raw : List UInt8) :
    collectDelivery requested p raw = do
      let c := XDeclareFragmentTransport.ofContent (content p)
      let buffer ← writeBuffer requested.buffer (deliveredOffset requested c)
        (raw.take (deliveredSize c).toNat)
      return { requested with buffer := buffer, fragmentFound := requested.fragmentFound + 1 } := rfl

/-! ## The exact values -/

def exactSize (count size i : ℕ) : ℕ := if i + 1 = count then size / count + size % count else size / count

def XFileInNetwork.entry (f : XFileInNetwork) (i j : ℕ) : XFragmentNetworkPointer :=
  f.fragments.getD (i * REDUNDANCY + j) .zero

/-- A node that waits for raw packets waits for `size` bytes, in that many packets. -/
structure WaitsExactly (raw : StateRawPackets) (size : ℕ) : Prop where
  n : waitedPackets raw = nPackets size
  size : waitedSize raw = size

/-- `SERVER_INDEX_HANDLE_NEW_FILE` -/
structure PlacesExactly (count size : ℕ) (fc : XFileContainer) (f : XFileInNetwork) : Prop where
  fragmentCountTotal : fc.fragmentCountTotal = count
  fragmentsz : ∀ i < count, ∀ j < REDUNDANCY, (f.entry i j).size = exactSize count size i
  sum : ∀ j < REDUNDANCY, ((List.range count).map fun i => (f.entry i j).size).sum = size

/-- `SERVER_INDEX_FANOUT_FRAGMENTS`, on a buffer of `length` bytes. -/
structure FansOutExactly (count size : ℕ) (length : ℤ) (fc : XFileContainer) (f : XFileInNetwork) :
    Prop where
  baseoffset : baseoffset fc f = (size / count : ℕ)
  offset : ∀ i < count, ∀ j < REDUNDANCY,
    fragmentOffset fc f (f.entry i j) = (i * (size / count) : ℕ)
  inside : ∀ i < count, ∀ j < REDUNDANCY,
    fragmentOffset fc f (f.entry i j) + (f.entry i j).size ≤ length
  fragmentId : ∀ i < count, ∀ j < REDUNDANCY, ∀ bytes,
    (storeOwnFragment (f.entry i j) bytes fc).fragments0.fragmentId = i + 1

/-- `TYPE_STORE_FRAGMENT` and `SERVER_RECEIVED_FRAGMENT` on the packet for entry `j` of
fragment `i + 1`, at a node `sv` with store `fs`. -/
structure StoresExactly (count size i : ℕ) (p : XPacket) (sv : Server) (fs : XFileServer)
    (old : StateRawPackets) (fd : ℕ) : Prop where
  waits : WaitsExactly (typeStoreFragmentRaw sv fs old p fd).2.1 (exactSize count size i)
  fragmentCountTotal :
    xfileserverFindFile fs (typeStoreFragmentRaw sv fs old p fd).2.1.fragc.fileId = none →
      (typeStoreFragmentRaw sv fs old p fd).1.files.getLast?.map (·.fragmentCountTotal) = some count
  fragmentId : ∀ (file : XFileContainer) (bytes : List UInt8), file.fragments0.fragmentId = 0 →
    (xfileserverAddFragment true file (typeStoreFragmentRaw sv fs old p fd).2.1.fragc.fragId bytes
      (typeStoreFragmentRaw sv fs old p fd).2.1.fragc.fragSize).2.fragments0.fragmentId = i + 1

/-- `SERVER_WAIT_REQUEST_FRAGMENTS` -/
structure CollectsExactly (count size : ℕ) (requested : StateRequestedFile) : Prop where
  fragmentCount : requested.fragmentCount = count
  sizePerFrag : sizePerFrag requested = (size / count : ℕ)
  fileSz : fileSz requested = size

/-- A node `sv` delivers fragment `i + 1`, under the file id `fileId`. -/
structure DeliversExactly (count size i : ℕ) (requested : StateRequestedFile) (sv : Server)
    (fileId : ℤ) : Prop where
  fragSize : deliveredSize (XDeclareFragmentTransport.ofContent (content
    (declareFragmentPacket sv fileId (i + 1 : ℕ) (exactSize count size i) size))) =
      exactSize count size i
  offset : deliveredOffset requested (XDeclareFragmentTransport.ofContent (content
    (declareFragmentPacket sv fileId (i + 1 : ℕ) (exactSize count size i) size))) =
      (i * (size / count) : ℕ)
  inside : i * (size / count) + exactSize count size i ≤ requested.buffer.length

/-! ## An upload and a download -/

/-- The container and the table entry that `SERVER_INDEX_HANDLE_NEW_FILE` makes. -/
def newFile (sv : Server) (fs : XFileServer) (net : XFileNetworkIndex) (raw : StateRawPackets) :
    Option (XFileContainer × XFileInNetwork) := do
  let (fs', net', file) ← serverIndexHandleNewFile sv fs net raw.fc raw.totalSize
  let fc ← fs'.files[file]?
  let f ← net'.files.getLast?
  return (fc, f)

/-- Every value that is kept of the file is the exact one: at the node that receives it (`raw`),
at the index `sv`, which makes container `fc` and entry `f` of it, at the nodes that store its
fragments and report them, and at the node that collects it again. -/
structure NothingNarrowed (count : ℕ) (sv : Server) (raw : StateRawPackets) (fc : XFileContainer)
    (f : XFileInNetwork) : Prop where
  waits : WaitsExactly raw raw.totalSize
  places : PlacesExactly count raw.totalSize fc f
  fansOut : FansOutExactly count raw.totalSize (waitedSize raw) fc f
  stores : ∀ i < count, ∀ j < REDUNDANCY, ∀ ptrIndex holder fs old fd,
    StoresExactly count raw.totalSize i
      (xpacketSendFragment sv (xreqfragcreationNew fc (f.entry i j) ptrIndex)) holder fs old fd
  reports : ∀ (holder : Server) (file : XFileContainer),
    file.fragmentCountTotal = fc.fragmentCountTotal →
      (XReportFileKnowledge.ofContent (content
        (xpacketReportFile holder (reportOf holder.me.nodeId file)))).fragCount = count
  collects : CollectsExactly count raw.totalSize
    (typeRequestFileGateway (xpacketRequestFileResponse sv fc.fileId fc.size fc.fragmentCountTotal))
  delivers : ∀ i < count, ∀ (holder : Server) (fileId : ℤ), DeliversExactly count raw.totalSize i
    (typeRequestFileGateway (xpacketRequestFileResponse sv fc.fileId fc.size fc.fragmentCountTotal))
    holder fileId

end DSS
