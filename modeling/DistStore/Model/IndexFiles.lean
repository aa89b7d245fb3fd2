import DistStore.Lib.Splice
import DistStore.Model.Server

/-! The index's side of `main.c`: placing a new file, fanning its fragments out
and choosing who delivers them. A read or write outside a buffer is `none`, also one of no bytes, which
touches nothing in the compiled code. -/

namespace DSS

open Splice

/-- `memcpy` out of `buffer + off`. -/
def readBuffer (buffer : List UInt8) (off : ℤ) (len : ℕ) : Option (List UInt8) :=
  if 0 ≤ off ∧ off.toNat + len ≤ buffer.length then some (slice buffer off.toNat len) else none

/-- `memcpy` into `buffer + off`. -/
def writeBuffer (buffer : List UInt8) (off : ℤ) (bs : List UInt8) : Option (List UInt8) :=
  if 0 ≤ off ∧ off.toNat + bs.length ≤ buffer.length then some (splice buffer off.toNat bs)
  else none

/-! ## SERVER_INDEX_HANDLE_NEW_FILE -/

/-- The inner `while (1)`: `internaloffset` moves past the peers whose port is zero.
The first argument after `i` is `known_peers - (i + internaloffset)`. -/
def skipDeadPeers (d : XIndexData) (i : ℕ) : ℕ → ℕ → ℕ
  | 0, internaloffset => internaloffset
  | r + 1, internaloffset =>
    if (d.peerIps.getD (i + internaloffset) Address.zero).port = 0 then
      skipDeadPeers d i r (internaloffset + 1)
    else internaloffset

/-- The loop over `tries`; its first argument is `known_peers + 1 - tries`. -/
def placeReplicas (sv : Server) (i node : ℕ) (fragmentsz : ℤ) :
    ℕ → ℕ → ℕ → List XFragmentNetworkPointer → List XFragmentNetworkPointer
  | 0, _, _, fragments => fragments
  | r + 1, tries, j, fragments =>
    if j < REDUNDANCY then
      let nid := (node + tries) % u64 (sv.netSize + sv.deathCount) + 1
      if serverIsValidNode sv nid then
        placeReplicas sv i node fragmentsz r (tries + 1) (j + 1)
          (fragments.set (i * REDUNDANCY + j) ⟨u16 (i + 1), toU64 fragmentsz, nid⟩)
      else placeReplicas sv i node fragmentsz r (tries + 1) j fragments
    else fragments

/-- One round of the loop over fragments, on `(internaloffset, f->fragments)`. -/
def placeFragment (sv : Server) (d : XIndexData) (fragcount : ℕ) (fragsz remain : ℤ)
    (st : ℕ × List XFragmentNetworkPointer) (i : ℕ) : ℕ × List XFragmentNetworkPointer :=
  let fragmentsz := if i + 1 = fragcount then fragsz + remain else fragsz
  let internaloffset := skipDeadPeers d i (d.knownPeers - (i + st.1)) st.1
  (internaloffset,
   placeReplicas sv i (i + internaloffset) fragmentsz (d.knownPeers + 1) 0 0 st.2)

/-- The loop over fragments. Every round divides by `net_size + death_count`, and the process does not
survive a division by zero. -/
def placeFragments (sv : Server) (d : XIndexData) (fragcount : ℕ) (fragsz remain : ℤ)
    (fragments : List XFragmentNetworkPointer) : Option (List XFragmentNetworkPointer) :=
  if 0 < fragcount ∧ u64 (sv.netSize + sv.deathCount) = 0 then none
  else some ((List.range fragcount).foldl (placeFragment sv d fragcount fragsz remain) (0, fragments)).2

theorem placeFragments_eq {sv : Server} (h : u64 (sv.netSize + sv.deathCount) ≠ 0) (d : XIndexData)
    (fragcount : ℕ) (fragsz remain : ℤ) (fragments : List XFragmentNetworkPointer) :
    placeFragments sv d fragcount fragsz remain fragments =
      some ((List.range fragcount).foldl (placeFragment sv d fragcount fragsz remain) (0, fragments)).2 :=
  if_neg fun hzero => h hzero.2

theorem placeFragments_eq_some {sv : Server} {d : XIndexData} {fragcount : ℕ} {fragsz remain : ℤ}
    {fragments placed : List XFragmentNetworkPointer}
    (h : placeFragments sv d fragcount fragsz remain fragments = some placed) :
    ((List.range fragcount).foldl (placeFragment sv d fragcount fragsz remain) (0, fragments)).2 =
      placed := by
  rw [placeFragments] at h
  split_ifs at h
  exact Option.some.inj h

/-- `fragcount`: one fragment for each node the index counts, or a single one. -/
def fragcountOf (netSize sz : ℕ) : ℤ :=
  if sz ≤ netSize ∨ sz ≤ MINIMAL_SIZE_FOR_SPLIT then 1 else cInt netSize

/-- The store and the table afterwards, and the slot of the new container. -/
def serverIndexHandleNewFile (sv : Server) (fs : XFileServer) (fnetidx : XFileNetworkIndex)
    (fc : XRequestFileCreation) (sz : ℕ) : Option (XFileServer × XFileNetworkIndex × ℕ) := do
  let d ← sv.indexData
  let fragcount := fragcountOf sv.netSize sz
  let id := fs.fileCount + 1
  let (fs', file) := xfileserverAddFile fs fc.name id sz (toU64 fragcount)
  let f := xfilenetindexNewFile id (toU64 (fragcount * REDUNDANCY))
  let fragsz := cInt (sz / toU64 fragcount)
  let remain := cInt (sz % toU64 fragcount)
  let placed ← placeFragments sv d fragcount.toNat fragsz remain f.fragments
  return (fs', xfilenetindexAddFile fnetidx { f with fragments := placed }, file)

/-! ## SERVER_INDEX_FANOUT_FRAGMENTS -/

structure FragmentTransmission where
  dest : Address
  packet : XPacket
  raw : List UInt8
  deriving DecidableEq, Repr

def storeOwnFragment (frag : XFragmentNetworkPointer) (bytes : List UInt8) (fc : XFileContainer) :
    XFileContainer :=
  let fr : XFileFragment := ⟨u8 frag.fragment, bytes, frag.size⟩
  if fc.fragments0.fragmentId = 0 then { fc with fragments0 := fr }
  else { fc with fragments1 := fr }

/-- One round of the loop over `f->fragments`, on the container and what `request` makes of the entries
of the other nodes. `server_send_large_buffer_to` takes the size as an `int`. -/
def fanoutEntry {α : Type} (request : XFragmentNetworkPointer → ℕ → FragmentTransmission → α)
    (sv : Server) (d : XIndexData) (baseoffset : ℤ) (buffer : List UInt8) (st : XFileContainer × List α)
    (entry : XFragmentNetworkPointer × ℕ) : Option (XFileContainer × List α) := do
  let (frag, i) := entry
  let offset := baseoffset * ((frag.fragment : ℤ) - 1)
  if frag.nodeId = sv.me.nodeId then
    let buf ← readBuffer buffer offset frag.size
    return (storeOwnFragment frag buf st.1, st.2)
  else
    let pkt := xpacketSendFragment sv (xreqfragcreationNew st.1 frag i)
    let raw ← readBuffer buffer offset (cInt frag.size).toNat
    return (st.1, st.2 ++ [request frag i ⟨d.peerIp frag.nodeId, pkt, raw⟩])

/-- `file` is the slot `StateHandleNewFile.fc` points at. -/
def serverIndexFanout {α : Type} (request : XFragmentNetworkPointer → ℕ → FragmentTransmission → α)
    (sv : Server) (fs : XFileServer) (fnetidx : XFileNetworkIndex) (file : ℕ) (buffer : List UInt8) :
    Option (XFileServer × List α) := do
  let d ← sv.indexData
  let fc ← fs.files[file]?
  let f ← fnetidx.found fc.fileId
  let baseoffset := cInt (fc.size / (f.totalFragments / REDUNDANCY))
  let (fc', requests) ←
    f.fragments.zipIdx.foldlM (fanoutEntry request sv d baseoffset buffer) (fc, [])
  return (fs.update file fun _ => fc', requests)

/-- The loop, where every dial succeeds. -/
def fanoutFragment := fanoutEntry fun _ _ t => t

def serverIndexFanoutFragments := serverIndexFanout fun _ _ t => t

/-! ## SERVER_INDEX_REQUEST_FRAGMENTS -/

/-- `frags`: the entry chosen for each fragment. -/
def selectFragments (sv : Server) (ptr : List XFragmentNetworkPointer) (fragCount : ℤ) :
    List XFragmentNetworkPointer :=
  (List.range fragCount.toNat).map fun i =>
    let n := ptr.getD (i * REDUNDANCY) .zero
    if 0 < sv.deathCount then
      if toU64 fragCount = u64 (sv.netSize * REDUNDANCY) then n
      else if serverIsValidNode sv n.nodeId then n
      else ptr.getD (i * REDUNDANCY + 1) .zero
    else n

/-- What the index sends for a chosen entry: to the gateway itself, or to the
node that holds the fragment. -/
inductive FragmentOrder where
  | useLocal (dest : Address) (packet : XPacket)
  | sendFragment (fileId : ℤ) (fragmentId : ℤ) (deliverTo : Address)
  | requestFragment (dest : Address) (packet : XPacket)
  deriving DecidableEq, Repr

/-- The packet of `xprocedure_send_use_local`. -/
def useLocalPacket (sv : Server) (fragmentId : ℤ) : XPacket :=
  xpacketNew sv TYPE_DECLARE_USE_LOCAL (XDeclareFragmentUseLocal.bytes ⟨toU64 fragmentId⟩) SIZEOF_COMM

def requestFragmentPacket (sv : Server) (fileId fragmentId : ℤ) (deliverTo : Address) : XPacket :=
  xpacketNew sv TYPE_REQUEST_FRAG
    (XDeliverFragmentTo.bytes ⟨toU64 fileId, toU64 fragmentId, deliverTo⟩) (SIZEOF_COMM + 2)

def orderFragment (sv : Server) (d : XIndexData) (fileId deliverTo : ℤ)
    (frag : XFragmentNetworkPointer) : FragmentOrder :=
  let deliverToAddr := d.peerIp (toU64 deliverTo)
  if frag.nodeId = toU64 deliverTo then
    .useLocal deliverToAddr (useLocalPacket sv frag.fragment)
  else if frag.nodeId = sv.me.nodeId then
    .sendFragment fileId frag.fragment deliverToAddr
  else
    .requestFragment (d.peerIp frag.nodeId)
      (requestFragmentPacket sv fileId frag.fragment deliverToAddr)

/-- The entry of the file in the table; `none` is the null pointer the source follows. -/
def serverIndexRequestFragments (sv : Server) (fnetidx : XFileNetworkIndex)
    (fileId fragCount deliverTo : ℤ) : Option (List XFragmentNetworkPointer × List FragmentOrder) := do
  let d ← sv.indexData
  let f ← fnetidx.found (toU64 fileId)
  let frags := selectFragments sv f.fragments fragCount
  return (frags, frags.map (orderFragment sv d fileId deliverTo))

theorem serverIndexRequestFragments_eq {sv : Server} {d : XIndexData} (hd : sv.indexData = some d)
    {net : XFileNetworkIndex} {id : ℕ} (hid : id < 2 ^ 64) {f : XFileInNetwork}
    (hf : net.found id = some f) (fragCount deliverTo : ℤ) :
    serverIndexRequestFragments sv net id fragCount deliverTo =
      some (selectFragments sv f.fragments fragCount,
        (selectFragments sv f.fragments fragCount).map (orderFragment sv d id deliverTo)) := by
  simp only [serverIndexRequestFragments, hd, Option.bind_eq_bind, Option.bind_some,
    toU64_natCast hid, hf]
  rfl

end DSS
