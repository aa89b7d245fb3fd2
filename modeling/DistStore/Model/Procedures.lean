import DistStore.Model.Gateway

/-! `lib/machine/procedures.c`: the death of a peer, and the index's rebuild of its
table from reports. `dial` says what `tcp_open` returns for an address. -/

namespace DSS

/-! ## Deaths -/

def serverDialPeer (dial : Address → Option ℕ) (sv : Server) : Server :=
  match dial sv.peerF.ip with
  | none => sv
  | some fd => { sv with peerF := { sv.peerF with streamFd := some fd, statusOpen := true } }

/-- What a handler leaves: the node, and the packet it wrote to `peer_f`. -/
structure Handled where
  sv : Server
  sent : Option XPacket
  deriving DecidableEq, Repr

def xprocedurePeerDiedForward (sv : Server) (p : XPacket) : XPacket :=
  setCommSender sv.me.nodeId p

/-- It decrements `net_size` once more after the notice went out. -/
def xprocedurePeerDiedNotify (sv : Server) : Handled :=
  let p := xpacketPeerDead sv sv.peerB.nodeId
  ⟨{ sv with netSize := dec64 sv.netSize }, some (xprocedurePeerDiedForward sv p)⟩

/-- `server_healthcheck` when the peek of `peer_b` returned zero. -/
def serverHealthcheckDead (sv : Server) : Handled :=
  let sv1 := { sv with
    peerB := { sv.peerB with statusOpen := false }
    netSize := dec64 sv.netSize
    deathCount := inc64 sv.deathCount }
  let ⟨sv2, sent⟩ := xprocedurePeerDiedNotify sv1
  let sv3 :=
    if serverIsIndex sv2 then
      { sv2 with indexData := sv2.indexData.map (forgetPeer sv2.peerB.nodeId) }
    else sv2
  ⟨serverSetState sv3 .waitingNewPeer, sent⟩

/-- The node and the notice after a healthcheck that found `peer_b` dead. -/
theorem serverHealthcheckDead_eq (sv : Server) :
    serverHealthcheckDead sv =
      ⟨{ sv with
          peerB := { sv.peerB with statusOpen := false }
          state := .waitingNewPeer
          netSize := dec64 (dec64 sv.netSize)
          deathCount := inc64 sv.deathCount
          indexData := if serverIsIndex sv then sv.indexData.map (forgetPeer sv.peerB.nodeId)
            else sv.indexData },
       some (setCommSender sv.me.nodeId (xpacketPeerDead sv sv.peerB.nodeId))⟩ := by
  by_cases hi : sv.index.nodeId = sv.me.nodeId <;>
    simp [serverHealthcheckDead, xprocedurePeerDiedNotify, xprocedurePeerDiedForward,
      serverSetState, serverIsIndex, xpacketPeerDead, hi]

/-- `TYPE_PEER_DIED`, first half: the dead peer is the neighbour, or the notice goes
on. The remainder by `net_size` faults when that is zero. -/
def peerDiedNeighbour (dial : Address → Option ℕ) (sv : Server) (p : XPacket) : Option Handled :=
  let c := XPeerDied.ofContent (content p)
  if sv.peerF.nodeId = c.peerId then
    if sv.netSize = 0 then none
    else some ⟨serverDialPeer dial { sv with peerF :=
      { sv.peerF with
        statusOpen := false
        ip := c.senderAddress
        nodeId := u64 (sv.me.nodeId + 1) % sv.netSize } }, none⟩
  else some ⟨sv, some (xprocedurePeerDiedForward sv p)⟩

/-- The neighbour's replacement leaves the counters and the index alone. -/
theorem peerDiedNeighbour_frame {dial : Address → Option ℕ} {sv : Server} {p : XPacket}
    {r : Handled} (h : peerDiedNeighbour dial sv p = some r) :
    r.sv.me = sv.me ∧ r.sv.peerB = sv.peerB ∧ r.sv.netSize = sv.netSize ∧
      r.sv.deathCount = sv.deathCount ∧ r.sv.index = sv.index ∧ r.sv.indexData = sv.indexData := by
  simp only [peerDiedNeighbour] at h
  split_ifs at h
  · obtain rfl := Option.some.inj h
    simp only [serverDialPeer]
    split <;> simp
  · obtain rfl := Option.some.inj h
    simp

/-- Second half: the index forgets the address, the others look for a new index. -/
def peerDiedIndex (sv : Server) (deadId : ℕ) : Server :=
  if serverIsIndex sv then { sv with indexData := sv.indexData.map (forgetPeer deadId) }
  else if deadId = sv.index.nodeId then serverSetState sv .beginOperation
  else sv

def xprocedureCheckPeerB (dial : Address → Option ℕ) (sv : Server) (p : XPacket) :
    Option Handled :=
  if commType p = TYPE_PEER_DIED then do
    let counted := { sv with netSize := dec64 sv.netSize, deathCount := inc64 sv.deathCount }
    let ⟨sv', sent⟩ ← peerDiedNeighbour dial counted p
    return ⟨peerDiedIndex sv' (XPeerDied.ofContent (content p)).peerId, sent⟩
  else some ⟨sv, none⟩

/-! ## Reports -/

/-- The report of a container, as `SERVER_BEGIN_OPERATION` and
`SERVER_REPORT_KNOWLEDGE_TO_INDEX` both build it. -/
def reportOf (nodeId : ℕ) (f : XFileContainer) : XReportFileKnowledge :=
  let entry (fr : XFileFragment) : XFragmentNetworkPointer :=
    if fr.fragmentId ≠ 0 then ⟨fr.fragmentId, fr.fragmentSize, nodeId⟩ else .zero
  { fileName := f.fileName
    fileSize := f.size
    fileId := f.fileId
    fragCount := f.fragmentCountTotal
    fragments0 := entry f.fragments0
    fragments1 := entry f.fragments1 }

/-- `fni->fragments[i] = e` -/
def setEntry (fragments : List XFragmentNetworkPointer) (i : ℕ) (e : XFragmentNetworkPointer) :
    Option (List XFragmentNetworkPointer) :=
  if i < fragments.length then some (fragments.set i e) else none

/-- Where `xprocedure_save_file_to_index` writes the two entries of a report. -/
def saveEntries (r : XReportFileKnowledge) (fragments : List XFragmentNetworkPointer) :
    Option (List XFragmentNetworkPointer) :=
  let frags0 : ℤ := r.fragments0.fragment
  let frags1 : ℤ := r.fragments1.fragment
  let first := fragments.getD 0 .zero
  let border (fragments : List XFragmentNetworkPointer) := do
    setEntry (← setEntry fragments 0 r.fragments0) (toU64 (r.fragCount * REDUNDANCY - 1))
      r.fragments1
  if r.fragCount = 1 then
    if first.fragment ≠ 0 then
      if first.nodeId < r.fragments0.nodeId then setEntry fragments 1 r.fragments0
      else do setEntry (← setEntry fragments 1 first) 0 r.fragments0
    else setEntry fragments 0 r.fragments0
  else if frags1 - frags0 > 1 then border fragments
  else if r.fragCount = 2 ∧ first.fragment = 0 then border fragments
  else do
    let place := toU64 ((frags1 - 1) * REDUNDANCY)
    setEntry (← setEntry fragments (toU64 ((place : ℤ) - 1)) r.fragments0) place r.fragments1

/-- A file the index does not know is created in the table and in its own store. -/
def xprocedureSaveFileToIndex (fs : XFileServer) (fnetidx : XFileNetworkIndex)
    (r : XReportFileKnowledge) : Option (XFileServer × XFileNetworkIndex) := do
  let fnetidx :=
    if xfilenetindexFindFile fnetidx r.fileId = none then
      xfilenetindexAddFile fnetidx (xfilenetindexNewFile r.fileId (r.fragCount * REDUNDANCY))
    else fnetidx
  let fs :=
    if xfileserverFindFile fs r.fileId = none then
      (xfileserverAddFile fs r.fileName r.fileId r.fileSize r.fragCount).1
    else fs
  let slot ← xfilenetindexFindFile fnetidx r.fileId
  let fni ← fnetidx.files[slot]?
  let fragments ← saveEntries r fni.fragments
  return (fs, fnetidx.update slot fun f => { f with fragments := fragments })

end DSS
