import DistStore.Model.MainLoop

/-! The positions of `sv.index_data->peer_ips` that a pass of the main loop computes, to
read the address there or to write it. -/

namespace DSS

/-- `int i = n - 1` -/
def peerSlot (n : ℕ) : ℤ := cInt (dec64 n)

/-- `server_is_valid_node` -/
def validNodeSlots (sv : Server) (n : ℕ) : List ℤ :=
  if n = 0 ∨ n = sv.me.nodeId then [] else [peerSlot n]

/-! ## SERVER_INDEX_HANDLE_NEW_FILE -/

/-- The inner `while (1)`, by `known_peers - (i + internaloffset)`. -/
def skipSlots (d : XIndexData) (i : ℕ) : ℕ → ℕ → List ℤ
  | 0, _ => []
  | r + 1, internaloffset =>
    ((i + internaloffset : ℕ) : ℤ) ::
      if (d.peerIps.getD (i + internaloffset) Address.zero).port = 0 then
        skipSlots d i r (internaloffset + 1)
      else []

/-- The loop over `tries`, by `known_peers + 1 - tries`. A zero divisor ends the program. -/
def replicaSlots (sv : Server) (node : ℕ) : ℕ → ℕ → ℕ → List ℤ
  | 0, _, _ => []
  | r + 1, tries, j =>
    if j < REDUNDANCY ∧ u64 (sv.netSize + sv.deathCount) ≠ 0 then
      let nid := (node + tries) % u64 (sv.netSize + sv.deathCount) + 1
      validNodeSlots sv nid ++
        replicaSlots sv node r (tries + 1) (if serverIsValidNode sv nid then j + 1 else j)
    else []

def offsetBefore (d : XIndexData) : ℕ → ℕ
  | 0 => 0
  | i + 1 => skipDeadPeers d i (d.knownPeers - (i + offsetBefore d i)) (offsetBefore d i)

def startNode (d : XIndexData) (i : ℕ) : ℕ := i + offsetBefore d (i + 1)

def newFileSlots (sv : Server) (d : XIndexData) (fragcount : ℕ) : List ℤ :=
  (List.range fragcount).flatMap fun i =>
    skipSlots d i (d.knownPeers - (i + offsetBefore d i)) (offsetBefore d i) ++
      replicaSlots sv (startNode d i) (d.knownPeers + 1) 0 0

/-! ## The other sites -/

/-- `SERVER_INDEX_FANOUT_FRAGMENTS` -/
def fanoutSlots (sv : Server) (f : XFileInNetwork) : List ℤ :=
  (f.fragments.filter (·.nodeId ≠ sv.me.nodeId)).map fun e => (e.nodeId : ℤ) - 1

/-- `SERVER_INDEX_REQUEST_FRAGMENTS`, the choice of the entries. -/
def selectSlots (sv : Server) (ptr : List XFragmentNetworkPointer) (fragCount : ℤ) : List ℤ :=
  if 0 < sv.deathCount ∧ toU64 fragCount ≠ u64 (sv.netSize * REDUNDANCY) then
    (List.range fragCount.toNat).flatMap fun i =>
      validNodeSlots sv (ptr.getD (i * REDUNDANCY) .zero).nodeId
  else []

/-- `SERVER_INDEX_REQUEST_FRAGMENTS`, one chosen entry. -/
def orderSlots (sv : Server) (deliverTo : ℤ) (frag : XFragmentNetworkPointer) : List ℤ :=
  (deliverTo - 1) ::
    if frag.nodeId = toU64 deliverTo ∨ frag.nodeId = sv.me.nodeId then [] else [peerSlot frag.nodeId]

def requestSlots (sv : Server) (ptr : List XFragmentNetworkPointer) (fragCount deliverTo : ℤ) :
    List ℤ :=
  selectSlots sv ptr fragCount ++ (selectFragments sv ptr fragCount).flatMap (orderSlots sv deliverTo)

/-- `server_index_save_reported_peer`, for the packets of one report. -/
def reportSlots (ps : List XPacket) : List ℤ :=
  (ps.filter fun p => commType p = TYPE_REPORT_SELF).map fun p => (commSenderId p : ℤ) - 1

/-- `server_healthcheck` -/
def healthSlots (peekZero : Bool) (sv : Server) : List ℤ :=
  if sv.peerB.statusOpen && peekZero && serverIsIndex sv then [peerSlot sv.peerB.nodeId] else []

/-- The packet of `peer_b`, after a health check that found nothing, is a notice to an
index, and the program survives it. -/
def IndexTakesNotice (io : PassIo) (sv : Server) : Prop :=
  sv.peerB.statusOpen = true ∧ io.peekZero = false ∧ serverIsIndex sv = true ∧
    commType (serverWaitFromSocket io.peerB) = TYPE_PEER_DIED ∧
    (xprocedureCheckPeerB io.dial sv (serverWaitFromSocket io.peerB)).isSome

instance (io : PassIo) (sv : Server) : Decidable (IndexTakesNotice io sv) :=
  inferInstanceAs (Decidable (_ ∧ _ ∧ _ ∧ _ ∧ _))

def noticeId (io : PassIo) : ℕ := (XPeerDied.ofContent (content (serverWaitFromSocket io.peerB))).peerId

/-- `xprocedure_check_peer_b` -/
def noticeSlots (io : PassIo) (sv : Server) : List ℤ :=
  if IndexTakesNotice io sv then [peerSlot (noticeId io)] else []

namespace MainLoop

/-- The waiting index accepts a connection that identifies itself, and answers it. -/
def TakesReport (io : PassIo) : Prop :=
  io.accept.isSome ∧ io.sent = true ∧
    serverWaitClientPresentation (serverWaitFromSocket (io.conn.headD none)) ≠ 0

instance (io : PassIo) : Decidable (TakesReport io) := inferInstanceAs (Decidable (_ ∧ _ ∧ _))

/-- Every position a pass computes, the index's printout of its table aside. -/
def passSlots (io : PassIo) (st : MainLoop) : List ℤ :=
  match st.sv.state, st.sv.indexData with
  | .idle, _ => healthSlots io.peekZero st.sv ++ noticeSlots io st.sv
  | .indexWaitingPeersKnowledge, some _ =>
    if TakesReport io then reportSlots (knowledgePackets io.conn.tail) else []
  | .indexHandleNewFile, some d =>
    newFileSlots st.sv d (fragcountOf st.sv.netSize st.raw.totalSize).toNat
  | .indexFanoutFragments, some _ =>
    ((st.node.fs.files[st.file]?.bind fun fc => st.node.fnetidx.found fc.fileId).map
      (fanoutSlots st.sv)).getD []
  | .indexRequestFragments, some _ =>
    ((st.node.fnetidx.found (toU64 st.requested.fileId)).map fun f =>
      requestSlots st.sv f.fragments st.requested.fragmentCount (cInt st.deliverTo)).getD []
  | _, _ => []

def tableSize (st : MainLoop) : ℕ := (st.sv.indexData.map fun d => d.peerIps.length).getD 0

/-- Every position a pass computes lies in the table. -/
def TableInRange (io : PassIo) (st : MainLoop) : Prop :=
  ∀ i ∈ passSlots io st, 0 ≤ i ∧ i < tableSize st

instance (io : PassIo) (st : MainLoop) : Decidable (TableInRange io st) :=
  inferInstanceAs (Decidable (∀ i ∈ passSlots io st, _))

end MainLoop

/-! ## The memory of a new table -/

/-- What `malloc` returned for `xIndexData` and for `peer_ips`. -/
structure IndexMemory where
  knownPeers : ℕ
  peerIps : ℕ → Address

def allocIndexDataIn (mem : IndexMemory) (sv : Server) : Server :=
  { sv with indexData := some ⟨(List.range sv.netSize).map mem.peerIps, mem.knownPeers⟩ }

def serverBeginIndexIn (mem : IndexMemory) (nd : Node) : Option Node := do
  let (fs, fnetidx) ← nd.fs.files.foldlM
    (fun st f => xprocedureSaveFileToIndex st.1 st.2 (reportOf nd.sv.me.nodeId f)) (nd.fs, nd.fnetidx)
  return ⟨serverSetState (allocIndexDataIn mem nd.sv) .indexPresentItself, fs, fnetidx⟩

/-- On zeroed `peer_ips` it is the begin of the other models. -/
theorem serverBeginOperation_eq_in {knownPeers : ℕ} {nd : Node} (h : nd.sv.netSize = nd.sv.me.nodeId) :
    serverBeginOperation knownPeers nd =
      serverBeginIndexIn ⟨knownPeers, fun _ => Address.zero⟩ nd := by
  have hsv : beginServer knownPeers nd.sv = serverSetState
      (allocIndexDataIn ⟨knownPeers, fun _ => Address.zero⟩ nd.sv) .indexPresentItself := by
    rw [beginServer, if_pos h, allocIndexData, allocIndexDataIn, List.map_const', List.length_range]
  rw [serverBeginOperation, if_pos h, serverBeginIndexIn, hsv]

/-! ## All nodes -/

/-- The nodes of the ring, each at the head of its loop; one of them makes its next pass. -/
def nodesStep (s : ℕ → MainLoop) (a : ℕ × PassIo) : Option (ℕ → MainLoop) :=
  ((s a.1).pass a.2).map fun st => Function.update s a.1 st

/-- Every node has been started and has nothing; `index` is what its stack held. -/
def Cluster.Started (c : Cluster) (s : ℕ → MainLoop) : Prop :=
  ∀ n, 1 ≤ n → n ≤ c.N → ∃ index,
    (s n).node = ⟨serverInit (c.args n) index, xfileserverInit, xfilenetindexInit⟩

end DSS
