import DistStore.Proofs.TableInvariant

/-! The accesses to the peer table stay in it, along the runs of all nodes: exactly as long
as no pass is of one of the kinds that leave it. -/

namespace DSS

open Transition

namespace MainLoop

/-- What a pass is given comes from the nodes `1..N` and from clients. -/
@[mk_iff]
structure Conforming (N : ℕ) (io : PassIo) (st : MainLoop) : Prop where
  requests : st.sv.state = .idle → RequestsConform N io
  notice : st.sv.state = .idle → IndexTakesNotice io st.sv → 1 ≤ noticeId io ∧ noticeId io ≤ N
  reports : st.sv.state = .indexWaitingPeersKnowledge → TakesReport io → ReportsConform N io st

/-- The entry that names the holder of fragment `i`, or the one after it, names a node. -/
def HolderNamed (sv : Server) (ptr : List XFragmentNetworkPointer) (fragCount : ℤ) (i : ℕ) : Prop :=
  if 0 < sv.deathCount ∧ toU64 fragCount ≠ u64 (sv.netSize * REDUNDANCY) then
    serverIsValidNode sv (ptr.getD (i * REDUNDANCY) .zero).nodeId = true ∨
      (ptr.getD (i * REDUNDANCY + 1) .zero).nodeId ≠ 0
  else (ptr.getD (i * REDUNDANCY) .zero).nodeId ≠ 0

/-- The pass is of none of the kinds that leave the table. -/
@[mk_iff]
structure CleanPass (io : PassIo) (st : MainLoop) : Prop where
  /-- The table of a new index counts its peers from zero. -/
  memory : FreshTable io st
  /-- An index that finds its peer dead is not the first node. -/
  health : st.sv.state = .idle →
    st.sv.peerB.statusOpen = true ∧ io.peekZero = true ∧ serverIsIndex st.sv = true →
    st.sv.indexData.isSome = true ∧ st.sv.me.nodeId ≠ 1
  /-- No node after the index is said to be dead. -/
  notice : st.sv.state = .idle → IndexTakesNotice io st.sv →
    st.sv.indexData.isSome = true ∧ noticeId io ≤ st.sv.me.nodeId
  /-- No node after the index reports. -/
  reports : st.sv.state = .indexWaitingPeersKnowledge → TakesReport io →
    ReportersBefore st.sv.me.nodeId io
  /-- A new file fits the peers. -/
  newFile : st.sv.state = .indexHandleNewFile → ∀ d ∈ st.sv.indexData,
    FitsPeers st.sv d (fragcountOf st.sv.netSize st.raw.totalSize).toNat
  /-- Every entry was given a node. -/
  fanout : st.sv.state = .indexFanoutFragments → st.sv.indexData.isSome = true →
    ∀ f ∈ st.node.fs.files[st.file]?.bind fun fc => st.node.fnetidx.found fc.fileId,
      ∀ e ∈ f.fragments, e.nodeId ≠ 0
  /-- A request comes through a node, up to the index, and each fragment has a holder. -/
  request : st.sv.state = .indexRequestFragments → st.sv.indexData.isSome = true →
    ∀ f ∈ st.node.fnetidx.found (toU64 st.requested.fileId),
      ∀ i < st.requested.fragmentCount.toNat, st.deliverTo ≤ st.sv.me.nodeId ∧
        HolderNamed st.sv f.fragments st.requested.fragmentCount i

instance (N : ℕ) (io : PassIo) (st : MainLoop) : Decidable (Conforming N io st) :=
  decidable_of_iff' _ (conforming_iff N io st)

instance (sv : Server) (ptr : List XFragmentNetworkPointer) (fragCount : ℤ) (i : ℕ) :
    Decidable (HolderNamed sv ptr fragCount i) :=
  inferInstanceAs (Decidable (ite (_ ∧ _) (_ ∨ _) (_ ≠ _)))

instance (io : PassIo) (st : MainLoop) : Decidable (CleanPass io st) :=
  decidable_of_iff' _ (cleanPass_iff io st)

variable {N n : ℕ} {st st' : MainLoop} {io : PassIo}

theorem TableInv.pass (h : TableInv N n st) (hN : N < 2 ^ 31) (h1 : 1 ≤ n) (hn : n ≤ N)
    (hconform : Conforming N io st) (hclean : CleanPass io st)
    (hpass : MainLoop.pass io st = some st') : TableInv N n st' := by
  cases hstate : st.sv.state with
  | booting => exact h.booting hstate hpass
  | connecting => exact h.connecting hstate hpass
  | beginOperation =>
    exact h.beginOperation hstate hclean.memory hpass
  | idle =>
    exact h.idle hstate (hconform.requests hstate) hpass
  | receivedPacket => exact h.receivedPacket hstate hpass
  | waitingRawPackets => exact h.waitingRawPackets hstate hpass
  | receivedFragment => exact h.receivedFragment hstate hpass
  | waitRequestFragments => exact h.waitRequestFragments hstate hpass
  | indexPresentItself => exact h.presentItself (by omega) hstate hpass
  | indexWaitingPeersKnowledge =>
    exact h.waitingPeersKnowledge hN h1 hn hstate (hconform.reports hstate)
      (h.me ▸ hclean.reports hstate) hpass
  | indexHandleNewFile => exact h.handleNewFile hstate hpass
  | indexFanoutFragments => exact h.fanoutFragments hstate hpass
  | indexRequestFragments => exact h.requestFragments hstate hpass
  | waitIndexGossip => exact h.waitIndexGossip hstate hpass
  | reportKnowledgeToIndex => exact h.reportKnowledge hstate hpass
  | waitingNewPeer => exact h.waitingNewPeer hstate hpass

/-! ## What leaves the table -/

theorem TableInv.tableSize_some (h : TableInv N n st) {d : XIndexData}
    (hd : st.sv.indexData = some d) : st.tableSize = n := by
  rw [tableSize, hd, Option.map_some, Option.getD_some, h.length d hd]

theorem TableInv.inTable_peerSlot (h : TableInv N n st) (hN : N < 2 ^ 31) {m : ℕ} (h1 : 1 ≤ m)
    (hm : m ≤ N) :
    InTable st.tableSize (peerSlot m) ↔ st.sv.indexData.isSome = true ∧ m ≤ st.sv.me.nodeId := by
  rw [DSS.inTable_peerSlot h1 (by omega), h.me]
  rcases hd : st.sv.indexData with _ | d
  · simp only [tableSize, hd, Option.map_none, Option.getD_none, Option.isSome_none,
      Bool.false_eq_true, false_and, iff_false]
    omega
  · rw [h.tableSize_some hd]
    simp

theorem TableInv.inRange_idle {c : Cluster} (h : TableInv c.N n st) (h1 : 1 ≤ n) (hn : n ≤ c.N)
    (hstate : st.sv.state = .idle) (hconform : Conforming c.N io st) :
    TableInRange io st ↔ CleanPass io st := by
  have h2 := c.two_le
  have hN := c.N_lt
  simp only [TableInRange, cleanPass_iff, FreshTable, passSlots, hstate, List.forall_mem_append,
    true_imp_iff, reduceCtorEq, false_imp_iff, and_true, true_and]
  refine and_congr ?_ ?_
  · have hpos : 1 ≤ st.sv.peerB.nodeId ∧ st.sv.peerB.nodeId ≤ c.N ∧
        (st.sv.peerB.nodeId ≤ st.sv.me.nodeId ↔ st.sv.me.nodeId ≠ 1) := by
      rw [h.peerB, c.backwardId_eq_if h1 hn, h.me]
      split_ifs <;> omega
    have hslot := h.inTable_peerSlot hN hpos.1 hpos.2.1
    rw [InTable, hpos.2.2] at hslot
    rw [healthSlots]
    by_cases hdead : st.sv.peerB.statusOpen = true ∧ io.peekZero = true ∧ serverIsIndex st.sv = true
    · simpa [hdead] using hslot
    · rw [if_neg (by simpa [and_assoc] using hdead)]
      simp [hdead]
  · rw [noticeSlots]
    split_ifs with hnotice
    · obtain ⟨hpos, hle⟩ := hconform.notice hstate hnotice
      have hslot := h.inTable_peerSlot hN hpos hle
      rw [InTable] at hslot
      simpa [hnotice] using hslot
    · simp [hnotice]

theorem TableInv.inRange_waiting (h : TableInv N n st)
    (hstate : st.sv.state = .indexWaitingPeersKnowledge) (hconform : Conforming N io st) :
    TableInRange io st ↔ CleanPass io st := by
  obtain ⟨-, -, d, hd, -⟩ := h.gathers hstate
  simp only [TableInRange, cleanPass_iff, FreshTable, passSlots, hstate, hd, h.tableSize_some hd, h.me,
    true_imp_iff, reduceCtorEq, false_imp_iff, and_true, true_and]
  split_ifs with htakes
  · obtain ⟨-, hids, -⟩ := hconform.reports hstate htakes
    simp only [reportSlots, List.forall_mem_map, List.mem_filter, decide_eq_true_eq, htakes,
      forall_const, ReportersBefore, and_imp]
    refine forall₂_congr fun p hp => forall_congr' fun hself => ?_
    have := (hids p hp hself).1
    omega
  · simp [htakes]

theorem TableInv.inRange_newFile (h : TableInv N n st) (hN : N < 2 ^ 31) (h1 : 1 ≤ n) (hn : n ≤ N)
    (hstate : st.sv.state = .indexHandleNewFile) : TableInRange io st ↔ CleanPass io st := by
  rcases hd : st.sv.indexData with _ | d
  · simp [TableInRange, cleanPass_iff, FreshTable, passSlots, hstate, hd]
  · have hknown := h.known (by rw [hstate]; decide) d hd
    simp only [TableInRange, cleanPass_iff, FreshTable, passSlots, hstate, hd, h.tableSize_some hd, true_imp_iff,
      reduceCtorEq, false_imp_iff, and_true, true_and, Option.mem_def, Option.some.injEq,
      Option.isSome_some, forall_eq']
    exact newFileSlots_inTable_iff h.me h1 (by omega) hd hknown _

theorem TableInv.inRange_fanout (h : TableInv N n st) (h1 : 1 ≤ n)
    (hstate : st.sv.state = .indexFanoutFragments) : TableInRange io st ↔ CleanPass io st := by
  rcases hd : st.sv.indexData with _ | d
  · simp [TableInRange, cleanPass_iff, FreshTable, passSlots, hstate, hd]
  · simp only [TableInRange, cleanPass_iff, FreshTable, passSlots, hstate, hd, h.tableSize_some hd, true_imp_iff,
      reduceCtorEq, false_imp_iff, and_true, true_and, Option.mem_def, Option.isSome_some]
    rcases hf : st.node.fs.files[st.file]?.bind fun fc => st.node.fnetidx.found fc.fileId with _ | f
    · simp
    · obtain ⟨fc, -, hfound⟩ := Option.bind_eq_some_iff.mp hf
      rw [XFileNetworkIndex.found_eq] at hfound
      have hle := h.entries f (Keyed.mem_of_get hfound)
      simp only [Option.map_some, Option.getD_some, fanoutSlots, List.forall_mem_map,
        List.mem_filter, decide_eq_true_eq, h.me, Option.some.injEq, forall_eq', and_imp]
      refine forall₂_congr fun e he => ?_
      have := hle e he
      omega

/-! ## SERVER_INDEX_REQUEST_FRAGMENTS -/

def chosenEntry (sv : Server) (ptr : List XFragmentNetworkPointer) (fragCount : ℤ) (i : ℕ) :
    XFragmentNetworkPointer :=
  if 0 < sv.deathCount ∧ toU64 fragCount ≠ u64 (sv.netSize * REDUNDANCY) ∧
      serverIsValidNode sv (ptr.getD (i * REDUNDANCY) .zero).nodeId = false then
    ptr.getD (i * REDUNDANCY + 1) .zero
  else ptr.getD (i * REDUNDANCY) .zero

theorem selectFragments_eq (sv : Server) (ptr : List XFragmentNetworkPointer) (fragCount : ℤ) :
    selectFragments sv ptr fragCount =
      (List.range fragCount.toNat).map (chosenEntry sv ptr fragCount) := by
  refine List.map_congr_left fun i _ => ?_
  simp only [chosenEntry]
  split_ifs <;> simp_all

theorem holderNamed_iff (sv : Server) (ptr : List XFragmentNetworkPointer) (fragCount : ℤ) (i : ℕ) :
    HolderNamed sv ptr fragCount i ↔ (chosenEntry sv ptr fragCount i).nodeId ≠ 0 := by
  have hvalid : serverIsValidNode sv (ptr.getD (i * REDUNDANCY) .zero).nodeId = true →
      (ptr.getD (i * REDUNDANCY) .zero).nodeId ≠ 0 := by
    intro h h0
    rw [h0] at h
    exact absurd h (by simp [serverIsValidNode])
  rw [HolderNamed, chosenEntry]
  by_cases hdeath : 0 < sv.deathCount ∧ toU64 fragCount ≠ u64 (sv.netSize * REDUNDANCY)
  · by_cases hv : serverIsValidNode sv (ptr.getD (i * REDUNDANCY) .zero).nodeId = true
    · simp only [hdeath, hv, hvalid hv, ne_eq, not_false_eq_true, and_self, if_true, true_or,
        Bool.true_eq_false, and_false, if_false]
    · simp only [hdeath, hv, ne_eq, not_false_eq_true, and_self, if_true, false_or,
        Bool.false_eq_true]
  · rw [if_neg hdeath, if_neg fun h => hdeath ⟨h.1, h.2.1⟩]

theorem getD_upTo {ptr : List XFragmentNetworkPointer} (hptr : ∀ e ∈ ptr, e.nodeId ≤ n) (k : ℕ) :
    (ptr.getD k .zero).nodeId ≤ n := by
  rw [List.getD_eq_getElem?_getD]
  rcases hk : ptr[k]? with _ | e
  · exact Nat.zero_le n
  · exact hptr e (List.mem_of_getElem? hk)

theorem chosenEntry_upTo {sv : Server} {ptr : List XFragmentNetworkPointer}
    (hptr : ∀ e ∈ ptr, e.nodeId ≤ n) (fragCount : ℤ) (i : ℕ) :
    (chosenEntry sv ptr fragCount i).nodeId ≤ n := by
  rw [chosenEntry]
  split_ifs
  · exact getD_upTo hptr _
  · exact getD_upTo hptr _

theorem inTable_selectSlots (sv : Server) (hn : n < 2 ^ 31) {ptr : List XFragmentNetworkPointer}
    (hptr : ∀ e ∈ ptr, e.nodeId ≤ n) (fragCount : ℤ) :
    ∀ s ∈ selectSlots sv ptr fragCount, InTable n s := by
  intro s hs
  rw [selectSlots] at hs
  split_ifs at hs
  · obtain ⟨i, -, hs⟩ := List.mem_flatMap.mp hs
    exact inTable_validNodeSlots hn (getD_upTo hptr _) hs
  · exact absurd hs List.not_mem_nil

theorem peerSlot_zero : peerSlot 0 = -1 := by decide

/-- One order stays in the table if the requester is in it and the entry names a node. -/
theorem inTable_orderSlots {sv : Server} (hme : sv.me.nodeId = n) (hN : N < 2 ^ 31) (h1 : 1 ≤ n)
    (hn : n ≤ N) {deliverTo : ℕ} (hdeliver : FromNodeOrClient N deliverTo)
    {frag : XFragmentNetworkPointer} (hfrag : frag.nodeId ≤ n) :
    (∀ s ∈ orderSlots sv (cInt deliverTo) frag, InTable n s) ↔ deliverTo ≤ n ∧ frag.nodeId ≠ 0 := by
  have hrequester : InTable n (cInt deliverTo - 1) ↔ deliverTo ≤ n := by
    rcases hdeliver with ⟨hpos, hle⟩ | rfl
    · rw [cInt_of_lt (by omega), InTable]
      omega
    · have hclient : cInt CLIENT_NODE_ID = -1 := by decide
      rw [hclient, InTable, CLIENT_NODE_ID]
      omega
  rw [orderSlots, List.forall_mem_cons, hrequester]
  refine and_congr_right fun hle => ?_
  have hcast : toU64 (cInt deliverTo) = deliverTo := by
    rw [cInt_of_lt (by omega), toU64_natCast (by omega)]
  have hpos : 1 ≤ deliverTo := by
    rcases hdeliver with ⟨hpos, -⟩ | rfl
    · exact hpos
    · decide
  rw [hcast, hme]
  split_ifs with hown
  · simp only [List.not_mem_nil, false_imp_iff, implies_true, true_iff]
    omega
  · rw [List.forall_mem_singleton]
    by_cases h0 : frag.nodeId = 0
    · rw [h0, peerSlot_zero, InTable]
      omega
    · rw [DSS.inTable_peerSlot (by omega) (by omega)]
      omega

theorem TableInv.inRange_request (h : TableInv N n st) (hN : N < 2 ^ 31) (h1 : 1 ≤ n) (hn : n ≤ N)
    (hstate : st.sv.state = .indexRequestFragments) : TableInRange io st ↔ CleanPass io st := by
  rcases hd : st.sv.indexData with _ | d
  · simp [TableInRange, cleanPass_iff, FreshTable, passSlots, hstate, hd]
  · simp only [TableInRange, cleanPass_iff, FreshTable, passSlots, hstate, hd, h.tableSize_some hd, true_imp_iff,
      reduceCtorEq, false_imp_iff, true_and, Option.mem_def, Option.isSome_some]
    rcases hf : st.node.fnetidx.found (toU64 st.requested.fileId) with _ | f
    · simp
    · rw [XFileNetworkIndex.found_eq] at hf
      have hle := h.entries f (Keyed.mem_of_get hf)
      have hselect := inTable_selectSlots st.sv (by omega) hle st.requested.fragmentCount
      have hdeliver := h.deliverTo hstate
      simp only [Option.map_some, Option.getD_some, requestSlots, List.forall_mem_append,
        Option.some.injEq, forall_eq', h.me, selectFragments_eq, List.flatMap_map,
        List.forall_mem_flatMap, List.mem_range, holderNamed_iff]
      refine (and_iff_right hselect).trans (forall₂_congr fun i _ => ?_)
      exact inTable_orderSlots h.me hN h1 hn hdeliver (chosenEntry_upTo hle _ i)

theorem TableInv.inRange_iff {c : Cluster} (h : TableInv c.N n st) (h1 : 1 ≤ n) (hn : n ≤ c.N)
    (hconform : Conforming c.N io st) (hfresh : FreshTable io st) :
    TableInRange io st ↔ CleanPass io st := by
  have hN := c.N_lt
  cases hstate : st.sv.state with
  | idle => exact h.inRange_idle h1 hn hstate hconform
  | indexWaitingPeersKnowledge => exact h.inRange_waiting hstate hconform
  | indexHandleNewFile => exact h.inRange_newFile hN h1 hn hstate
  | indexFanoutFragments => exact h.inRange_fanout h1 hstate
  | indexRequestFragments => exact h.inRange_request hN h1 hn hstate
  | beginOperation => simp [TableInRange, cleanPass_iff, passSlots, hstate, hfresh]
  | _ => simp [TableInRange, cleanPass_iff, FreshTable, passSlots, hstate]

theorem TableInv.started {c : Cluster} {index : XPeerConnection}
    (hst : st.node = ⟨serverInit (c.args n) index, xfileserverInit, xfilenetindexInit⟩) :
    TableInv c.N n st := by
  have hsv : st.sv = serverInit (c.args n) index := congrArg Node.sv hst
  have hbooting : st.sv.state = .booting := by rw [hsv]; rfl
  have hnone : st.sv.indexData = none := by rw [hsv]; rfl
  exact {
    me := by rw [hsv]; rfl
    peerB := by rw [hsv]; rfl
    length := fun d hd => absurd (hnone.symm.trans hd) (by simp)
    known := fun _ d hd => absurd (hnone.symm.trans hd) (by simp)
    presents := fun hp => absurd (hbooting.symm.trans hp) (by decide)
    gathers := fun hg => absurd (hbooting.symm.trans hg) (by decide)
    entries := fun f hf => absurd hf (by rw [hst]; exact List.not_mem_nil)
    packet := fun hp => absurd (hbooting.symm.trans hp) (by decide)
    deliverTo := fun hd => absurd (hbooting.symm.trans hd) (by decide) }

end MainLoop

/-! ## Runs of all nodes -/

def ConformingPass (N : ℕ) (a : ℕ × PassIo) (s : ℕ → MainLoop) : Prop :=
  1 ≤ a.1 ∧ a.1 ≤ N ∧ (s a.1).Conforming N a.2

instance (N : ℕ) (a : ℕ × PassIo) (s : ℕ → MainLoop) : Decidable (ConformingPass N a s) :=
  inferInstanceAs (Decidable (_ ∧ _ ∧ _))

/-- Along every conforming run of the nodes from their start whose passes are all clean, every
access to a peer table is in range; and where every new table counts from zero, only along those. -/
theorem peer_table_in_range_of_clean {c : Cluster} {s : ℕ → MainLoop} (hs : c.Started s)
    {as : List (ℕ × PassIo)} (has : Along nodesStep (ConformingPass c.N) s as) :
    (Along nodesStep (fun a s => (s a.1).CleanPass a.2) s as →
      Along nodesStep (fun a s => (s a.1).TableInRange a.2) s as) ∧
    (Along nodesStep (fun a s => (s a.1).FreshTable a.2) s as →
      (Along nodesStep (fun a s => (s a.1).TableInRange a.2) s as ↔
        Along nodesStep (fun a s => (s a.1).CleanPass a.2) s as)) := by
  have hN := c.N_lt
  have hiff : Along nodesStep (fun a s => (s a.1).FreshTable a.2) s as →
      (Along nodesStep (fun a s => (s a.1).TableInRange a.2) s as ↔
        Along nodesStep (fun a s => (s a.1).CleanPass a.2) s as) := by
    intro hfresh
    refine along_iff (I := fun s => ∀ n, 1 ≤ n → n ≤ c.N → MainLoop.TableInv c.N n (s n))
      ?_ ?_ ?_ (along_and.mpr ⟨has, hfresh⟩)
    · rintro s a hI ⟨⟨h1, hn, hconform⟩, hfresh⟩
      exact (hI a.1 h1 hn).inRange_iff h1 hn hconform hfresh
    · rintro s a s' hI ⟨⟨h1, hn, hconform⟩, -⟩ hclean hstep
      obtain ⟨st, hst, rfl⟩ := Option.map_eq_some_iff.mp hstep
      intro m hm1 hmN
      by_cases hm : m = a.1
      · subst hm
        rw [Function.update_self]
        exact (hI a.1 h1 hn).pass hN h1 hn hconform hclean hst
      · rw [Function.update_of_ne hm]
        exact hI m hm1 hmN
    · intro n h1 hn
      obtain ⟨index, hst⟩ := hs n h1 hn
      exact .started hst
  refine ⟨?_, hiff⟩
  intro hclean
  exact (hiff (along_imp (fun a s h => h.memory) hclean)).mpr hclean

/-! ## Three nodes -/

def startedNode (n : ℕ) : MainLoop :=
  { servingNode with
    node := ⟨serverInit (Cluster.three.args n) ⟨0, Address.zero, none, false⟩, xfileserverInit,
      xfilenetindexInit⟩ }

theorem three_started : Cluster.three.Started startedNode := fun _ _ _ => ⟨_, rfl⟩

/-- Connection `fd` is accepted, and `conn` arrives on it. -/
def connectionIo (fd : ℕ) (conn : List Recv) : PassIo :=
  { passIo false none none (some fd) with conn := conn }

/-- What node `n` sends the new index when it stores nothing. -/
def emptyReport (n : ℕ) : List Recv :=
  (xpacketPresentation (Cluster.three.bootedServer n) ::
    (reportPackets (Cluster.three.bootedServer n) xfileserverInit ++
      [xpacketOk (Cluster.three.bootedServer n)])).map some

def clientPacket (type : ℕ) (content : List UInt8) : XPacket :=
  commPacket 0 CLIENT_NODE_ID type content SIZEOF_COMM

/-- Node 3 starts, and the two others report to it. A client connects to it and stores
three bytes. -/
def storeAtIndex : List PassIo :=
  [passIo false none none none, passIo false none none (some 5), passIo false none none none,
    passIo false none none none, connectionIo 6 (emptyReport 1), connectionIo 7 (emptyReport 2),
    connectionIo 9 [some (clientPacket TYPE_PRESENT_ITSELF [])],
    passIo false none (some (some (clientPacket TYPE_CREATE_FILE
      (XRequestFileCreation.bytes ⟨char200 [97], 3⟩)))) none,
    passIo false none none none, connectionIo 9 [some [1, 2, 3]], passIo false none none none,
    passIo false none none none]

def requestPacket (sender : ℕ) : XPacket :=
  commPacket 0 sender TYPE_REQUEST_FILE (XRequestFile.bytes ⟨char200 [97]⟩) SIZEOF_COMM

/-- The file is asked for through node 2. -/
theorem peer_table_in_range_gateway :
    Along nodesStep (fun a s => (s a.1).TableInRange a.2) startedNode
      ((storeAtIndex ++ [connectionIo 10 [some (xpacketPresentation (Cluster.three.bootedServer 2)),
        some (requestPacket 2)], passIo false none none none, passIo false none none none]).map
          fun io => (3, io)) :=
  (peer_table_in_range_of_clean three_started (by decide +kernel)).1 (by decide +kernel)

/-- The client of the index asks for its file itself: the address of the requester is read
at position `-2`. -/
theorem not_peer_table_in_range :
    ∃ as : List (ℕ × PassIo), Along nodesStep (ConformingPass 3) startedNode as ∧
      ¬ Along nodesStep (fun a s => (s a.1).TableInRange a.2) startedNode as :=
  ⟨(storeAtIndex ++ [passIo false none (some (some (requestPacket CLIENT_NODE_ID))) none,
    passIo false none none none, passIo false none none none]).map fun io => (3, io),
    by decide +kernel⟩

end DSS
