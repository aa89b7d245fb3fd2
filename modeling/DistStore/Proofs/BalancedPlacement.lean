import DistStore.Proofs.NewFile
import DistStore.Proofs.PlacementSlots

/-! Placing a new file after any number of deaths. The index walks over the peers whose
address it dropped, and what it leaves is `placedTable` over the nodes that are still there. -/

namespace DSS

open Pairs

/-- Node `n` is there: the index itself, the last one, or a peer with a port. -/
def liveNode (d : XIndexData) (N n : ℕ) : Bool := n = N ∨ (d.peerIp n).port ≠ 0

def liveNodes (d : XIndexData) (N : ℕ) : List ℕ := (List.range' 1 N).filter (liveNode d N)

/-- The index between requests, after `deathCount` of its `N` nodes died. -/
structure PlacementState (sv : Server) (d : XIndexData) (N : ℕ) : Prop where
  nodeId : sv.me.nodeId = N
  count : sv.netSize + sv.deathCount = N
  N_le : N ≤ 254
  indexData : sv.indexData = some d
  knownPeers : d.knownPeers = N - 1
  live : (liveNodes d N).length = sv.netSize
  two_le : 2 ≤ sv.netSize

/-! ## The live nodes, in order -/

section live

variable {d : XIndexData} {N : ℕ}

theorem liveNode_of_lt {x : ℕ} (h : x + 1 < N) :
    liveNode d N (x + 1) = decide ((d.peerIps.getD x Address.zero).port ≠ 0) := by
  rw [liveNode, XIndexData.peerIp, Nat.add_sub_cancel]
  exact decide_eq_decide.mpr ⟨fun hx => hx.resolve_left h.ne, .inr⟩

theorem liveNode_self : liveNode d N N = true := decide_eq_true (.inl rfl)

theorem countP_live {k : ℕ} (hk : k < N) :
    (List.range' 1 k).countP (liveNode d N) = openPeers d k := by
  rw [List.range'_eq_map_range, List.countP_map, openPeers]
  refine List.countP_congr fun x hx => ?_
  have hx := List.mem_range.mp hx
  rw [Function.comp_apply, Nat.add_comm 1 x, liveNode_of_lt (by omega)]

theorem liveNodes_getD {x : ℕ} (hx : x < N) (hlive : liveNode d N (x + 1) = true) :
    (liveNodes d N).getD (openPeers d x) 0 = x + 1 := by
  have hsplit : List.range' 1 N = List.range' 1 x ++ (x + 1) :: List.range' (x + 2) (N - x - 1) := by
    have happend := List.range'_append_1 (s := 1) (m := x) (n := N - x - 1 + 1)
    rw [List.range'_succ, Nat.add_comm 1 x] at happend
    rw [happend]
    congr 1
    omega
  rw [liveNodes, hsplit, List.filter_append, List.filter_cons_of_pos hlive, ← countP_live hx,
    List.countP_eq_length_filter, List.getD_append_right _ _ _ _ le_rfl, Nat.sub_self]
  rfl

theorem length_liveNodes (h : 1 ≤ N) : (liveNodes d N).length = openPeers d (N - 1) + 1 := by
  obtain ⟨k, rfl⟩ := Nat.exists_eq_add_of_le' h
  rw [liveNodes, List.range'_concat, List.filter_append, List.length_append,
    ← List.countP_eq_length_filter, countP_live k.lt_succ_self, Nat.add_sub_cancel, Nat.one_mul,
    Nat.add_comm 1 k, List.filter_cons_of_pos liveNode_self]
  rfl

theorem closed_between {a b x : ℕ} (hab : openPeers d b = openPeers d a) (hb : b < N) (ha : a ≤ x)
    (hx : x < b) : liveNode d N (x + 1) = false := by
  rw [liveNode_of_lt (by omega)]
  by_contra hport
  rw [Bool.not_eq_false, decide_eq_true_eq] at hport
  have hbefore := openPeers_mono d ha
  have hafter := openPeers_mono d (show x + 1 ≤ b from hx)
  rw [openPeers_succ, if_pos hport] at hafter
  omega

theorem liveNodes_nodup : (liveNodes d N).Nodup := (List.nodup_range' ..).filter _

end live

/-! ## Where the rounds start and what they find -/

namespace PlacementState

variable {sv : Server} {d : XIndexData} {N : ℕ} (h : PlacementState sv d N)
include h

theorem openPeers_eq : openPeers d d.knownPeers + 1 = sv.netSize := by
  have hN := h.count
  have h2 := h.two_le
  rw [h.knownPeers, ← length_liveNodes (by omega), h.live]

theorem u64_count : u64 (sv.netSize + sv.deathCount) = N := by
  have hN := h.N_le
  rw [h.count, u64_of_lt (by omega)]

theorem isValid (x : ℕ) : serverIsValidNode sv (x + 1) = liveNode d N (x + 1) := by
  rw [serverIsValidNode, if_neg (by omega), h.nodeId, h.indexData, liveNode]
  by_cases hlast : x + 1 = N
  · simp [hlast]
  · simp [hlast]

/-- Round `i` starts at the `i`-th live node. -/
theorem startNode_spec {i : ℕ} (hi : i < sv.netSize) :
    startNode d i < N ∧ liveNode d N (startNode d i + 1) = true ∧ openPeers d (startNode d i) = i := by
  have hopen := h.openPeers_eq
  have hN := h.count
  have hknown := h.knownPeers
  rcases Nat.lt_or_ge i (openPeers d d.knownPeers) with hlt | hge
  · obtain ⟨hpos, hport⟩ := startNode_open hlt
    refine ⟨by omega, ?_, ?_⟩
    · rw [liveNode_of_lt (by omega)]
      exact decide_eq_true hport
    · have hnext := (openPeers_offsetBefore (show i + 1 ≤ openPeers d d.knownPeers from hlt)).2
      rw [show i + 1 + offsetBefore d (i + 1) = startNode d i + 1 by rw [startNode]; omega,
        openPeers_succ, if_pos hport] at hnext
      omega
  · obtain rfl : i = openPeers d d.knownPeers := by omega
    rw [startNode_last]
    refine ⟨by omega, ?_, rfl⟩
    rw [show d.knownPeers + 1 = N by omega]
    exact liveNode_self

theorem getD_live {i : ℕ} (hi : i < sv.netSize) : (liveNodes d N).getD i 0 = startNode d i + 1 := by
  obtain ⟨hlt, hlive, hcount⟩ := h.startNode_spec hi
  have := liveNodes_getD hlt hlive
  rwa [hcount] at this

/-- From the node of round `i` the search reaches that of the next round, cyclically, and meets
nobody before. -/
theorem next_live {i : ℕ} (hi : i < sv.netSize) :
    ∃ t, 1 ≤ t ∧ t < N ∧ (startNode d i + t) % N = startNode d ((i + 1) % sv.netSize) ∧
      ∀ t', 1 ≤ t' → t' < t → liveNode d N ((startNode d i + t') % N + 1) = false := by
  have h2 := h.two_le
  obtain ⟨hlt, hlive, hcount⟩ := h.startNode_spec hi
  rcases Nat.lt_or_ge (i + 1) sv.netSize with hnext | hnext
  · obtain ⟨hlt', hlive', hcount'⟩ := h.startNode_spec hnext
    have hpos : startNode d i < startNode d (i + 1) := by
      by_contra hge
      have := openPeers_mono d (Nat.le_of_not_lt hge)
      omega
    have hafter : openPeers d (startNode d (i + 1)) = openPeers d (startNode d i + 1) := by
      rw [liveNode_of_lt (by omega), decide_eq_true_eq] at hlive
      rw [openPeers_succ, if_pos hlive]
      omega
    refine ⟨startNode d (i + 1) - startNode d i, by omega, by omega, ?_, fun t' h1 ht => ?_⟩
    · rw [Nat.mod_eq_of_lt hnext, Nat.add_sub_cancel' hpos.le, Nat.mod_eq_of_lt hlt']
    · rw [Nat.mod_eq_of_lt (by omega)]
      exact closed_between hafter hlt' (by omega) (by omega)
  · obtain rfl : i = openPeers d d.knownPeers := by
      have := h.openPeers_eq
      omega
    obtain ⟨hlt', hlive', hcount'⟩ := h.startNode_spec (show 0 < sv.netSize by omega)
    have hlast : startNode d (openPeers d d.knownPeers) = N - 1 := by
      rw [startNode_last, h.knownPeers]
    have hfirst : startNode d 0 < N - 1 := by
      by_contra hge
      have := openPeers_mono d (Nat.le_of_not_lt hge)
      rw [← hlast, hcount, hcount'] at this
      omega
    have hwrap : ∀ t, 1 ≤ t → t < N → (N - 1 + t) % N = t - 1 := fun t h1 ht => by
      rw [show N - 1 + t = t - 1 + N by omega, Nat.add_mod_right, Nat.mod_eq_of_lt (by omega)]
    rw [hlast]
    refine ⟨startNode d 0 + 1, by omega, by omega, ?_, fun t' h1 ht => ?_⟩
    · rw [hwrap _ (by omega) (by omega), Nat.add_sub_cancel, h.openPeers_eq, Nat.mod_self]
    · rw [hwrap t' h1 (by omega)]
      exact closed_between (a := 0) hcount' (by omega) (Nat.zero_le _) (by omega)

end PlacementState

/-! ## The table -/

/-- The search passes the nodes that are not valid and takes the first that is. -/
theorem placeReplicas_skip {sv : Server} {i node : ℕ} {fragmentsz : ℤ} {r t j : ℕ}
    {fragments : List XFragmentNetworkPointer} (hj : j < REDUNDANCY) {tries : ℕ} (hle : tries ≤ t)
    (hskip : ∀ t', tries ≤ t' → t' < t →
      serverIsValidNode sv ((node + t') % u64 (sv.netSize + sv.deathCount) + 1) = false)
    (hvalid : serverIsValidNode sv ((node + t) % u64 (sv.netSize + sv.deathCount) + 1) = true) :
    placeReplicas sv i node fragmentsz (t - tries + (r + 1)) tries j fragments =
      placeReplicas sv i node fragmentsz r (t + 1) (j + 1)
        (fragments.set (i * REDUNDANCY + j)
          ⟨u16 (i + 1), toU64 fragmentsz, (node + t) % u64 (sv.netSize + sv.deathCount) + 1⟩) := by
  induction hn : t - tries generalizing tries with
  | zero =>
    obtain rfl : tries = t := by omega
    rw [Nat.zero_add, placeReplicas, if_pos hj]
    dsimp only
    rw [if_pos hvalid]
  | succ n ih =>
    rw [show n + 1 + (r + 1) = n + (r + 1) + 1 by omega, placeReplicas, if_pos hj]
    dsimp only
    rw [if_neg (by rw [hskip tries le_rfl (by omega)]; exact Bool.false_ne_true)]
    exact ih (by omega) (fun t' h1 h2 => hskip t' (by omega) h2) (by omega)

theorem placeReplicas_two {sv : Server} {i node r tries : ℕ} {fragmentsz : ℤ}
    {fragments : List XFragmentNetworkPointer} :
    placeReplicas sv i node fragmentsz r tries 2 fragments = fragments := by
  cases r with
  | zero => rfl
  | succ r => rw [placeReplicas, if_neg (by decide)]

/-- One fragment goes to its live node and the next. -/
theorem PlacementState.placeReplicas_round {sv : Server} {d : XIndexData} {N : ℕ}
    (h : PlacementState sv d N) {i : ℕ} (hi : i < sv.netSize) (fragmentsz : ℤ)
    (fragments : List XFragmentNetworkPointer) :
    placeReplicas sv i (startNode d i) fragmentsz (d.knownPeers + 1) 0 0 fragments =
      (fragments.set (2 * i) ⟨u16 (i + 1), toU64 fragmentsz, (liveNodes d N).getD i 0⟩).set (2 * i + 1)
        ⟨u16 (i + 1), toU64 fragmentsz,
          (liveNodes d N).getD ((i + 1) % (liveNodes d N).length) 0⟩ := by
  have h2 := h.two_le
  have hmod : (i + 1) % sv.netSize < sv.netSize := Nat.mod_lt _ (by omega)
  obtain ⟨hlt, hlive, -⟩ := h.startNode_spec hi
  obtain ⟨-, hlive', -⟩ := h.startNode_spec hmod
  obtain ⟨t, h1, ht, hnext, hskip⟩ := h.next_live hi
  have hstart : (startNode d i + 0) % N = startNode d i := Nat.mod_eq_of_lt hlt
  have hfirst := @placeReplicas_skip sv i (startNode d i) fragmentsz (N - 1) 0 0 fragments
    (by decide) 0 le_rfl (fun t' _ h0 => absurd h0 (Nat.not_lt_zero _))
    (by rw [h.u64_count, hstart, h.isValid, hlive])
  have hsecond := fun fragments => @placeReplicas_skip sv i (startNode d i) fragmentsz
    (N - 1 - t) t 1 fragments (by decide) 1 h1 (fun t' h1 h2 => by rw [h.u64_count, h.isValid, hskip t' h1 h2])
    (by rw [h.u64_count, hnext, h.isValid, hlive'])
  rw [h.knownPeers, show N - 1 + 1 = 0 - 0 + (N - 1 + 1) by omega, hfirst, Nat.zero_add,
    show N - 1 = t - 1 + (N - 1 - t + 1) by omega, hsecond, placeReplicas_two, h.u64_count, hnext,
    hstart, h.live, h.getD_live hi, h.getD_live hmod, REDUNDANCY, Nat.mul_comm i 2, Nat.add_zero]

def placedFragments (sv : Server) (sz : ℕ) : ℕ :=
  if sz ≤ sv.netSize ∨ sz ≤ MINIMAL_SIZE_FOR_SPLIT then 1 else sv.netSize

section placed

variable {sv : Server} {d : XIndexData} {N : ℕ} (h : PlacementState sv d N)
include h

theorem PlacementState.fragcountOf_eq (sz : ℕ) :
    fragcountOf sv.netSize sz = (placedFragments sv sz : ℤ) := by
  have hN := h.count
  have hle := h.N_le
  rw [fragcountOf, placedFragments]
  split_ifs
  · rfl
  · exact cInt_of_lt (by omega)

theorem PlacementState.placedFragments_bounds (sz : ℕ) :
    1 ≤ placedFragments sv sz ∧ placedFragments sv sz ≤ sv.netSize := by
  have h2 := h.two_le
  rw [placedFragments]
  split_ifs <;> omega

theorem PlacementState.handleNewFile_eq (fs : XFileServer) (net : XFileNetworkIndex)
    (fc : XRequestFileCreation) (sz : ℕ) :
    serverIndexHandleNewFile sv fs net fc sz = some
      (⟨fs.files ++ [freshContainer fc.name (fs.fileCount + 1) sz (placedFragments sv sz)]⟩,
       xfilenetindexAddFile net ⟨u16 (fs.fileCount + 1), 2 * placedFragments sv sz,
         placedTable (liveNodes d N) (fragmentSize (placedFragments sv sz) sz)
           (placedFragments sv sz)⟩, fs.fileCount) := by
  have hN := h.count
  have hle := h.N_le
  obtain ⟨hpos, hbound⟩ := h.placedFragments_bounds sz
  set m := placedFragments sv sz with hm
  have hu : toU64 (m : ℤ) = m := toU64_natCast (by omega)
  have hu2 : toU64 ((m : ℤ) * (REDUNDANCY : ℕ)) = 2 * m := by
    rw [toU64, REDUNDANCY]
    omega
  have hzero : (xfilenetindexNewFile (fs.fileCount + 1) (2 * m)).fragments =
      pairs (fun _ => .zero) (fun _ => .zero) m := by
    rw [pairs_const, xfilenetindexNewFile, u64_of_lt (by omega)]
  have hfold : (List.range m).foldl (placeFragment sv d m (cInt (sz / m)) (cInt (sz % m)))
        (0, pairs (fun _ => .zero) (fun _ => .zero) m) =
      (offsetBefore d m, placedTable (liveNodes d N) (fragmentSize m sz) m) := by
    rw [foldl_placeFragment_pairs fun i hi =>
      h.placeReplicas_round (show i < sv.netSize by omega) _]
    congr 1
    refine pairs_congr (fun i hi => ?_) fun i hi => ?_
    · rw [if_pos hi, primaryEntry, u16_of_lt (by omega)]
      rfl
    · rw [if_pos hi, secondaryEntry, u16_of_lt (by omega)]
      rfl
  have hdiv : u64 (sv.netSize + sv.deathCount) ≠ 0 := by
    rw [h.u64_count]
    omega
  simp only [serverIndexHandleNewFile, h.indexData, Option.bind_eq_bind, Option.bind_some,
    h.fragcountOf_eq, ← hm, hu, hu2, Int.toNat_natCast, hzero, placeFragments_eq hdiv, hfold]
  simp only [xfileserverAddFile, xfilenetindexNewFile, u64_of_lt (show 2 * m < 2 ^ 64 by omega)]
  rfl

end placed

/-! ## Balance and redundancy -/

section balance

variable {l : List ℕ} {size : ℕ → ℕ}

theorem replicas_distinct (hl : l.Nodup) (h2 : 2 ≤ l.length) {i : ℕ} (hi : i < l.length) :
    (primaryEntry l size i).nodeId ≠ (secondaryEntry l size i).nodeId := by
  intro heq
  have hij := getD_inj hl hi (Nat.mod_lt _ (by omega)) heq
  rcases Nat.lt_or_ge (i + 1) l.length with hlt | hge
  · rw [Nat.mod_eq_of_lt hlt] at hij
    omega
  · rw [show i + 1 = l.length by omega, Nat.mod_self] at hij
    omega

/-- Every node of a split file holds two of its fragments. -/
theorem heldEntries_split_fragments (hl : l.Nodup) (h2 : 2 ≤ l.length) {n : ℕ} (hn : n ∈ l) :
    ∃ e e', heldEntries (placedTable l size l.length) n = [e, e'] ∧ e.fragment ≠ e'.fragment := by
  obtain ⟨j, hj, rfl⟩ := List.getElem_of_mem hn
  rw [← List.getD_eq_getElem l 0 hj]
  rcases Nat.eq_zero_or_pos j with rfl | hpos
  · refine ⟨_, _, heldEntries_split_first hl h2, ?_⟩
    show 0 + 1 ≠ l.length - 1 + 1
    omega
  · refine ⟨_, _, heldEntries_split_next hl hpos hj, ?_⟩
    show j - 1 + 1 ≠ j + 1
    omega

end balance

/-- A new file is placed on the live nodes in a circle: no entry stays empty, the two replicas of
a fragment are on different live nodes, and of a split file every live node gets two fragments. -/
theorem placement_balanced {sv : Server} {d : XIndexData} {N : ℕ} (h : PlacementState sv d N)
    (fs : XFileServer) (net : XFileNetworkIndex) (fc : XRequestFileCreation) (sz : ℕ) :
    ∃ fs' f file, serverIndexHandleNewFile sv fs net fc sz =
        some (fs', xfilenetindexAddFile net f, file) ∧
      f.totalFragments = 2 * placedFragments sv sz ∧
      f.fragments =
        placedTable (liveNodes d N) (fragmentSize (placedFragments sv sz) sz) (placedFragments sv sz) ∧
      (∀ i < placedFragments sv sz, ∃ e e', f.fragments[2 * i]? = some e ∧
        f.fragments[2 * i + 1]? = some e' ∧ e.fragment = i + 1 ∧ e'.fragment = i + 1 ∧
        e.nodeId ∈ liveNodes d N ∧ e'.nodeId ∈ liveNodes d N ∧ e.nodeId ≠ e'.nodeId) ∧
      (sv.netSize < sz → MINIMAL_SIZE_FOR_SPLIT < sz → ∀ n ∈ liveNodes d N,
        ∃ e e', heldEntries f.fragments n = [e, e'] ∧ e.fragment ≠ e'.fragment) := by
  obtain ⟨hpos, hbound⟩ := h.placedFragments_bounds sz
  have hlen := h.live
  have h2 := h.two_le
  refine ⟨_, _, _, h.handleNewFile_eq fs net fc sz, rfl, rfl, ?_, ?_⟩
  · intro i hi
    have hmem : ∀ j < sv.netSize, (liveNodes d N).getD j 0 ∈ liveNodes d N := fun j hj => by
      rw [List.getD_eq_getElem _ _ (by omega)]
      exact List.getElem_mem _
    refine ⟨_, _, getElem?_pairs_even _ _ hi, getElem?_pairs_odd _ _ hi, rfl, rfl,
      hmem i (by omega), hmem _ ?_, replicas_distinct liveNodes_nodup (by omega) (by omega)⟩
    rw [hlen]
    exact Nat.mod_lt _ (by omega)
  · intro hsplit hmin n hn
    rw [placedFragments, if_neg (by omega), ← hlen]
    exact heldEntries_split_fragments liveNodes_nodup (by omega) hn

/-- The addresses the last of five nodes keeps after nodes 2 and 4 died. -/
def twoDeadPeers : XIndexData :=
  ⟨[⟨⟨127, 0, 0, 1⟩, 3001⟩, Address.zero, ⟨⟨127, 0, 0, 1⟩, 3003⟩, Address.zero, Address.zero], 4⟩

def twoDeadIndex : Server :=
  { serverInit ⟨5, ⟨⟨127, 0, 0, 1⟩, 3005⟩, 1, ⟨⟨127, 0, 0, 1⟩, 3001⟩, 5⟩
      ⟨5, ⟨⟨127, 0, 0, 1⟩, 3005⟩, none, true⟩ with
    netSize := 3, deathCount := 2, indexData := some twoDeadPeers, state := .idle }

theorem twoDeadIndex_state : PlacementState twoDeadIndex twoDeadPeers 5 :=
  ⟨rfl, rfl, by decide, rfl, rfl, by decide, by decide⟩

theorem placement_balanced_two_dead :
    ∃ fs' f file, serverIndexHandleNewFile twoDeadIndex ⟨[]⟩ xfilenetindexInit ⟨[97], 200⟩ 200 =
        some (fs', xfilenetindexAddFile xfilenetindexInit f, file) ∧
      f.totalFragments = 2 * placedFragments twoDeadIndex 200 ∧
      f.fragments = placedTable (liveNodes twoDeadPeers 5)
        (fragmentSize (placedFragments twoDeadIndex 200) 200) (placedFragments twoDeadIndex 200) ∧
      (∀ i < placedFragments twoDeadIndex 200, ∃ e e', f.fragments[2 * i]? = some e ∧
        f.fragments[2 * i + 1]? = some e' ∧ e.fragment = i + 1 ∧ e'.fragment = i + 1 ∧
        e.nodeId ∈ liveNodes twoDeadPeers 5 ∧ e'.nodeId ∈ liveNodes twoDeadPeers 5 ∧
        e.nodeId ≠ e'.nodeId) ∧
      (twoDeadIndex.netSize < 200 → MINIMAL_SIZE_FOR_SPLIT < 200 →
        ∀ n ∈ liveNodes twoDeadPeers 5,
          ∃ e e', heldEntries f.fragments n = [e, e'] ∧ e.fragment ≠ e'.fragment) :=
  placement_balanced twoDeadIndex_state ⟨[]⟩ xfilenetindexInit ⟨[97], 200⟩ 200

end DSS
