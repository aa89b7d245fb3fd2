import DistStore.Proofs.Collect
import DistStore.Proofs.Redundancy
import DistStore.Proofs.StoreRun

/-! What a client reads after any run of uploads and deaths: the first file of the name it asks
for, if every fragment of it is asked of a node that is still there. -/

namespace DSS

open Pairs

theorem findIdx?_of_map_eq {α β : Type*} {p : α → Bool} {q : β → Bool} {l : List α} {l' : List β}
    (h : l.map p = l'.map q) : l.findIdx? p = l'.findIdx? q := by
  have hp : (l.map p).findIdx? id = l.findIdx? p := List.findIdx?_map
  have hq : (l'.map q).findIdx? id = l'.findIdx? q := List.findIdx?_map
  rw [← hp, h, hq]

theorem filterMap_eq_map_filter {α β : Type*} {l : List α} {f : α → Option β} {p : α → Prop}
    [DecidablePred p] {g : α → β} (hsome : ∀ a ∈ l, p a → f a = some (g a))
    (hnone : ∀ a ∈ l, ¬ p a → f a = none) : l.filterMap f = (l.filter p).map g := by
  induction l with
  | nil => rfl
  | cons a l ih =>
    have ih := ih (fun b hb => hsome b (by simp [hb])) fun b hb => hnone b (by simp [hb])
    by_cases ha : p a
    · rw [List.filterMap_cons_some (hsome a (by simp) ha), List.filter_cons_of_pos (by simpa using ha),
        List.map_cons, ih]
    · rw [List.filterMap_cons_none (hnone a (by simp) ha), List.filter_cons_of_neg (by simpa using ha),
        ih]

namespace Cluster

variable {c : Cluster} {s : FileStore} {nw : Network}

/-- Nobody listens at the address of a node that is gone. -/
theorem nodeAt_zero (c : Cluster) : c.nodeAt Address.zero = none := by
  rw [nodeAt, List.find?_eq_none]
  intro n hn hzero
  obtain ⟨h1, hn⟩ := mem_nodes.mp hn
  exact c.port_ne_zero n h1 hn (congrArg Address.port (of_decide_eq_true hzero))

namespace Stored

/-! ## The request -/

theorem fileName_eq (h : c.Stored s nw) (hN : c.N ≤ 254) {name : List UInt8}
    (hname : ∀ b ∈ name, b ≠ 0) (hlen : name.length ≤ 199) :
    (nw.fs c.N).files.map (fun x => strEq x.fileName ((char200 name).set 199 0)) =
      s.files.map fun f => decide (f.name = name) := by
  have hle := h.length_le
  rw [FILE_SERVER_MAX_FILES] at hle
  refine List.ext_getElem? fun i => ?_
  rw [List.getElem?_map, h.own, List.getElem?_mapIdx, List.getElem?_map]
  rcases hf : s.files[i]? with _ | f
  · rfl
  have hi := (List.getElem?_eq_some_iff.mp hf).1
  have hst := h.stored f (List.mem_of_getElem? hf)
  have hhead := hst.header hN (show i + 1 < 2 ^ 16 by omega) c.N
  simp only [Option.map_some, hhead.fileName]
  rw [strEq_char200 hst.uploadable.name_ne_zero hst.uploadable.name_le hname hlen]

/-- The index answers with the first file of the name. -/
theorem typeRequestFileIndex_eq (h : c.Stored s nw) (hN : c.N ≤ 254) {name : List UInt8}
    (hname : ∀ b ∈ name, b ≠ 0) (hlen : name.length ≤ 199) {req : XPacket}
    (hreq : (XRequestFile.ofContent (content req)).name = char200 name) :
    typeRequestFileIndex nw.index (nw.fs c.N) req =
      (Keyed.slot StoredFile.name s.files name).bind fun j => s.files[j]?.map fun f =>
        (f.container (j + 1) c.N,
          xpacketRequestFileResponse nw.index (j + 1 : ℕ) f.bytes.length f.count) := by
  have hle := h.length_le
  rw [FILE_SERVER_MAX_FILES] at hle
  have hfind : xfileserverFindFileByName (nw.fs c.N) (char200 name) =
      Keyed.slot StoredFile.name s.files name := findIdx?_of_map_eq (h.fileName_eq hN hname hlen)
  rw [typeRequestFileIndex, hreq, hfind]
  rcases hslot : Keyed.slot StoredFile.name s.files name with _ | j
  · rfl
  rw [Option.bind_eq_bind, Option.bind_some, Option.bind_some, h.own, List.getElem?_mapIdx]
  rcases hf : s.files[j]? with _ | f
  · rfl
  have hj := (List.getElem?_eq_some_iff.mp hf).1
  have hhead := (h.stored f (List.mem_of_getElem? hf)).header hN (show j + 1 < 2 ^ 16 by omega) c.N
  simp only [Option.map_some, hhead.fileId, hhead.size, hhead.fragmentCountTotal, Option.bind_eq_bind,
    Option.bind_some]
  rfl

theorem requested (h : c.Stored s nw) (hN : c.N ≤ 254) {name : List UInt8} (hname : ∀ b ∈ name, b ≠ 0)
    (hlen : name.length ≤ 199) {req : XPacket}
    (hreq : (XRequestFile.ofContent (content req)).name = char200 name) {f : StoredFile}
    (hf : s.find name = some f) :
    ∃ j fc, s.files[j]? = some f ∧
      typeRequestFileIndex nw.index (nw.fs c.N) req =
        some (fc, xpacketRequestFileResponse nw.index (j + 1 : ℕ) f.bytes.length f.count) ∧
      fc.fileId = j + 1 ∧ fc.fragmentCountTotal = f.count := by
  have hanswer := h.typeRequestFileIndex_eq hN hname hlen hreq
  have hget : Keyed.get StoredFile.name s.files name = some f := hf
  obtain ⟨j, hslot, hj⟩ := Keyed.exists_slot hget
  have hle := h.length_le
  rw [FILE_SERVER_MAX_FILES] at hle
  have hjlen := (List.getElem?_eq_some_iff.mp hj).1
  have hhead := (h.stored f (List.mem_of_getElem? hj)).header hN (show j + 1 < 2 ^ 16 by omega) c.N
  rw [hslot, Option.bind_some, hj, Option.map_some] at hanswer
  exact ⟨j, _, hj, hanswer, hhead.fileId, hhead.fragmentCountTotal⟩

/-! ## Who is asked -/

/-- For every fragment the index chooses the entry of the node the store asks. -/
theorem selectFragments_eq (h : c.Stored s nw) (hN : c.N ≤ 254) {f : StoredFile}
    (hf : f.StoredBy c) :
    selectFragments nw.index f.table f.count =
      (List.range f.count).map fun i => f.entry i (s.asked f i) := by
  have hcount := hf.count_lt hN
  have hbound := (StoredFile.count_bounds hf.two_le).2
  have hle := h.left.length_le
  rw [selectFragments, Int.toNat_natCast]
  refine List.map_congr_left fun i hi => ?_
  have hi := List.mem_range.mp hi
  obtain ⟨h1, hn⟩ := hf.mem_bounds (StoredFile.holder_mem (show i < f.nodes.length by omega))
  have hvalid := h.index.isValid h.left h1 hn
  have hmistaken : (toU64 (f.count : ℤ) = u64 (nw.index.netSize * REDUNDANCY)) ↔ s.Mistaken f := by
    rw [toU64_natCast (by omega), h.index.netSize, REDUNDANCY, u64_of_lt (by omega), Nat.mul_comm]
    rfl
  have hfirst : f.table.getD (i * REDUNDANCY) .zero = f.entry i (f.holder i) :=
    getD_placedTable_primary hi
  have hsecond : f.table.getD (i * REDUNDANCY + 1) .zero = f.entry i (f.backup i) :=
    getD_placedTable_secondary hi
  simp only [hfirst, hsecond, hmistaken, h.index.deathCount]
  rw [show (f.entry i (f.holder i)).nodeId = f.holder i from rfl, hvalid, FileStore.asked]
  by_cases halive : f.holder i ∈ s.alive
  · simp only [halive, decide_true, or_true, if_true, ite_self]
  · -- only after a death somebody is missing
    have hdead : 0 < c.N - s.alive.length := by
      by_contra hnone
      have hall := h.left.nodes.eq_of_length_le (by rw [c.nodes_length]; omega)
      exact halive (hall ▸ mem_nodes.mpr ⟨h1, hn⟩)
    rw [if_pos hdead]
    by_cases hm : s.Mistaken f
    · rw [if_pos hm, if_pos (.inl hm)]
    · rw [if_neg hm, if_neg (by simp [halive]), if_neg (by simp [halive, hm])]

/-- The node that is asked stores the fragment. -/
theorem stores (h : c.Stored s nw) (hN : c.N ≤ 254) {f : StoredFile} {j : ℕ}
    (hj : s.files[j]? = some f) {i : ℕ} (hi : i < f.count) :
    f.Stores (nw.fs (s.asked f i)) (j + 1) i := by
  have hle := h.length_le
  rw [FILE_SERVER_MAX_FILES] at hle
  have hjlen := (List.getElem?_eq_some_iff.mp hj).1
  have hid : j + 1 < 2 ^ 16 := by omega
  have hf := h.stored f (List.mem_of_getElem? hj)
  have hbound := (StoredFile.count_bounds hf.two_le).2
  have hmem : s.asked f i ∈ f.nodes ∧ f.entry i (s.asked f i) ∈ f.table := by
    rw [FileStore.asked]
    split_ifs
    · exact ⟨StoredFile.holder_mem (hi.trans_le hbound), mem_pairs.mpr ⟨i, hi, .inl rfl⟩⟩
    · exact ⟨hf.backup_mem i, mem_pairs.mpr ⟨i, hi, .inr rfl⟩⟩
  have hheld : f.entry i (s.asked f i) ∈ heldEntries f.table (s.asked f i) :=
    List.mem_filter.mpr ⟨hmem.2, decide_eq_true rfl⟩
  obtain ⟨h1, hn⟩ := hf.mem_bounds hmem.1
  exact hf.stores_of_held hN hid hmem.1 hi hheld
    (h.found_of_held h1 hn hj (List.ne_nil_of_mem hheld))

theorem asked_bounds (h : c.Stored s nw) {f : StoredFile} {j : ℕ} (hj : s.files[j]? = some f) {i : ℕ}
    (hi : i < f.count) : 1 ≤ s.asked f i ∧ s.asked f i ≤ c.N := by
  have hf := h.stored f (List.mem_of_getElem? hj)
  have hbound := (StoredFile.count_bounds hf.two_le).2
  refine hf.mem_bounds ?_
  rw [FileStore.asked]
  split_ifs
  · exact StoredFile.holder_mem (hi.trans_le hbound)
  · exact hf.backup_mem i

/-- Fragment `i + 1` comes exactly if the node that is asked is there. -/
theorem carryOut (h : c.Stored s nw) (hN : c.N ≤ 254) {f : StoredFile} {j : ℕ}
    (hj : s.files[j]? = some f) {d : XIndexData}
    (hips : ∀ n, 1 ≤ n → n < c.N → d.peerIp n = if n ∈ s.alive then c.addr n else Address.zero)
    {g : ℕ} (hg : g ∈ s.alive) (hgN : g ≠ c.N) (server : ℕ → Server) {i : ℕ} (hi : i < f.count) :
    if s.asked f i ∈ s.alive then
      ∃ a, nw.carryOut c server g
          (orderFragment nw.index d (j + 1 : ℕ) g (f.entry i (s.asked f i))) = some a ∧
        f.Delivers (nw.fs g) (j + 1) i a
    else nw.carryOut c server g
      (orderFragment nw.index d (j + 1 : ℕ) g (f.entry i (s.asked f i))) = none := by
  have hle := h.length_le
  rw [FILE_SERVER_MAX_FILES] at hle
  have hjlen := (List.getElem?_eq_some_iff.mp hj).1
  have hf := h.stored f (List.mem_of_getElem? hj)
  obtain ⟨hg1, hgle⟩ := h.left.bounds hg
  have hg64 : g < 2 ^ 64 := by omega
  obtain ⟨h1, hn⟩ := h.asked_bounds hj hi
  split_ifs with halive
  · refine hf.carryOut hN (show j + 1 < 2 ^ 16 by omega) h.index.nodeId hg64 ?_ hi (fun _ hne => ?_)
      (h.stores hN hj hi) server
    · rw [hips g hg1 (lt_of_le_of_ne hgle hgN), if_pos hg, nodeAt_addr hg1 hgle]
    · rw [hips _ h1 (lt_of_le_of_ne hn hne), if_pos halive, nodeAt_addr h1 hn]
  · have hne : s.asked f i ≠ c.N := fun heq => halive (heq ▸ h.left.index)
    have hng : s.asked f i ≠ g := fun heq => halive (heq ▸ hg)
    refine StoredFile.carryOut_none h.index.nodeId hg64 hng hne ?_ server
    rw [hips _ h1 (lt_of_le_of_ne hn hne), if_neg halive, nodeAt_zero]

theorem requestFragments_eq (h : c.Stored s nw) (hN : c.N ≤ 254) {f : StoredFile} {j : ℕ}
    (hj : s.files[j]? = some f) {d : XIndexData} (hd : nw.index.indexData = some d) (g : ℕ) :
    serverIndexRequestFragments nw.index nw.fnetidx (j + 1 : ℕ) f.count g =
      some ((List.range f.count).map fun i => f.entry i (s.asked f i), (List.range f.count).map fun i =>
        orderFragment nw.index d (j + 1 : ℕ) g (f.entry i (s.asked f i))) := by
  have hle := h.length_le
  rw [FILE_SERVER_MAX_FILES] at hle
  have hjlen := (List.getElem?_eq_some_iff.mp hj).1
  have hf := h.stored f (List.mem_of_getElem? hj)
  have hfound : nw.fnetidx.found (j + 1) = some ⟨j + 1, 2 * f.count, f.table⟩ := by
    rw [h.table (j + 1) (by omega) (by omega), Nat.add_sub_cancel, hj]
    rfl
  have hreq := serverIndexRequestFragments_eq hd (show j + 1 < 2 ^ 64 by omega) hfound f.count g
  rwa [h.selectFragments_eq hN hf, List.map_map] at hreq

theorem typeRequestFileGateway_eq (h : c.Stored s nw) (hN : c.N ≤ 254) {f : StoredFile} {j : ℕ}
    (hj : s.files[j]? = some f) :
    typeRequestFileGateway
        (xpacketRequestFileResponse nw.index (j + 1 : ℕ) f.bytes.length f.count) =
      f.collecting (j + 1) 0 (List.replicate f.bytes.length 46) := by
  have hle := h.length_le
  rw [FILE_SERVER_MAX_FILES] at hle
  have hjlen := (List.getElem?_eq_some_iff.mp hj).1
  exact (h.stored f (List.mem_of_getElem? hj)).collecting_start hN (by omega) nw.index

/-- What the gateway `g` ends with, in whatever order the fragments come. -/
theorem read (h : c.Stored s nw) (hN : c.N ≤ 254) {f : StoredFile} {j : ℕ}
    (hj : s.files[j]? = some f) {g : ℕ} (hg : g ∈ s.alive) (hgN : g ≠ c.N) (server : ℕ → Server) :
    ∃ frags orders,
      serverIndexRequestFragments nw.index nw.fnetidx (j + 1 : ℕ) f.count g = some (frags, orders) ∧
      ∀ order : List Arrival, order.Perm (orders.filterMap (nw.carryOut c server g)) →
        ∃ st, order.foldlM (serverWaitRequestFragments (nw.fs g)) (typeRequestFileGateway
            (xpacketRequestFileResponse nw.index (j + 1 : ℕ) f.bytes.length f.count)) = some st ∧
          bufferToClient st = s.read f := by
  have hle := h.length_le
  rw [FILE_SERVER_MAX_FILES] at hle
  have hjlen := (List.getElem?_eq_some_iff.mp hj).1
  have hf := h.stored f (List.mem_of_getElem? hj)
  obtain ⟨d, hd, -, hips⟩ := h.index.indexData
  refine ⟨_, _, h.requestFragments_eq hN hj hd g, fun order hperm => ?_⟩
  have hcarry := fun i (hi : i < f.count) => h.carryOut hN hj hips hg hgN server hi
  have hex : ∀ i, i < f.count → s.asked f i ∈ s.alive → ∃ a, nw.carryOut c server g
      (orderFragment nw.index d (j + 1 : ℕ) g (f.entry i (s.asked f i))) = some a ∧
        f.Delivers (nw.fs g) (j + 1) i a := by
    intro i hi halive
    have := hcarry i hi
    rwa [if_pos halive] at this
  choose! arrival harrival using hex
  -- the orders that are carried out, as a list of fragments
  have hcame : ((List.range f.count).map fun i => orderFragment nw.index d (j + 1 : ℕ) g
      (f.entry i (s.asked f i))).filterMap (nw.carryOut c server g) =
        ((List.range f.count).filter (s.asked f · ∈ s.alive)).map arrival := by
    rw [List.filterMap_map]
    refine filterMap_eq_map_filter (fun i hi halive => ?_) fun i hi hdead => ?_
    · exact (harrival i (List.mem_range.mp hi) halive).1
    · have hnone := hcarry i (List.mem_range.mp hi)
      rwa [if_neg hdead] at hnone
  rw [hcame] at hperm
  obtain ⟨st, hrun, hout⟩ := hf.gathers hN (show j + 1 < 2 ^ 16 by omega)
    (fun i hi halive => (harrival i hi halive).2) hperm
  exact ⟨st, by rw [h.typeRequestFileGateway_eq hN hj]; exact hrun, hout⟩

end Stored

end Cluster

end DSS
