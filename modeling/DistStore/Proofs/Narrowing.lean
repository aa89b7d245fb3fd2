import DistStore.Model.Narrowing
import DistStore.Proofs.RawTransfer
import DistStore.Proofs.Collect

/-! Which files are handled without a value that is cut off: those below `2^31` bytes whose
fragments can be counted in one byte. -/

namespace DSS

open Bytes

/-! ## The exact sizes -/

section exact

variable {count size : ℕ}

theorem exactSize_eq (hcount : 1 ≤ count) (hsize : size < 2 ^ 31) (i : ℕ) :
    fragmentSize count size i = exactSize count size i := fragmentSize_eq hcount hsize i

theorem exactSize_le (count size i : ℕ) : exactSize count size i ≤ size := by
  have hdiv := Nat.div_le_self size count
  have hsum := Nat.div_add_mod size count
  unfold exactSize
  split_ifs with hlast
  · have hle : size / count ≤ count * (size / count) := Nat.le_mul_of_pos_left _ (by omega)
    omega
  · exact hdiv

theorem sum_exactSize (hcount : 1 ≤ count) :
    ((List.range count).map (exactSize count size)).sum = size := by
  have hsum (m : ℕ) (hm : m < count) :
      ((List.range m).map (exactSize count size)).sum = m * (size / count) := by
    induction m with
    | zero => simp
    | succ m ih =>
      rw [List.range_succ, List.map_append, List.sum_append, ih (by omega), List.map_singleton,
        List.sum_singleton, exactSize, if_neg (by omega)]
      ring
  obtain ⟨m, rfl⟩ := Nat.exists_eq_add_of_le' hcount
  rw [List.range_succ, List.map_append, List.sum_append, hsum m m.lt_succ_self,
    List.map_singleton, List.sum_singleton, exactSize, if_pos rfl]
  have hdiv := Nat.div_add_mod size (m + 1)
  rw [Nat.succ_mul] at hdiv
  omega

theorem exactSize_inside (hsize : size < 2 ^ 31) {i : ℕ} (hi : i < count) :
    i * (size / count) + exactSize count size i ≤ size := by
  rw [← exactSize_eq (by omega) hsize]
  exact fragment_inside hsize hi

theorem cInt_exactSize (hsize : size < 2 ^ 31) (i : ℕ) :
    cInt (exactSize count size i) = exactSize count size i :=
  cInt_of_lt ((exactSize_le count size i).trans_lt hsize)

end exact

/-! ## Raw packets -/

theorem waitsExactly_iff {raw : StateRawPackets} {size : ℕ} (htotal : raw.totalSize = size)
    (hn : raw.nPkts = nPackets size) : WaitsExactly raw size ↔ size < 2 ^ 31 := by
  rw [← cInt_eq_self_iff]
  constructor
  · intro h
    have hsize := h.size
    rw [waitedSize, htotal] at hsize
    exact hsize
  · intro h
    have hlt := (cInt_eq_self_iff size).mp h
    refine ⟨?_, ?_⟩
    · rw [waitedPackets, hn]
      refine cInt_of_lt ?_
      have hS : SERVER_BUCKET_SIZE = 4096 := rfl
      rw [nPackets, hS]
      omega
    · rw [waitedSize, htotal]
      exact h

/-! ## A file whose values fit -/

section fits

variable {c : Cluster} {size id : ℕ}

theorem entry_tableEntry (id : ℕ) (hsize : size < 2 ^ 31) (hcount : c.fragcount size < 2 ^ 8) {i j : ℕ}
    (hi : i < c.fragcount size) (hj : j < REDUNDANCY) :
    ∃ n, (c.tableEntry id size).entry i j = ⟨i + 1, exactSize (c.fragcount size) size i, n⟩ := by
  have hnumber : u16 (i + 1) = i + 1 := u16_of_lt (by omega)
  have hexact := exactSize_eq (c.fragcount_pos size) hsize i
  unfold XFileInNetwork.entry Cluster.tableEntry Cluster.newTable
  rw [List.getD_eq_getElem?_getD, Nat.mul_comm i]
  unfold REDUNDANCY at hj ⊢
  interval_cases j
  · rw [Nat.add_zero, Pairs.getElem?_pairs_even _ _ hi, hnumber, hexact]
    exact ⟨_, rfl⟩
  · rw [Pairs.getElem?_pairs_odd _ _ hi, hnumber, hexact]
    exact ⟨_, rfl⟩

theorem placesExactly_of (hsize : size < 2 ^ 31) (hcount : c.fragcount size < 2 ^ 8)
    (name : List UInt8) :
    PlacesExactly (c.fragcount size) size (freshContainer name id size (c.fragcount size))
      (c.tableEntry (u16 id) size) := by
  have hentry {i j : ℕ} (hi : i < c.fragcount size) (hj : j < REDUNDANCY) :
      ((c.tableEntry (u16 id) size).entry i j).size = exactSize (c.fragcount size) size i := by
    obtain ⟨n, he⟩ := entry_tableEntry (u16 id) hsize hcount hi hj
    rw [he]
  refine ⟨u8_of_lt hcount, fun i hi j hj => hentry hi hj, fun j hj => ?_⟩
  rw [List.map_congr_left fun i hi => hentry (List.mem_range.mp hi) hj]
  exact sum_exactSize (c.fragcount_pos size)

theorem fansOutExactly_of (hsize : size < 2 ^ 31) (hcount : c.fragcount size < 2 ^ 8)
    (name : List UInt8) :
    FansOutExactly (c.fragcount size) size size
      (freshContainer name id size (c.fragcount size)) (c.tableEntry (u16 id) size) := by
  have hbase : baseoffset (freshContainer name id size (c.fragcount size))
      (c.tableEntry (u16 id) size) = (size / c.fragcount size : ℕ) := by
    have htotal : (c.tableEntry (u16 id) size).totalFragments / REDUNDANCY = c.fragcount size :=
      Nat.mul_div_cancel_left _ (by decide)
    have hfile : (freshContainer name id size (c.fragcount size)).size = size := u64_of_lt (by omega)
    rw [baseoffset, htotal, hfile]
    exact cInt_of_lt ((Nat.div_le_self size _).trans_lt hsize)
  have hoffset {i j : ℕ} (hi : i < c.fragcount size) (hj : j < REDUNDANCY) :
      fragmentOffset (freshContainer name id size (c.fragcount size)) (c.tableEntry (u16 id) size)
        ((c.tableEntry (u16 id) size).entry i j) = (i * (size / c.fragcount size) : ℕ) := by
    obtain ⟨n, he⟩ := entry_tableEntry (u16 id) hsize hcount hi hj
    rw [fragmentOffset, hbase, he]
    push_cast
    ring
  refine ⟨hbase, fun i hi j hj => hoffset hi hj, fun i hi j hj => ?_, fun i hi j hj bytes => ?_⟩
  · obtain ⟨n, he⟩ := entry_tableEntry (u16 id) hsize hcount hi hj
    rw [hoffset hi hj, he]
    exact_mod_cast exactSize_inside hsize hi
  · obtain ⟨n, he⟩ := entry_tableEntry (u16 id) hsize hcount hi hj
    rw [he, storeOwnFragment]
    exact u8_of_lt (show i + 1 < 2 ^ 8 by omega)

theorem creation_decode (id : ℕ) (hsize : size < 2 ^ 31) (hcount : c.fragcount size < 2 ^ 8)
    (sv : Server) (name : List UInt8) {i j : ℕ} (hi : i < c.fragcount size) (hj : j < REDUNDANCY)
    (ptrIndex : ℕ) :
    let cr := XRequestFragmentCreation.ofContent (content (xpacketSendFragment sv
      (xreqfragcreationNew (freshContainer name id size (c.fragcount size))
        ((c.tableEntry (u16 id) size).entry i j) ptrIndex)))
    cr.fragmentCountTotal = c.fragcount size ∧ cr.fragId = i + 1 ∧
      cr.fragSize = exactSize (c.fragcount size) size i := by
  obtain ⟨n, he⟩ := entry_tableEntry (u16 id) hsize hcount hi hj
  have hle := exactSize_le (c.fragcount size) size i
  have hfits : (xreqfragcreationNew (freshContainer name id size (c.fragcount size))
      ⟨i + 1, exactSize (c.fragcount size) size i, n⟩ ptrIndex).Fits :=
    { fileName := char200_length _
      fileSize := Nat.mod_lt _ (by norm_num)
      fileId := lt_of_lt_of_le (Nat.mod_lt _ (by norm_num) : u16 id < 2 ^ 16) (by norm_num)
      fragmentCountTotal := Nat.mod_lt _ (by norm_num)
      ptrIndex := Nat.mod_lt _ (by norm_num)
      fragId := show i + 1 < 2 ^ 64 by omega
      fragSize := hle.trans_lt (by omega) }
  rw [he, typeStoreFragment_decode sv hfits]
  exact ⟨u8_of_lt hcount, rfl, rfl⟩

theorem storesExactly_of (hsize : size < 2 ^ 31) (hcount : c.fragcount size < 2 ^ 8)
    (sv : Server) (name : List UInt8) {i j : ℕ} (hi : i < c.fragcount size) (hj : j < REDUNDANCY)
    (ptrIndex : ℕ) (holder : Server) (fs : XFileServer) (old : StateRawPackets) (fd : ℕ) :
    StoresExactly (c.fragcount size) size i (xpacketSendFragment sv
      (xreqfragcreationNew (freshContainer name id size (c.fragcount size))
        ((c.tableEntry (u16 id) size).entry i j) ptrIndex)) holder fs old fd := by
  obtain ⟨hn, hid, hfrag⟩ := creation_decode id hsize hcount sv name hi hj ptrIndex
  generalize xpacketSendFragment sv _ = p at hn hid hfrag ⊢
  have hraw := typeStoreFragment_snd fs p
  have hfragc : (typeStoreFragmentRaw holder fs old p fd).2.1.fragc =
      XRequestFragmentCreation.ofContent (content p) := hraw
  refine ⟨(waitsExactly_iff ?_ ?_).mpr ((exactSize_le _ size i).trans_lt hsize), fun hnone => ?_,
    fun file bytes hzero => ?_⟩
  · show (typeStoreFragment fs p).2.fragSize = _
    rw [hraw, hfrag]
  · show nPackets (typeStoreFragment fs p).2.fragSize = _
    rw [hraw, hfrag]
  · rw [hfragc] at hnone
    show ((typeStoreFragment fs p).1.files.getLast?).map _ = _
    unfold typeStoreFragment
    dsimp only
    rw [hnone]
    dsimp only
    rw [xfileserverAddFile, List.getLast?_concat, Option.map_some, freshContainer, hn,
      u8_of_lt hcount]
  · rw [hfragc, hid, xfileserverAddFragment]
    dsimp only
    rw [if_pos hzero, if_pos rfl]
    exact u8_of_lt (show i + 1 < 2 ^ 8 by omega)

end fits

theorem reported_fragCount (holder : Server) (file : XFileContainer) :
    (XReportFileKnowledge.ofContent (content
      (xpacketReportFile holder (reportOf holder.me.nodeId file)))).fragCount =
      u8 file.fragmentCountTotal := by
  rw [xpacketReportFile, xpacketNew, content_commPacket]
  simp only [XReportFileKnowledge.ofContent, XReportFileKnowledge.bytes, List.append_assoc]
  simp only [rd_char200_skip, rd_le_skip, rd_le_append, Nat.reduceLeDiff, Nat.reduceSub]
  rfl

section fits

variable {c : Cluster} {size : ℕ}

theorem gateway_requested (hcount : c.fragcount size < 2 ^ 8) (hsize : size < 2 ^ 31) (sv : Server)
    (name : List UInt8) (id : ℕ) :
    let fc := freshContainer name id size (c.fragcount size)
    typeRequestFileGateway (xpacketRequestFileResponse sv fc.fileId fc.size fc.fragmentCountTotal) =
      ⟨u16 id, size, c.fragcount size, 0, List.replicate size 46⟩ := by
  have hid : u16 id < 2 ^ 16 := Nat.mod_lt _ (by norm_num)
  have hu : u64 size = size := u64_of_lt (by omega)
  simp only [freshContainer, hu, u8_of_lt hcount]
  exact typeRequestFileGateway_eq sv (by omega) (by omega) hcount

theorem collectsExactly_of (hsize : size < 2 ^ 31) (hcount : c.fragcount size < 2 ^ 8) (id : ℕ)
    (buffer : List UInt8) :
    CollectsExactly (c.fragcount size) size ⟨u16 id, size, c.fragcount size, 0, buffer⟩ := by
  refine ⟨rfl, ?_, cInt_of_lt hsize⟩
  rw [sizePerFrag, toU64_natCast (by omega)]
  exact cInt_of_lt ((Nat.div_le_self size _).trans_lt hsize)

theorem deliversExactly_of (hsize : size < 2 ^ 31) (hcount : c.fragcount size < 2 ^ 8) (id : ℕ)
    {i : ℕ} (hi : i < c.fragcount size) (holder : Server) (fileId : ℤ) :
    DeliversExactly (c.fragcount size) size i
      ⟨u16 id, size, c.fragcount size, 0, List.replicate size 46⟩ holder fileId := by
  have hle := exactSize_le (c.fragcount size) size i
  have hdecode : XDeclareFragmentTransport.ofContent (content (declareFragmentPacket holder fileId
      (i + 1 : ℕ) (exactSize (c.fragcount size) size i) size)) =
      ⟨u64 (toU64 fileId), i + 1, exactSize (c.fragcount size) size i, size⟩ := by
    rw [declareFragmentPacket, xpacketNew, content_commPacket,
      XDeclareFragmentTransport.ofContent_bytes]
    dsimp only
    rw [toU64_natCast (by omega), u64_of_lt (show i + 1 < 2 ^ 64 by omega),
      u64_of_lt (show exactSize _ _ _ < 2 ^ 64 by omega), u64_of_lt (show size < 2 ^ 64 by omega)]
  refine ⟨?_, ?_, ?_⟩
  · rw [hdecode]
    exact cInt_exactSize hsize i
  · rw [hdecode, deliveredOffset, (collectsExactly_of hsize hcount id _).sizePerFrag,
      cInt_of_lt (show i + 1 < 2 ^ 31 by omega)]
    push_cast
    ring
  · rw [List.length_replicate]
    exact exactSize_inside hsize hi

end fits

/-! ## Every file -/

theorem newFile_ready {c : Cluster} {sv : Server} (hready : c.IndexReady sv) (fs : XFileServer)
    (net : XFileNetworkIndex) (raw : StateRawPackets) :
    newFile sv fs net raw = some
      (freshContainer raw.fc.name (fs.fileCount + 1) raw.totalSize (c.fragcount raw.totalSize),
        c.tableEntry (u16 (fs.fileCount + 1)) raw.totalSize) := by
  rw [newFile, serverIndexHandleNewFile_ready hready]
  simp only [Option.bind_eq_bind, Option.bind_some, XFileServer.fileCount, List.getElem?_concat_length,
    xfilenetindexAddFile, List.getLast?_concat]
  rfl

/-- The fragments fit a byte unless a network of more nodes splits the file. -/
theorem fragcount_lt_iff (c : Cluster) (size : ℕ) :
    c.fragcount size < 2 ^ 8 ↔
      size ≤ c.N ∨ size ≤ MINIMAL_SIZE_FOR_SPLIT ∨ c.N < 2 ^ 8 := by
  unfold Cluster.fragcount
  split_ifs with hsmall
  · exact iff_of_true (by norm_num) (hsmall.imp_right .inl)
  · rw [not_or] at hsmall
    rw [or_iff_right hsmall.1, or_iff_right hsmall.2]

/-- An upload that `p` announces to the index of a whole network, and its download, keep every
value exactly when the size is below `2^31` and the fragments fit a byte. -/
theorem nothing_narrowed_iff {c : Cluster} {sv : Server} (hready : c.IndexReady sv)
    (fs : XFileServer) (net : XFileNetworkIndex) (old : StateRawPackets) (p : XPacket) (fd : ℕ) :
    let size := (XRequestFileCreation.ofContent (content p)).fileSize
    let raw := (typeCreateFile sv old p fd).1
    (∃ x ∈ newFile sv fs net raw, NothingNarrowed (c.fragcount size) sv raw x.1 x.2) ↔
      size < 2 ^ 31 ∧ (size ≤ c.N ∨ size ≤ MINIMAL_SIZE_FOR_SPLIT ∨ c.N < 2 ^ 8) := by
  intro size raw
  have hwaits : WaitsExactly raw size ↔ size < 2 ^ 31 := waitsExactly_iff rfl rfl
  rw [newFile_ready hready, ← fragcount_lt_iff]
  constructor
  · rintro ⟨x, hx, h⟩
    obtain rfl := Option.some.inj hx
    refine ⟨hwaits.mp h.waits, ?_⟩
    rw [← h.places.fragmentCountTotal]
    exact Nat.mod_lt _ (by norm_num)
  · rintro ⟨hsize, hcount⟩
    have hbuffer : waitedSize raw = size := (hwaits.mpr hsize).size
    have hrequested := gateway_requested hcount hsize sv raw.fc.name (fs.fileCount + 1)
    refine ⟨_, rfl, ?_⟩
    exact {
      waits := hwaits.mpr hsize
      places := placesExactly_of hsize hcount _
      fansOut := hbuffer ▸ fansOutExactly_of hsize hcount _
      stores := fun i hi j hj ptrIndex holder fs old fd =>
        storesExactly_of hsize hcount sv _ hi hj ptrIndex holder fs old fd
      reports := fun holder file hfile => by
        rw [reported_fragCount, hfile]
        exact (u8_of_lt (Nat.mod_lt _ (by norm_num))).trans (u8_of_lt hcount)
      collects := hrequested ▸ collectsExactly_of hsize hcount _ _
      delivers := fun i hi holder fileId =>
        hrequested ▸ deliversExactly_of hsize hcount _ hi holder fileId }

/-! ## Two files -/

/-- A client announces a file of `size` bytes. -/
def uploadPacket (size : ℕ) : XPacket :=
  commPacket 0 CLIENT_NODE_ID TYPE_CREATE_FILE (XRequestFileCreation.bytes ⟨char200 [97], size⟩)
    SIZEOF_COMM

theorem announced_fileSize {size : ℕ} (hsize : size < 2 ^ 64) :
    (XRequestFileCreation.ofContent (content (uploadPacket size))).fileSize = size := by
  rw [uploadPacket, content_commPacket, XRequestFileCreation.ofContent_bytes]
  exact u64_of_lt hsize

/-- Three nodes, 200 bytes. -/
theorem nothing_narrowed_three_nodes :
    let raw := (typeCreateFile Cluster.three.readyIndex .zero (uploadPacket 200) 9).1
    ∃ x ∈ newFile Cluster.three.readyIndex xfileserverInit xfilenetindexInit raw,
      NothingNarrowed (Cluster.three.fragcount
        (XRequestFileCreation.ofContent (content (uploadPacket 200))).fileSize)
        Cluster.three.readyIndex raw x.1 x.2 := by
  refine (nothing_narrowed_iff Cluster.three.readyIndex_ready xfileserverInit xfilenetindexInit
    .zero (uploadPacket 200) 9).mpr ?_
  rw [announced_fileSize (by norm_num)]
  decide

/-- A network of 256 nodes cuts 257 bytes into 256 fragments, and the container counts none. -/
theorem not_nothing_narrowed :
    ¬ ∀ (c : Cluster) (sv : Server), c.IndexReady sv →
      ∀ (fs : XFileServer) (net : XFileNetworkIndex) (old : StateRawPackets) (p : XPacket) (fd : ℕ),
        ∃ x ∈ newFile sv fs net (typeCreateFile sv old p fd).1,
          NothingNarrowed (c.fragcount (XRequestFileCreation.ofContent (content p)).fileSize) sv
            (typeCreateFile sv old p fd).1 x.1 x.2 := by
  intro hall
  set c := Cluster.boot 256 (by decide) (by decide) with hc
  have hready := c.readyIndex_ready
  obtain ⟨x, hx, h⟩ := hall c c.readyIndex hready xfileserverInit xfilenetindexInit .zero
    (uploadPacket 257) 9
  rw [newFile_ready hready] at hx
  obtain rfl := Option.some.inj hx
  have hcount := h.places.fragmentCountTotal
  have hsplit : c.fragcount 257 = 256 := by
    rw [hc, Cluster.fragcount, Cluster.boot]
    decide
  have htotal : (typeCreateFile c.readyIndex .zero (uploadPacket 257) 9).1.totalSize = 257 :=
    announced_fileSize (by norm_num)
  rw [announced_fileSize (by norm_num), freshContainer, htotal, hsplit] at hcount
  exact absurd hcount (by decide)

end DSS
