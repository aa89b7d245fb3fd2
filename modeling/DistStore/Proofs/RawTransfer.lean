import DistStore.Model.RawTransfer
import DistStore.Model.RingNet

/-! Raw transfers. A receiving loop counts its rounds and takes what they bring: it
ends with the payload exactly when the stream comes in as many pieces as it counts. -/

namespace DSS

open Chunks Splice

variable {forward : Bool} {n : ℕ} {rs rest' : List Recv} {st : RawLoop}

/-! ## The loop -/

theorem malloc_length (mem : ℕ → UInt8) (size : ℤ) : (malloc mem size).length = size.toNat := by
  rw [malloc, List.length_map, List.length_range]

theorem writeBuffer_eq_some {buffer bs b : List UInt8} {off : ℕ} :
    writeBuffer buffer off bs = some b ↔ off + bs.length ≤ buffer.length ∧ splice buffer off bs = b := by
  simp only [writeBuffer, Int.natCast_nonneg, Int.toNat_natCast, true_and]
  split_ifs with h <;> simp [h]

theorem receiveRaw_eq_some {r : Recv} {st' : RawLoop} :
    receiveRaw forward st r = some st' ↔ ∃ bs, r = some bs ∧
      st.populated + bs.length ≤ st.buffer.length ∧
      st' = ⟨splice st.buffer st.populated bs, st.populated + bs.length,
        if forward then st.forwarded ++ [bs] else st.forwarded⟩ := by
  cases r with
  | none => simp [receiveRaw]
  | some bs =>
    simp only [receiveRaw, Option.bind_eq_bind, Option.bind_some, Option.bind_eq_some_iff,
      writeBuffer_eq_some, Option.pure_def, Option.some.injEq]
    constructor
    · rintro ⟨_, ⟨hle, rfl⟩, rfl⟩
      exact ⟨bs, rfl, hle, rfl⟩
    · rintro ⟨_, rfl, hle, rfl⟩
      exact ⟨_, ⟨hle, rfl⟩, rfl⟩

/-- A loop that is done took `n` results, none of them an error, and they fit. -/
theorem receiveLoop_eq_done (hst : st.populated ≤ st.buffer.length) {st' : RawLoop}
    (h : receiveLoop forward n st rs = .done st' rest') :
    ∃ cs : List XPacket, rs = cs.map some ++ rest' ∧ cs.length = n ∧
      st'.buffer.length = st.buffer.length ∧
      st'.populated = st.populated + cs.flatten.length ∧ st'.populated ≤ st'.buffer.length := by
  induction n generalizing st rs with
  | zero =>
    simp only [receiveLoop, Received.done.injEq] at h
    obtain ⟨rfl, rfl⟩ := h
    exact ⟨[], by simp, rfl, rfl, by simp, hst⟩
  | succ n ih =>
    cases rs with
    | nil => simp [receiveLoop] at h
    | cons r rs =>
      cases hr : receiveRaw forward st r with
      | none => simp [receiveLoop, hr] at h
      | some st1 =>
        obtain ⟨bs, rfl, hle, rfl⟩ := receiveRaw_eq_some.mp hr
        simp only [receiveLoop, hr] at h
        have hlen := splice_length hle
        obtain ⟨cs, rfl, rfl, hb, hp, hfit⟩ := ih (by simpa only [hlen] using hle) h
        refine ⟨bs :: cs, rfl, rfl, by rw [hb, hlen], ?_, hfit⟩
        rw [hp, List.flatten_cons, List.length_append, Nat.add_assoc]

theorem receiveLoop_data (forward : Bool) (pre : List UInt8) (fw : List XPacket)
    {room : List UInt8} {cs : List XPacket} (hroom : cs.flatten.length ≤ room.length)
    (rest : List Recv) :
    receiveLoop forward cs.length ⟨pre ++ room, pre.length, fw⟩ (cs.map some ++ rest) =
      .done ⟨pre ++ cs.flatten ++ room.drop cs.flatten.length, (pre ++ cs.flatten).length,
        if forward then fw ++ cs else fw⟩ rest := by
  induction cs generalizing pre room fw with
  | nil => simp [receiveLoop]
  | cons bs cs ih =>
    rw [List.flatten_cons, List.length_append] at hroom
    have hwrite : splice (pre ++ room) pre.length bs = (pre ++ bs) ++ room.drop bs.length := by
      rw [splice, List.take_left' rfl, List.drop_append, List.drop_of_length_le (by omega),
        List.nil_append, Nat.add_sub_cancel_left]
    have hr : receiveRaw forward ⟨pre ++ room, pre.length, fw⟩ (some bs) =
        some ⟨(pre ++ bs) ++ room.drop bs.length, (pre ++ bs).length,
          if forward then fw ++ [bs] else fw⟩ := by
      refine receiveRaw_eq_some.mpr ⟨bs, rfl, ?_, ?_⟩
      · show pre.length + bs.length ≤ (pre ++ room).length
        rw [List.length_append]
        omega
      · rw [hwrite, List.length_append]
    have hrest : cs.flatten.length ≤ (room.drop bs.length).length := by
      rw [List.length_drop]
      omega
    rw [List.length_cons, List.map_cons, List.cons_append, receiveLoop, hr]
    refine (ih _ _ hrest).trans ?_
    simp only [List.flatten_cons, List.append_assoc, List.length_append, List.drop_drop]
    cases forward <;> simp

/-! ## Counts -/

theorem nPackets_lt {n : ℕ} (h : n < 2 ^ 31) : nPackets n < 2 ^ 31 := by
  rw [nPackets, SERVER_BUCKET_SIZE]
  omega

theorem nPackets_eq_ceil_iff (s : ℕ) :
    (s + (SERVER_BUCKET_SIZE - 1)) / SERVER_BUCKET_SIZE = nPackets s ↔ s % 4096 ≠ 0 := by
  simp only [nPackets, SERVER_BUCKET_SIZE]
  omega

theorem flatten_tcpSends (ps : List XPacket) : (tcpSends ps).flatten = ps.flatten :=
  List.flatten_filter_ne_nil

theorem length_serverSendLargeBufferTo (buffer : List UInt8) :
    (serverSendLargeBufferTo buffer).length =
      (buffer.length + (SERVER_BUCKET_SIZE - 1)) / SERVER_BUCKET_SIZE := by
  have h : largeBufferPackets buffer =
      chunks SERVER_BUCKET_SIZE (nPackets buffer.length) buffer := rfl
  rw [serverSendLargeBufferTo, tcpSends, h, length_filter_chunks (by decide), min_eq_right]
  simp only [nPackets, SERVER_BUCKET_SIZE]
  omega

theorem rawReceives_of_lt {raw : StateRawPackets} (h : raw.nPkts < 2 ^ 31) :
    rawReceives raw = raw.nPkts := by
  rw [rawReceives, cInt_of_lt h, Int.toNat_natCast]

theorem largeBufferReceives_natCast (s : ℕ) : largeBufferReceives s = nPackets s := by
  simp only [largeBufferReceives, nPackets, SERVER_BUCKET_SIZE, Int.natCast_tdiv_eq_ediv]
  omega

theorem typeStoreFragment_snd (fs : XFileServer) (p : XPacket) :
    (typeStoreFragment fs p).2 = XRequestFragmentCreation.ofContent (content p) := by
  rw [typeStoreFragment]
  split <;> rfl

/-- Machine state before the first transfer. -/
def StateRawPackets.zero : StateRawPackets :=
  ⟨0, 0, 0, 0, ⟨[], 0⟩, ⟨[], 0, 0, 0, 0, 0, 0⟩⟩

/-- A request that announces `size` bytes, as a file and as a fragment. -/
def announcePacket (type size : ℕ) : XPacket :=
  commPacket (SIZEOF_COMM + 2) 1 type (XRequestFragmentCreation.bytes ⟨[97], size, 1, 1, 0, 1, size⟩)
    (SIZEOF_COMM + 2)

/-! ## Segmentation -/

def Received.HasPayload (payload : List UInt8) (r : Received) : Prop :=
  ∃ st rest, r = .done st rest ∧ st.populated = payload.length ∧ st.buffer = payload

/-- A loop of `n` rounds over a buffer of the payload's size ends with the payload when
the stream comes in `n` pieces, and only then. -/
theorem receiveLoop_hasPayload_iff {payload : List UInt8} {cut : List XPacket}
    (hcut : Cuts SERVER_BUCKET_SIZE payload cut) {buffer : List UInt8}
    (hbuffer : buffer.length = payload.length) :
    (receiveLoop forward n ⟨buffer, 0, []⟩ (cut.map some)).HasPayload payload ↔ cut.length = n := by
  constructor
  · rintro ⟨st, rest, h, hpop, -⟩
    obtain ⟨cs, hrs, rfl, -, hp, -⟩ := receiveLoop_eq_done (Nat.zero_le _) h
    have hle : cs.length ≤ cut.length := by
      have hlen := congrArg List.length hrs
      simp only [List.length_map, List.length_append] at hlen
      omega
    have hcs : cs = cut.take cs.length := by
      refine List.map_injective_iff.mpr (Option.some_injective _) ?_
      rw [List.map_take, hrs, List.take_left' (List.length_map ..)]
    -- a piece left unread is missing from the count of bytes
    by_contra hne
    have hlt := hcut.length_take_lt (show cs.length < cut.length by omega)
    rw [← hcs] at hlt
    simp only [hp] at hpop
    omega
  · rintro rfl
    have hroom : cut.flatten.length ≤ buffer.length := by rw [hcut.flatten, hbuffer]
    have h := receiveLoop_data forward [] [] hroom []
    rw [List.append_nil] at h
    refine ⟨_, _, h, ?_, ?_⟩
    · rw [List.nil_append, hcut.flatten]
    · show [] ++ cut.flatten ++ buffer.drop cut.flatten.length = payload
      rw [hcut.flatten, ← hbuffer, List.drop_length, List.nil_append, List.append_nil]

/-- A buffer of another size never holds the payload. -/
theorem receiveLoop_not_hasPayload {payload : List UInt8} {buffer : List UInt8}
    (hbuffer : buffer.length ≠ payload.length) :
    ¬ (receiveLoop forward n ⟨buffer, 0, []⟩ rs).HasPayload payload := by
  rintro ⟨st, rest, h, -, hb⟩
  obtain ⟨-, -, -, hlen, -⟩ := receiveLoop_eq_done (Nat.zero_le _) h
  exact hbuffer (hlen.symm.trans (congrArg List.length hb))

theorem cInt_lt (x : ℕ) : cInt x < 2 ^ 31 := by
  rw [cInt]
  split_ifs <;> omega

/-- However the stream of a payload is cut, both receivers end with the payload in their
buffer exactly when it comes in as many pieces as they count, and fits an `int`. -/
theorem receivers_hold_payload_iff {payload : List UInt8} {cut : List XPacket}
    (hcut : Cuts SERVER_BUCKET_SIZE payload cut) (mem : ℕ → UInt8) (sv : Server)
    (raw : StateRawPackets) (hsize : raw.totalSize = payload.length)
    (hn : raw.nPkts = nPackets payload.length) :
    ((serverWaitingRawPackets mem sv raw (cut.map some)).HasPayload payload ↔
      payload.length < 2 ^ 31 ∧ cut.length = payload.length / 4096 + 1) ∧
    ((serverWaitLargeBufferFrom (cInt payload.length) (malloc mem (cInt payload.length))
        (cut.map some)).HasPayload payload ↔
      payload.length < 2 ^ 31 ∧ cut.length = payload.length / 4096 + 1) := by
  rw [serverWaitingRawPackets, serverWaitLargeBufferFrom, hsize]
  by_cases hlt : payload.length < 2 ^ 31
  · have hbuffer : (malloc mem (cInt payload.length)).length = payload.length := by
      rw [malloc_length, cInt_of_lt hlt, Int.toNat_natCast]
    have hpkts := nPackets_lt hlt
    rw [receiveLoop_hasPayload_iff hcut hbuffer, receiveLoop_hasPayload_iff hcut hbuffer,
      rawReceives_of_lt (by rw [hn]; exact hpkts), hn, cInt_of_lt hlt, largeBufferReceives_natCast]
    simp only [hlt, true_and, nPackets, SERVER_BUCKET_SIZE, and_self]
  · have hbuffer : (malloc mem (cInt payload.length)).length ≠ payload.length := by
      rw [malloc_length]
      have := cInt_lt payload.length
      omega
    simp only [receiveLoop_not_hasPayload hbuffer, hlt, false_and, and_self]

/-- The state `TYPE_STORE_FRAGMENT` leaves for a fragment of `size` bytes. -/
def storingState (size : ℕ) : StateRawPackets :=
  (typeStoreFragmentRaw Cluster.three.readyIndex xfileserverInit .zero
    (announcePacket TYPE_STORE_FRAGMENT size) 5).2.1

theorem receivers_hold_payload_ten_bytes :
    (serverWaitingRawPackets (fun _ => 0) Cluster.three.readyIndex
        (storingState 10) [some (List.replicate 10 7)]).HasPayload (List.replicate 10 7) ∧
      (serverWaitLargeBufferFrom (cInt 10) (malloc (fun _ => 0) (cInt 10))
        [some (List.replicate 10 7)]).HasPayload (List.replicate 10 7) := by
  have hcut : Cuts SERVER_BUCKET_SIZE (List.replicate 10 (7 : UInt8)) [List.replicate 10 7] :=
    ⟨by decide, by decide, by decide⟩
  obtain ⟨hraw, hlarge⟩ := receivers_hold_payload_iff hcut (fun _ => 0)
    Cluster.three.readyIndex (storingState 10)
    (by decide +kernel) (by decide +kernel)
  exact ⟨hraw.mpr (by decide), hlarge.mpr (by decide)⟩

/-- The same ten bytes in two pieces: each receiver stops after the first one, with the
rest of the buffer as `malloc` returned it. -/
theorem not_receivers_hold_payload_two_pieces :
    serverWaitingRawPackets (fun _ => 0) Cluster.three.readyIndex
        (storingState 10) [some (List.replicate 5 7), some (List.replicate 5 7)] =
      .done ⟨[7, 7, 7, 7, 7, 0, 0, 0, 0, 0], 5, []⟩ [some (List.replicate 5 7)] ∧
    serverWaitLargeBufferFrom (cInt 10) (malloc (fun _ => 0) (cInt 10))
        [some (List.replicate 5 7), some (List.replicate 5 7)] =
      .done ⟨[7, 7, 7, 7, 7, 0, 0, 0, 0, 0], 5, []⟩ [some (List.replicate 5 7)] := by
  decide +kernel

/-! ## Aborted transfers -/

def bytesReceived (rs : List Recv) : ℕ := (rs.filterMap id).flatten.length

theorem bytesReceived_map_some (cs : List XPacket) :
    bytesReceived (cs.map some) = cs.flatten.length := by
  rw [bytesReceived, List.filterMap_map]
  simp

theorem exists_map_some (h : none ∉ rs) : ∃ cs : List XPacket, rs = cs.map some := by
  induction rs with
  | nil => exact ⟨[], rfl⟩
  | cons r rs ih =>
    rw [List.mem_cons, not_or] at h
    obtain ⟨bs, rfl⟩ := Option.ne_none_iff_exists'.mp (Ne.symm h.1)
    obtain ⟨cs, rfl⟩ := ih h.2
    exact ⟨bs :: cs, rfl⟩

theorem receiveLoop_done_iff (forward : Bool) (buffer : List UInt8) (hn : rs.length = n) :
    (∃ st rest, receiveLoop forward n ⟨buffer, 0, []⟩ rs = .done st rest) ↔
      none ∉ rs ∧ bytesReceived rs ≤ buffer.length := by
  subst hn
  constructor
  · rintro ⟨st, rest, h⟩
    obtain ⟨cs, hcs, hn, hb, hp, hle⟩ := receiveLoop_eq_done (Nat.zero_le _) h
    have hrest : rest = [] := by
      have hlen := congrArg List.length hcs
      rw [List.length_append, List.length_map, hn] at hlen
      exact List.eq_nil_of_length_eq_zero (by omega)
    rw [hcs, hrest, List.append_nil, bytesReceived_map_some]
    refine ⟨by simp, ?_⟩
    simp only at hb hp
    omega
  · rintro ⟨herr, hle⟩
    obtain ⟨cs, rfl⟩ := exists_map_some herr
    rw [bytesReceived_map_some] at hle
    have h := receiveLoop_data forward [] [] hle []
    rw [List.append_nil] at h
    rw [List.length_map]
    exact ⟨_, _, h⟩

/-- Nothing is stored unless all bytes came, and otherwise the node is idle again with its
store and its table as they were. -/
structure AbortsCleanly (nd : Node) (totalSize : ℕ) (rs : List Recv) (t : Option Transferred) :
    Prop where
  stored : ∀ t', t = some t' → t'.stored = true → bytesReceived rs = totalSize
  idle : bytesReceived rs ≠ totalSize → ∃ t', t = some t' ∧ t'.node.sv.state = .idle ∧
    t'.node.fs = nd.fs ∧ t'.node.fnetidx = nd.fnetidx

theorem announceRaw_createFile {nd : Node} {old : StateRawPackets} {p : XPacket} {fd : ℕ}
    (h : commType p = TYPE_CREATE_FILE) :
    announceRaw nd old p fd = (nd, (typeCreateFile nd.sv old p fd).1) := if_pos h

/-- The container a fragment needs is there before its bytes. -/
theorem announceRaw_storeFragment (nd : Node) (old : StateRawPackets) {p : XPacket} (fd : ℕ)
    (h : commType p = TYPE_STORE_FRAGMENT) :
    (announceRaw nd old p fd).1.sv = nd.sv ∧ (announceRaw nd old p fd).2.triggerPkt = TYPE_STORE_FRAGMENT ∧
      (announceRaw nd old p fd).1.fs =
        if xfileserverFindFile nd.fs (announceRaw nd old p fd).2.fragc.fileId = none then
          (xfileserverAddFile nd.fs (announceRaw nd old p fd).2.fragc.fileName
            (announceRaw nd old p fd).2.fragc.fileId (announceRaw nd old p fd).2.fragc.fileSize
            (announceRaw nd old p fd).2.fragc.fragmentCountTotal).1
        else nd.fs := by
  have hne : ¬ commType p = TYPE_CREATE_FILE := by
    rw [h]
    decide
  simp only [announceRaw, if_neg hne, typeStoreFragmentRaw, typeStoreFragment, true_and]
  cases hfind : xfileserverFindFile nd.fs (XRequestFragmentCreation.ofContent (content p)).fileId <;>
    simp [hfind]

theorem rawTransfer_eq_some {mem : ℕ → UInt8} {nd : Node} {raw : StateRawPackets}
    {t : Transferred} (h : rawTransfer mem nd raw rs = some t) :
    ∃ st rest, serverWaitingRawPackets mem nd.sv raw rs = .done st rest ∧
      handleBuffer nd raw st.buffer = some t := by
  rw [rawTransfer] at h
  split at h
  · exact ⟨_, _, ‹_›, h⟩
  · simp at h

theorem length_serverReceivedFragment (fs : XFileServer) (c : XRequestFragmentCreation)
    (buffer : List UInt8) : (serverReceivedFragment fs c buffer).files.length = fs.files.length := by
  rw [serverReceivedFragment]
  split
  · rfl
  · rw [XFileServer.update, List.length_modify]

theorem handleBuffer_index {nd : Node} {raw : StateRawPackets} {buffer : List UInt8}
    {t : Transferred} (htrigger : raw.triggerPkt = TYPE_CREATE_FILE)
    (hindex : serverIsIndex nd.sv = true) (h : handleBuffer nd raw buffer = some t) :
    t.node.sv.state = .indexFanoutFragments := by
  have hnext : rawPacketsDone nd.sv raw.triggerPkt = .indexHandleNewFile := by
    rw [rawPacketsDone, if_pos htrigger, if_pos hindex]
  simp only [handleBuffer, hnext, Option.bind_eq_bind, Option.bind_eq_some_iff] at h
  obtain ⟨r, -, ht⟩ := h
  obtain rfl := Option.some.inj ht
  rfl

theorem handleBuffer_gateway {nd : Node} {raw : StateRawPackets} (buffer : List UInt8)
    (htrigger : raw.triggerPkt = TYPE_CREATE_FILE) (hindex : serverIsIndex nd.sv = false) :
    handleBuffer nd raw buffer = some ⟨{ nd with sv := serverSetState nd.sv .idle }, false⟩ := by
  have hnext : rawPacketsDone nd.sv raw.triggerPkt = .idle := by
    rw [rawPacketsDone, if_pos htrigger, hindex]
    rfl
  simp only [handleBuffer, hnext]

theorem handleBuffer_fragment {nd : Node} {raw : StateRawPackets} (buffer : List UInt8)
    (htrigger : raw.triggerPkt = TYPE_STORE_FRAGMENT) :
    handleBuffer nd raw buffer = some
      ⟨⟨serverSetState nd.sv .idle, serverReceivedFragment nd.fs raw.fragc buffer, nd.fnetidx⟩,
        (xfileserverFindFile nd.fs raw.fragc.fileId).isSome⟩ := by
  have hnext : rawPacketsDone nd.sv raw.triggerPkt = .receivedFragment := by
    rw [rawPacketsDone, htrigger]
    rfl
  simp only [handleBuffer, hnext]

/-- A fragment that is not added leaves the container that was made for it. -/
theorem storeFragment_changes {nd : Node} {old : StateRawPackets} {p : XPacket} {fd : ℕ}
    (htype : commType p = TYPE_STORE_FRAGMENT) {buffer : List UInt8} {t : Transferred}
    (ht : handleBuffer (announceRaw nd old p fd).1 (announceRaw nd old p fd).2 buffer = some t)
    (hnot : t.stored = false) : t.node.fs ≠ nd.fs := by
  obtain ⟨-, htrigger, hfs⟩ := announceRaw_storeFragment nd old fd htype
  rw [handleBuffer_fragment buffer htrigger, Option.some.injEq] at ht
  subst ht
  simp only [Option.isSome_eq_false_iff, Option.isNone_iff_eq_none] at hnot
  have hlen := length_serverReceivedFragment (announceRaw nd old p fd).1.fs
    (announceRaw nd old p fd).2.fragc buffer
  split_ifs at hfs with hfind
  · intro hsame
    simp only at hsame
    rw [hsame, hfs, xfileserverAddFile, List.length_append] at hlen
    simp at hlen
  · exact absurd (hfs ▸ hnot) hfind

/-- A transfer aborts cleanly exactly when it is no aborted one, or it passes through a
gateway: no receive fails there, and no more bytes come than the buffer holds. -/
theorem abortsCleanly_iff (mem : ℕ → UInt8) (nd : Node) (old : StateRawPackets) (p : XPacket)
    (fd : ℕ) (rs : List Recv)
    (htype : commType p = TYPE_CREATE_FILE ∨ commType p = TYPE_STORE_FRAGMENT)
    (hrs : rs.length = rawReceives (announceRaw nd old p fd).2) :
    AbortsCleanly nd (announceRaw nd old p fd).2.totalSize rs
        (rawTransfer mem (announceRaw nd old p fd).1 (announceRaw nd old p fd).2 rs) ↔
      bytesReceived rs = (announceRaw nd old p fd).2.totalSize ∨
        (commType p = TYPE_CREATE_FILE ∧ serverIsIndex nd.sv = false ∧ none ∉ rs ∧
          bytesReceived rs ≤ (cInt (announceRaw nd old p fd).2.totalSize).toNat) := by
  by_cases hall : bytesReceived rs = (announceRaw nd old p fd).2.totalSize
  · exact iff_of_true ⟨fun _ _ _ => hall, fun h => absurd hall h⟩ (.inl hall)
  · have hloop := receiveLoop_done_iff ((announceRaw nd old p fd).2.triggerPkt = TYPE_CREATE_FILE &&
      !serverIsIndex (announceRaw nd old p fd).1.sv)
      (malloc mem (cInt (announceRaw nd old p fd).2.totalSize)) hrs
    rw [malloc_length] at hloop
    rw [or_iff_right hall]
    constructor
    · rintro ⟨hstored, hidle⟩
      obtain ⟨t, ht, hstate, hfs, -⟩ := hidle hall
      obtain ⟨st, rest, hdone, hbuffer⟩ := rawTransfer_eq_some ht
      have hnot : t.stored = false := by
        by_contra h
        exact hall (hstored t ht (by simpa using h))
      rcases htype with h | h
      · refine ⟨h, ?_, hloop.mp ⟨st, rest, hdone⟩⟩
        rw [announceRaw_createFile h] at hbuffer
        by_contra hindex
        have hnext := handleBuffer_index rfl (by simpa using hindex) hbuffer
        rw [hstate] at hnext
        exact absurd hnext (by decide)
      · exact absurd hfs (storeFragment_changes h hbuffer hnot)
    · rintro ⟨htype, hgate, hfits⟩
      obtain ⟨st, rest, hdone⟩ := hloop.mpr hfits
      have ht : rawTransfer mem (announceRaw nd old p fd).1 (announceRaw nd old p fd).2 rs =
          handleBuffer (announceRaw nd old p fd).1 (announceRaw nd old p fd).2 st.buffer := by
        rw [rawTransfer, serverWaitingRawPackets, hdone]
      rw [announceRaw_createFile htype, handleBuffer_gateway st.buffer rfl hgate] at ht
      rw [announceRaw_createFile htype, ht]
      exact ⟨by simp, fun _ => ⟨_, rfl, rfl, rfl, rfl⟩⟩

/-- Node `n` of three, as a gateway or the index, with empty stores. -/
def emptyNode (n : ℕ) : Node :=
  ⟨Cluster.three.bootedServer n, xfileserverInit, xfilenetindexInit⟩

/-- The client closes before it has sent a byte of the file; node 1 is a gateway. -/
theorem abortsCleanly_gateway :
    AbortsCleanly (emptyNode 1) 10 [some []]
      (rawTransfer (fun _ => 0) (emptyNode 1)
        (announceRaw (emptyNode 1) .zero (announcePacket TYPE_CREATE_FILE 10) 5).2 [some []]) :=
  (abortsCleanly_iff (fun _ => 0) (emptyNode 1) .zero (announcePacket TYPE_CREATE_FILE 10) 5
    [some []] (by decide +kernel) (by decide +kernel)).mpr
    (.inr (by decide +kernel))

/-- The same at the index: a file of ten bytes is created and nothing was received. -/
theorem not_abortsCleanly_index :
    ¬ AbortsCleanly (emptyNode 3) 10 [some []]
      (rawTransfer (fun _ => 0) (emptyNode 3)
        (announceRaw (emptyNode 3) .zero (announcePacket TYPE_CREATE_FILE 10) 5).2 [some []]) := by
  rintro ⟨-, hidle⟩
  obtain ⟨t, ht, hstate, -⟩ := hidle (by decide)
  have hnext : (rawTransfer (fun _ => 0) (emptyNode 3)
      (announceRaw (emptyNode 3) .zero (announcePacket TYPE_CREATE_FILE 10) 5).2 [some []]).map
        (fun t => (t.node.sv.state, t.stored)) = some (.indexFanoutFragments, true) := by
    decide +kernel
  rw [ht, Option.map_some, Option.some.injEq, Prod.mk.injEq, hstate] at hnext
  exact absurd hnext.1 (by decide)

end DSS
