import DistStore.Proofs.LargeSend
import DistStore.Proofs.RawTransfer

/-! How many writes a sender makes and how many receives they meet, with one receive for each
write. A receiver makes as many rounds as it computed from the size, but it gets no further than
the first round that waits or has no room. -/

namespace DSS

open Chunks

variable {forward : Bool} {n k : ℕ} {st : RawLoop} {cs : List XPacket}

theorem receivesMade_of_fits (hfits : st.populated + cs.flatten.length ≤ st.buffer.length) :
    receivesMade forward n st (cs.map some) = min n (cs.length + 1) := by
  induction cs generalizing n st with
  | nil => cases n <;> simp [receivesMade]
  | cons bs cs ih =>
    cases n with
    | zero => simp [receivesMade]
    | succ n =>
      rw [List.flatten_cons, List.length_append] at hfits
      have hle : st.populated + bs.length ≤ st.buffer.length := by omega
      have hr : receiveRaw forward st (some bs) = some _ := receiveRaw_eq_some.mpr ⟨bs, rfl, hle, rfl⟩
      rw [List.map_cons, receivesMade, hr]
      dsimp only
      have hlen := Splice.splice_length hle
      rw [ih (by dsimp only; omega), List.length_cons, Nat.add_min_add_right]

/-- No receive comes after the first write that has no room. -/
theorem receivesMade_le (hst : st.populated ≤ st.buffer.length)
    (hover : st.buffer.length < st.populated + (cs.take k).flatten.length) :
    receivesMade forward n st (cs.map some) ≤ k := by
  induction k generalizing n st cs with
  | zero =>
    rw [List.take_zero, List.flatten_nil, List.length_nil] at hover
    omega
  | succ k ih =>
    cases n with
    | zero => exact Nat.zero_le _
    | succ n =>
      cases cs with
      | nil =>
        rw [List.take_nil, List.flatten_nil, List.length_nil] at hover
        omega
      | cons bs cs =>
        rw [List.map_cons, receivesMade]
        cases hr : receiveRaw forward st (some bs) with
        | none => exact Nat.le_add_left 1 k
        | some st' =>
          obtain ⟨_, hbs, hle, rfl⟩ := receiveRaw_eq_some.mp hr
          obtain rfl := Option.some.inj hbs
          rw [List.take_succ_cons, List.flatten_cons, List.length_append] at hover
          have hlen := Splice.splice_length hle
          exact Nat.succ_le_succ (ih (by simpa only [hlen] using hle) (by
            dsimp only
            omega))

/-- A loop into a buffer of the payload's size counts one receive too many when the payload is a
multiple of 4096 bytes, which comes in `s / 4096` writes. -/
theorem receivesMade_eq_iff (forward : Bool) {buffer : List UInt8} {payload : List UInt8} (hcs : cs.flatten = payload)
    (hbuffer : buffer.length = payload.length)
    (hlength : cs.length = (payload.length + (SERVER_BUCKET_SIZE - 1)) / SERVER_BUCKET_SIZE) :
    receivesMade forward (nPackets payload.length) ⟨buffer, 0, []⟩ (cs.map some) = cs.length ↔
      payload.length % 4096 ≠ 0 := by
  rw [receivesMade_of_fits (by rw [hcs, hbuffer]; exact (Nat.zero_add _).le),
    ← nPackets_eq_ceil_iff, ← hlength]
  omega

/-! ## The senders -/

theorem length_handleFileTransmission (buffer : List UInt8) :
    (tcpSends (handleFileTransmission buffer)).length =
      (buffer.length + (SERVER_BUCKET_SIZE - 1)) / SERVER_BUCKET_SIZE := by
  rw [tcpSends, handleFileTransmission, length_filter_chunks (by decide), min_self]

theorem flatten_handleFileTransmission (buffer : List UInt8) :
    (tcpSends (handleFileTransmission buffer)).flatten = buffer := by
  rw [flatten_tcpSends, handleFileTransmission, flatten_chunks, List.take_of_length_le]
  rw [SERVER_BUCKET_SIZE]
  omega

theorem length_take_handleFileTransmission (buffer : List UInt8) :
    buffer.length ≤ ((tcpSends (handleFileTransmission buffer)).take
        ((tcpSends (handleFileTransmission buffer)).length - 1)).flatten.length +
      SERVER_BUCKET_SIZE := by
  have hflatten := flatten_handleFileTransmission buffer
  have hle : ∀ w ∈ tcpSends (handleFileTransmission buffer), w.length ≤ SERVER_BUCKET_SIZE := by
    intro w hw
    obtain ⟨i, -, rfl⟩ := List.mem_map.mp (List.mem_of_mem_filter hw)
    exact (List.length_take_le ..)
  generalize tcpSends (handleFileTransmission buffer) = ws at hflatten hle
  have hsplit := congrArg List.length hflatten
  rw [← List.take_append_drop (ws.length - 1) ws, List.flatten_append, List.length_append] at hsplit
  have hdrop : (ws.drop (ws.length - 1)).flatten.length ≤ SERVER_BUCKET_SIZE := by
    rcases List.eq_nil_or_concat ws with rfl | ⟨ws', w, rfl⟩
    · exact Nat.zero_le _
    · simpa using hle w (by simp)
  omega

/-- A size that is no `int` is taken for one that lacks more than a bucket. -/
theorem toNat_cInt_add_lt {s : ℕ} (h : 2 ^ 31 ≤ s) :
    (cInt s).toNat + SERVER_BUCKET_SIZE < s := by
  rw [cInt, SERVER_BUCKET_SIZE]
  split_ifs <;> omega

theorem createFile_counts_iff (mem : ℕ → UInt8) (sv : Server) {raw : StateRawPackets}
    {buffer : List UInt8} (hsize : raw.totalSize = buffer.length)
    (hn : raw.nPkts = nPackets buffer.length) :
    rawReceivesMade mem sv raw ((tcpSends (handleFileTransmission buffer)).map some) =
        (tcpSends (handleFileTransmission buffer)).length ↔
      buffer.length % 4096 ≠ 0 ∧ buffer.length < 2 ^ 31 := by
  rw [rawReceivesMade, hsize]
  by_cases hlt : buffer.length < 2 ^ 31
  · have hbuffer : (malloc mem (cInt buffer.length)).length = buffer.length := by
      rw [malloc_length, cInt_of_lt hlt, Int.toNat_natCast]
    rw [rawReceives_of_lt (by rw [hn]; exact nPackets_lt hlt), hn, receivesMade_eq_iff _
      (flatten_handleFileTransmission buffer) hbuffer (length_handleFileTransmission buffer)]
    exact (and_iff_left hlt).symm
  · refine iff_of_false ?_ (fun h => hlt h.2)
    have hshort := toNat_cInt_add_lt (Nat.le_of_not_lt hlt)
    have htake := length_take_handleFileTransmission buffer
    have hover : (malloc mem (cInt buffer.length)).length < 0 +
        ((tcpSends (handleFileTransmission buffer)).take
          ((tcpSends (handleFileTransmission buffer)).length - 1)).flatten.length := by
      rw [malloc_length]
      omega
    have hpos : 0 < (tcpSends (handleFileTransmission buffer)).length := by
      rw [length_handleFileTransmission, SERVER_BUCKET_SIZE]
      omega
    refine ne_of_lt (lt_of_le_of_lt (receivesMade_le ?_ hover) (by omega))
    exact Nat.zero_le _

/-- A node that sends, with the overflow of its `int`s: any receiver that has room for all bytes. -/
theorem node_counts_iff (forward : Bool) (mem : ℕ → UInt8) {n : ℕ} {buffer : List UInt8}
    (hn : buffer.length < 2 ^ 31 → n = nPackets buffer.length) :
    (∃ writes, serverSendLargeBuffer (fun _ => .complete) buffer = some (1, writes) ∧
      receivesMade forward n ⟨malloc mem (cInt buffer.length), 0, []⟩ ((tcpSends writes).map some) =
        (tcpSends writes).length) ↔
      buffer.length % 4096 ≠ 0 ∧ buffer.length + 4096 < 2 ^ 31 := by
  by_cases h : buffer.length + 4096 < 2 ^ 31
  · have hlt : buffer.length < 2 ^ 31 := by omega
    have hbuffer : (malloc mem (cInt buffer.length)).length = buffer.length := by
      rw [malloc_length, cInt_of_lt hlt, Int.toNat_natCast]
    have hflatten : (tcpSends (largeBufferPackets buffer)).flatten = buffer := by
      rw [flatten_tcpSends, flatten_largeBufferPackets]
    have hmade := receivesMade_eq_iff forward hflatten hbuffer (length_serverSendLargeBufferTo buffer)
    rw [serverSendLargeBuffer_complete (by omega) fun _ _ => rfl, hn hlt, and_iff_left h, ← hmade]
    simp only [Option.some_inj, Prod.mk.injEq, true_and, exists_eq_left']
  · rw [serverSendLargeBuffer_overflow (by omega)]
    exact iff_of_false (by simp) (fun hbound => h hbound.2)

/-- Whoever sends `buffer`, with one receive for each write that is not empty: the receiver makes
as many receives as there are writes exactly when its size is no multiple of 4096 and fits the
`int`s it goes through. -/
theorem raw_counts_iff (mem : ℕ → UInt8) (sv : Server) (fs : XFileServer) (old : StateRawPackets)
    (p : XPacket) (fd : ℕ) (buffer : List UInt8) :
    ((XRequestFileCreation.ofContent (content p)).fileSize = buffer.length →
      (rawReceivesMade mem sv (typeCreateFile sv old p fd).1
            ((tcpSends (handleFileTransmission buffer)).map some) =
          (tcpSends (handleFileTransmission buffer)).length ↔
        buffer.length % 4096 ≠ 0 ∧ buffer.length < 2 ^ 31)) ∧
    ((XRequestFragmentCreation.ofContent (content p)).fragSize = buffer.length →
      ((∃ writes, serverSendLargeBuffer (fun _ => .complete) buffer = some (1, writes) ∧
          rawReceivesMade mem sv (typeStoreFragmentRaw sv fs old p fd).2.1
            ((tcpSends writes).map some) = (tcpSends writes).length) ↔
        buffer.length % 4096 ≠ 0 ∧ buffer.length + 4096 < 2 ^ 31)) ∧
    ((∃ writes, serverSendLargeBuffer (fun _ => .complete) buffer = some (1, writes) ∧
        largeBufferReceivesMade (cInt buffer.length) (malloc mem (cInt buffer.length))
          ((tcpSends writes).map some) = (tcpSends writes).length) ↔
      buffer.length % 4096 ≠ 0 ∧ buffer.length + 4096 < 2 ^ 31) := by
  refine ⟨?_, ?_, ?_⟩
  · intro hsize
    refine createFile_counts_iff mem sv hsize ?_
    rw [← hsize]
    rfl
  · intro hsize
    have htotal : (typeStoreFragmentRaw sv fs old p fd).2.1.totalSize = buffer.length := by
      rw [← hsize, ← typeStoreFragment_snd fs p]
      rfl
    have hpkts : (typeStoreFragmentRaw sv fs old p fd).2.1.nPkts = nPackets buffer.length := by
      rw [← htotal]
      rfl
    simp only [rawReceivesMade, htotal]
    refine node_counts_iff _ mem ?_
    intro hlt
    rw [rawReceives_of_lt (by rw [hpkts]; exact nPackets_lt hlt), hpkts]
  · refine node_counts_iff false mem ?_
    intro hlt
    rw [cInt_of_lt hlt, largeBufferReceives_natCast]

theorem raw_counts_ten_bytes :
    rawReceivesMade (fun _ => 0) Cluster.three.readyIndex
        (typeCreateFile Cluster.three.readyIndex .zero (announcePacket TYPE_CREATE_FILE 10) 5).1
        ((tcpSends (handleFileTransmission (List.replicate 10 7))).map some) =
      (tcpSends (handleFileTransmission (List.replicate 10 7))).length ∧
    ∃ writes, serverSendLargeBuffer (fun _ => .complete) (List.replicate 10 7) = some (1, writes) ∧
      rawReceivesMade (fun _ => 0) Cluster.three.readyIndex
          (typeStoreFragmentRaw Cluster.three.readyIndex xfileserverInit .zero
            (announcePacket TYPE_STORE_FRAGMENT 10) 5).2.1
          ((tcpSends writes).map some) = (tcpSends writes).length := by
  obtain ⟨hcreate, -, -⟩ := raw_counts_iff (fun _ => 0) Cluster.three.readyIndex xfileserverInit
    .zero (announcePacket TYPE_CREATE_FILE 10) 5 (List.replicate 10 7)
  obtain ⟨-, hstore, -⟩ := raw_counts_iff (fun _ => 0) Cluster.three.readyIndex xfileserverInit
    .zero (announcePacket TYPE_STORE_FRAGMENT 10) 5 (List.replicate 10 7)
  exact ⟨(hcreate (by decide +kernel)).mpr (by decide), (hstore (by decide +kernel)).mpr (by decide)⟩

section bucket

variable {w : List UInt8}

theorem tcpSends_bucket (hw : w.length = SERVER_BUCKET_SIZE) :
    tcpSends (handleFileTransmission w) = [w] := by
  have hne : w ≠ [] := List.length_pos_iff.mp (by rw [hw]; decide)
  have hchunks : handleFileTransmission w = [(w.drop (0 * SERVER_BUCKET_SIZE)).take SERVER_BUCKET_SIZE] := by
    rw [handleFileTransmission, hw]
    rfl
  rw [hchunks, Nat.zero_mul, List.drop_zero, List.take_of_length_le hw.le]
  simp [tcpSends, hne]

theorem largeBufferPackets_bucket (hw : w.length = SERVER_BUCKET_SIZE) :
    largeBufferPackets w = [w, []] := by
  have hchunks : largeBufferPackets w =
      [(w.drop (0 * SERVER_BUCKET_SIZE)).take SERVER_BUCKET_SIZE,
        (w.drop (1 * SERVER_BUCKET_SIZE)).take SERVER_BUCKET_SIZE] := by
    rw [largeBufferPackets, hw]
    rfl
  rw [hchunks, Nat.zero_mul, List.drop_zero, List.take_of_length_le hw.le, Nat.one_mul,
    List.drop_of_length_le hw.le, List.take_nil]

theorem receivesMade_bucket (forward : Bool) (hw : w.length = SERVER_BUCKET_SIZE) {mem : ℕ → UInt8}
    {size : ℤ} (hn : n = 2) (hsize : size = 4096) :
    receivesMade forward n ⟨malloc mem size, 0, []⟩ [some w] = 2 := by
  have hfits : 0 + [w].flatten.length ≤ (malloc mem size).length := by
    rw [malloc_length, hsize, List.flatten_singleton, hw]
    decide
  have hmade : receivesMade forward n ⟨malloc mem size, 0, []⟩ ([w].map some) = min n ([w].length + 1) :=
    receivesMade_of_fits hfits
  rw [hn] at hmade ⊢
  exact hmade

end bucket

/-- A file of one bucket: one write, and each receiver makes a second receive that does not
return. -/
theorem not_raw_counts_one_bucket :
    tcpSends (handleFileTransmission (List.replicate 4096 7)) = [List.replicate 4096 7] ∧
    rawReceivesMade (fun _ => 0) Cluster.three.readyIndex
      (typeCreateFile Cluster.three.readyIndex .zero (announcePacket TYPE_CREATE_FILE 4096) 5).1
      [some (List.replicate 4096 7)] = 2 ∧
    serverSendLargeBuffer (fun _ => .complete) (List.replicate 4096 7) =
      some (1, [List.replicate 4096 7, []]) ∧
    rawReceivesMade (fun _ => 0) Cluster.three.readyIndex
      (typeStoreFragmentRaw Cluster.three.readyIndex xfileserverInit .zero
        (announcePacket TYPE_STORE_FRAGMENT 4096) 5).2.1 [some (List.replicate 4096 7)] = 2 ∧
    largeBufferReceivesMade (cInt 4096) (malloc (fun _ => 0) (cInt 4096))
      [some (List.replicate 4096 7)] = 2 := by
  have hw : (List.replicate 4096 (7 : UInt8)).length = SERVER_BUCKET_SIZE := List.length_replicate
  refine ⟨tcpSends_bucket hw, ?_, ?_, ?_, ?_⟩
  · exact receivesMade_bucket _ hw (by decide +kernel) (by decide +kernel)
  · rw [serverSendLargeBuffer_complete (by rw [hw]; decide) fun _ _ => rfl, largeBufferPackets_bucket hw]
  · exact receivesMade_bucket _ hw (by decide +kernel) (by decide +kernel)
  · exact receivesMade_bucket false hw rfl rfl

end DSS
