import DistStore.Model.LargeSend
import DistStore.Proofs.ClientPacket

/-! A large buffer on its way to the client. The loop at the node sends every chunk, also after
one that failed; the loop at the client takes the bytes wherever they are cut. -/

namespace DSS

open Chunks

section send

variable {outcomes : ℕ → SendOutcome} {buffer : List UInt8}

theorem SendOutcome.bytesSent_isPrefix (o : SendOutcome) (bytes : List UInt8) : o.bytesSent bytes <+: bytes := by
  cases o with
  | complete => exact List.prefix_rfl
  | error after => exact List.take_prefix after bytes

theorem SendOutcome.bytesSent_eq_iff (o : SendOutcome) (bytes : List UInt8) :
    o.bytesSent bytes = bytes ↔ o.Covers bytes.length := by
  cases o with
  | complete => exact iff_of_true rfl trivial
  | error after => exact List.take_eq_self_iff bytes

def bucket (buffer : List UInt8) (i : ℕ) : List UInt8 :=
  (buffer.drop (i * SERVER_BUCKET_SIZE)).take SERVER_BUCKET_SIZE

theorem length_bucket (buffer : List UInt8) (i : ℕ) :
    (bucket buffer i).length = min SERVER_BUCKET_SIZE (buffer.length - i * SERVER_BUCKET_SIZE) := by
  rw [bucket, List.length_take, List.length_drop]

def sendAfter (outcomes : ℕ → SendOutcome) (buffer : List UInt8) (m : ℕ) : LargeSend :=
  let writes := (List.range m).map fun i => (outcomes i).bytesSent (bucket buffer i)
  ⟨writes.flatten.length, min (m * SERVER_BUCKET_SIZE) buffer.length, writes⟩

theorem chunkBounds_eq_some_iff {int : ℤ → Option ℤ} {bufferSize i : ℕ} {chunk : Chunk} :
    chunkBounds int bufferSize i = some chunk ↔
      int (i * SERVER_BUCKET_SIZE) = some chunk.st ∧
        int (chunk.st + SERVER_BUCKET_SIZE) = some chunk.fullEnd ∧
        chunk.cutEnd = (if chunk.fullEnd > bufferSize then (bufferSize : ℤ) else chunk.fullEnd) ∧
        int (chunk.cutEnd - chunk.st) = some chunk.size := by
  rw [chunkBounds]
  simp only [Option.bind_eq_bind, Option.bind_eq_some_iff, Option.pure_def, Option.some_inj]
  constructor
  · rintro ⟨st, hst, fullEnd, hend, size, hsize, rfl⟩
    exact ⟨hst, hend, rfl, hsize⟩
  · rintro ⟨hst, hend, hcut, hsize⟩
    refine ⟨chunk.st, hst, chunk.fullEnd, hend, chunk.size, hcut ▸ hsize, ?_⟩
    rw [← hcut]

theorem sendRound_eq_some_iff {int : ℤ → Option ℤ} {s : LargeSend} {i : ℕ} {x : Chunk × LargeSend} :
    sendRound int outcomes buffer s i = some x ↔
      chunkBounds int buffer.length i = some x.1 ∧
        ∃ bucket, readBuffer buffer s.curptr x.1.size.toNat = some bucket ∧
          int (s.results + ((outcomes i).bytesSent bucket).length) = some x.2.results ∧
          int (s.curptr + x.1.size) = some x.2.curptr ∧
          x.2.writes = s.writes ++ [(outcomes i).bytesSent bucket] := by
  rw [sendRound]
  simp only [Option.bind_eq_bind, Option.bind_eq_some_iff, Option.pure_def, Option.some_inj]
  constructor
  · rintro ⟨chunk, hchunk, bucket, hbucket, results, hresults, curptr, hcurptr, rfl⟩
    exact ⟨hchunk, bucket, hbucket, hresults, hcurptr, rfl⟩
  · rintro ⟨hchunk, bucket, hbucket, hresults, hcurptr, hwrites⟩
    refine ⟨x.1, hchunk, bucket, hbucket, _, hresults, _, hcurptr, ?_⟩
    rw [← hwrites]

theorem chunkBounds_intOp {bufferSize i : ℕ} (h : bufferSize + 4097 ≤ 2 ^ 31)
    (hi : i < nPackets bufferSize) :
    ∃ chunk, chunkBounds intOp bufferSize i = some chunk ∧
      chunk.size = (min SERVER_BUCKET_SIZE (bufferSize - i * SERVER_BUCKET_SIZE) : ℕ) := by
  have hS : SERVER_BUCKET_SIZE = 4096 := rfl
  have hstart : i * SERVER_BUCKET_SIZE ≤ bufferSize :=
    Nat.mul_le_of_le_div _ _ _ (Nat.le_of_lt_succ hi)
  have hst : intOp (i * SERVER_BUCKET_SIZE) = some ((i * SERVER_BUCKET_SIZE : ℕ) : ℤ) := by
    rw [Nat.cast_mul]
    exact intOp_of (by positivity) (by omega)
  generalize i * SERVER_BUCKET_SIZE = start at hst hstart ⊢
  have hend : intOp (start + SERVER_BUCKET_SIZE) = some (start + SERVER_BUCKET_SIZE : ℤ) :=
    intOp_of (by omega) (by omega)
  have hcut : min (start + SERVER_BUCKET_SIZE : ℤ) bufferSize =
      if (start + SERVER_BUCKET_SIZE : ℤ) > bufferSize then (bufferSize : ℤ)
      else start + SERVER_BUCKET_SIZE := by
    split_ifs <;> omega
  have hsize : intOp (min (start + SERVER_BUCKET_SIZE : ℤ) bufferSize - start) =
      some ((min SERVER_BUCKET_SIZE (bufferSize - start) : ℕ) : ℤ) := by
    rw [intOp_of (by omega) (by omega), Option.some_inj]
    omega
  exact ⟨⟨start, _, _, _⟩, chunkBounds_eq_some_iff.mpr ⟨hst, hend, hcut, hsize⟩, rfl⟩

theorem readBuffer_bucket {i : ℕ} (hi : i < nPackets buffer.length) :
    readBuffer buffer (i * SERVER_BUCKET_SIZE : ℕ)
      (min SERVER_BUCKET_SIZE (buffer.length - i * SERVER_BUCKET_SIZE)) = some (bucket buffer i) := by
  have hstart : i * SERVER_BUCKET_SIZE ≤ buffer.length :=
    Nat.mul_le_of_le_div _ _ _ (Nat.le_of_lt_succ hi)
  rw [readBuffer, Int.toNat_natCast, if_pos ⟨Int.natCast_nonneg _, by omega⟩, Splice.slice, bucket,
    ← List.length_drop, ← List.take_eq_take_min]

theorem sendRound_eq (h : buffer.length + 4097 ≤ 2 ^ 31) {i : ℕ} (hi : i < nPackets buffer.length)
    {s : LargeSend} (hcurptr : s.curptr = i * SERVER_BUCKET_SIZE) (hresults : 0 ≤ s.results)
    (hle : s.results ≤ i * SERVER_BUCKET_SIZE) :
    (sendRound intOp outcomes buffer s i).map Prod.snd = some
      ⟨s.results + ((outcomes i).bytesSent (bucket buffer i)).length,
        min ((i + 1) * SERVER_BUCKET_SIZE) buffer.length,
        s.writes ++ [(outcomes i).bytesSent (bucket buffer i)]⟩ := by
  obtain ⟨chunk, hchunk, hsize⟩ := chunkBounds_intOp h hi
  have hsent := ((outcomes i).bytesSent_isPrefix (bucket buffer i)).length_le
  rw [length_bucket] at hsent
  have hread := readBuffer_bucket hi
  rw [← Int.toNat_natCast (min _ _), ← hsize, Nat.cast_mul, ← hcurptr] at hread
  rw [nPackets, SERVER_BUCKET_SIZE] at hi
  rw [SERVER_BUCKET_SIZE] at hcurptr hle hsize hsent
  have hres : intOp (s.results + ((outcomes i).bytesSent (bucket buffer i)).length) =
      some (s.results + ((outcomes i).bytesSent (bucket buffer i)).length) :=
    intOp_of (by omega) (by omega)
  have hcur : intOp (s.curptr + chunk.size) =
      some (min (((i : ℤ) + 1) * SERVER_BUCKET_SIZE) buffer.length) := by
    rw [intOp_of (by omega) (by omega), SERVER_BUCKET_SIZE, Option.some_inj]
    omega
  rw [Option.map_eq_some_iff]
  exact ⟨(chunk, _), sendRound_eq_some_iff.mpr ⟨hchunk, _, hread, hres, hcur, rfl⟩, rfl⟩

theorem sendRounds_succ {int : ℤ → Option ℤ} (i : ℕ) :
    sendRounds int outcomes buffer (i + 1) =
      (sendRounds int outcomes buffer i).bind fun s =>
        (sendRound int outcomes buffer s i).map Prod.snd := by
  rw [sendRounds, List.range_succ, List.foldlM_append]
  simp only [List.foldlM_cons, List.foldlM_nil, Option.bind_eq_bind, Option.pure_def,
    Option.bind_fun_some]
  rfl

theorem sendAfter_results_le (m : ℕ) :
    (sendAfter outcomes buffer m).results ≤ m * SERVER_BUCKET_SIZE := by
  have hle : ∀ n ∈ ((List.range m).map fun i => (outcomes i).bytesSent (bucket buffer i)).map List.length,
      n ≤ SERVER_BUCKET_SIZE := by
    intro n hn
    obtain ⟨w, hw, rfl⟩ := List.mem_map.mp hn
    obtain ⟨i, -, rfl⟩ := List.mem_map.mp hw
    have hsent := ((outcomes i).bytesSent_isPrefix (bucket buffer i)).length_le
    exact hsent.trans ((length_bucket buffer i).trans_le (min_le_left ..))
  have hsum := List.sum_le_card_nsmul _ _ hle
  rw [← List.length_flatten, List.length_map, List.length_map, List.length_range, smul_eq_mul] at hsum
  show ((_ : ℕ) : ℤ) ≤ _
  exact_mod_cast hsum

theorem sendAfter_succ (m : ℕ) :
    sendAfter outcomes buffer (m + 1) =
      ⟨(sendAfter outcomes buffer m).results + ((outcomes m).bytesSent (bucket buffer m)).length,
        min ((m + 1) * SERVER_BUCKET_SIZE) buffer.length,
        (sendAfter outcomes buffer m).writes ++ [(outcomes m).bytesSent (bucket buffer m)]⟩ := by
  have hwrites : (List.range (m + 1)).map (fun i => (outcomes i).bytesSent (bucket buffer i)) =
      (List.range m).map (fun i => (outcomes i).bytesSent (bucket buffer i)) ++
        [(outcomes m).bytesSent (bucket buffer m)] := by
    rw [List.range_succ, List.map_append]
    rfl
  simp only [sendAfter, hwrites, List.flatten_append, List.flatten_singleton, List.length_append,
    Nat.cast_add, Nat.cast_one]

theorem sendRounds_eq (h : buffer.length + 4097 ≤ 2 ^ 31) {m : ℕ}
    (hm : m ≤ nPackets buffer.length) :
    sendRounds intOp outcomes buffer m = some (sendAfter outcomes buffer m) := by
  induction m with
  | zero => rfl
  | succ m ih =>
    have hcurptr : (sendAfter outcomes buffer m).curptr = m * SERVER_BUCKET_SIZE := by
      show min _ _ = _
      rw [nPackets] at hm
      have hle := Nat.mul_le_of_le_div _ _ _ (Nat.le_of_succ_le_succ hm)
      exact min_eq_left (by exact_mod_cast hle)
    rw [sendRounds_succ, ih (Nat.le_of_succ_le hm), Option.bind_some,
      sendRound_eq h hm hcurptr (Int.natCast_nonneg _) (sendAfter_results_le m), sendAfter_succ]

theorem serverSendLargeBuffer_eq (h : buffer.length + 4097 ≤ 2 ^ 31) :
    serverSendLargeBuffer outcomes buffer =
      some (1, (List.range (nPackets buffer.length)).map fun i =>
        (outcomes i).bytesSent (bucket buffer i)) := by
  rw [serverSendLargeBuffer, sendRounds_eq h le_rfl]
  rfl

/-- The end of chunk 524287 is not an `int`. -/
theorem sendRound_overflow (s : LargeSend) : sendRound intOp outcomes buffer s 524287 = none := rfl

theorem foldlM_eq_none {α β : Type} {f : β → α → Option β} {a : α} (hf : ∀ s, f s a = none)
    {l : List α} (ha : a ∈ l) (s : β) : l.foldlM f s = none := by
  induction l generalizing s with
  | nil => cases ha
  | cons b l ih =>
    rw [List.foldlM_cons]
    rcases List.mem_cons.mp ha with rfl | ha
    · rw [hf]
      rfl
    · cases f s b with
      | none => rfl
      | some t => exact ih ha t

theorem serverSendLargeBuffer_overflow (h : 2 ^ 31 < buffer.length + 4097) :
    serverSendLargeBuffer outcomes buffer = none := by
  have hmem : 524287 ∈ List.range (nPackets buffer.length) := by
    rw [List.mem_range, nPackets, SERVER_BUCKET_SIZE]
    omega
  have hnone : sendRounds intOp outcomes buffer (nPackets buffer.length) = none := by
    refine foldlM_eq_none ?_ hmem _
    intro s
    rw [sendRound_overflow, Option.map_none]
  rw [serverSendLargeBuffer, hnone]
  rfl

theorem serverSendLargeBuffer_complete (h : buffer.length + 4097 ≤ 2 ^ 31)
    (hcomplete : ∀ i < nPackets buffer.length, outcomes i = .complete) :
    serverSendLargeBuffer outcomes buffer = some (1, largeBufferPackets buffer) := by
  have hwrites : (List.range (nPackets buffer.length)).map
      (fun i => (outcomes i).bytesSent (bucket buffer i)) = largeBufferPackets buffer := by
    refine List.map_congr_left ?_
    intro i hi
    rw [hcomplete i (List.mem_range.mp hi)]
    rfl
  rw [serverSendLargeBuffer_eq h, hwrites]

theorem flatten_largeBufferPackets (buffer : List UInt8) :
    (largeBufferPackets buffer).flatten = buffer := by
  have hlen : buffer.length ≤ nPackets buffer.length * SERVER_BUCKET_SIZE := by
    rw [nPackets, SERVER_BUCKET_SIZE]
    omega
  exact (flatten_chunks SERVER_BUCKET_SIZE (nPackets buffer.length) buffer).trans
    (List.take_of_length_le hlen)

end send

theorem readLargeBuffer_eq (conn : Conn) {buffer rest : List UInt8} (h : conn.stream = buffer ++ rest) :
    ∃ conn', readLargeBuffer conn buffer.length = .ok (buffer, conn') ∧ conn'.stream = rest := by
  refine ⟨conn.advance buffer.length, ?_, ?_⟩
  · rw [readLargeBuffer, readBody_eq le_rfl (by rw [h, List.length_append]; omega), h, List.take_left']
    rfl
  · rw [Conn.advance, h, List.drop_left']
    rfl

/-- The chunks that a client reads back, wherever the connection cuts them. -/
theorem download_round_trip {buffer : List UInt8} {outcomes : ℕ → SendOutcome}
    (h : buffer.length + 4097 ≤ 2 ^ 31)
    (hcomplete : ∀ i < nPackets buffer.length, outcomes i = .complete) :
    ∃ writes, serverSendLargeBuffer outcomes buffer = some (1, writes) ∧
      writes.flatten = buffer ∧ (∀ w ∈ writes, w.length ≤ SERVER_BUCKET_SIZE) ∧
      ∀ (conn : Conn) (rest : List UInt8), conn.stream = writes.flatten ++ rest →
        ∃ conn', readLargeBuffer conn buffer.length = .ok (buffer, conn') ∧
          conn'.stream = rest := by
  refine ⟨_, serverSendLargeBuffer_complete h hcomplete, flatten_largeBufferPackets buffer, ?_, ?_⟩
  · intro w hw
    obtain ⟨i, -, rfl⟩ := List.mem_map.mp hw
    exact (length_bucket buffer i).trans_le (min_le_left ..)
  · rw [flatten_largeBufferPackets]
    intro conn rest hstream
    exact readLargeBuffer_eq conn hstream

/-- A bucket and two bytes more, on a connection that cuts them after the first byte and between the
chunks; one byte of something else comes after them. -/
theorem download_round_trip_two_chunks :
    let buffer : List UInt8 := List.replicate 4098 7
    ∃ writes conn', serverSendLargeBuffer (fun _ => .complete) buffer = some (1, writes) ∧
      2 ≤ writes.length ∧
      readLargeBuffer ⟨0, writes.flatten ++ [9], fun i => i = 1 ∨ i = 4096⟩ 4098 = .ok (buffer, conn') ∧
      conn'.stream = [9] := by
  intro buffer
  have hlen : buffer.length = 4098 := List.length_replicate
  have hsize : buffer.length + 4097 ≤ 2 ^ 31 := by
    rw [hlen]
    norm_num
  have hcomplete : ∀ i < nPackets buffer.length, (fun _ => SendOutcome.complete) i = .complete :=
    fun _ _ => rfl
  obtain ⟨writes, hsend, hflat, hbucket, hread⟩ := download_round_trip hsize hcomplete
  obtain ⟨conn', hconn, hrest⟩ := hread ⟨0, writes.flatten ++ [9], fun i => i = 1 ∨ i = 4096⟩ [9] rfl
  rw [hlen] at hconn
  refine ⟨writes, conn', hsend, ?_, hconn, hrest⟩
  have hsum : (writes.map List.length).sum ≤ writes.length * SERVER_BUCKET_SIZE := by
    rw [← List.length_map (f := List.length), ← smul_eq_mul]
    exact List.sum_le_card_nsmul _ _ (List.forall_mem_map.mpr hbucket)
  rw [← List.length_flatten, hflat, hlen, SERVER_BUCKET_SIZE] at hsum
  omega

/-- The bytes on the socket are those of the buffer up to some point, and all of them if the
result is 1, exactly if no send fails before the end of its chunk. -/
theorem failed_chunk_stops_iff (outcomes : ℕ → SendOutcome) (buffer : List UInt8) :
    (∃ ret writes, serverSendLargeBuffer outcomes buffer = some (ret, writes) ∧
      writes.flatten <+: buffer ∧ (ret = 1 → writes.flatten = buffer)) ↔
      buffer.length + 4097 ≤ 2 ^ 31 ∧ ∀ i < nPackets buffer.length,
        (outcomes i).Covers (min SERVER_BUCKET_SIZE (buffer.length - i * SERVER_BUCKET_SIZE)) := by
  rcases Nat.lt_or_ge (2 ^ 31) (buffer.length + 4097) with hover | h
  · rw [serverSendLargeBuffer_overflow hover]
    constructor
    · rintro ⟨ret, writes, hnone, -⟩
      cases hnone
    · rintro ⟨hle, -⟩
      omega
  · have hiff : ((List.range (nPackets buffer.length)).map
        fun i => (outcomes i).bytesSent (bucket buffer i)).flatten = buffer ↔
          ∀ i < nPackets buffer.length,
            (outcomes i).Covers (min SERVER_BUCKET_SIZE (buffer.length - i * SERVER_BUCKET_SIZE)) := by
      have hmap := flatten_map_eq_iff (l := List.range (nPackets buffer.length))
        fun i _ => (outcomes i).bytesSent_isPrefix (bucket buffer i)
      rw [show ((List.range (nPackets buffer.length)).map (bucket buffer)).flatten = buffer from
        flatten_largeBufferPackets buffer] at hmap
      simp only [hmap, List.mem_range, SendOutcome.bytesSent_eq_iff, length_bucket]
    rw [serverSendLargeBuffer_eq h, ← hiff]
    constructor
    · rintro ⟨ret, writes, heq, -, hret⟩
      cases heq
      exact ⟨h, hret rfl⟩
    · rintro ⟨-, hall⟩
      refine ⟨1, _, rfl, ?_, fun _ => hall⟩
      rw [hall]

/-- A send that fails at once on the first of two chunks: the second is sent behind the gap. -/
theorem not_failed_chunk_stops :
    ¬ ∀ (outcomes : ℕ → SendOutcome) (buffer : List UInt8),
      ∃ ret writes, serverSendLargeBuffer outcomes buffer = some (ret, writes) ∧
        writes.flatten <+: buffer ∧ (ret = 1 → writes.flatten = buffer) := by
  intro hall
  have hsend : serverSendLargeBuffer (fun i => if i = 0 then .error 0 else .complete)
      (List.replicate 4096 0 ++ [1]) = some (1, [[], [1]]) := by decide +kernel
  obtain ⟨ret, writes, heq, hprefix, -⟩ := hall _ (List.replicate 4096 0 ++ [1])
  rw [hsend] at heq
  cases heq
  exact absurd (List.prefix_iff_eq_take.mp hprefix) (by decide +kernel)

/-! ## The arithmetic of the chunks -/

section exact

variable {outcomes : ℕ → SendOutcome} {buffer : List UInt8}

theorem eq_of_intOp {x y : ℤ} (h : intOp x = some y) : x = y := by
  rw [intOp] at h
  split_ifs at h
  exact Option.some.inj h

theorem some_of_intOp {x y : ℤ} (h : intOp x = some y) : some x = some y :=
  congrArg some (eq_of_intOp h)

theorem chunkBounds_some {bufferSize i : ℕ} {chunk : Chunk}
    (h : chunkBounds intOp bufferSize i = some chunk) :
    chunkBounds some bufferSize i = some chunk := by
  obtain ⟨hst, hend, hcut, hsize⟩ := chunkBounds_eq_some_iff.mp h
  exact chunkBounds_eq_some_iff.mpr
    ⟨some_of_intOp hst, some_of_intOp hend, hcut, some_of_intOp hsize⟩

theorem sendRound_some {s : LargeSend} {i : ℕ} {x : Chunk × LargeSend}
    (h : sendRound intOp outcomes buffer s i = some x) :
    sendRound some outcomes buffer s i = some x := by
  obtain ⟨hchunk, bucket, hbucket, hresults, hcurptr, hwrites⟩ := sendRound_eq_some_iff.mp h
  exact sendRound_eq_some_iff.mpr ⟨chunkBounds_some hchunk, bucket, hbucket,
    some_of_intOp hresults, some_of_intOp hcurptr, hwrites⟩

theorem sendRounds_succ_eq_some_iff {int : ℤ → Option ℤ} {i : ℕ} {s : LargeSend} :
    sendRounds int outcomes buffer (i + 1) = some s ↔
      ∃ t, sendRounds int outcomes buffer i = some t ∧
        ∃ x, sendRound int outcomes buffer t i = some x ∧ x.2 = s := by
  rw [sendRounds_succ, Option.bind_eq_some_iff]
  simp only [Option.map_eq_some_iff]

theorem sendRounds_some {i : ℕ} {s : LargeSend} (h : sendRounds intOp outcomes buffer i = some s) :
    sendRounds some outcomes buffer i = some s := by
  induction i generalizing s with
  | zero =>
    obtain rfl := Option.some.inj h
    rfl
  | succ i ih =>
    obtain ⟨t, ht, x, hx, hs⟩ := sendRounds_succ_eq_some_iff.mp h
    exact sendRounds_succ_eq_some_iff.mpr ⟨t, ih ht, x, sendRound_some hx, hs⟩

/-- The chunk starts inside the buffer, so that its end is not before its start. -/
theorem chunkBounds_size {bufferSize i : ℕ} {chunk : Chunk} (hi : i < nPackets bufferSize)
    (h : chunkBounds intOp bufferSize i = some chunk) :
    0 ≤ chunk.size ∧ chunk.size ≤ SERVER_BUCKET_SIZE := by
  have hstart : i * SERVER_BUCKET_SIZE ≤ bufferSize :=
    Nat.mul_le_of_le_div _ _ _ (Nat.le_of_lt_succ hi)
  obtain ⟨hst, hend, hcut, hsize⟩ := chunkBounds_eq_some_iff.mp (chunkBounds_some h)
  rw [Option.some_inj] at hst hend hsize
  rw [SERVER_BUCKET_SIZE] at hstart hst hend ⊢
  split_ifs at hcut <;> omega

theorem roundExact_of_sendRound {s : LargeSend} {i : ℕ} {x : Chunk × LargeSend}
    (hi : i < nPackets buffer.length) (hs : sendRounds intOp outcomes buffer i = some s)
    (hx : sendRound intOp outcomes buffer s i = some x) : RoundExact outcomes buffer i := by
  refine ⟨s, x.1, x.2, ⟨hs, sendRounds_some hs⟩, ⟨hx, sendRound_some hx⟩, ?_⟩
  obtain ⟨hchunk, bucket, hbucket, -⟩ := sendRound_eq_some_iff.mp hx
  obtain ⟨hnonneg, hle⟩ := chunkBounds_size hi hchunk
  refine ⟨hnonneg, hle, ?_⟩
  rw [readBuffer] at hbucket
  split_ifs at hbucket with hinside
  omega

end exact

/-- Every round is exact as long as the end of the last chunk, before it is cut to the buffer, is
an `int`. -/
theorem chunk_arithmetic_exact_iff (outcomes : ℕ → SendOutcome) (buffer : List UInt8) :
    (∀ i < nPackets buffer.length, RoundExact outcomes buffer i) ↔ buffer.length + 4096 < 2 ^ 31 := by
  constructor
  · intro hall
    by_contra hover
    have hlast : 524287 < nPackets buffer.length := by
      rw [nPackets, SERVER_BUCKET_SIZE]
      omega
    obtain ⟨s, chunk, s', -, ⟨hround, -⟩, -⟩ := hall 524287 hlast
    rw [sendRound_overflow] at hround
    cases hround
  · intro h i hi
    have hafter : sendRounds intOp outcomes buffer (i + 1) = some _ := sendRounds_eq h hi
    obtain ⟨t, ht, x, hx, -⟩ := sendRounds_succ_eq_some_iff.mp hafter
    exact roundExact_of_sendRound hi ht hx

/-- The largest buffer whose size is an `int`. -/
theorem not_chunk_arithmetic_exact :
    ¬ ∀ (outcomes : ℕ → SendOutcome) (buffer : List UInt8), buffer.length < 2 ^ 31 →
      ∀ i < nPackets buffer.length, RoundExact outcomes buffer i := by
  intro hall
  have hlen : (List.replicate (2 ^ 31 - 1) (0 : UInt8)).length = 2 ^ 31 - 1 := List.length_replicate
  have hlast : 524287 < nPackets (List.replicate (2 ^ 31 - 1) (0 : UInt8)).length := by
    rw [hlen]
    decide
  obtain ⟨s, chunk, s', -, ⟨hround, -⟩, -⟩ :=
    hall (fun _ => .complete) _ (by rw [hlen]; decide) 524287 hlast
  rw [sendRound_overflow] at hround
  cases hround

end DSS
