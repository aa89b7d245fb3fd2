import DistStore.Model.TcpSend
import DistStore.Proofs.LargeSend

/-! `tcp_send` keeps its place in the buffer through short sends and retries. Its result is an
`int`, and so the number of bytes only below `2^31`. -/

namespace DSS

variable {buffer : List UInt8} {len : ℕ} {results : List SendResult} {old : Errno} {out : TcpSend}

/-! ## Room -/

@[simp] theorem roomBeforeError_nil : roomBeforeError [] = 0 := rfl

theorem roomBeforeError_cons_of_not_hard {r : SendResult} (h : ¬ r.Hard) :
    roomBeforeError (r :: results) = r.bytes + roomBeforeError results := by
  have htake := List.takeWhile_cons_of_pos (p := fun r : SendResult => ¬ r.Hard) (l := results)
    (decide_eq_true h)
  rw [roomBeforeError, htake, List.map_cons, List.sum_cons]
  rfl

theorem roomBeforeError_cons_of_hard {r : SendResult} (h : r.Hard) :
    roomBeforeError (r :: results) = 0 := by
  rw [roomBeforeError, List.takeWhile_cons_of_neg (by simpa using h)]
  rfl

theorem roomBeforeError_append_le {pre post : List SendResult} {e : SendResult} (he : e.Hard) :
    roomBeforeError (pre ++ e :: post) ≤ (pre.map SendResult.bytes).sum := by
  induction pre with
  | nil =>
    rw [List.nil_append, roomBeforeError_cons_of_hard he]
    exact Nat.zero_le _
  | cons r pre ih =>
    rw [List.cons_append, List.map_cons, List.sum_cons]
    by_cases hr : r.Hard
    · rw [roomBeforeError_cons_of_hard hr]
      exact Nat.zero_le _
    · rw [roomBeforeError_cons_of_not_hard hr]
      omega

theorem hardErrorBefore_iff :
    HardErrorBefore len results ↔ (∃ e ∈ results, e.Hard) ∧ roomBeforeError results < len := by
  constructor
  · rintro ⟨pre, e, post, rfl, he, hsum⟩
    exact ⟨⟨e, by simp, he⟩, (roomBeforeError_append_le he).trans_lt hsum⟩
  · rintro ⟨⟨e, hmem, he⟩, hroom⟩
    have hsplit := List.takeWhile_append_dropWhile (p := fun r : SendResult => ¬ r.Hard) (l := results)
    rcases hrest : results.dropWhile fun r => ¬ r.Hard with _ | ⟨e', post⟩
    · rw [List.dropWhile_eq_nil_iff] at hrest
      exact absurd he (of_decide_eq_true (hrest e hmem))
    · have he' : e'.Hard := by
        have hhead := List.head?_dropWhile_not (fun r : SendResult => ¬ r.Hard) results
        rw [hrest] at hhead
        simpa using hhead
      exact ⟨_, e', post, (hrest ▸ hsplit).symm, he', hroom⟩

/-! ## The loop -/

theorem slice_take {n total : ℕ} {bytes : List UInt8} (h : readBuffer buffer total n = some bytes) :
    buffer.take total ++ bytes = buffer.take (total + n) := by
  rw [readBuffer] at h
  split_ifs at h
  cases h
  rw [Int.toNat_natCast, Splice.slice, List.take_add]

/-- What a loop that returns has done, from any point on. -/
theorem tcpSendLoop_spec {total : ℕ} (hle : total ≤ len)
    (h : tcpSendLoop buffer len results old total (buffer.take total) = some out) :
    out.ret = cInt out.totalSent ∧ out.accepted = buffer.take out.totalSent ∧
      out.totalSent = min len (total + roomBeforeError results) ∧
      (out.totalSent < len → ∃ e ∈ results, e.Hard) := by
  induction results generalizing old total with
  | nil =>
    rw [tcpSendLoop] at h
    split_ifs at h with hlt
    cases h
    refine ⟨rfl, rfl, ?_, fun hless => absurd hless hlt⟩
    rw [roomBeforeError_nil]
    dsimp only
    omega
  | cons r results ih =>
    rw [tcpSendLoop] at h
    split_ifs at h with hlt
    swap
    · cases h
      refine ⟨rfl, rfl, ?_, fun hless => absurd hless hlt⟩
      dsimp only
      omega
    cases r with
    | room bytes hpos =>
      have hn : (SendResult.room bytes hpos).n (len - total) = (min bytes (len - total) : ℕ) := by
        rw [SendResult.n]
        omega
      dsimp only at h
      rw [hn, if_pos (by omega)] at h
      obtain ⟨bs, hbs, h⟩ := Option.bind_eq_some_iff.mp h
      rw [Int.toNat_natCast] at hbs h
      rw [slice_take hbs] at h
      obtain ⟨hret, haccepted, htotal, hhard⟩ := ih (by omega) h
      refine ⟨hret, haccepted, ?_, fun hless => ?_⟩
      · rw [htotal, roomBeforeError_cons_of_not_hard id, SendResult.bytes]
        omega
      · obtain ⟨e, he, hard⟩ := hhard hless
        exact ⟨e, List.mem_cons_of_mem _ he, hard⟩
    | error errno =>
      have hneg : ¬ (SendResult.error errno).n (len - total) > 0 := by
        rw [SendResult.n]
        decide
      dsimp only [SendResult.errno] at h
      rw [if_neg hneg] at h
      split_ifs at h with hretry
      · have hsoft : ¬ (SendResult.error errno).Hard := by
          rintro ⟨hagain, hblock⟩
          exact hretry.elim hagain hblock
        obtain ⟨hret, haccepted, htotal, hhard⟩ := ih hle h
        refine ⟨hret, haccepted, ?_, fun hless => ?_⟩
        · rw [htotal, roomBeforeError_cons_of_not_hard hsoft, SendResult.bytes, Nat.zero_add]
        · obtain ⟨e, he, hard⟩ := hhard hless
          exact ⟨e, List.mem_cons_of_mem _ he, hard⟩
      · have hard : (SendResult.error errno).Hard := not_or.mp hretry
        cases h
        refine ⟨rfl, rfl, ?_, fun _ => ⟨_, List.mem_cons_self .., hard⟩⟩
        rw [roomBeforeError_cons_of_hard hard]
        dsimp only
        omega

theorem tcpSend_spec (h : tcpSend buffer len old results = some out) :
    out.ret = cInt out.totalSent ∧ out.accepted = buffer.take out.totalSent ∧
      out.totalSent = min len (roomBeforeError results) ∧
      (out.totalSent < len → ∃ e ∈ results, e.Hard) := by
  have hspec := tcpSendLoop_spec (Nat.zero_le _) h
  rwa [Nat.zero_add] at hspec

/-- A call that returns is one of the outcomes that `server_send_large_buffer_to` is run with. -/
theorem tcpSend_outcome {bytes : List UInt8} (hlen : bytes.length < 2 ^ 31)
    (h : tcpSend bytes bytes.length old results = some out) :
    ∃ o : SendOutcome, o.bytesSent bytes = out.accepted ∧ out.ret = (o.bytesSent bytes).length := by
  obtain ⟨hret, haccepted, htotal, -⟩ := tcpSend_spec h
  have hle : out.totalSent ≤ bytes.length := htotal.trans_le (min_le_left ..)
  refine ⟨.error out.totalSent, haccepted.symm, ?_⟩
  rw [hret, cInt_of_lt (by omega), SendOutcome.bytesSent, List.length_take, min_eq_left hle]

/-- A call that returns has sent a prefix and says how much, exactly if less than `2^31` bytes
are to be sent or go out before the first hard error. -/
theorem tcp_send_prefix_iff (h : tcpSend buffer len old results = some out) :
    SentPrefix buffer len results out ↔ min len (roomBeforeError results) < 2 ^ 31 := by
  obtain ⟨hret, haccepted, htotal, hhard⟩ := tcpSend_spec h
  rw [← htotal]
  constructor
  · intro hsent
    exact (cInt_eq_self_iff _).mp (hret.symm.trans hsent.ret)
  · intro hlt
    have hself : out.ret = out.totalSent := hret.trans ((cInt_eq_self_iff _).mpr hlt)
    refine ⟨haccepted, hself, htotal.trans_le (min_le_left ..), ?_⟩
    rw [hself, hardErrorBefore_iff]
    constructor
    · rintro hall ⟨-, hroom⟩
      omega
    · intro hnone
      by_contra hne
      have hless : out.totalSent < len := by omega
      exact hnone ⟨hhard hless, by omega⟩

/-- Three bytes in two sends, with a wait between them. -/
theorem tcp_send_prefix_three :
    SentPrefix [7, 8, 9] 3 [.room 2 (by decide), .error .EAGAIN, .room 5 (by decide)]
      ⟨3, 3, [7, 8, 9], false⟩ := by
  have hsend : tcpSend [7, 8, 9] 3 (.other 0)
      [.room 2 (by decide), .error .EAGAIN, .room 5 (by decide)] = some ⟨3, 3, [7, 8, 9], false⟩ := rfl
  exact (tcp_send_prefix_iff hsend).mpr (by decide)

/-! ## A large buffer -/

theorem tcpSendLoop_room {total bytes : ℕ} (hpos : 0 < bytes) (hroom : total + bytes ≤ len)
    (hlen : len ≤ buffer.length) :
    tcpSendLoop buffer len (.room bytes hpos :: results) old total (buffer.take total) =
      tcpSendLoop buffer len results old (total + bytes) (buffer.take (total + bytes)) := by
  have hn : (SendResult.room bytes hpos).n (len - total) = bytes := by
    rw [SendResult.n]
    omega
  have hread : readBuffer buffer total bytes = some (Splice.slice buffer total bytes) := by
    rw [readBuffer, if_pos ⟨Int.natCast_nonneg _, by rw [Int.toNat_natCast]; omega⟩,
      Int.toNat_natCast]
  rw [tcpSendLoop, if_pos (by omega)]
  dsimp only [SendResult.errno]
  rw [hn, if_pos (by omega), Int.toNat_natCast, hread, Option.bind_eq_bind, Option.bind_some,
    slice_take hread]

theorem tcpSend_two {m n : ℕ} (hm : 0 < m) (hn : 0 < n) (hlen : buffer.length = m + n) :
    tcpSend buffer (m + n) old [.room m hm, .room n hn] =
      some ⟨cInt (m + n : ℕ), m + n, buffer, false⟩ := by
  show tcpSendLoop buffer (m + n) _ old 0 (buffer.take 0) = _
  rw [tcpSendLoop_room hm (by omega) hlen.ge,
    tcpSendLoop_room hn (by omega) hlen.ge, Nat.zero_add, tcpSendLoop, if_neg (lt_irrefl _),
    List.take_of_length_le hlen.le]

/-- A buffer of `2^31` bytes that the socket takes in two halves. -/
theorem not_tcp_send_prefix :
    ¬ ∀ (buffer : List UInt8) (len : ℕ) (old : Errno) (results : List SendResult) (out : TcpSend),
      tcpSend buffer len old results = some out → SentPrefix buffer len results out := by
  intro hall
  have hret := (hall (List.replicate (2 ^ 30 + 2 ^ 30) 0) _ (.other 0) _ _
    (tcpSend_two (by decide) (by decide) List.length_replicate)).ret
  rw [cInt_eq_self_iff] at hret
  exact absurd hret (by decide)

end DSS
