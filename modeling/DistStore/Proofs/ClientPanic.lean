import DistStore.Proofs.ClientPacket

/-! The lengths at which the client's decoder panics. Its guards ask for nine bytes where it
reads eleven, and for sixteen where it reads seventeen. -/

namespace DSS

open Bytes

def Conn.packetSize (conn : Conn) : ℕ :=
  rd 0 2 (goBytes 2 (conn.stream.take (readLength conn.cut conn.pos 2)))

/-- The bytes `ReadPacket` waits for arrive. -/
def Conn.Complete (conn : Conn) : Prop :=
  conn.stream ≠ [] ∧ 2 ≤ conn.packetSize ∧
    conn.packetSize - 2 ≤ (conn.advance (readLength conn.cut conn.pos 2)).stream.length

section packet

variable {T : Type} [Serializable T] {content : T}

theorem unserialize_panic_iff {b : List UInt8} :
    CommunicationPacket.unserialize content b = .error .panic ↔
      b.length = 9 ∨ b.length = 10 ∨
        11 ≤ b.length ∧ Serializable.unserialize content (b.drop 11) = .error .panic := by
  unfold CommunicationPacket.unserialize
  split_ifs with h9 h11
  · refine iff_of_false (fun h => by cases h) ?_
    omega
  · refine iff_of_true rfl ?_
    omega
  · cases Serializable.unserialize content (b.drop 11) with
    | ok t =>
      refine iff_of_false (fun h => by cases h) ?_
      rintro (h | h | ⟨-, h⟩)
      · omega
      · omega
      · cases h
    | error e =>
      constructor
      · intro h
        cases h
        exact .inr (.inr ⟨by omega, rfl⟩)
      · rintro (h | h | ⟨-, h⟩)
        · omega
        · omega
        · cases h
          rfl

theorem readBody_error {rounds left : ℕ} {conn : Conn} {e : ClientError}
    (h : readBody rounds left conn = .error e) : e = .read := by
  induction rounds generalizing left conn with
  | zero => cases h
  | succ rounds ih =>
    rw [readBody] at h
    split_ifs at h
    rcases error_of_bind h with h | ⟨⟨bs, conn'⟩, -, h⟩
    · unfold Conn.read at h
      split_ifs at h
      cases h
      rfl
    · rcases error_of_bind h with h | ⟨r, -, h⟩
      · exact ih h
      · cases h

theorem goBytes_length {n : ℕ} {b : List UInt8} (h : b.length ≤ n) : (goBytes n b).length = n := by
  rw [goBytes, List.length_append, List.length_replicate]
  omega

/-- `ReadPacket` panics exactly if its packet arrives and has a length that the decoder panics at. -/
theorem readPacket_panic_iff {P : ℕ → Prop}
    (hP : ∀ b, CommunicationPacket.unserialize content b = .error .panic ↔ P b.length) {conn : Conn} :
    readPacket content conn = .error .panic ↔ conn.Complete ∧ P conn.packetSize := by
  have hsize : (goBytes 2 (conn.stream.take (readLength conn.cut conn.pos 2))).length = 2 :=
    goBytes_length ((List.length_take_le ..).trans (readLength_le ..))
  unfold readPacket
  by_cases hne : conn.stream = []
  · rw [Conn.read, if_pos hne]
    exact iff_of_false (fun h => by cases h) fun h => h.1.1 hne
  rw [Conn.read_eq hne]
  change (if conn.packetSize < 2 then _ else _) = _ ↔ _
  split_ifs with hsmall
  · exact iff_of_false (fun h => by cases h) fun h => absurd h.1.2.1 (by omega)
  by_cases harrives : conn.packetSize - 2 ≤
      (conn.advance (readLength conn.cut conn.pos 2)).stream.length
  · change (readBody conn.packetSize (conn.packetSize - 2) _).bind _ = _ ↔ _
    rw [readBody_eq (Nat.sub_le ..) harrives]
    set fullBuf := goBytes 2 (conn.stream.take (readLength conn.cut conn.pos 2)) ++
      (conn.advance (readLength conn.cut conn.pos 2)).stream.take (conn.packetSize - 2) with hbuf
    have hlen : fullBuf.length = conn.packetSize := by
      rw [hbuf, List.length_append, hsize, List.length_take_of_le harrives]
      omega
    have hdecode : conn.Complete ∧ P conn.packetSize ↔
        CommunicationPacket.unserialize content fullBuf = .error .panic := by
      rw [hP, hlen]
      exact and_iff_right ⟨hne, by omega, harrives⟩
    rw [hdecode]
    change (CommunicationPacket.unserialize content fullBuf).bind _ = _ ↔ _
    cases CommunicationPacket.unserialize content fullBuf with
    | error e =>
      constructor
      · intro h
        cases h
        rfl
      · intro h
        cases h
        rfl
    | ok c => exact iff_of_false (fun h => by cases h) fun h => by cases h
  · refine iff_of_false (fun h => ?_) fun h => harrives h.1.2.2
    rcases error_of_bind h with h | ⟨r, hbody, -⟩
    · cases readBody_error h
    · exact harrives (readBody_ok (Nat.sub_le ..) hbody)

end packet

theorem unserialize_response_panic_iff {content : FileResponsePacket} {b : List UInt8} :
    CommunicationPacket.unserialize content b = .error .panic ↔ b.length ∈ [9, 10, 27] := by
  rw [unserialize_panic_iff]
  simp only [List.mem_cons, List.not_mem_nil, or_false]
  refine or_congr_right (or_congr_right ?_)
  change 11 ≤ b.length ∧ (if (b.drop 11).length < 16 then _ else _) = _ ↔ _
  rw [List.length_drop]
  split_ifs with h16 h17
  · refine iff_of_false (fun h => by cases h.2) ?_
    omega
  · refine iff_of_true ⟨?_, rfl⟩ ?_ <;> omega
  · refine iff_of_false (fun h => by cases h.2) ?_
    omega

theorem unserialize_empty_panic_iff {content : Empty} {b : List UInt8} :
    CommunicationPacket.unserialize content b = .error .panic ↔ b.length ∈ [9, 10] := by
  rw [unserialize_panic_iff]
  simp only [List.mem_cons, List.not_mem_nil, or_false]
  refine or_congr_right ⟨fun h => h.resolve_right fun hpanic => ?_, .inl⟩
  cases hpanic.2

/-- The decoder returns a packet or an error for all other lengths, and `ReadPacket` for all
other announced sizes whose bytes arrive. -/
theorem decoder_never_panics_iff (response : FileResponsePacket) (empty : Empty) (b : List UInt8)
    (conn : Conn) :
    (CommunicationPacket.unserialize response b ≠ .error .panic ↔ b.length ∉ [9, 10, 27]) ∧
    (CommunicationPacket.unserialize empty b ≠ .error .panic ↔ b.length ∉ [9, 10]) ∧
    (readPacket response conn ≠ .error .panic ↔
      (conn.Complete → conn.packetSize ∉ [9, 10, 27])) ∧
    (readPacket empty conn ≠ .error .panic ↔ (conn.Complete → conn.packetSize ∉ [9, 10])) := by
  refine ⟨not_congr unserialize_response_panic_iff, not_congr unserialize_empty_panic_iff, ?_, ?_⟩
  · rw [ne_eq, readPacket_panic_iff fun b => unserialize_response_panic_iff, not_and]
  · rw [ne_eq, readPacket_panic_iff fun b => unserialize_empty_panic_iff, not_and]

/-- A response without its last byte. -/
theorem not_decoder_never_panics :
    ¬ ∀ (content : FileResponsePacket) (b : List UInt8),
      CommunicationPacket.unserialize content b ≠ .error .panic := by
  intro h
  exact h ⟨0, 0, 0⟩ (List.replicate 27 0) (by decide)

end DSS
