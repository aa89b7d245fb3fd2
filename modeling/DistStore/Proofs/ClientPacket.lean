import DistStore.Model.ClientPacket
import DistStore.Model.Server

/-! The client and the nodes: their packets mean the same to both, and what the client
reads depends on where the stream is cut only inside the two bytes of a packet's size. -/

namespace DSS

open Bytes

theorem ok_of_bind {ε α β : Type} {x : Except ε α} {f : α → Except ε β} {b : β}
    (h : x >>= f = .ok b) : ∃ a, x = .ok a ∧ f a = .ok b := by
  cases x with
  | error e => cases h
  | ok a => exact ⟨a, rfl, h⟩

theorem error_of_bind {ε α β : Type} {x : Except ε α} {f : α → Except ε β} {e : ε}
    (h : x >>= f = .error e) : x = .error e ∨ ∃ a, x = .ok a ∧ f a = .error e := by
  cases x with
  | error e' =>
    cases h
    exact .inl rfl
  | ok a => exact .inr ⟨a, rfl, h⟩

/-! ## Reads -/

theorem readLength_pos (cut : ℕ → Bool) (pos : ℕ) {len : ℕ} (h : 0 < len) :
    1 ≤ readLength cut pos len := by
  match len, h with
  | 1, _ => exact le_rfl
  | len + 2, _ =>
    rw [readLength]
    split_ifs
    · exact le_rfl
    · exact Nat.le_add_left ..

theorem readLength_le (cut : ℕ → Bool) (pos len : ℕ) : readLength cut pos len ≤ len := by
  induction len generalizing pos with
  | zero => exact le_rfl
  | succ len ih =>
    cases len with
    | zero => exact le_rfl
    | succ len =>
      rw [readLength]
      split_ifs
      · exact Nat.le_add_left ..
      · exact Nat.succ_le_succ (ih (pos + 1))

theorem readLength_two (cut : ℕ → Bool) (pos : ℕ) :
    readLength cut pos 2 = if cut (pos + 1) then 1 else 2 := rfl

theorem Conn.advance_advance (conn : Conn) (m n : ℕ) :
    (conn.advance m).advance n = conn.advance (m + n) := by
  simp only [Conn.advance, List.drop_drop, Nat.add_assoc]

theorem Conn.read_eq {conn : Conn} (h : conn.stream ≠ []) (len : ℕ) :
    conn.read len = .ok (conn.stream.take (readLength conn.cut conn.pos len),
      conn.advance (readLength conn.cut conn.pos len)) := if_neg h

theorem Conn.read_ok {conn conn' : Conn} {len : ℕ} {bs : List UInt8}
    (h : conn.read len = .ok (bs, conn')) :
    conn.stream ≠ [] ∧ conn.stream.take (readLength conn.cut conn.pos len) = bs ∧
      conn.advance (readLength conn.cut conn.pos len) = conn' := by
  by_cases hne : conn.stream = []
  · rw [Conn.read, if_pos hne] at h
    cases h
  · rw [Conn.read_eq hne] at h
    cases h
    exact ⟨hne, rfl, rfl⟩

theorem readBody_eq {rounds left : ℕ} {conn : Conn} (hrounds : left ≤ rounds)
    (hstream : left ≤ conn.stream.length) :
    readBody rounds left conn = .ok (conn.stream.take left, conn.advance left) := by
  induction rounds generalizing left conn with
  | zero =>
    obtain rfl : left = 0 := by omega
    rfl
  | succ rounds ih =>
    rw [readBody]
    split_ifs with hleft
    · rw [hleft]
      rfl
    · have hne : conn.stream ≠ [] := by
        intro hnil
        rw [hnil] at hstream
        exact hleft (Nat.le_zero.mp hstream)
      set n := readLength conn.cut conn.pos left
      have hpos : 1 ≤ n := readLength_pos _ _ (Nat.pos_of_ne_zero hleft)
      have hle : n ≤ left := readLength_le ..
      have htake : (conn.stream.take n).length = n := List.length_take_of_le (by omega)
      have hrest : readBody rounds (left - n) (conn.advance n) =
          .ok ((conn.advance n).stream.take (left - n), (conn.advance n).advance (left - n)) :=
        ih (by omega) (by rw [Conn.advance, List.length_drop]; omega)
      rw [Conn.read_eq hne]
      show (readBody rounds (left - (conn.stream.take n).length) (conn.advance n)).bind _ = _
      rw [htake, hrest, Conn.advance_advance, Nat.add_sub_cancel' hle]
      show Except.ok (conn.stream.take n ++ (conn.stream.drop n).take (left - n), _) = _
      rw [← List.take_add, Nat.add_sub_cancel' hle]

theorem readBody_ok {rounds left : ℕ} {conn : Conn} {r : List UInt8 × Conn}
    (hrounds : left ≤ rounds) (h : readBody rounds left conn = .ok r) :
    left ≤ conn.stream.length := by
  induction rounds generalizing left conn r with
  | zero => omega
  | succ rounds ih =>
    rw [readBody] at h
    split_ifs at h with hleft
    · omega
    · obtain ⟨⟨bs, conn₁⟩, hread, h⟩ := ok_of_bind h
      obtain ⟨t, hrest, -⟩ := ok_of_bind h
      obtain ⟨hne, rfl, rfl⟩ := Conn.read_ok hread
      have hpos := readLength_pos conn.cut conn.pos (Nat.pos_of_ne_zero hleft)
      have hnonempty := List.length_pos_iff.mpr hne
      rw [List.length_take] at hrest
      have := ih (by omega) hrest
      rw [Conn.advance, List.length_drop] at this
      omega

/-! ## A packet -/

section packet

variable {T : Type} [Serializable T] {content : T}

theorem unserialize_size {b : List UInt8} {c : CommunicationPacket T}
    (h : CommunicationPacket.unserialize content b = .ok c) : c.size = UInt16.ofNat (rd 0 2 b) := by
  rw [CommunicationPacket.unserialize] at h
  split_ifs at h
  obtain ⟨t, -, h⟩ := ok_of_bind h
  cases h
  rfl

theorem toNat_unserialize_size {b : List UInt8} {c : CommunicationPacket T}
    (h : CommunicationPacket.unserialize content b = .ok c) : c.size.toNat = rd 0 2 b := by
  rw [unserialize_size h]
  exact Nat.mod_eq_of_lt (rd_lt 0 2 b)

theorem readPacket_eq {conn : Conn} {p rest : List UInt8} (hstream : conn.stream = p ++ rest)
    (hlen : 11 ≤ p.length) (hsize : rd 0 2 p = p.length) (hcut : conn.cut (conn.pos + 1) = false) :
    readPacket content conn =
      (CommunicationPacket.unserialize content p).map fun c => (c, conn.advance p.length) := by
  have hne : conn.stream ≠ [] := by
    rw [hstream]
    exact List.ne_nil_of_length_pos (by rw [List.length_append]; omega)
  have htwo : readLength conn.cut conn.pos 2 = 2 := by
    rw [readLength_two, hcut]
    rfl
  have hheader : conn.stream.take 2 = p.take 2 := by
    rw [hstream, List.take_append_of_le_length (by omega)]
  have hbuf : goBytes 2 (p.take 2) = p.take 2 := by
    rw [goBytes, List.length_take_of_le (by omega)]
    exact List.append_nil _
  have hrd : rd 0 2 (p.take 2) = p.length := by
    rw [← hsize, rd, rd, List.drop_zero, List.drop_zero, List.take_take, Nat.min_self]
  have hdrop : (conn.advance 2).stream = p.drop 2 ++ rest := by
    rw [Conn.advance, hstream, List.drop_append_of_le_length (by omega)]
  have hbody : readBody p.length (p.length - 2) (conn.advance 2) =
      .ok (p.drop 2, conn.advance p.length) := by
    rw [readBody_eq (Nat.sub_le ..) (by rw [hdrop, List.length_append, List.length_drop]; omega),
      hdrop, List.take_left' (by rw [List.length_drop]), Conn.advance_advance,
      Nat.add_sub_cancel' (by omega)]
  rw [readPacket, Conn.read_eq hne, htwo, hheader]
  show (if rd 0 2 (goBytes 2 (p.take 2)) < 2 then _ else _) = _
  rw [hbuf, hrd, if_neg (by omega)]
  show (readBody p.length (p.length - 2) (conn.advance 2)).bind _ = _
  rw [hbody]
  show (CommunicationPacket.unserialize content (p.take 2 ++ p.drop 2)).bind _ = _
  rw [List.take_append_drop]
  cases CommunicationPacket.unserialize content p <;> rfl

/-- What a call reads is at most what the packet it returns claims, and less if a read ended
after the first byte. -/
theorem readPacket_ok {conn conn' : Conn} {c : CommunicationPacket T}
    (h : readPacket content conn = .ok (c, conn')) :
    conn.stream.length + (if conn.cut (conn.pos + 1) then 1 else 0) ≤
      conn'.stream.length + c.size.toNat := by
  obtain ⟨⟨header, conn₁⟩, hread, h⟩ := ok_of_bind h
  obtain ⟨-, -, hconn₁⟩ := Conn.read_ok hread
  rw [readLength_two] at hconn₁
  set size := rd 0 2 (goBytes 2 header) with hsize
  change (if size < 2 then _ else _) = _ at h
  split_ifs at h with hsmall
  obtain ⟨⟨body, conn₂⟩, hbody, h⟩ := ok_of_bind h
  obtain ⟨c', hc, h⟩ := ok_of_bind h
  cases h
  have hleft := readBody_ok (Nat.sub_le ..) hbody
  rw [readBody_eq (Nat.sub_le ..) hleft] at hbody
  cases hbody
  have hbuf : 0 + 2 ≤ (goBytes 2 header).length := by
    rw [goBytes, List.length_append, List.length_replicate]
    omega
  have hclaim : c.size.toNat = size := by
    rw [toNat_unserialize_size hc, rd_append_left _ hbuf]
  rw [hclaim]
  subst hconn₁
  simp only [Conn.advance, List.length_drop] at hleft ⊢
  split_ifs at hleft ⊢ <;> omega

/-! ## Successive packets -/

def packetStarts (pos : ℕ) : List (List UInt8) → List ℕ
  | [] => []
  | p :: ps => pos :: packetStarts (pos + p.length) ps

/-- The calls return the packets, one each, and leave the bytes behind them. -/
def ReadsAll (calls : List (T × List UInt8)) (rest : List UInt8) (conn : Conn) : Prop :=
  ∃ cs conn', readPackets (calls.map Prod.fst) conn = .ok (cs, conn') ∧
    List.Forall₂ (fun q c => CommunicationPacket.unserialize q.1 q.2 = .ok c) calls cs ∧
    conn'.stream = rest

/-- The calls cannot read less than the packets they return, so no read ended early. -/
theorem readPackets_ok {calls : List (T × List UInt8)} {conn conn' : Conn}
    {cs : List (CommunicationPacket T)}
    (hsize : ∀ q ∈ calls, rd 0 2 q.2 = q.2.length)
    (h : readPackets (calls.map Prod.fst) conn = .ok (cs, conn'))
    (hcs : List.Forall₂ (fun q c => CommunicationPacket.unserialize q.1 q.2 = .ok c) calls cs) :
    conn.stream.length ≤ conn'.stream.length + (calls.map Prod.snd).flatten.length := by
  induction hcs generalizing conn with
  | nil =>
    cases h
    exact Nat.le_add_right ..
  | @cons q c calls cs hq hcs ih =>
    obtain ⟨⟨c₁, conn₁⟩, hread, h⟩ := ok_of_bind h
    obtain ⟨⟨cs₁, conn₂⟩, hreads, h⟩ := ok_of_bind h
    cases h
    have hlen : c.size.toNat = q.2.length := by
      rw [toNat_unserialize_size hq, hsize q (List.mem_cons_self ..)]
    have hfirst := readPacket_ok hread
    have hrest := ih (fun q hq => hsize q (List.mem_cons_of_mem _ hq)) hreads
    rw [List.map_cons, List.flatten_cons, List.length_append]
    omega

theorem reads_all_of {calls : List (T × List UInt8)} {rest : List UInt8} {conn : Conn}
    (hcalls : ∀ q ∈ calls, 11 ≤ q.2.length ∧ rd 0 2 q.2 = q.2.length)
    (hstream : conn.stream = (calls.map Prod.snd).flatten ++ rest)
    (hcontent : ∀ q ∈ calls, ∃ c, CommunicationPacket.unserialize q.1 q.2 = .ok c)
    (hcut : ∀ s ∈ packetStarts conn.pos (calls.map Prod.snd), conn.cut (s + 1) = false) :
    ReadsAll calls rest conn := by
  induction calls generalizing conn with
  | nil => exact ⟨[], conn, rfl, .nil, hstream⟩
  | cons q calls ih =>
    obtain ⟨⟨hlen, hsize⟩, hcalls⟩ := List.forall_mem_cons.mp hcalls
    obtain ⟨⟨c, hc⟩, hcontent⟩ := List.forall_mem_cons.mp hcontent
    obtain ⟨hcut, hcuts⟩ := List.forall_mem_cons.mp hcut
    rw [List.map_cons, List.flatten_cons, List.append_assoc] at hstream
    have hnext : (conn.advance q.2.length).stream = (calls.map Prod.snd).flatten ++ rest := by
      rw [Conn.advance, hstream, List.drop_left]
    obtain ⟨cs, conn', hreads, hcs, hrest⟩ := ih hcalls hnext hcontent hcuts
    have hread : readPacket q.1 conn = .ok (c, conn.advance q.2.length) := by
      rw [readPacket_eq hstream hlen hsize hcut, hc]
      rfl
    refine ⟨c :: cs, conn', ?_, .cons hc hcs, hrest⟩
    rw [List.map_cons, readPackets, hread]
    show (readPackets (calls.map Prod.fst) (conn.advance q.2.length)).bind _ = _
    rw [hreads]
    rfl

theorem uncut_of_reads_all {calls : List (T × List UInt8)} {rest : List UInt8} {conn : Conn}
    (hcalls : ∀ q ∈ calls, 11 ≤ q.2.length ∧ rd 0 2 q.2 = q.2.length)
    (hstream : conn.stream = (calls.map Prod.snd).flatten ++ rest)
    (h : ReadsAll calls rest conn) :
    ∀ s ∈ packetStarts conn.pos (calls.map Prod.snd), conn.cut (s + 1) = false := by
  induction calls generalizing conn with
  | nil => exact List.forall_mem_nil _
  | cons q calls ih =>
    obtain ⟨cs, conn', hreads, hcs, hrest⟩ := h
    obtain ⟨⟨hlen, hsize⟩, hcalls⟩ := List.forall_mem_cons.mp hcalls
    obtain ⟨⟨c, conn₁⟩, hread, hreads⟩ := ok_of_bind hreads
    obtain ⟨⟨cs₁, conn₂⟩, hreads₁, hreads⟩ := ok_of_bind hreads
    cases hreads
    obtain ⟨hq, hcs⟩ := List.forall₂_cons.mp hcs
    -- the first call has all the bytes of its packet only if its first read had two
    have hfirst := readPacket_ok hread
    have hothers := readPackets_ok (fun q hq => (hcalls q hq).2) hreads₁ hcs
    have hclaim : c.size.toNat = q.2.length := by rw [toNat_unserialize_size hq, hsize]
    have htotal : conn.stream.length =
        q.2.length + (calls.map Prod.snd).flatten.length + conn'.stream.length := by
      rw [hstream, hrest, List.map_cons, List.flatten_cons, List.length_append,
        List.length_append]
    have hcut : conn.cut (conn.pos + 1) = false := by
      by_contra hcut
      rw [Bool.not_eq_false] at hcut
      rw [if_pos hcut] at hfirst
      omega
    rw [List.map_cons, List.flatten_cons, List.append_assoc] at hstream
    rw [readPacket_eq hstream hlen hsize hcut, hq] at hread
    cases hread
    refine List.forall_mem_cons.mpr ⟨hcut, ih hcalls ?_ ⟨cs₁, conn', hreads₁, hcs, hrest⟩⟩
    rw [Conn.advance, hstream, List.drop_left]

theorem unserialize_ok_iff {b : List UInt8} (h : 11 ≤ b.length) :
    (∃ c, CommunicationPacket.unserialize content b = .ok c) ↔
      ∃ t, Serializable.unserialize content (b.drop 11) = .ok t := by
  rw [CommunicationPacket.unserialize, if_neg (by omega), if_neg (by omega)]
  cases Serializable.unserialize content (b.drop 11) with
  | error e =>
    constructor
    · rintro ⟨c, hc⟩
      cases hc
    · rintro ⟨t, ht⟩
      cases ht
  | ok t => exact ⟨fun _ => ⟨t, rfl⟩, fun _ => ⟨_, rfl⟩⟩

/-- The packets come out as they were put in exactly if each content accepts its packet and no
read ended between the two bytes of a size. -/
theorem reads_all_iff {calls : List (T × List UInt8)} {rest : List UInt8} {conn : Conn}
    (hcalls : ∀ q ∈ calls, 11 ≤ q.2.length ∧ rd 0 2 q.2 = q.2.length)
    (hstream : conn.stream = (calls.map Prod.snd).flatten ++ rest) :
    ReadsAll calls rest conn ↔
      (∀ q ∈ calls, ∃ t, Serializable.unserialize q.1 (q.2.drop 11) = .ok t) ∧
        ∀ s ∈ packetStarts conn.pos (calls.map Prod.snd), conn.cut (s + 1) = false := by
  constructor
  · intro h
    refine ⟨?_, uncut_of_reads_all hcalls hstream h⟩
    obtain ⟨cs, conn', -, hcs, -⟩ := h
    intro q hq
    obtain ⟨i, hi, rfl⟩ := List.getElem_of_mem hq
    exact (unserialize_ok_iff (hcalls _ hq).1).mp
      ⟨_, hcs.get hi (hcs.length_eq ▸ hi)⟩
  · rintro ⟨hcontent, hcut⟩
    exact reads_all_of hcalls hstream
      (fun q hq => (unserialize_ok_iff (hcalls q hq).1).mpr (hcontent q hq)) hcut

end packet

theorem rd_size_commPacket {s t n : ℕ} {c : List UInt8} (h : CONTENT + c.length ≤ n)
    (hn : n < 2 ^ 16) : rd 0 2 (commPacket n s t c n) = (commPacket n s t c n).length := by
  rw [commPacket_length h, commPacket, rd_le_append]
  exact Nat.mod_eq_of_lt hn

/-- The answer of a node whose id is 1. -/
def okPacket : XPacket := commPacket 277 1 TYPE_OK [] 277

theorem okPacket_size : 11 ≤ okPacket.length ∧ rd 0 2 okPacket = okPacket.length := by
  constructor
  · rw [okPacket, commPacket_length (by decide)]
    decide
  · exact rd_size_commPacket (by decide) (by decide)

theorem reads_all_ok_packet :
    ReadsAll [(Empty.mk, okPacket)] [9] ⟨0, okPacket ++ [9], fun _ => false⟩ ↔
      (∀ q ∈ [(Empty.mk, okPacket)],
        ∃ t, Serializable.unserialize q.1 (q.2.drop 11) = .ok t) ∧
        ∀ s ∈ packetStarts 0 [okPacket], (fun _ => false) (s + 1) = false :=
  reads_all_iff (List.forall_mem_singleton.mpr okPacket_size)
    (by rw [List.map_singleton, List.flatten_singleton])

/-- One byte of the size arrives alone. -/
theorem not_reads_all_cut :
    ¬ ∀ cut : ℕ → Bool, ReadsAll [(Empty.mk, okPacket)] [] ⟨0, okPacket, cut⟩ := by
  intro h
  have hcut := uncut_of_reads_all (List.forall_mem_singleton.mpr okPacket_size)
    (by rw [List.map_singleton, List.flatten_singleton, List.append_nil]) (h fun _ => true) 0
    (List.mem_cons_self ..)
  cases hcut

/-! ## The wire format -/

/-- What a node finds in the header of a packet of the client. -/
structure NodeReads (b : XPacket) (sender type : ℕ) : Prop where
  size : rd 0 2 b = b.length
  sender : commSenderId b = sender
  type : commType b = type

/-- What the client makes of a packet that a node sent. -/
structure ClientReads {T : Type} (p : XPacket) (sender : ℕ) (type : UInt8)
    (c : CommunicationPacket T) : Prop where
  size : c.size.toNat = p.length
  sender : c.senderID.toNat = sender
  type : c.type = type

section serialize

variable {T : Type} [Serializable T]

theorem serialize_eq (c : CommunicationPacket T) :
    c.serialize = le 2 (11 + (Serializable.serialize c.content).length) ++
      (le 8 c.senderID.toNat ++ ([c.type] ++ Serializable.serialize c.content)) := by
  rw [CommunicationPacket.serialize, List.length_append, List.length_append, List.length_append,
    le_length, le_length, List.length_singleton, List.drop_left' (le_length 2 0)]
  congr 2
  omega

theorem length_serialize (c : CommunicationPacket T) :
    c.serialize.length = 11 + (Serializable.serialize c.content).length := by
  rw [serialize_eq]
  simp only [List.length_append, le_length, List.length_singleton]
  omega

theorem content_serialize (c : CommunicationPacket T) :
    content c.serialize = Serializable.serialize c.content := by
  rw [serialize_eq, ← List.append_assoc, ← List.append_assoc]
  exact List.drop_left' (by simp [CONTENT])

theorem nodeReads_serialize (c : CommunicationPacket T)
    (h : 11 + (Serializable.serialize c.content).length < 2 ^ 16) :
    NodeReads c.serialize c.senderID.toNat c.type.toNat := by
  refine ⟨?_, ?_, ?_⟩
  · rw [length_serialize, serialize_eq, rd_le_append]
    exact Nat.mod_eq_of_lt h
  · rw [commSenderId, serialize_eq, rd_le_skip _ _ _ _ _ le_rfl, rd_le_append]
    exact Nat.mod_eq_of_lt c.senderID.toNat_lt
  · rw [commType, serialize_eq, rd_le_skip _ _ _ _ _ (by decide), rd_le_skip _ _ _ _ _ (by decide)]
    show val [c.type] = _
    simp [val]

end serialize

theorem unserialize_xpacketSized {T : Type} [Serializable T] (content : T) {t : T} {sv : Server}
    (type : ℕ) {c : List UInt8} (hc : CONTENT + c.length ≤ SIZEOF_COMM + 2) (hid : sv.me.nodeId < 2 ^ 64)
    (ht : Serializable.unserialize content (DSS.content (xpacketSized sv type c)) = .ok t) :
    ∃ d, CommunicationPacket.unserialize content (xpacketSized sv type c) = .ok d ∧
      ClientReads (xpacketSized sv type c) sv.me.nodeId (UInt8.ofNat type) d ∧ d.content = t := by
  have hlen : (xpacketSized sv type c).length = SIZEOF_COMM + 2 := commPacket_length hc
  obtain ⟨d, hd⟩ := (unserialize_ok_iff (by rw [hlen]; decide)).mpr ⟨t, ht⟩
  refine ⟨d, hd, ?_⟩
  have hsize := toNat_unserialize_size hd
  rw [CommunicationPacket.unserialize, if_neg (by rw [hlen]; decide),
    if_neg (by rw [hlen]; decide)] at hd
  change (Serializable.unserialize content (DSS.content (xpacketSized sv type c))).bind _ = _ at hd
  rw [ht] at hd
  cases hd
  refine ⟨⟨?_, ?_, ?_⟩, rfl⟩
  · rw [hsize]
    exact rd_size_commPacket hc (by decide)
  · show rd 2 8 _ % 2 ^ 64 = _
    rw [← commSenderId, xpacketSized, commSenderId_commPacket]
    omega
  · show UInt8.ofNat (commType (xpacketSized sv type c)) = _
    rw [xpacketSized, commType_commPacket]
    exact UInt8.ofNat_mod_size

theorem unserialize_fileResponse (content : FileResponsePacket) {b : List UInt8}
    (h : 17 ≤ b.length) :
    Serializable.unserialize content b =
      .ok ⟨UInt64.ofNat (XResponseRequestFile.ofContent b).fileSize,
        UInt64.ofNat (XResponseRequestFile.ofContent b).fileId,
        UInt8.ofNat (XResponseRequestFile.ofContent b).fragmentCountTotal⟩ := by
  show (if b.length < 16 then _ else if b.length < 17 then _ else _) = _
  rw [if_neg (by omega), if_neg (by omega)]
  rfl

theorem unserialize_xpacketRequestFileResponse {sv : Server} {fileId : ℤ} {filesize : ℕ}
    {fragCount : ℤ} (content : FileResponsePacket) (hid : sv.me.nodeId < 2 ^ 64)
    (h0 : 0 ≤ fileId) (hfile : fileId < 2 ^ 31) (hsize : filesize < 2 ^ 64)
    (hcount0 : 0 ≤ fragCount) (hcount : fragCount ≤ 255) :
    ∃ d, CommunicationPacket.unserialize content
        (xpacketRequestFileResponse sv fileId filesize fragCount) = .ok d ∧
      ClientReads (xpacketRequestFileResponse sv fileId filesize fragCount) sv.me.nodeId
        RequestFilePacketRes d ∧
      d.content.fileSize.toNat = filesize ∧ d.content.fileId.toNat = fileId ∧
        d.content.fragmentCountTotal.toNat = fragCount := by
  lift fileId to ℕ using h0
  lift fragCount to ℕ using hcount0
  set c : XResponseRequestFile := ⟨filesize, toU64 fileId, u8 (toU64 fragCount)⟩ with hc
  have hbytes : c.bytes.length = 17 := by simp [XResponseRequestFile.bytes]
  have hfit : CONTENT + c.bytes.length ≤ SIZEOF_COMM + 2 := by rw [hbytes]; decide
  have hcontent := content_commPacket (SIZEOF_COMM + 2) sv.me.nodeId TYPE_RESPONSE_FILE c.bytes
    (SIZEOF_COMM + 2)
  have ht := unserialize_fileResponse content
    (b := DSS.content (xpacketSized sv TYPE_RESPONSE_FILE c.bytes))
    (by rw [xpacketSized, hcontent, List.length_append]; omega)
  obtain ⟨d, hd, hreads, hdc⟩ := unserialize_xpacketSized _ _ hfit hid ht
  refine ⟨d, hd, hreads, ?_⟩
  rw [hdc, xpacketSized, hcontent, XResponseRequestFile.ofContent_bytes, hc,
    toU64_natCast (by omega), toU64_natCast (by omega), u8_of_lt (by omega)]
  refine ⟨?_, ?_, ?_⟩
  · show u64 filesize % 2 ^ 64 = _
    rw [u64_of_lt hsize, Nat.mod_eq_of_lt hsize]
  · show ((u64 fileId % 2 ^ 64 : ℕ) : ℤ) = _
    rw [u64_of_lt (by omega), Nat.mod_eq_of_lt (by omega)]
  · show ((u8 fragCount % 2 ^ 8 : ℕ) : ℤ) = _
    rw [u8_of_lt (by omega), Nat.mod_eq_of_lt (by omega)]

/-- The client and a node agree on every packet that one sends the other. -/
theorem wire_agreement :
    (∀ (size : UInt16) (sender : UInt64) (d : FileDeclarationPacket),
      let b := CommunicationPacket.serialize ⟨size, sender, CreateFilePacket, d⟩
      NodeReads b sender.toNat TYPE_CREATE_FILE ∧
        XRequestFileCreation.ofContent (content b) = ⟨d.fileName, d.fileSize.toNat⟩) ∧
      (∀ (size : UInt16) (sender : UInt64) (d : FileRequestPacket),
        let b := CommunicationPacket.serialize ⟨size, sender, RequestFilePacket, d⟩
        NodeReads b sender.toNat TYPE_REQUEST_FILE ∧
          XRequestFile.ofContent (content b) = ⟨d.fileName⟩) ∧
      (∀ (sv : Server) (content : FileResponsePacket) (fileId : ℤ) (filesize : ℕ) (fragCount : ℤ),
        sv.me.nodeId < 2 ^ 64 → 0 ≤ fileId → fileId < 2 ^ 31 → filesize < 2 ^ 64 →
        0 ≤ fragCount → fragCount ≤ 255 →
        ∃ d, CommunicationPacket.unserialize content
            (xpacketRequestFileResponse sv fileId filesize fragCount) = .ok d ∧
          ClientReads (xpacketRequestFileResponse sv fileId filesize fragCount) sv.me.nodeId
            RequestFilePacketRes d ∧
          d.content.fileSize.toNat = filesize ∧ d.content.fileId.toNat = fileId ∧
            d.content.fragmentCountTotal.toNat = fragCount) ∧
      ∀ (sv : Server) (content : Empty), sv.me.nodeId < 2 ^ 64 →
        (∃ d, CommunicationPacket.unserialize content (xpacketOk sv) = .ok d ∧
          ClientReads (xpacketOk sv) sv.me.nodeId StatusOK d) ∧
        ∃ d, CommunicationPacket.unserialize content (xpacketNotOk sv) = .ok d ∧
          ClientReads (xpacketNotOk sv) sv.me.nodeId StatusNotOK d := by
  refine ⟨?_, ?_, ?_, ?_⟩
  · intro size sender d b
    constructor
    · refine nodeReads_serialize ⟨size, sender, CreateFilePacket, d⟩ ?_
      show 11 + (d.fileName ++ le 8 d.fileSize.toNat).length < _
      rw [List.length_append, le_length, d.fileName_length]
      decide
    · have hbytes : content b =
          XRequestFileCreation.bytes ⟨d.fileName, d.fileSize.toNat⟩ ++ [] := by
        rw [content_serialize, XRequestFileCreation.bytes, char200_of_length d.fileName_length,
          List.append_nil]
        rfl
      rw [hbytes, XRequestFileCreation.ofContent_bytes, char200_of_length d.fileName_length,
        u64_of_lt d.fileSize.toNat_lt]
  · intro size sender d b
    constructor
    · refine nodeReads_serialize ⟨size, sender, RequestFilePacket, d⟩ ?_
      show 11 + d.fileName.length < _
      rw [d.fileName_length]
      decide
    · have hbytes : content b = d.fileName := content_serialize _
      rw [hbytes, XRequestFile.ofContent, char200_of_length d.fileName_length]
  · intro sv content fileId filesize fragCount hid h0 hfile hsize hcount0 hcount
    exact unserialize_xpacketRequestFileResponse content hid h0 hfile hsize hcount0 hcount
  · intro sv content hid
    obtain ⟨d, hd, hreads, -⟩ := unserialize_xpacketSized content TYPE_OK
      (t := content) (c := []) (by decide) hid rfl
    obtain ⟨e, he, hreads', -⟩ := unserialize_xpacketSized content TYPE_NOT_OK
      (t := content) (c := []) (by decide) hid rfl
    exact ⟨⟨d, hd, hreads⟩, e, he, hreads'⟩

/-- The answers of a gateway that has just started, for a file of three fragments. -/
theorem wire_agreement_response :
    let sv := serverInit ⟨1, Address.zero, 2, Address.zero, 3⟩ ⟨0, Address.zero, none, false⟩
    (∃ d, CommunicationPacket.unserialize (⟨0, 0, 0⟩ : FileResponsePacket)
        (xpacketRequestFileResponse sv 7 1000 3) = .ok d ∧
      ClientReads (xpacketRequestFileResponse sv 7 1000 3) 1 RequestFilePacketRes d ∧
      d.content.fileSize.toNat = 1000 ∧ d.content.fileId.toNat = (7 : ℤ) ∧
        d.content.fragmentCountTotal.toNat = (3 : ℤ)) ∧
      (∃ d, CommunicationPacket.unserialize Empty.mk (xpacketOk sv) = .ok d ∧
        ClientReads (xpacketOk sv) 1 StatusOK d) ∧
      ∃ d, CommunicationPacket.unserialize Empty.mk (xpacketNotOk sv) = .ok d ∧
        ClientReads (xpacketNotOk sv) 1 StatusNotOK d := by
  intro sv
  exact ⟨wire_agreement.2.2.1 sv ⟨0, 0, 0⟩ 7 1000 3 (by decide) (by decide) (by decide)
    (by decide) (by decide) (by decide), wire_agreement.2.2.2 sv Empty.mk (by decide)⟩

end DSS
