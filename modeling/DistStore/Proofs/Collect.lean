import DistStore.Model.Network
import DistStore.Proofs.StoredFile

/-! Collecting one file from whichever nodes were asked for its fragments: the node that is asked
delivers what it stores, and the gateway writes it back at its own place. -/

namespace DSS

open Splice

/-! ## What the gateway starts with, and one write -/

theorem typeRequestFileGateway_eq (sv : Server) {id size count : ℕ} (hid : id < 2 ^ 31)
    (hsize : size < 2 ^ 64) (hcount : count < 2 ^ 8) :
    typeRequestFileGateway (xpacketRequestFileResponse sv id size count) =
      ⟨id, size, count, 0, List.replicate size 46⟩ := by
  rw [typeRequestFileGateway, xpacketRequestFileResponse, xpacketSized, content_commPacket,
    XResponseRequestFile.ofContent_bytes, toU64_natCast (by omega), toU64_natCast (by omega)]
  simp only [u64_of_lt hsize, u64_of_lt (show id < 2 ^ 64 by omega), u8_of_lt hcount, cInt_of_lt hid]

theorem writeBuffer_eq {buffer bs : List UInt8} {b i : ℕ}
    (h : i * b + bs.length ≤ buffer.length) :
    writeBuffer buffer ((b : ℤ) * (((i + 1 : ℕ) : ℤ) - 1)) bs = some (splice buffer (i * b) bs) := by
  have hoff : (b : ℤ) * (((i + 1 : ℕ) : ℤ) - 1) = ((i * b : ℕ) : ℤ) := by
    push_cast
    ring
  rw [writeBuffer, hoff, Int.toNat_natCast, if_pos ⟨Int.natCast_nonneg _, h⟩]

namespace StoredFile

variable {f : StoredFile} {c : Cluster} {id : ℕ}

/-! ## One fragment -/

def part (f : StoredFile) (i : ℕ) : List UInt8 :=
  slice f.bytes (i * (f.bytes.length / f.count)) (f.pieceSize i)

/-- The entry that puts fragment `i + 1` on node `n`. -/
def entry (f : StoredFile) (i n : ℕ) : XFragmentNetworkPointer := ⟨i + 1, f.pieceSize i, n⟩

theorem piece_eq_part {i : ℕ} {e : XFragmentNetworkPointer} (hk : e.fragment = i + 1)
    (hs : e.size = f.pieceSize i) : f.piece e = f.part i := by
  rw [piece, hk, hs, Nat.add_sub_cancel, part]

namespace StoredBy

variable (h : f.StoredBy c)
include h

theorem part_inside {i : ℕ} (hi : i < f.count) :
    i * (f.bytes.length / f.count) + f.pieceSize i ≤ f.bytes.length :=
  fragment_inside h.uploadable.size_lt hi

theorem part_length {i : ℕ} (hi : i < f.count) : (f.part i).length = f.pieceSize i :=
  slice_length (h.part_inside hi)

theorem pieceSize_lt {i : ℕ} (hi : i < f.count) : f.pieceSize i < 2 ^ 31 := by
  have hin := h.part_inside hi
  have hsz : f.bytes.length < 2 ^ 31 := h.uploadable.size_lt
  omega

theorem count_lt (hN : c.N ≤ 254) : f.count < 2 ^ 8 := by
  have := (count_bounds h.two_le).2
  have := h.length_nodes_le
  omega

end StoredBy

/-! ## The node that is asked -/

/-- A search in `fs` ends at the fragment with its bytes. -/
def Stores (f : StoredFile) (fs : XFileServer) (id i : ℕ) : Prop :=
  ∃ x, fs.found id = some x ∧ f.Header id x ∧
    (if x.fragments0.fragmentId ≠ i + 1 then x.fragments1 else x.fragments0) =
      ⟨i + 1, f.part i, f.pieceSize i⟩

/-- `a` brings fragment `i + 1`, or declares that the gateway's store `fs` has it. -/
def Delivers (f : StoredFile) (fs : XFileServer) (id i : ℕ) (a : Arrival) : Prop :=
  (commType a.packet = TYPE_DECLARE_USE_LOCAL ∧
    XDeclareFragmentUseLocal.ofContent (content a.packet) = ⟨i + 1⟩ ∧ f.Stores fs id i) ∨
  (commType a.packet = TYPE_DECLARE_FRAG ∧ XDeclareFragmentTransport.ofContent (content a.packet) =
    ⟨id, i + 1, f.pieceSize i, f.bytes.length⟩ ∧ a.raw = f.part i)

theorem StoredBy.stores_of_held (h : f.StoredBy c) (hN : c.N ≤ 254) (hid : id < 2 ^ 16) {i n : ℕ}
    (hn : n ∈ f.nodes) (hi : i < f.count) (hheld : f.entry i n ∈ heldEntries f.table n)
    {fs : XFileServer} (hfound : fs.found id = some (f.container id n)) : f.Stores fs id i := by
  have hpiece : f.piece (f.entry i n) = f.part i := piece_eq_part rfl rfl
  refine ⟨f.container id n, hfound, h.header hN hid n, ?_⟩
  refine ((h.placed_over hN hid).slot_of_held hn hheld).2.trans ?_
  exact congrArg (fun bs => XFileFragment.mk (i + 1) bs (f.pieceSize i))
    ((congrArg (List.take (f.pieceSize i)) hpiece).trans
      (List.take_of_length_le (h.part_length hi).le))

theorem StoredBy.sendFragment (h : f.StoredBy c) (hN : c.N ≤ 254) (hid : id < 2 ^ 16)
    {fs : XFileServer} {i : ℕ} (hi : i < f.count) (hs : f.Stores fs id i) (sv : Server)
    (gateway : XFileServer) :
    ∃ a, xprocedureSendFragment sv fs (id : ℤ) ((i + 1 : ℕ) : ℤ) = .ok a ∧
      f.Delivers gateway id i a := by
  obtain ⟨x, hfound, hhead, hslot⟩ := hs
  have hcount := h.count_lt hN
  have hsize := h.pieceSize_lt hi
  have hsz : f.bytes.length < 2 ^ 31 := h.uploadable.size_lt
  have hfind : [x.fragments0, x.fragments1].find?
      (fun fr => (fr.fragmentId : ℤ) = ((i + 1 : ℕ) : ℤ)) = some ⟨i + 1, f.part i, f.pieceSize i⟩ := by
    simp only [Nat.cast_inj]
    split_ifs at hslot with hne
    · rw [List.find?_cons_of_neg (by simpa using hne), List.find?_cons_of_pos (by rw [hslot]; simp),
        hslot]
    · rw [List.find?_cons_of_pos (by simpa using hne), hslot]
  refine ⟨⟨declareFragmentPacket sv id ((i + 1 : ℕ) : ℤ) (f.pieceSize i) x.size,
    (f.part i).take (f.pieceSize i)⟩, ?_, .inr ⟨?_, ?_, ?_⟩⟩
  · simp only [xprocedureSendFragment, toU64_natCast (show id < 2 ^ 64 by omega), hfound, hfind]
  · rw [declareFragmentPacket, xpacketNew, commType_commPacket]
    rfl
  · rw [declareFragmentPacket, xpacketNew, content_commPacket,
      XDeclareFragmentTransport.ofContent_bytes, hhead.size]
    simp only [toU64_natCast (show id < 2 ^ 64 by omega), u64_of_lt (show id < 2 ^ 64 by omega),
      toU64_natCast (show i + 1 < 2 ^ 64 by omega), u64_of_lt (show i + 1 < 2 ^ 64 by omega),
      u64_of_lt (show f.pieceSize i < 2 ^ 64 by omega),
      u64_of_lt (show f.bytes.length < 2 ^ 64 by omega)]
  · exact List.take_of_length_le (h.part_length hi).le

/-! ## The orders of the index -/

section order

variable {r : Cluster} {nw : Network} {d : XIndexData} {g i n : ℕ}

/-- The order is carried out if the node that is asked can be reached. -/
theorem StoredBy.carryOut (h : f.StoredBy c) (hN : c.N ≤ 254) (hid : id < 2 ^ 16)
    (hme : nw.index.me.nodeId = r.N) (hg : g < 2 ^ 64) (hgat : r.nodeAt (d.peerIp g) = some g)
    (hi : i < f.count) (hat : n ≠ g → n ≠ r.N → r.nodeAt (d.peerIp n) = some n)
    (hs : f.Stores (nw.fs n) id i) (server : ℕ → Server) :
    ∃ a, nw.carryOut r server g (orderFragment nw.index d id g (f.entry i n)) = some a ∧
      f.Delivers (nw.fs g) id i a := by
  have hcount := h.count_lt hN
  simp only [orderFragment, entry, toU64_natCast hg, hme]
  split_ifs with hself hidx
  · refine ⟨⟨useLocalPacket nw.index ((i + 1 : ℕ) : ℤ), []⟩, ?_, .inl ⟨?_, ?_, hself ▸ hs⟩⟩
    · simp only [Network.carryOut, hgat, if_true]
    · rw [useLocalPacket, xpacketNew, commType_commPacket]
      rfl
    · rw [useLocalPacket, xpacketNew, content_commPacket, XDeclareFragmentUseLocal.ofContent_bytes,
        toU64_natCast (show i + 1 < 2 ^ 64 by omega), u64_of_lt (show i + 1 < 2 ^ 64 by omega)]
  · obtain ⟨a, ha, hdel⟩ := h.sendFragment hN hid hi hs nw.index (nw.fs g)
    refine ⟨a, ?_, hdel⟩
    rw [hidx] at ha
    simp only [Network.carryOut, hgat, if_true, ha]
    rfl
  · obtain ⟨a, ha, hdel⟩ := h.sendFragment hN hid hi hs (server n) (nw.fs g)
    refine ⟨a, ?_, hdel⟩
    have hdecode : XDeliverFragmentTo.ofContent (content (requestFragmentPacket nw.index
        (id : ℤ) ((i + 1 : ℕ) : ℤ) (d.peerIp g))) = ⟨id, i + 1, d.peerIp g⟩ := by
      rw [requestFragmentPacket, xpacketNew, content_commPacket, XDeliverFragmentTo.ofContent_bytes,
        toU64_natCast (show id < 2 ^ 64 by omega), toU64_natCast (show i + 1 < 2 ^ 64 by omega),
        u64_of_lt (show id < 2 ^ 64 by omega), u64_of_lt (show i + 1 < 2 ^ 64 by omega)]
    simp only [Network.carryOut, hat hself hidx, typeRequestFrag, hdecode, Option.bind_eq_bind,
      Option.bind_some, hgat, if_true, cInt_of_lt (show id < 2 ^ 31 by omega),
      cInt_of_lt (show i + 1 < 2 ^ 31 by omega), ha]
    rfl

/-- Nobody listens at the address of a node that is gone. -/
theorem carryOut_none (hme : nw.index.me.nodeId = r.N) (hg : g < 2 ^ 64) (hng : n ≠ g)
    (hn : n ≠ r.N) (hat : r.nodeAt (d.peerIp n) = none) (server : ℕ → Server) :
    nw.carryOut r server g (orderFragment nw.index d id g (f.entry i n)) = none := by
  simp only [orderFragment, entry, toU64_natCast hg, hme, if_neg hng, if_neg hn, Network.carryOut,
    hat, Option.bind_eq_bind, Option.bind_none]

end order

/-! ## The gateway -/

/-- A gateway that has taken `found` connections for the file. -/
def collecting (f : StoredFile) (id found : ℕ) (buffer : List UInt8) : StateRequestedFile :=
  ⟨id, f.bytes.length, f.count, found, buffer⟩

theorem StoredBy.collecting_start (h : f.StoredBy c) (hN : c.N ≤ 254) (hid : id < 2 ^ 16) (sv : Server) :
    typeRequestFileGateway (xpacketRequestFileResponse sv id f.bytes.length f.count) =
      f.collecting id 0 (List.replicate f.bytes.length 46) := by
  have hsz : f.bytes.length < 2 ^ 31 := h.uploadable.size_lt
  exact typeRequestFileGateway_eq sv (by omega) (by omega) (h.count_lt hN)

/-- Whatever reaches the gateway writes one fragment of the file at its own place. -/
theorem StoredBy.collect (h : f.StoredBy c) (hN : c.N ≤ 254) (hid : id < 2 ^ 16) {fs : XFileServer}
    {i : ℕ} (hi : i < f.count) {a : Arrival} (ha : f.Delivers fs id i a) (found : ℕ)
    {buffer : List UInt8} (hb : buffer.length = f.bytes.length) :
    serverWaitRequestFragments fs (f.collecting id found buffer) a =
      some (f.collecting id (found + 1)
        (splice buffer (i * (f.bytes.length / f.count)) (f.part i))) := by
  have hsz : f.bytes.length < 2 ^ 31 := h.uploadable.size_lt
  have hcount := h.count_lt hN
  have hsize := h.pieceSize_lt hi
  have hlen := h.part_length hi
  have hdiv : f.bytes.length / f.count ≤ f.bytes.length := Nat.div_le_self ..
  have hper : cInt (f.bytes.length / toU64 (f.count : ℤ)) =
      ((f.bytes.length / f.count : ℕ) : ℤ) := by
    rw [toU64_natCast (by omega), cInt_of_lt (by omega)]
  have hwrite := writeBuffer_eq (show i * (f.bytes.length / f.count) + (f.part i).length ≤
    buffer.length by rw [hlen, hb]; exact h.part_inside hi)
  have htake : (f.part i).take (f.pieceSize i) = f.part i := List.take_of_length_le hlen.le
  rw [serverWaitRequestFragments]
  rcases ha with ⟨htype, hdecl, x, hfound, hhead, hslot⟩ | ⟨htype, hdecl, hraw⟩
  · rw [if_pos htype, collectLocal]
    simp only [collecting, toU64_natCast (show id < 2 ^ 64 by omega), hfound, hdecl, hslot,
      hhead.size, hper, htake, hwrite, Option.bind_eq_bind, Option.bind_some]
    rfl
  · rw [if_neg (by rw [htype]; decide), collectDelivery]
    simp only [collecting, hdecl, hraw, hper, cInt_of_lt (show i + 1 < 2 ^ 31 by omega),
      cInt_of_lt hsize, Int.toNat_natCast, htake, hwrite, Option.bind_eq_bind, Option.bind_some]
    rfl

def InPart (f : StoredFile) (i x : ℕ) : Prop :=
  i * (f.bytes.length / f.count) ≤ x ∧ x < i * (f.bytes.length / f.count) + f.pieceSize i

/-- After any sequence of deliveries the buffer agrees with the file on their fragments. -/
theorem StoredBy.foldlM_collect (h : f.StoredBy c) (hN : c.N ≤ 254) (hid : id < 2 ^ 16)
    {fs : XFileServer} {arrival : ℕ → Arrival} {is : List ℕ}
    (his : ∀ i ∈ is, i < f.count ∧ f.Delivers fs id i (arrival i)) (found : ℕ)
    {buffer : List UInt8} {P : ℕ → Prop} (hfills : Fills f.bytes P buffer) :
    ∃ buffer', (is.map arrival).foldlM (serverWaitRequestFragments fs)
        (f.collecting id found buffer) = some (f.collecting id (found + is.length) buffer') ∧
      Fills f.bytes (fun x => P x ∨ ∃ i ∈ is, f.InPart i x) buffer' := by
  induction is generalizing found buffer P with
  | nil => exact ⟨buffer, rfl, hfills.mono (by simp)⟩
  | cons i is ih =>
    obtain ⟨hi, ha⟩ := his i (by simp)
    have hfills1 := hfills.splice (h.part_inside hi)
    obtain ⟨buffer', hrun, hfills'⟩ := ih (fun j hj => his j (by simp [hj])) (found + 1) hfills1
    refine ⟨buffer', ?_, hfills'.mono fun x hx => ?_⟩
    · rw [List.map_cons, List.foldlM_cons, h.collect hN hid hi ha found hfills.1, List.length_cons,
        Nat.add_comm is.length, ← Nat.add_assoc]
      exact hrun
    · rcases hx with hx | ⟨j, hj, hx⟩
      · exact .inl (.inl hx)
      · rcases List.mem_cons.mp hj with rfl | hj
        · exact .inl (.inr hx)
        · exact .inr ⟨j, hj, hx⟩

/-- In whatever order the deliveries come: the client gets the file if all of them do, and
otherwise the gateway keeps waiting. -/
theorem StoredBy.gathers (h : f.StoredBy c) (hN : c.N ≤ 254) (hid : id < 2 ^ 16)
    {fs : XFileServer} {arrival : ℕ → Arrival} {Q : ℕ → Prop} [DecidablePred Q]
    (hdel : ∀ i < f.count, Q i → f.Delivers fs id i (arrival i)) {order : List Arrival}
    (hperm : order.Perm (((List.range f.count).filter Q).map arrival)) :
    ∃ st, order.foldlM (serverWaitRequestFragments fs)
        (f.collecting id 0 (List.replicate f.bytes.length 46)) = some st ∧
      bufferToClient st = if ∀ i < f.count, Q i then some f.bytes else none := by
  have hsz : f.bytes.length < 2 ^ 31 := h.uploadable.size_lt
  obtain ⟨is, rfl, his⟩ := (congrFun₂ (List.eq_map_comp_perm arrival) order _).mpr hperm
  have hmem : ∀ i, i ∈ is ↔ i < f.count ∧ Q i := fun i => by simp [his.mem_iff]
  have hbring : ∀ i ∈ is, i < f.count ∧ f.Delivers fs id i (arrival i) := fun i hi =>
    ⟨((hmem i).mp hi).1, hdel i ((hmem i).mp hi).1 ((hmem i).mp hi).2⟩
  obtain ⟨buffer, hrun, hfills⟩ := h.foldlM_collect hN hid hbring 0
    (show Fills f.bytes (fun _ => False) (List.replicate f.bytes.length 46) from
      ⟨List.length_replicate, fun _ hx => hx.elim⟩)
  refine ⟨_, hrun, ?_⟩
  have hlen : is.length = f.count ↔ ∀ i < f.count, Q i := by
    rw [his.length_eq]
    conv_lhs => rhs; rw [← List.length_range (n := f.count)]
    rw [List.length_filter_eq_length_iff]
    simp
  rw [bufferToClient]
  simp only [collecting, Nat.zero_add, Nat.cast_inj, eq_comm (a := f.count), hlen]
  split_ifs with hall
  · have hbuffer : buffer = f.bytes := hfills.eq fun x hx => by
      obtain ⟨i, hi, hin⟩ := fragment_covers (count_bounds h.two_le).1 hsz hx
      exact .inr ⟨i, (hmem i).mpr ⟨hi, hall i hi⟩, hin⟩
    rw [hbuffer, cInt_of_lt hsz, Int.toNat_natCast, List.take_length]
  · rfl

/-- Once every fragment has come, in whatever order, the client gets the file. -/
theorem StoredBy.gathers_all (h : f.StoredBy c) (hN : c.N ≤ 254) (hid : id < 2 ^ 16)
    {fs : XFileServer} {arrival : ℕ → Arrival} (hdel : ∀ i < f.count, f.Delivers fs id i (arrival i))
    {order : List Arrival} (hperm : order.Perm ((List.range f.count).map arrival)) :
    ∃ st, order.foldlM (serverWaitRequestFragments fs)
        (f.collecting id 0 (List.replicate f.bytes.length 46)) = some st ∧
      bufferToClient st = some f.bytes := by
  have hall : order.Perm (((List.range f.count).filter fun _ => True).map arrival) := by
    rwa [List.filter_eq_self.mpr fun _ _ => decide_eq_true trivial]
  obtain ⟨st, hrun, hout⟩ := h.gathers hN hid (fun i hi _ => hdel i hi) hall
  exact ⟨st, hrun, hout.trans (if_pos fun _ _ => trivial)⟩

end StoredFile

end DSS
