import DistStore.Model.FileServer

/-! The packets of `lib/server/server.h` as bytes: LP64, little endian,
`xCommunicationPacket` packed. `content` is a union, so a reader that takes a
packet for another type reads the bytes the sender put there. -/

namespace DSS

open Bytes

/-- What one receive returns. Its size is its length; the bytes past it are zero. -/
abbrev XPacket := List UInt8

def TYPE_PRESENT_ITSELF : ℕ := 1
def TYPE_REPORT_SELF : ℕ := 5
def TYPE_REPORT_FILE : ℕ := 6
def TYPE_CREATE_FILE : ℕ := 10
def TYPE_STORE_FRAGMENT : ℕ := 11
def TYPE_REQUEST_FILE : ℕ := 15
def TYPE_RESPONSE_FILE : ℕ := 16
def TYPE_REQUEST_FRAG : ℕ := 20
def TYPE_DECLARE_FRAG : ℕ := 21
def TYPE_DECLARE_USE_LOCAL : ℕ := 22
def TYPE_PEER_DIED : ℕ := 21
def TYPE_OK : ℕ := 200
def TYPE_NOT_OK : ℕ := 220

/-- `CLIENT_NODE_ID`: the shift leaves `-1` as a `node_id_t`. -/
def CLIENT_NODE_ID : ℕ := 2 ^ 64 - 1

/-- `sizeof(xCommunicationPacket)`: a header of 11 bytes and a union of 264. -/
def SIZEOF_COMM : ℕ := 275

/-- Offset of `content`. -/
def CONTENT : ℕ := 11

def commPacket (packetSize senderId type : ℕ) (content : List UInt8) (size : ℕ) : XPacket :=
  le 2 packetSize ++ (le 8 senderId ++ (le 1 type ++
    (content ++ List.replicate (size - (CONTENT + content.length)) 0)))

def commSenderId (p : XPacket) : ℕ := rd 2 8 p
def commType (p : XPacket) : ℕ := rd 10 1 p

/-- The bytes of the union. -/
def content (p : XPacket) : List UInt8 := p.drop CONTENT

theorem commSenderId_commPacket (k s t : ℕ) (c : List UInt8) (n : ℕ) :
    commSenderId (commPacket k s t c n) = s % 2 ^ 64 := by
  simp [commSenderId, commPacket, rd_le_skip]

theorem commType_commPacket (k s t : ℕ) (c : List UInt8) (n : ℕ) :
    commType (commPacket k s t c n) = t % 256 := by
  simp [commType, commPacket, rd_le_skip]

theorem content_commPacket (k s t : ℕ) (c : List UInt8) (n : ℕ) :
    content (commPacket k s t c n) = c ++ List.replicate (n - (CONTENT + c.length)) 0 := by
  simp [content, commPacket, CONTENT, List.drop_append, List.drop_of_length_le]

theorem commPacket_length {k s t n : ℕ} {c : List UInt8} (h : CONTENT + c.length ≤ n) :
    (commPacket k s t c n).length = n := by
  simp only [commPacket, List.length_append, le_length, List.length_replicate, CONTENT] at *
  omega

def addressBytes (a : Address) : List UInt8 :=
  [a.ip.octet0, a.ip.octet1, a.ip.octet2, a.ip.octet3] ++ le 2 a.port.toNat

def addressOf (b : List UInt8) : Address :=
  ⟨⟨b.getD 0 0, b.getD 1 0, b.getD 2 0, b.getD 3 0⟩, UInt16.ofNat (rd 4 2 b)⟩

theorem addressOf_append (a : Address) (r : List UInt8) :
    addressOf (addressBytes a ++ r) = a := by
  obtain ⟨⟨a0, a1, a2, a3⟩, port⟩ := a
  have hport : rd 4 2 (addressBytes ⟨⟨a0, a1, a2, a3⟩, port⟩ ++ r) = port.toNat := by
    rw [addressBytes, List.append_assoc, rd_append_right 2 _ (by simp)]
    simp
  rw [addressOf, hport]
  simp [addressBytes]

theorem char200_append {s : List UInt8} (h : s.length = 200) (r : List UInt8) :
    char200 (s ++ r) = s := by
  rw [char200, List.append_assoc, List.take_left' h]

theorem drop_le_append (n x : ℕ) (r : List UInt8) : (le n x ++ r).drop n = r :=
  List.drop_left' (le_length n x)

/-! The members of the union: the bytes a sender writes and what a receiver
reads, at the offsets the LP64 layout gives the fields. -/

structure XPeerReportMessage where
  peerAddr : Address
  deriving DecidableEq, Repr

def XPeerReportMessage.bytes (c : XPeerReportMessage) : List UInt8 := addressBytes c.peerAddr

def XPeerReportMessage.ofContent (b : List UInt8) : XPeerReportMessage := ⟨addressOf b⟩

theorem XPeerReportMessage.ofContent_bytes (c : XPeerReportMessage) (r : List UInt8) :
    ofContent (c.bytes ++ r) = c := by
  simp [ofContent, bytes, addressOf_append]

structure XRequestFileCreation where
  name : List UInt8
  fileSize : ℕ
  deriving DecidableEq, Repr

def XRequestFileCreation.bytes (c : XRequestFileCreation) : List UInt8 :=
  char200 c.name ++ le 8 c.fileSize

def XRequestFileCreation.ofContent (b : List UInt8) : XRequestFileCreation :=
  ⟨char200 b, rd 200 8 b⟩

theorem XRequestFileCreation.ofContent_bytes (c : XRequestFileCreation) (r : List UInt8) :
    ofContent (c.bytes ++ r) = ⟨char200 c.name, u64 c.fileSize⟩ := by
  have hs : rd 200 8 (c.bytes ++ r) = u64 c.fileSize := by
    rw [bytes, List.append_assoc, rd_append_right 8 _ (by simp)]
    simp [u64]
  rw [ofContent, hs, bytes, List.append_assoc, char200_append (char200_length _)]

/-- `xRequestFragmentCreation`: one byte of padding before `ptr_index` is left
out of the structure, four after it. -/
structure XRequestFragmentCreation where
  fileName : List UInt8
  fileSize : ℕ
  fileId : ℕ
  fragmentCountTotal : ℕ
  ptrIndex : ℕ
  fragId : ℕ
  fragSize : ℕ
  deriving DecidableEq, Repr

def XRequestFragmentCreation.bytes (c : XRequestFragmentCreation) : List UInt8 :=
  char200 c.fileName ++ (le 8 c.fileSize ++ (le 8 c.fileId ++ (le 1 c.fragmentCountTotal ++
    (le 1 0 ++ (le 2 c.ptrIndex ++ (le 4 0 ++ (le 8 c.fragId ++ le 8 c.fragSize)))))))

def XRequestFragmentCreation.ofContent (b : List UInt8) : XRequestFragmentCreation :=
  { fileName := char200 b
    fileSize := rd 200 8 b
    fileId := rd 208 8 b
    fragmentCountTotal := rd 216 1 b
    ptrIndex := rd 218 2 b
    fragId := rd 224 8 b
    fragSize := rd 232 8 b }

/-- The values that fit the fields. -/
structure XRequestFragmentCreation.Fits (c : XRequestFragmentCreation) : Prop where
  fileName : c.fileName.length = 200
  fileSize : c.fileSize < 2 ^ 64
  fileId : c.fileId < 2 ^ 64
  fragmentCountTotal : c.fragmentCountTotal < 2 ^ 8
  ptrIndex : c.ptrIndex < 2 ^ 16
  fragId : c.fragId < 2 ^ 64
  fragSize : c.fragSize < 2 ^ 64

theorem rd_char200_skip (s r : List UInt8) (off n : ℕ) (h : 200 ≤ off) :
    rd off n (char200 s ++ r) = rd (off - 200) n r := by
  rw [rd_append_right n r (by simpa using h), char200_length]

theorem XRequestFragmentCreation.ofContent_bytes {c : XRequestFragmentCreation} (h : c.Fits)
    (r : List UInt8) : ofContent (c.bytes ++ r) = c := by
  obtain ⟨h1, h2, h3, h4, h5, h6, h7⟩ := h
  obtain ⟨name, size, id, count, ptr, frag, fragSize⟩ := c
  simp only [ofContent, bytes, List.append_assoc] at *
  simp only [rd_char200_skip, rd_le_skip, rd_le_append, Nat.reduceLeDiff, Nat.reduceSub,
    Nat.sub_self, le_refl]
  rw [char200_append (char200_length _), char200_of_length h1]
  norm_num at *
  omega

structure XRequestFile where
  name : List UInt8
  deriving DecidableEq, Repr

def XRequestFile.bytes (c : XRequestFile) : List UInt8 := char200 c.name

def XRequestFile.ofContent (b : List UInt8) : XRequestFile := ⟨char200 b⟩

theorem XRequestFile.ofContent_bytes (c : XRequestFile) (r : List UInt8) :
    ofContent (c.bytes ++ r) = ⟨char200 c.name⟩ := by
  rw [ofContent, bytes, char200_append (char200_length _)]

structure XResponseRequestFile where
  fileSize : ℕ
  fileId : ℕ
  fragmentCountTotal : ℕ
  deriving DecidableEq, Repr

def XResponseRequestFile.bytes (c : XResponseRequestFile) : List UInt8 :=
  le 8 c.fileSize ++ (le 8 c.fileId ++ le 1 c.fragmentCountTotal)

def XResponseRequestFile.ofContent (b : List UInt8) : XResponseRequestFile :=
  ⟨rd 0 8 b, rd 8 8 b, rd 16 1 b⟩

theorem XResponseRequestFile.ofContent_bytes (c : XResponseRequestFile) (r : List UInt8) :
    ofContent (c.bytes ++ r) = ⟨u64 c.fileSize, u64 c.fileId, u8 c.fragmentCountTotal⟩ := by
  simp [ofContent, bytes, rd_le_skip, u64, u8]

structure XDeliverFragmentTo where
  fileId : ℕ
  fragId : ℕ
  toAddress : Address
  deriving DecidableEq, Repr

def XDeliverFragmentTo.bytes (c : XDeliverFragmentTo) : List UInt8 :=
  le 8 c.fileId ++ (le 8 c.fragId ++ addressBytes c.toAddress)

def XDeliverFragmentTo.ofContent (b : List UInt8) : XDeliverFragmentTo :=
  ⟨rd 0 8 b, rd 8 8 b, addressOf ((b.drop 8).drop 8)⟩

theorem XDeliverFragmentTo.ofContent_bytes (c : XDeliverFragmentTo) (r : List UInt8) :
    ofContent (c.bytes ++ r) = ⟨u64 c.fileId, u64 c.fragId, c.toAddress⟩ := by
  have ha : ((c.bytes ++ r).drop 8).drop 8 = addressBytes c.toAddress ++ r := by
    simp only [bytes, List.append_assoc, drop_le_append]
  rw [ofContent, ha, addressOf_append]
  simp [bytes, rd_le_skip, u64]

structure XDeclareFragmentTransport where
  fileId : ℕ
  fragId : ℕ
  fragSize : ℕ
  fileSize : ℕ
  deriving DecidableEq, Repr

def XDeclareFragmentTransport.bytes (c : XDeclareFragmentTransport) : List UInt8 :=
  le 8 c.fileId ++ (le 8 c.fragId ++ (le 8 c.fragSize ++ le 8 c.fileSize))

def XDeclareFragmentTransport.ofContent (b : List UInt8) : XDeclareFragmentTransport :=
  ⟨rd 0 8 b, rd 8 8 b, rd 16 8 b, rd 24 8 b⟩

theorem XDeclareFragmentTransport.ofContent_bytes (c : XDeclareFragmentTransport)
    (r : List UInt8) :
    ofContent (c.bytes ++ r) = ⟨u64 c.fileId, u64 c.fragId, u64 c.fragSize, u64 c.fileSize⟩ := by
  simp [ofContent, bytes, rd_le_skip, u64]

structure XDeclareFragmentUseLocal where
  fragId : ℕ
  deriving DecidableEq, Repr

def XDeclareFragmentUseLocal.bytes (c : XDeclareFragmentUseLocal) : List UInt8 := le 8 c.fragId

def XDeclareFragmentUseLocal.ofContent (b : List UInt8) : XDeclareFragmentUseLocal := ⟨rd 0 8 b⟩

theorem XDeclareFragmentUseLocal.ofContent_bytes (c : XDeclareFragmentUseLocal)
    (r : List UInt8) : ofContent (c.bytes ++ r) = ⟨u64 c.fragId⟩ := by
  simp [ofContent, bytes, u64]

/-- `xReportFileKnowledge`, with `fragments[2]` as two fields. -/
structure XReportFileKnowledge where
  fileName : List UInt8
  fileSize : ℕ
  fileId : ℕ
  fragCount : ℕ
  fragments0 : XFragmentNetworkPointer
  fragments1 : XFragmentNetworkPointer
  deriving DecidableEq, Repr

def XFragmentNetworkPointer.bytes (f : XFragmentNetworkPointer) : List UInt8 :=
  le 2 f.fragment ++ (le 6 0 ++ (le 8 f.size ++ le 8 f.nodeId))

def XReportFileKnowledge.bytes (c : XReportFileKnowledge) : List UInt8 :=
  char200 c.fileName ++ (le 8 c.fileSize ++ (le 2 c.fileId ++ (le 1 c.fragCount ++
    (le 5 0 ++ (c.fragments0.bytes ++ c.fragments1.bytes)))))

def XReportFileKnowledge.ofContent (b : List UInt8) : XReportFileKnowledge :=
  { fileName := char200 b
    fileSize := rd 200 8 b
    fileId := rd 208 2 b
    fragCount := rd 210 1 b
    fragments0 := ⟨rd 216 2 b, rd 224 8 b, rd 232 8 b⟩
    fragments1 := ⟨rd 240 2 b, rd 248 8 b, rd 256 8 b⟩ }

structure XFragmentNetworkPointer.Fits (f : XFragmentNetworkPointer) : Prop where
  fragment : f.fragment < 2 ^ 16
  size : f.size < 2 ^ 64
  nodeId : f.nodeId < 2 ^ 64

structure XReportFileKnowledge.Fits (c : XReportFileKnowledge) : Prop where
  fileName : c.fileName.length = 200
  fileSize : c.fileSize < 2 ^ 64
  fileId : c.fileId < 2 ^ 16
  fragCount : c.fragCount < 2 ^ 8
  fragments0 : c.fragments0.Fits
  fragments1 : c.fragments1.Fits

theorem XReportFileKnowledge.ofContent_bytes {c : XReportFileKnowledge} (h : c.Fits)
    (r : List UInt8) : ofContent (c.bytes ++ r) = c := by
  obtain ⟨h1, h2, h3, h4, ⟨h5, h6, h7⟩, ⟨h8, h9, h10⟩⟩ := h
  obtain ⟨name, size, id, count, ⟨f0, s0, n0⟩, ⟨f1, s1, n1⟩⟩ := c
  simp only [ofContent, bytes, XFragmentNetworkPointer.bytes, List.append_assoc] at *
  simp only [rd_char200_skip, rd_le_skip, rd_le_append, Nat.reduceLeDiff, Nat.reduceSub,
    Nat.sub_self, le_refl]
  rw [char200_append (char200_length _), char200_of_length h1]
  norm_num at *
  omega

structure XPeerDied where
  peerId : ℕ
  senderAddress : Address
  deriving DecidableEq, Repr

def XPeerDied.bytes (c : XPeerDied) : List UInt8 := le 8 c.peerId ++ addressBytes c.senderAddress

def XPeerDied.ofContent (b : List UInt8) : XPeerDied := ⟨rd 0 8 b, addressOf (b.drop 8)⟩

theorem XPeerDied.ofContent_bytes (c : XPeerDied) (r : List UInt8) :
    ofContent (c.bytes ++ r) = ⟨u64 c.peerId, c.senderAddress⟩ := by
  simp [ofContent, bytes, u64, addressOf_append]

/-- `xIndexPresentationPacket` is not in the union: it overlays the header too. -/
structure XIndexPresentationPacket where
  senderId : ℕ
  indexId : ℕ
  indexAddr : Address
  deriving DecidableEq, Repr

def XIndexPresentationPacket.bytes (c : XIndexPresentationPacket) : XPacket :=
  le 8 c.senderId ++ (le 8 c.indexId ++ (addressBytes c.indexAddr ++ le 2 0))

def XIndexPresentationPacket.ofPacket (p : XPacket) : XIndexPresentationPacket :=
  ⟨rd 0 8 p, rd 8 8 p, addressOf ((p.drop 8).drop 8)⟩

theorem XIndexPresentationPacket.ofPacket_bytes (c : XIndexPresentationPacket) :
    ofPacket c.bytes = ⟨u64 c.senderId, u64 c.indexId, c.indexAddr⟩ := by
  simp [ofPacket, bytes, rd_le_skip, u64, addressOf_append]

/-- `p.bytes.index_presentation_pkt.sender_id = id` -/
def setPresentationSender (id : ℕ) (p : XPacket) : XPacket := le 8 id ++ p.drop 8

/-- `p->bytes.comm.sender_id = id` -/
def setCommSender (id : ℕ) (p : XPacket) : XPacket := p.take 2 ++ (le 8 id ++ p.drop 10)

theorem setCommSender_commPacket (id k s t : ℕ) (c : List UInt8) (n : ℕ) :
    setCommSender id (commPacket k s t c n) = commPacket k id t c n := by
  simp [setCommSender, commPacket, List.take_left', List.drop_append, List.drop_of_length_le]

theorem setPresentationSender_bytes (id : ℕ) (c : XIndexPresentationPacket) :
    setPresentationSender id c.bytes = { c with senderId := id }.bytes := by
  simp [setPresentationSender, XIndexPresentationPacket.bytes]

end DSS
