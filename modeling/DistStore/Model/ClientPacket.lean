import DistStore.Model.Packet

/-! `client/cmd/packet.go`: the client's packets, and how it reads one from its connection. -/

namespace DSS

open Bytes

inductive ClientError where
  | tooShort | invalidLen | invalidPacketSize
  /-- `Conn.Read` returned an error. -/
  | read
  /-- An index out of range. -/
  | panic
  deriving DecidableEq, Repr

class Serializable (T : Type) where
  serialize : T → List UInt8
  unserialize : T → List UInt8 → Except ClientError T

/-- `MessageType`: what the client sends, and the answer it waits for. -/
def CreateFilePacket : UInt8 := 10
def RequestFilePacket : UInt8 := 15
def RequestFilePacketRes : UInt8 := 16
def StatusOK : UInt8 := 200
def StatusNotOK : UInt8 := 220

/-- `make([]byte, n)` with `b` copied to its start. -/
def goBytes (n : ℕ) (b : List UInt8) : List UInt8 := b ++ List.replicate (n - b.length) 0

structure FileDeclarationPacket where
  fileName : List UInt8
  fileSize : UInt64
  fileName_length : fileName.length = 200
  deriving DecidableEq, Repr

instance : Serializable FileDeclarationPacket where
  serialize c := c.fileName ++ le 8 c.fileSize.toNat
  unserialize c _ := .ok c

structure FileRequestPacket where
  fileName : List UInt8
  fileName_length : fileName.length = 200
  deriving DecidableEq, Repr

instance : Serializable FileRequestPacket where
  serialize c := c.fileName
  unserialize c _ := .ok c

structure FileResponsePacket where
  fileSize : UInt64
  fileId : UInt64
  fragmentCountTotal : UInt8
  deriving DecidableEq, Repr

instance : Serializable FileResponsePacket where
  serialize _ := []
  unserialize _ b :=
    if b.length < 16 then .error .invalidLen
    else if b.length < 17 then .error .panic
    else .ok ⟨UInt64.ofNat (rd 0 8 b), UInt64.ofNat (rd 8 8 b), UInt8.ofNat (rd 16 1 b)⟩

structure Empty where
  deriving DecidableEq, Repr

instance : Serializable Empty where
  serialize _ := []
  unserialize c _ := .ok c

structure CommunicationPacket (T : Type) where
  size : UInt16
  senderID : UInt64
  type : UInt8
  content : T
  deriving DecidableEq, Repr

namespace CommunicationPacket

variable {T : Type} [Serializable T]

/-- The size goes over the two bytes written first. -/
def serialize (c : CommunicationPacket T) : List UInt8 :=
  let b := le 2 0 ++ (le 8 c.senderID.toNat ++ ([c.type] ++ Serializable.serialize c.content))
  le 2 b.length ++ b.drop 2

/-- A slice or an index past the end of `b` ends the client. -/
def unserialize (content : T) (b : List UInt8) : Except ClientError (CommunicationPacket T) :=
  if b.length < 9 then .error .tooShort
  else if b.length < 11 then .error .panic
  else do
    let content ← Serializable.unserialize content (b.drop 11)
    return ⟨UInt16.ofNat (rd 0 2 b), UInt64.ofNat (rd 2 8 b), UInt8.ofNat (rd 10 1 b), content⟩

end CommunicationPacket

/-! ## Reading -/

/-- A connection at the client: how much was read, what will still arrive, and the positions
of the stream at which a read ends before its slice is full. -/
structure Conn where
  pos : ℕ
  stream : List UInt8
  cut : ℕ → Bool

def readLength (cut : ℕ → Bool) (pos : ℕ) : ℕ → ℕ
  | 0 => 0
  | 1 => 1
  | len + 2 => if cut (pos + 1) then 1 else readLength cut (pos + 1) (len + 1) + 1

def Conn.advance (conn : Conn) (n : ℕ) : Conn :=
  { conn with pos := conn.pos + n, stream := conn.stream.drop n }

/-- `Conn.Read`: an error once the stream is over. -/
def Conn.read (conn : Conn) (len : ℕ) : Except ClientError (List UInt8 × Conn) :=
  if conn.stream = [] then .error .read
  else
    let n := readLength conn.cut conn.pos len
    .ok (conn.stream.take n, conn.advance n)

/-- The loop for the body; its first argument bounds the rounds, the second is what is left
of `fullBuf`. -/
def readBody : ℕ → ℕ → Conn → Except ClientError (List UInt8 × Conn)
  | 0, _, conn => .ok ([], conn)
  | rounds + 1, left, conn =>
    if left = 0 then .ok ([], conn)
    else do
      let (bs, conn) ← conn.read left
      let (rest, conn) ← readBody rounds (left - bs.length) conn
      return (bs ++ rest, conn)

/-- `ReadPacket`: the length of the first read is not looked at. -/
def readPacket {T : Type} [Serializable T] (content : T) (conn : Conn) :
    Except ClientError (CommunicationPacket T × Conn) := do
  let (header, conn) ← conn.read 2
  let sizeBuf := goBytes 2 header
  let packetSize := rd 0 2 sizeBuf
  if packetSize < 2 then .error .invalidPacketSize
  else do
    let (body, conn) ← readBody packetSize (packetSize - 2) conn
    let c ← CommunicationPacket.unserialize content (sizeBuf ++ body)
    return (c, conn)

def readPackets {T : Type} [Serializable T] :
    List T → Conn → Except ClientError (List (CommunicationPacket T) × Conn)
  | [], conn => .ok ([], conn)
  | content :: contents, conn => do
    let (c, conn) ← readPacket content conn
    let (cs, conn) ← readPackets contents conn
    return (c :: cs, conn)

end DSS
