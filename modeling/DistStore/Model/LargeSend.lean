import DistStore.Model.ClientPacket
import DistStore.Model.RawTransfer

/-! `server_send_large_buffer_to` with its `int` variables and the outcome of each `tcp_send`,
and the client's `readLargeBuffer` at the other end. -/

namespace DSS

/-- How a call of `tcp_send` ends: all bytes are sent, or an error comes after some. -/
inductive SendOutcome where
  | complete
  | error (after : ℕ)
  deriving DecidableEq, Repr

def SendOutcome.bytesSent (bytes : List UInt8) : SendOutcome → List UInt8
  | .complete => bytes
  | .error after => bytes.take after

/-- The error, if there is one, comes after `len` bytes or later. -/
def SendOutcome.Covers (len : ℕ) : SendOutcome → Prop
  | .complete => True
  | .error after => len ≤ after

/-- The variables of the loop, and what its calls of `tcp_send` put on the socket. -/
structure LargeSend where
  results : ℤ
  curptr : ℤ
  writes : List (List UInt8)
  deriving DecidableEq, Repr

/-- The bounds of a chunk: `st`, `end` as it is computed and as it is cut to the buffer, `size`. -/
structure Chunk where
  st : ℤ
  fullEnd : ℤ
  cutEnd : ℤ
  size : ℤ
  deriving DecidableEq, Repr

/-- The arithmetic of a round, with `int` giving what an operation makes of its exact result. -/
def chunkBounds (int : ℤ → Option ℤ) (bufferSize i : ℕ) : Option Chunk := do
  let st ← int (i * SERVER_BUCKET_SIZE)
  let fullEnd ← int (st + SERVER_BUCKET_SIZE)
  let cutEnd := if fullEnd > bufferSize then (bufferSize : ℤ) else fullEnd
  let size ← int (cutEnd - st)
  return ⟨st, fullEnd, cutEnd, size⟩

/-- One round: the bounds of its chunk, and the variables after it. What `tcp_send` returns is
added up, whatever it is. -/
def sendRound (int : ℤ → Option ℤ) (outcomes : ℕ → SendOutcome) (buffer : List UInt8)
    (s : LargeSend) (i : ℕ) : Option (Chunk × LargeSend) := do
  let chunk ← chunkBounds int buffer.length i
  let bucket ← readBuffer buffer s.curptr chunk.size.toNat
  let r := (outcomes i).bytesSent bucket
  let results ← int (s.results + r.length)
  let curptr ← int (s.curptr + chunk.size)
  return (chunk, ⟨results, curptr, s.writes ++ [r]⟩)

/-- The variables before round `i`. -/
def sendRounds (int : ℤ → Option ℤ) (outcomes : ℕ → SendOutcome) (buffer : List UInt8) (i : ℕ) :
    Option LargeSend :=
  (List.range i).foldlM (fun s i => (sendRound int outcomes buffer s i).map Prod.snd) ⟨0, 0, []⟩

/-- Round `i` is reached and computes what exact integers give, with a chunk of 0 to 4096 bytes
that is inside the buffer. -/
def RoundExact (outcomes : ℕ → SendOutcome) (buffer : List UInt8) (i : ℕ) : Prop :=
  ∃ s chunk s',
    (sendRounds intOp outcomes buffer i = some s ∧ sendRounds some outcomes buffer i = some s) ∧
    (sendRound intOp outcomes buffer s i = some (chunk, s') ∧
      sendRound some outcomes buffer s i = some (chunk, s')) ∧
    0 ≤ chunk.size ∧ chunk.size ≤ SERVER_BUCKET_SIZE ∧ s.curptr + chunk.size ≤ buffer.length

/-- `server_send_large_buffer_to`: what it returns, and what it put on the socket. -/
def serverSendLargeBuffer (outcomes : ℕ → SendOutcome) (buffer : List UInt8) :
    Option (ℤ × List (List UInt8)) := do
  let s ← sendRounds intOp outcomes buffer (nPackets buffer.length)
  return (1, s.writes)

/-- `readLargeBuffer`: the loop of `ReadPacket` over a slice of its own. -/
def readLargeBuffer (conn : Conn) (bufferSize : ℕ) : Except ClientError (List UInt8 × Conn) :=
  readBody bufferSize bufferSize conn

end DSS
