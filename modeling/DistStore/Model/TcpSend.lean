import DistStore.Model.LargeSend

/-! `tcp_send`, over what its calls of `send` meet. -/

namespace DSS

inductive Errno where
  | EAGAIN
  | EWOULDBLOCK
  | other (code : ℕ)
  deriving DecidableEq, Repr

/-- What a call of `send` meets: room for some bytes, of which it takes as many as it is asked
to, or an error. -/
inductive SendResult where
  | room (bytes : ℕ) (bytes_pos : 0 < bytes)
  | error (errno : Errno)
  deriving Repr

def SendResult.n (len : ℕ) : SendResult → ℤ
  | .room bytes _ => min bytes len
  | .error _ => -1

/-- `errno` after the call; a call that sends something leaves it. -/
def SendResult.errno (old : Errno) : SendResult → Errno
  | .room _ _ => old
  | .error errno => errno

/-- What `tcp_send` returns, `total_sent`, the bytes that the socket has accepted, and whether it
called `perror`. -/
structure TcpSend where
  ret : ℤ
  totalSent : ℕ
  accepted : List UInt8
  perror : Bool
  deriving DecidableEq, Repr

/-- The loop of `tcp_send`. It is still in it where `results` end before it returns.
`total_sent` is a `size_t`; it stays at most `len`, and is returned as an `int`. -/
def tcpSendLoop (buffer : List UInt8) (len : ℕ) :
    List SendResult → Errno → ℕ → List UInt8 → Option TcpSend
  | [], _, totalSent, accepted =>
    if totalSent < len then none else some ⟨cInt totalSent, totalSent, accepted, false⟩
  | r :: results, old, totalSent, accepted =>
    if totalSent < len then
      let n := r.n (len - totalSent)
      let errno := r.errno old
      if n > 0 then do
        let bytes ← readBuffer buffer totalSent n.toNat
        tcpSendLoop buffer len results errno (totalSent + n.toNat) (accepted ++ bytes)
      else if errno = .EAGAIN ∨ errno = .EWOULDBLOCK then
        tcpSendLoop buffer len results errno totalSent accepted
      else some ⟨cInt totalSent, totalSent, accepted, true⟩
    else some ⟨cInt totalSent, totalSent, accepted, false⟩

def tcpSend (buffer : List UInt8) (len : ℕ) (old : Errno) (results : List SendResult) :
    Option TcpSend := tcpSendLoop buffer len results old 0 []

/-! ## What is asked of it -/

/-- An error that another try does not mend. -/
def SendResult.Hard : SendResult → Prop
  | .room _ _ => False
  | .error errno => errno ≠ .EAGAIN ∧ errno ≠ .EWOULDBLOCK

instance : DecidablePred SendResult.Hard
  | .room _ _ => inferInstanceAs (Decidable False)
  | .error _ => inferInstanceAs (Decidable (_ ∧ _))

def SendResult.bytes : SendResult → ℕ
  | .room bytes _ => bytes
  | .error _ => 0

/-- A hard error comes while there is something left to send. -/
def HardErrorBefore (len : ℕ) (results : List SendResult) : Prop :=
  ∃ pre e post, results = pre ++ e :: post ∧ e.Hard ∧ (pre.map SendResult.bytes).sum < len

def roomBeforeError (results : List SendResult) : ℕ :=
  ((results.takeWhile fun r => ¬ r.Hard).map SendResult.bytes).sum

/-- The socket has accepted the first `total_sent` bytes, which is what is returned, and all
unless a hard error came before. -/
structure SentPrefix (buffer : List UInt8) (len : ℕ) (results : List SendResult) (out : TcpSend) :
    Prop where
  accepted : out.accepted = buffer.take out.totalSent
  ret : out.ret = out.totalSent
  le : out.totalSent ≤ len
  whole : out.ret = len ↔ ¬ HardErrorBefore len results

end DSS
