import DistStore.Lib.Decimal
import DistStore.Lib.Splice
import DistStore.Model.Types

/-! `nettypes.c`: an address as text, and what is read out of one. -/

namespace DSS

open Decimal Splice

/-! ## The C library, where the standard defines it -/

def isspace (b : UInt8) : Bool := b = 32 || 9 ≤ b.toNat && b.toNat ≤ 13

def scanSign : List UInt8 → Bool × List UInt8
  | [] => (false, [])
  | b :: s => if b = 45 then (true, s) else if b = 43 then (false, s) else (false, b :: s)

def scanNumber (s : List UInt8) : Option (ℤ × List UInt8) :=
  let (neg, s) := scanSign (s.dropWhile isspace)
  let digits := s.takeWhile isDigit
  if digits = [] then none
  else some (if neg then -(value digits : ℤ) else value digits, s.dropWhile isDigit)

/-- A number that is no `int` is undefined. -/
def atoi (s : List UInt8) : Option ℤ :=
  match scanNumber s with
  | none => some 0
  | some (v, _) => intOp v

/-- `%u` stores what `strtoul` makes of the number, if its digits fit an `unsigned int`. -/
def scanUnsigned (v : ℤ) : Option ℕ := if |v| < 2 ^ 32 then some (v % 2 ^ 32).toNat else none

/-- `sscanf` with `n` conversions `%u` and a dot between two of them: what it stores. -/
def sscanfDotted : ℕ → List UInt8 → Option (List ℕ)
  | 0, _ => some []
  | n + 1, s =>
    match scanNumber s with
    | none => some []
    | some (v, rest) => do
      let u ← scanUnsigned v
      match n, rest with
      | n' + 1, b :: rest =>
        if b = 46 then do
          let us ← sscanfDotted (n' + 1) rest
          return u :: us
        else return [u]
      | _, _ => return [u]

/-- `snprintf(out, size, ...)` where the whole text is `text` and `size` is not 0. -/
def snprintf (out : List UInt8) (size : ℕ) (text : List UInt8) : List UInt8 :=
  splice out 0 (text.take (size - 1) ++ [0])

def strncpy (n : ℕ) (src : List UInt8) : List UInt8 :=
  (cstr src).take n ++ List.replicate (n - (cstr src).length) 0

/-! ## Addresses. Only the string to be read may be `NULL`. -/

def ipv4Text (ip : IPv4) : List UInt8 :=
  decimal ip.octet0.toNat ++ 46 :: (decimal ip.octet1.toNat ++ 46 ::
    (decimal ip.octet2.toNat ++ 46 :: decimal ip.octet3.toNat))

def addressText (addr : Address) : List UInt8 :=
  ipv4Text addr.ip ++ 58 :: decimal addr.port.toNat

def addressToString (addr : Address) (out : List UInt8) (size : ℕ) : List UInt8 :=
  if size < 22 then out else snprintf out size (addressText addr)

def LOCALHOST : List UInt8 := [108, 111, 99, 97, 108, 104, 111, 115, 116]

/-- `ipv4_from_string`: the result, and `*ip` afterwards. A text that is no address leaves
it as it was. -/
def ipv4FromString (ip : IPv4) : Option (List UInt8) → Option (ℤ × IPv4)
  | none => some (0, ip)
  | some str =>
    if cstr str = [] ∨ cstr str = LOCALHOST then some (1, ⟨127, 0, 0, 1⟩)
    else do
      match ← sscanfDotted 4 (cstr str) with
      | [a, b, c, d] => return (1, ⟨UInt8.ofNat a, UInt8.ofNat b, UInt8.ofNat c, UInt8.ofNat d⟩)
      | _ => return (1, ip)

def addressFromString (addr : Address) : Option (List UInt8) → Option (ℤ × Address)
  | none => some (0, addr)
  | some str => do
    let buf := strncpy 31 str ++ [0]
    match (cstr buf).findIdx? (· = 58) with
    | none =>
      let (r, ip) ← ipv4FromString addr.ip (some buf)
      return (r, ⟨ip, 0⟩)
    | some colon =>
      let port ← atoi (cstr (buf.drop (colon + 1)))
      let (r, ip) ← ipv4FromString addr.ip (some (buf.set colon 0))
      return (r, ⟨ip, UInt16.ofInt port⟩)

end DSS
