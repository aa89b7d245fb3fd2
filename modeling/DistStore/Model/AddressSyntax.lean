import DistStore.Model.AddressText

/-! Which strings are addresses, and what a parser that accepts just these does. -/

namespace DSS

open Decimal

/-- A decimal number up to `max`; zeros may lead. -/
structure NumberText (max : ℕ) (s : List UInt8) : Prop where
  ne_nil : s ≠ []
  digits : Digits s
  le : value s ≤ max

/-- Nothing, `localhost`, or four numbers with a dot between two of them. -/
inductive HostText : List UInt8 → IPv4 → Prop
  | empty : HostText [] ⟨127, 0, 0, 1⟩
  | localhost : HostText LOCALHOST ⟨127, 0, 0, 1⟩
  | dotted (a b c d : List UInt8) (ha : NumberText 255 a) (hb : NumberText 255 b)
      (hc : NumberText 255 c) (hd : NumberText 255 d) :
      HostText (a ++ 46 :: (b ++ 46 :: (c ++ 46 :: d)))
        ⟨UInt8.ofNat (value a), UInt8.ofNat (value b), UInt8.ofNat (value c), UInt8.ofNat (value d)⟩

inductive AddressSyntax : List UInt8 → Address → Prop
  | host (h : List UInt8) (ip : IPv4) (hh : HostText h ip) : AddressSyntax h ⟨ip, 0⟩
  | port (h p : List UInt8) (ip : IPv4) (hh : HostText h ip) (hp : NumberText 65535 p) :
      AddressSyntax (h ++ 58 :: p) ⟨ip, UInt16.ofNat (value p)⟩

/-- `address_from_string` returns 1 for addresses, with what they say in `*addr` whatever was
there before, and 0 for other strings. -/
def AcceptsExactly (str : List UInt8) : Prop :=
  ∀ old, ∃ r addr, addressFromString old (some str) = some (r, addr) ∧ (r = 1 ∨ r = 0) ∧
    (r = 1 ↔ ∃ a, AddressSyntax (cstr str) a) ∧ (r = 1 → AddressSyntax (cstr str) addr)

/-- The 31 bytes that are copied say as much as all of `s`: what is behind them are zeros of
a port that is 0, and of a last octet that is 0 and has begun before. -/
def KeptByCopy (s : List UInt8) (a : Address) : Prop :=
  s.length ≤ 31 ∨ a.port = 0 ∧
    ((s.takeWhile (· ≠ 58)).length ≤ 31 ∨ a.ip.octet3 = 0 ∧ (s.take 30).count 46 = 3)

instance (s : List UInt8) (a : Address) : Decidable (KeptByCopy s a) :=
  inferInstanceAs (Decidable (_ ∨ _ ∧ (_ ∨ _ ∧ _)))

end DSS
