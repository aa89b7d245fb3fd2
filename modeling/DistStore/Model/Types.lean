import Mathlib.Data.List.TakeWhile
import DistStore.Lib.Bytes

/-! The constants of `lib/defines.h`, the C conversions that narrow a value, and
the addresses of `lib/nettypes.h`. Arithmetic on `int` is exact here: only the
conversions between types wrap. -/

namespace DSS

def MINIMAL_SIZE_FOR_SPLIT : ℕ := 100
def REDUNDANCY : ℕ := 2
def SERVER_BUCKET_SIZE : ℕ := 4096
def FILE_SERVER_MAX_FILES : ℕ := 100

def u8 (x : ℕ) : ℕ := x % 2 ^ 8
def u16 (x : ℕ) : ℕ := x % 2 ^ 16
def u64 (x : ℕ) : ℕ := x % 2 ^ 64

/-- The value of an `int` that an unsigned value is converted to. -/
def cInt (x : ℕ) : ℤ := if x % 2 ^ 32 < 2 ^ 31 then (x % 2 ^ 32 : ℕ) else (x % 2 ^ 32 : ℕ) - 2 ^ 32

/-- An operation on `int` with the exact result `x`. Overflow is undefined: `none`. -/
def intOp (x : ℤ) : Option ℤ := if -2 ^ 31 ≤ x ∧ x < 2 ^ 31 then some x else none

def toU64 (x : ℤ) : ℕ := (x % 2 ^ 64).toNat

/-- `x--` on a `uint64_t`. -/
def dec64 (x : ℕ) : ℕ := (x + (2 ^ 64 - 1)) % 2 ^ 64

/-- `x++` on a `uint64_t`. -/
def inc64 (x : ℕ) : ℕ := (x + 1) % 2 ^ 64

theorem cInt_of_lt {x : ℕ} (h : x < 2 ^ 31) : cInt x = x := by
  rw [cInt, if_pos (by omega), Nat.mod_eq_of_lt (by omega)]

theorem cInt_eq_self_iff (x : ℕ) : cInt x = x ↔ x < 2 ^ 31 := by
  constructor
  · intro h
    unfold cInt at h
    split_ifs at h <;> omega
  · exact cInt_of_lt

theorem intOp_of {x : ℤ} (h0 : 0 ≤ x) (h : x < 2 ^ 31) : intOp x = some x :=
  if_pos ⟨by omega, h⟩

theorem toU64_natCast {x : ℕ} (h : x < 2 ^ 64) : toU64 x = x := by
  rw [toU64]
  omega

theorem u8_of_lt {x : ℕ} (h : x < 2 ^ 8) : u8 x = x := Nat.mod_eq_of_lt h

theorem u16_of_lt {x : ℕ} (h : x < 2 ^ 16) : u16 x = x := Nat.mod_eq_of_lt h

theorem u64_of_lt {x : ℕ} (h : x < 2 ^ 64) : u64 x = x := Nat.mod_eq_of_lt h

theorem dec64_of_pos {x : ℕ} (h0 : 0 < x) (h : x < 2 ^ 64) : dec64 x = x - 1 := by
  rw [dec64]
  omega

structure IPv4 where
  octet0 : UInt8
  octet1 : UInt8
  octet2 : UInt8
  octet3 : UInt8
  deriving DecidableEq, Repr

structure Address where
  ip : IPv4
  port : UInt16
  deriving DecidableEq, Repr

/-- The address `memset` leaves behind. -/
def Address.zero : Address := ⟨⟨0, 0, 0, 0⟩, 0⟩

instance : Inhabited Address := ⟨Address.zero⟩

@[simp] theorem Address.zero_port : Address.zero.port = 0 := rfl

/-- A C string: the bytes before the first NUL. -/
def cstr (s : List UInt8) : List UInt8 := s.takeWhile (· ≠ 0)

/-- A `char[200]` holding `s`, cut off or filled up with NULs. -/
def char200 (s : List UInt8) : List UInt8 := (s ++ List.replicate 200 0).take 200

@[simp] theorem char200_length (s : List UInt8) : (char200 s).length = 200 := by
  rw [char200, List.length_take, List.length_append, List.length_replicate]
  omega

theorem char200_of_length {s : List UInt8} (h : s.length = 200) : char200 s = s := by
  rw [char200, List.take_left' h]

theorem cstr_of_forall {s : List UInt8} (h : ∀ b ∈ s, b ≠ 0) : cstr s = s := by
  rw [cstr, List.takeWhile_eq_self_iff]
  simpa using h

theorem cstr_append_zero {s : List UInt8} (h : ∀ b ∈ s, b ≠ 0) (r : List UInt8) :
    cstr (s ++ 0 :: r) = s := by
  rw [cstr, List.takeWhile_append_of_pos (by simpa using h)]
  simp

end DSS
