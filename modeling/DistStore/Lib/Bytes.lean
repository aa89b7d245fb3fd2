import Mathlib.Tactic
import Mathlib.Data.List.Basic

/-! Little-endian numbers inside byte strings. `le n x` writes the low `n` bytes
of `x`; `rd off n b` reads `n` bytes at `off`. Bytes past the end of the string
read as zero, as they do in a receive buffer that was cleared first. -/

namespace Bytes

/-- The low `n` bytes of `x`, least significant first. -/
def le : ℕ → ℕ → List UInt8
  | 0, _ => []
  | n + 1, x => UInt8.ofNat x :: le n (x / 256)

/-- The number a byte string denotes. -/
def val : List UInt8 → ℕ
  | [] => 0
  | b :: bs => b.toNat + 256 * val bs

/-- The number in the `n` bytes at offset `off`. -/
def rd (off n : ℕ) (b : List UInt8) : ℕ := val ((b.drop off).take n)

@[simp] theorem le_length (n x : ℕ) : (le n x).length = n := by
  induction n generalizing x with
  | zero => rfl
  | succ n ih => simp [le, ih]

theorem val_le (n x : ℕ) : val (le n x) = x % 256 ^ n := by
  induction n generalizing x with
  | zero => simp [le, val, Nat.mod_one]
  | succ n ih =>
    have hb : (UInt8.ofNat x).toNat = x % 256 := by simp
    rw [le, val, ih, hb, pow_succ', Nat.mod_mul]

theorem val_lt (b : List UInt8) : val b < 256 ^ b.length := by
  induction b with
  | nil => simp [val]
  | cons a b ih =>
    have ha := a.toNat_lt
    simp only [val, List.length_cons, pow_succ']
    omega

theorem rd_lt (off n : ℕ) (b : List UInt8) : rd off n b < 256 ^ n :=
  (val_lt _).trans_le (Nat.pow_le_pow_right (by norm_num) (List.length_take_le ..))

/-- A number is read back where it was written. -/
@[simp] theorem rd_le_append (n x : ℕ) (r : List UInt8) :
    rd 0 n (le n x ++ r) = x % 256 ^ n := by
  rw [rd, List.drop_zero, List.take_left' (le_length n x), val_le]

theorem rd_append_right {l : List UInt8} {off : ℕ} (n : ℕ) (r : List UInt8)
    (h : l.length ≤ off) : rd off n (l ++ r) = rd (off - l.length) n r := by
  rw [rd, rd, List.drop_append, List.drop_of_length_le h, List.nil_append]

theorem rd_le_skip (m x n off : ℕ) (r : List UInt8) (h : m ≤ off) :
    rd off n (le m x ++ r) = rd (off - m) n r := by
  rw [rd_append_right n r (by simpa using h), le_length]

theorem rd_append_left {l : List UInt8} {off n : ℕ} (r : List UInt8)
    (h : off + n ≤ l.length) : rd off n (l ++ r) = rd off n l := by
  have h' : off ≤ l.length := by omega
  rw [rd, rd, List.drop_append_of_le_length h',
    List.take_append_of_le_length (by rw [List.length_drop]; omega)]

example : rd 1 2 [7, 0x34, 0x12, 9] = 0x1234 := by decide

end Bytes
