import Mathlib.Tactic
import Mathlib.Data.Nat.Digits.Lemmas

/-! Decimal numbers in ASCII: printed without leading zeros, and read back from the
digits at the start of a string. -/

namespace Decimal

def isDigit (b : UInt8) : Bool := 48 ≤ b.toNat && b.toNat ≤ 57

def digit (d : ℕ) : UInt8 := UInt8.ofNat (48 + d)

/-- The shortest text of `n`. -/
def decimal (n : ℕ) : List UInt8 :=
  if n = 0 then [digit 0] else (Nat.digits 10 n).reverse.map digit

def value (s : List UInt8) : ℕ := s.foldl (fun v b => b.toNat - 48 + 10 * v) 0

/-- A number in decimal, also with zeros in front, if `s` is not empty. -/
def Digits (s : List UInt8) : Prop := ∀ b ∈ s, isDigit b = true

instance (s : List UInt8) : Decidable (Digits s) := inferInstanceAs (Decidable (∀ _ ∈ _, _))

theorem toNat_digit {d : ℕ} (h : d < 10) : (digit d).toNat = 48 + d := by
  rw [digit, UInt8.toNat_ofNat']
  omega

theorem isDigit_digit {d : ℕ} (h : d < 10) : isDigit (digit d) = true := by
  rw [isDigit, toNat_digit h, Bool.and_eq_true, decide_eq_true_eq, decide_eq_true_eq]
  omega

theorem decimal_ne_nil (n : ℕ) : decimal n ≠ [] := by
  rw [decimal]
  split_ifs with h
  · exact List.cons_ne_nil _ _
  · rw [ne_eq, List.map_eq_nil_iff, List.reverse_eq_nil_iff]
    exact Nat.digits_ne_nil_iff_ne_zero.mpr h

theorem digits_decimal (n : ℕ) : Digits (decimal n) := by
  intro b h
  rw [decimal] at h
  split_ifs at h with hn
  · rw [List.mem_singleton.mp h]
    exact isDigit_digit (by omega)
  · obtain ⟨d, hd, rfl⟩ := List.mem_map.mp h
    exact isDigit_digit (Nat.digits_lt_base (by omega) (List.mem_reverse.mp hd))

theorem value_decimal (n : ℕ) : value (decimal n) = n := by
  rw [decimal]
  split_ifs with hn
  · rw [hn]
    rfl
  · have hfold : ∀ ds : List ℕ, (∀ d ∈ ds, d < 10) →
        ds.foldr (fun d v => (digit d).toNat - 48 + 10 * v) 0 = Nat.ofDigits 10 ds := by
      intro ds hds
      induction ds with
      | nil => rfl
      | cons d ds ih =>
        obtain ⟨hd, hds⟩ := List.forall_mem_cons.mp hds
        rw [List.foldr_cons, ih hds, toNat_digit hd, Nat.ofDigits_cons, Nat.add_sub_cancel_left]
    rw [value, List.foldl_map, List.foldl_reverse,
      hfold _ fun d hd => Nat.digits_lt_base (by omega) hd, Nat.ofDigits_digits]

theorem length_decimal_le {n k : ℕ} (hk : 0 < k) (h : n < 10 ^ k) : (decimal n).length ≤ k := by
  rw [decimal]
  split_ifs
  · exact hk
  · rw [List.length_map, List.length_reverse]
    exact (Nat.digits_length_le_iff (by omega) n).mpr h

/-! ## Cut numbers -/

theorem Digits.take {s : List UInt8} (h : Digits s) (k : ℕ) : Digits (s.take k) :=
  fun b hb => h b (List.mem_of_mem_take hb)

theorem Digits.not_mem {s : List UInt8} {b : UInt8} (hs : Digits s) (hb : isDigit b = false) : b ∉ s := by
  intro hmem
  rw [hs b hmem] at hb
  cases hb

theorem value_append (s t : List UInt8) : value (s ++ t) = value s * 10 ^ t.length + value t := by
  induction t using List.reverseRecOn with
  | nil => simp [value]
  | append_singleton t b ih =>
    have hsnoc (l : List UInt8) : value (l ++ [b]) = b.toNat - 48 + 10 * value l := by
      rw [value, List.foldl_append]
      rfl
    rw [← List.append_assoc, hsnoc, hsnoc, ih, List.length_append, List.length_singleton, pow_succ]
    ring

theorem value_take_add (s : List UInt8) (k : ℕ) :
    value s = value (s.take k) * 10 ^ (s.length - k) + value (s.drop k) := by
  conv_lhs => rw [← List.take_append_drop k s]
  rw [value_append, List.length_drop]

theorem value_take_le (s : List UInt8) (k : ℕ) : value (s.take k) ≤ value s := by
  have hpow : 1 ≤ 10 ^ (s.length - k) := Nat.one_le_pow _ _ (by omega)
  calc value (s.take k) = value (s.take k) * 1 := (Nat.mul_one _).symm
    _ ≤ value (s.take k) * 10 ^ (s.length - k) := Nat.mul_le_mul_left _ hpow
    _ ≤ value s := by
      rw [value_take_add s k]
      exact Nat.le_add_right _ _

/-- Only of zero may digits be cut off. -/
theorem value_take_eq_iff {s : List UInt8} {k : ℕ} :
    value (s.take k) = value s ↔ s.length ≤ k ∨ value s = 0 := by
  constructor
  · intro heq
    by_contra hnot
    rw [not_or, not_le] at hnot
    have hpow : 10 ^ 1 ≤ 10 ^ (s.length - k) := Nat.pow_le_pow_right (by omega) (by omega)
    have hmul := Nat.mul_le_mul_left (value (s.take k)) hpow
    have hsum := value_take_add s k
    omega
  · rintro (hle | hzero)
    · rw [List.take_of_length_le hle]
    · have hle := value_take_le s k
      omega

/-! ## Numbers at the start of a string -/

section scan

variable {s rest : List UInt8}

/-- The digits end where the number does. -/
theorem Digits.takeWhile (hs : Digits s) (h : rest.takeWhile isDigit = []) :
    (s ++ rest).takeWhile isDigit = s := by
  rw [List.takeWhile_append_of_pos hs, h, List.append_nil]

theorem Digits.dropWhile (hs : Digits s) (h : rest.takeWhile isDigit = []) :
    (s ++ rest).dropWhile isDigit = rest := by
  have hsplit := List.takeWhile_append_dropWhile (p := isDigit) (l := s ++ rest)
  rw [hs.takeWhile h] at hsplit
  exact List.append_cancel_left hsplit

theorem Digits.append_eq (hs : Digits s) (hne : s ≠ []) (rest : List UInt8) :
    ∃ b t, s ++ rest = b :: t ∧ isDigit b = true := by
  obtain ⟨b, t, rfl⟩ := List.exists_cons_of_ne_nil hne
  exact ⟨b, t ++ rest, rfl, hs b (List.mem_cons_self ..)⟩

end scan

end Decimal
