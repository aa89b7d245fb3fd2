import Mathlib.Tactic
import Mathlib.Data.List.Basic

/-! Copying pieces of a string into a buffer. A piece that is written where it
was cut out of the string can be written in any order and any number of times:
the buffer ends equal to the string wherever some piece covers it. -/

namespace Splice

variable {α : Type*}

def slice (l : List α) (off len : ℕ) : List α := (l.drop off).take len

/-- `buf` with `bs` written over it from `off` on. -/
def splice (buf : List α) (off : ℕ) (bs : List α) : List α :=
  buf.take off ++ bs ++ buf.drop (off + bs.length)

theorem slice_length {l : List α} {off len : ℕ} (h : off + len ≤ l.length) :
    (slice l off len).length = len := by
  rw [slice, List.length_take, List.length_drop]
  omega

theorem splice_length {buf bs : List α} {off : ℕ} (h : off + bs.length ≤ buf.length) :
    (splice buf off bs).length = buf.length := by
  simp only [splice, List.length_append, List.length_take, List.length_drop]
  omega

theorem getElem?_slice (l : List α) (off len i : ℕ) :
    (slice l off len)[i]? = if i < len then l[off + i]? else none := by
  rw [slice, List.getElem?_take, List.getElem?_drop]

theorem getElem?_splice {buf bs : List α} {off : ℕ} (h : off + bs.length ≤ buf.length) (i : ℕ) :
    (splice buf off bs)[i]? =
      if off ≤ i ∧ i < off + bs.length then bs[i - off]? else buf[i]? := by
  have hoff : (buf.take off).length = off := by rw [List.length_take]; omega
  rw [splice, List.append_assoc]
  by_cases h1 : i < off
  · rw [List.getElem?_append_left (by omega), List.getElem?_take_of_lt h1, if_neg (by omega)]
  · rw [List.getElem?_append_right (by omega), hoff]
    by_cases h2 : i < off + bs.length
    · rw [List.getElem?_append_left (by omega), if_pos ⟨by omega, h2⟩]
    · rw [List.getElem?_append_right (by omega), List.getElem?_drop, if_neg (by omega)]
      congr 1
      omega

theorem getElem?_splice_slice {src buf : List α} {off len : ℕ} (hc : src.length = buf.length)
    (h : off + len ≤ src.length) (i : ℕ) :
    (splice buf off (slice src off len))[i]? =
      if off ≤ i ∧ i < off + len then src[i]? else buf[i]? := by
  rw [getElem?_splice (by rw [slice_length h]; omega), slice_length h]
  split_ifs with hi
  · rw [getElem?_slice, if_pos (by omega), Nat.add_sub_cancel' hi.1]
  · rfl

def Fills (src : List α) (P : ℕ → Prop) (buf : List α) : Prop :=
  buf.length = src.length ∧ ∀ i, P i → buf[i]? = src[i]?

theorem Fills.splice {src buf : List α} {P : ℕ → Prop} (hb : Fills src P buf) {off len : ℕ}
    (h : off + len ≤ src.length) :
    Fills src (fun i => P i ∨ off ≤ i ∧ i < off + len) (Splice.splice buf off (slice src off len)) := by
  obtain ⟨hl, hP⟩ := hb
  refine ⟨by rw [splice_length (by rw [slice_length h]; omega), hl], fun i hi => ?_⟩
  rw [getElem?_splice_slice hl.symm h]
  split_ifs with hin
  · rfl
  · exact hP i (hi.resolve_right hin)

theorem Fills.mono {src buf : List α} {P Q : ℕ → Prop} (hb : Fills src P buf) (h : ∀ i, Q i → P i) :
    Fills src Q buf := ⟨hb.1, fun i hi => hb.2 i (h i hi)⟩

theorem Fills.eq {src buf : List α} {P : ℕ → Prop} (hb : Fills src P buf)
    (h : ∀ i, i < src.length → P i) : buf = src := by
  refine List.ext_getElem? fun i => ?_
  by_cases hi : i < src.length
  · exact hb.2 i (h i hi)
  · rw [List.getElem?_eq_none (by rw [hb.1]; omega), List.getElem?_eq_none (by omega)]

end Splice
