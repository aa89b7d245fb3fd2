import Mathlib.Tactic
import Mathlib.Data.List.Basic

/-! Strings read out of a cleared buffer: they are known up to trailing zeros. A cut of
a sequence of strings that each hold a non-zero element shows the strings exactly
when it is made where they end. -/

namespace Padding

variable {α : Type*}

/-- A buffer of `n` zeros after `l` was written to its start. -/
def pad (z : α) (n : ℕ) (l : List α) : List α := l ++ List.replicate (n - l.length) z

variable {z : α}

/-- If both `l` and `l ++ t` pad to one buffer, `t` is zero. -/
theorem zeros_of_pad_eq {n : ℕ} {l t : List α} (h : pad z n l = pad z n (l ++ t)) :
    ∀ b ∈ t, b = z := by
  rw [pad, pad, List.append_assoc] at h
  intro b hb
  have hmem : b ∈ List.replicate (n - l.length) z := by
    rw [List.append_cancel_left h]
    exact List.mem_append_left _ hb
  exact List.eq_of_mem_replicate hmem

theorem pad_append_zeros {n k : ℕ} {l : List α} (hn : l.length + k ≤ n) :
    pad z n (l ++ List.replicate k z) = pad z n l := by
  rw [pad, pad, List.append_assoc, List.replicate_append_replicate, List.length_append,
    List.length_replicate]
  congr 2
  omega

variable [DecidableEq α]

/-- The number of zeros a string begins with. -/
def lead (z : α) (l : List α) : ℕ := l.findIdx (· ≠ z)

theorem lead_append {l : List α} (h : ∃ b ∈ l, b ≠ z) (r : List α) : lead z (l ++ r) = lead z l := by
  rw [lead, List.findIdx_append, if_pos (List.findIdx_lt_length.mpr (by simpa using h)), lead]

theorem lead_zeros_append {t : List α} (h : ∀ b ∈ t, b = z) (r : List α) :
    lead z (t ++ r) = lead z r + t.length := by
  rw [lead, List.findIdx_append, if_neg, lead]
  rw [List.findIdx_lt_length]
  simpa using h

/-- A piece that pads to a string which is not zero is not zero, and begins as it does. -/
theorem lead_of_pad_eq {n : ℕ} {c p : List α} (h : pad z n c = pad z n p) (hp : ∃ b ∈ p, b ≠ z) :
    (∃ b ∈ c, b ≠ z) ∧ lead z c = lead z p := by
  have hc : ∃ b ∈ c, b ≠ z := by
    obtain ⟨b, hb, hne⟩ := hp
    have hmem : b ∈ pad z n c := by
      rw [h]
      exact List.mem_append_left _ hb
    rcases List.mem_append.mp hmem with hb | hb
    · exact ⟨b, hb, hne⟩
    · exact absurd (List.eq_of_mem_replicate hb) hne
  refine ⟨hc, ?_⟩
  rw [← lead_append hc (List.replicate (n - c.length) z),
    ← lead_append hp (List.replicate (n - p.length) z)]
  exact congrArg (lead z) h

/-- A piece that shows `p` is `p`, if what follows either begins with as many zeros. -/
theorem eq_of_pad_eq {n : ℕ} {c p r s : List α} (happ : c ++ r = p ++ s)
    (hpad : pad z n c = pad z n p) (hlead : lead z r = lead z s) : c = p := by
  rcases List.append_eq_append_iff.mp happ with ⟨t, rfl, rfl⟩ | ⟨t, rfl, rfl⟩
  · rw [lead_zeros_append (zeros_of_pad_eq hpad)] at hlead
    rw [List.eq_nil_of_length_eq_zero (show t.length = 0 by omega), List.append_nil]
  · rw [lead_zeros_append (zeros_of_pad_eq hpad.symm)] at hlead
    rw [List.eq_nil_of_length_eq_zero (show t.length = 0 by omega), List.append_nil]

theorem lead_flatten_cons {n : ℕ} {c p : List α} (hpad : pad z n c = pad z n p)
    (hp : ∃ b ∈ p, b ≠ z) (cs ps : List (List α)) :
    lead z (c :: cs).flatten = lead z (p :: ps).flatten := by
  obtain ⟨hc, hcp⟩ := lead_of_pad_eq hpad hp
  rw [List.flatten_cons, List.flatten_cons, lead_append hc, lead_append hp, hcp]

/-- Each string but the last is a piece of its own, and zeros at the end of the last one
may be cut off. -/
def AtEnds (z : α) : List (List α) → List (List α) → Prop
  | [], _ => True
  | _ :: _, [] => False
  | [p], c :: _ => ∃ k, p = c ++ List.replicate k z
  | p :: p' :: ps, c :: cs => c = p ∧ AtEnds z (p' :: ps) cs

/-- The first pieces show the strings exactly when they are cut where the strings end. -/
theorem take_pad_eq_iff {n : ℕ} {ps cs : List (List α)} (hflat : cs.flatten = ps.flatten)
    (hne : ∀ p ∈ ps, ∃ b ∈ p, b ≠ z) (hlen : ∀ p ∈ ps, p.length ≤ n) :
    (cs.take ps.length).map (pad z n) = ps.map (pad z n) ↔ AtEnds z ps cs := by
  induction ps generalizing cs with
  | nil => simp [AtEnds]
  | cons p ps ih =>
    cases cs with
    | nil => simp [AtEnds]
    | cons c cs =>
      simp only [List.length_cons, List.take_succ_cons, List.map_cons, List.cons.injEq]
      cases ps with
      | nil =>
        simp only [List.flatten_cons, List.flatten_nil, List.append_nil] at hflat
        subst hflat
        simp only [List.length_nil, List.take_zero, List.map_nil, and_true, AtEnds]
        constructor
        · intro hpad
          exact ⟨cs.flatten.length, by rw [← List.eq_replicate_of_mem (zeros_of_pad_eq hpad)]⟩
        · rintro ⟨k, hk⟩
          have hfit := hlen _ (List.mem_singleton_self _)
          rw [hk, List.length_append, List.length_replicate] at hfit
          rw [hk, pad_append_zeros hfit]
      | cons p' ps =>
        have hih (hcs : cs.flatten = (p' :: ps).flatten) :=
          ih hcs (fun q hq => hne q (List.mem_cons_of_mem _ hq))
            fun q hq => hlen q (List.mem_cons_of_mem _ hq)
        rw [List.flatten_cons, List.flatten_cons] at hflat
        constructor
        · rintro ⟨hpad, hrest⟩
          -- the next piece begins where the next string does
          have hlead : lead z cs.flatten = lead z (p' :: ps).flatten := by
            cases cs with
            | nil => simp at hrest
            | cons c' cs =>
              simp only [List.length_cons, List.take_succ_cons, List.map_cons,
                List.cons.injEq] at hrest
              exact lead_flatten_cons hrest.1 (hne p' (by simp)) cs ps
          obtain rfl := eq_of_pad_eq hflat hpad hlead
          exact ⟨rfl, (hih (List.append_cancel_left hflat)).mp hrest⟩
        · rintro ⟨rfl, hrest⟩
          exact ⟨rfl, (hih (List.append_cancel_left hflat)).mpr hrest⟩

/-- All pieces show the strings exactly when they are the strings. -/
theorem map_pad_eq_iff {n : ℕ} {ps cs : List (List α)} (hflat : cs.flatten = ps.flatten)
    (hne : ∀ p ∈ ps, ∃ b ∈ p, b ≠ z) :
    cs.map (pad z n) = ps.map (pad z n) ↔ cs = ps := by
  refine ⟨fun h => ?_, fun h => h ▸ rfl⟩
  induction ps generalizing cs with
  | nil => simpa using h
  | cons p ps ih =>
    cases cs with
    | nil => simp at h
    | cons c cs =>
      simp only [List.map_cons, List.cons.injEq] at h
      obtain ⟨hpad, hrest⟩ := h
      rw [List.flatten_cons, List.flatten_cons] at hflat
      have hlead : lead z cs.flatten = lead z ps.flatten := by
        cases ps with
        | nil => rw [List.map_nil, List.map_eq_nil_iff] at hrest; rw [hrest]
        | cons p' ps =>
          cases cs with
          | nil => simp at hrest
          | cons c' cs =>
            simp only [List.map_cons, List.cons.injEq] at hrest
            exact lead_flatten_cons hrest.1 (hne p' (by simp)) cs ps
      obtain rfl := eq_of_pad_eq hflat hpad hlead
      rw [ih (List.append_cancel_left hflat) (fun q hq => hne q (List.mem_cons_of_mem _ hq)) hrest]

end Padding
