import Mathlib.Tactic
import Mathlib.Data.List.Basic

/-! Counted loops whose counter has a fixed width: `for (c = first; test c; c++)`. The counter
wraps, so a test that no value of that width fails is passed for ever. -/

namespace Counter

variable {β : Type*}

/-- What the rounds from `c` on give, if `fuel` tests are enough and no round fails. -/
def loop (w : ℕ) (test : ℕ → Bool) (body : ℕ → Option β) : ℕ → ℕ → Option (List β)
  | 0, _ => none
  | fuel + 1, c =>
    if test c then
      (body c).bind fun b => (loop w test body fuel ((c + 1) % 2 ^ w)).map (b :: ·)
    else some []

variable {w n c : ℕ} {test : ℕ → Bool} {body : ℕ → Option β}

/-- No value of the counter ends the loop. -/
theorem loop_eq_none (h : ∀ c < 2 ^ w, test c = true) (hc : c < 2 ^ w) (fuel : ℕ) :
    loop w test body fuel c = none := by
  induction fuel generalizing c with
  | zero => rfl
  | succ fuel ih =>
    rw [loop, if_pos (h c hc)]
    cases body c with
    | none => rfl
    | some b =>
      rw [Option.bind_some, ih (Nat.mod_lt _ (Nat.two_pow_pos w))]
      rfl

/-- The test fails first at `n`, which the counter can hold: there is one round for each value
before it. -/
theorem loop_eq (hn : n < 2 ^ w) (htest : ∀ c < n, test c = true) (hend : test n = false)
    (hc : c ≤ n) (fuel : ℕ) :
    loop w test body fuel c =
      if n - c < fuel then (List.range' c (n - c)).mapM body else none := by
  induction fuel generalizing c with
  | zero => rfl
  | succ fuel ih =>
    rcases hc.eq_or_lt with rfl | hlt
    · rw [loop, if_neg (by rw [hend]; exact Bool.false_ne_true), Nat.sub_self,
        if_pos (Nat.succ_pos _)]
      rfl
    · obtain ⟨k, hk⟩ : ∃ k, n - c = k + 1 := ⟨n - c - 1, by omega⟩
      have hk' : n - (c + 1) = k := by omega
      rw [loop, if_pos (htest c hlt), Nat.mod_eq_of_lt (by omega), ih hlt, hk, hk', List.range'_succ,
        List.mapM_cons]
      cases body c with
      | none => simp
      | some b =>
        by_cases hfuel : k < fuel
        · rw [if_pos hfuel, if_pos (by omega)]
          cases (List.range' (c + 1) k).mapM body <;> rfl
        · rw [if_neg hfuel, if_neg (by omega)]
          rfl

/-! ## The results -/

section results

variable {cs : List ℕ} {b : β} {bs : List β}

theorem mapM_cons_eq_some_iff :
    (c :: cs).mapM body = some bs ↔
      ∃ b, body c = some b ∧ ∃ bs', cs.mapM body = some bs' ∧ bs = b :: bs' := by
  rw [List.mapM_cons, Option.bind_eq_bind, Option.bind_eq_some_iff]
  refine exists_congr fun b => and_congr_right fun _ => ?_
  rw [Option.bind_eq_bind, Option.bind_eq_some_iff]
  refine exists_congr fun bs' => and_congr_right fun _ => ?_
  rw [Option.pure_def, Option.some_inj, eq_comm]

theorem exists_mapM_iff : (∃ bs, cs.mapM body = some bs) ↔ ∀ c ∈ cs, ∃ b, body c = some b := by
  induction cs with
  | nil => exact iff_of_true ⟨[], rfl⟩ fun c hc => absurd hc List.not_mem_nil
  | cons c cs ih =>
    rw [List.forall_mem_cons, ← ih]
    constructor
    · rintro ⟨bs, hbs⟩
      obtain ⟨b, hb, bs', hbs', -⟩ := mapM_cons_eq_some_iff.mp hbs
      exact ⟨⟨b, hb⟩, bs', hbs'⟩
    · rintro ⟨⟨b, hb⟩, bs', hbs'⟩
      exact ⟨b :: bs', mapM_cons_eq_some_iff.mpr ⟨b, hb, bs', hbs', rfl⟩⟩

theorem mem_of_mapM (hbs : cs.mapM body = some bs) (hb : b ∈ bs) : ∃ c ∈ cs, body c = some b := by
  induction cs generalizing bs with
  | nil =>
    cases hbs
    cases hb
  | cons c cs ih =>
    obtain ⟨b', hb', bs', hbs', rfl⟩ := mapM_cons_eq_some_iff.mp hbs
    rcases List.mem_cons.mp hb with rfl | hb
    · exact ⟨c, List.mem_cons_self .., hb'⟩
    · obtain ⟨c', hc', h⟩ := ih hbs' hb
      exact ⟨c', List.mem_cons_of_mem _ hc', h⟩

theorem map_of_mapM {key : β → ℕ} (hkey : ∀ c b, body c = some b → key b = c)
    (hbs : cs.mapM body = some bs) : bs.map key = cs := by
  induction cs generalizing bs with
  | nil =>
    cases hbs
    rfl
  | cons c cs ih =>
    obtain ⟨b, hb, bs', hbs', rfl⟩ := mapM_cons_eq_some_iff.mp hbs
    rw [List.map_cons, hkey c b hb, ih hbs']

end results

end Counter
