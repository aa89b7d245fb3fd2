import Mathlib.Tactic
import Mathlib.Data.List.Basic

/-! Systems that step by a partial function: runs of actions, invariants of runs, and
a bound on their length from a measure that every step lowers. -/

namespace Transition

variable {σ α : Type*} (step : σ → α → Option σ)

def run (s : σ) (as : List α) : Option σ := as.foldlM step s

variable {step}

@[simp] theorem run_nil (s : σ) : run step s [] = some s := rfl

theorem run_cons {s s' : σ} {a : α} {as : List α} :
    run step s (a :: as) = some s' ↔ ∃ t, step s a = some t ∧ run step t as = some s' := by
  rw [run, List.foldlM_cons, Option.bind_eq_bind, Option.bind_eq_some_iff]
  rfl

theorem run_append {s s' : σ} {as bs : List α} :
    run step s (as ++ bs) = some s' ↔ ∃ t, run step s as = some t ∧ run step t bs = some s' := by
  rw [run, List.foldlM_append, Option.bind_eq_bind, Option.bind_eq_some_iff]
  rfl

variable (step) in
/-- At each action of the run, `P` of the action and of the state it finds. -/
def Along (P : α → σ → Prop) : σ → List α → Prop
  | _, [] => True
  | s, a :: as => P a s ∧ ∀ t ∈ step s a, Along P t as

instance decidableAlong {P : α → σ → Prop} [∀ a s, Decidable (P a s)] :
    (s : σ) → (as : List α) → Decidable (Along step P s as)
  | _, [] => isTrue trivial
  | s, a :: as =>
    have : ∀ t, Decidable (Along step P t as) := fun t => decidableAlong t as
    inferInstanceAs (Decidable (_ ∧ ∀ t ∈ step s a, _))

/-- What holds along a run holds along its end, from the state the start leads to. -/
theorem along_append {P : α → σ → Prop} {s t : σ} {as bs : List α}
    (h : Along step P s (as ++ bs)) (hrun : run step s as = some t) : Along step P t bs := by
  induction as generalizing s with
  | nil => exact Option.some.inj hrun ▸ h
  | cons a as ih =>
    obtain ⟨u, hu, hrun⟩ := run_cons.mp hrun
    exact ih (h.2 u hu) hrun

theorem along_of_forall {P : α → σ → Prop} (h : ∀ a s, P a s) (s : σ) (as : List α) :
    Along step P s as := by
  induction as generalizing s with
  | nil => trivial
  | cons a as ih => exact ⟨h a s, fun t _ => ih t⟩

theorem along_imp {P Q : α → σ → Prop} (h : ∀ a s, P a s → Q a s) {s : σ} {as : List α}
    (hP : Along step P s as) : Along step Q s as := by
  induction as generalizing s with
  | nil => trivial
  | cons a as ih => exact ⟨h a s hP.1, fun t ht => ih (hP.2 t ht)⟩

theorem along_and {P Q : α → σ → Prop} {s : σ} {as : List α} :
    Along step (fun a s => P a s ∧ Q a s) s as ↔ Along step P s as ∧ Along step Q s as := by
  constructor
  · intro h
    exact ⟨along_imp (fun _ _ h => h.1) h, along_imp (fun _ _ h => h.2) h⟩
  · rintro ⟨hP, hQ⟩
    induction as generalizing s with
    | nil => trivial
    | cons a as ih => exact ⟨⟨hP.1, hQ.1⟩, fun t ht => ih (hP.2 t ht) (hQ.2 t ht)⟩

theorem along_of_mem {A : α → Prop} {s : σ} {as : List α} (has : ∀ a ∈ as, A a) :
    Along step (fun a _ => A a) s as := by
  induction as generalizing s with
  | nil => trivial
  | cons a as ih => exact ⟨has a (by simp), fun t _ => ih fun b hb => has b (by simp [hb])⟩

/-- What every step of the actions allowed in its state keeps, a run keeps. -/
theorem along_invariant {P : σ → Prop} {A : α → σ → Prop}
    (hstep : ∀ s a s', P s → A a s → step s a = some s' → P s') {s s' : σ} {as : List α} (hs : P s)
    (has : Along step A s as) (hrun : run step s as = some s') : P s' := by
  induction as generalizing s with
  | nil => exact Option.some.inj hrun ▸ hs
  | cons a as ih =>
    obtain ⟨t, ht, hrun⟩ := run_cons.mp hrun
    exact ih (hstep s a t hs has.1 ht) (has.2 t ht) hrun

theorem run_invariant {P : σ → Prop} {A : α → Prop}
    (hstep : ∀ s a s', P s → A a → step s a = some s' → P s') {s s' : σ} {as : List α} (hs : P s)
    (has : ∀ a ∈ as, A a) (hrun : run step s as = some s') : P s' :=
  along_invariant hstep hs (along_of_mem has) hrun

/-- A measure that every step lowers counts the steps. -/
theorem along_length_le {P : σ → Prop} {A : α → σ → Prop} {todo : σ → ℕ}
    (hstep : ∀ s a s', P s → A a s → step s a = some s' → P s' ∧ todo s' < todo s) {s s' : σ}
    {as : List α} (hs : P s) (has : Along step A s as) (hrun : run step s as = some s') :
    P s' ∧ as.length + todo s' ≤ todo s := by
  induction as generalizing s with
  | nil =>
    obtain rfl := Option.some.inj hrun
    exact ⟨hs, by simp⟩
  | cons a as ih =>
    obtain ⟨t, ht, hrun⟩ := run_cons.mp hrun
    obtain ⟨hPt, hlt⟩ := hstep s a t hs has.1 ht
    obtain ⟨hPs', hle⟩ := ih hPt (has.2 t ht) hrun
    refine ⟨hPs', ?_⟩
    rw [List.length_cons]
    omega

theorem run_length_le {P : σ → Prop} {A : α → Prop} {todo : σ → ℕ}
    (hstep : ∀ s a s', P s → A a → step s a = some s' → P s' ∧ todo s' < todo s) {s s' : σ}
    {as : List α} (hs : P s) (has : ∀ a ∈ as, A a) (hrun : run step s as = some s') :
    P s' ∧ as.length + todo s' ≤ todo s :=
  along_length_le hstep hs (along_of_mem has) hrun

/-- Two properties that agree wherever an invariant holds, which the second of them keeps,
agree along every run. -/
theorem along_iff {I : σ → Prop} {C P Q : α → σ → Prop}
    (hiff : ∀ s a, I s → C a s → (P a s ↔ Q a s))
    (hstep : ∀ s a s', I s → C a s → Q a s → step s a = some s' → I s') {s : σ} {as : List α}
    (hs : I s) (hC : Along step C s as) : Along step P s as ↔ Along step Q s as := by
  induction as generalizing s with
  | nil => exact Iff.rfl
  | cons a as ih =>
    obtain ⟨ha, hrest⟩ := hC
    have hhere := hiff s a hs ha
    constructor
    · rintro ⟨hp, hps⟩
      have hq := hhere.mp hp
      exact ⟨hq, fun t ht => (ih (hstep s a t hs ha hq ht) (hrest t ht)).mp (hps t ht)⟩
    · rintro ⟨hq, hqs⟩
      exact ⟨hhere.mpr hq, fun t ht => (ih (hstep s a t hs ha hq ht) (hrest t ht)).mpr (hqs t ht)⟩

variable (step) in
def Quiescent (A : α → Prop) (s : σ) : Prop := ∀ a, A a → step s a = none

/-! ## What a run records -/

section record

variable {β : Type*} (out : σ → α → List β)

variable (step) in
/-- What the actions of a run record, each in the state it finds. -/
def record : σ → List α → List β
  | _, [] => []
  | s, a :: as => out s a ++ (step s a).elim [] fun t => record t as

theorem record_cons {s t : σ} {a : α} {as : List α} (h : step s a = some t) :
    record step out s (a :: as) = out s a ++ record step out t as := by
  rw [record, h]
  rfl

variable {out}

/-- An invariant of the state and of what was recorded on the way to it. -/
theorem along_record {P : σ → List β → Prop} {A : α → σ → Prop}
    (hstep : ∀ s l a s', P s l → A a s → step s a = some s' → P s' (l ++ out s a)) {s s' : σ}
    {l : List β} {as : List α} (hs : P s l) (has : Along step A s as) (hrun : run step s as = some s') :
    P s' (l ++ record step out s as) := by
  induction as generalizing s l with
  | nil =>
    obtain rfl := Option.some.inj hrun
    rwa [record, List.append_nil]
  | cons a as ih =>
    obtain ⟨t, ht, hrun⟩ := run_cons.mp hrun
    rw [record_cons out ht, ← List.append_assoc]
    exact ih (hstep s l a t hs has.1 ht) (has.2 t ht) hrun

theorem run_record {P : σ → List β → Prop} {A : α → Prop}
    (hstep : ∀ s l a s', P s l → A a → step s a = some s' → P s' (l ++ out s a)) {s s' : σ}
    {l : List β} {as : List α} (hs : P s l) (has : ∀ a ∈ as, A a) (hrun : run step s as = some s') :
    P s' (l ++ record step out s as) :=
  along_record hstep hs (along_of_mem has) hrun

end record

end Transition
