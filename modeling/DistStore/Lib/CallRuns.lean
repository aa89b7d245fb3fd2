import Mathlib.Algebra.BigOperators.Group.Finset.Basic
import DistStore.Lib.Calls

/-! How runs of calls end. Each step is one less to make, no call is lost or served twice, and where
nobody can move all of them were served; those of a single caller in the order it made them. -/

namespace Calls

variable {ι κ μ : Type*} [DecidableEq ι]

/-! ## Counting -/

section counting

open Finset

variable {M : Type*} [AddCommMonoid M] [Fintype ι]

theorem sum_change {f g : ι → M} {x y : M} {a : ι} (h : ∀ b, b ≠ a → g b = f b)
    (ha : g a + x = f a + y) : ∑ b, g b + x = ∑ b, f b + y := by
  have hsame : ∑ b ∈ univ.erase a, g b = ∑ b ∈ univ.erase a, f b :=
    sum_congr rfl fun b hb => h b (ne_of_mem_erase hb)
  rw [← add_sum_erase univ g (mem_univ a), ← add_sum_erase univ f (mem_univ a), hsame,
    add_right_comm, ha, add_right_comm]

theorem sum_change_two {f g : ι → M} {x y x' y' : M} {a b : ι} (hab : a ≠ b)
    (h : ∀ c, c ≠ a → c ≠ b → g c = f c) (ha : g a + x = f a + y) (hb : g b + x' = f b + y') :
    ∑ c, g c + (x + x') = ∑ c, f c + (y + y') := by
  have h1 : ∑ c, Function.update f a (g a) c + x = ∑ c, f c + y :=
    sum_change (fun c hc => Function.update_of_ne hc ..) (by rwa [Function.update_self])
  have h2 : ∑ c, g c + x' = ∑ c, Function.update f a (g a) c + y' := by
    refine sum_change (a := b) (fun c hc => ?_) (by rwa [Function.update_of_ne hab.symm])
    by_cases hca : c = a
    · rw [hca, Function.update_self]
    · rw [Function.update_of_ne hca, h c hca hc]
  rw [add_comm x, ← add_assoc, h2, add_right_comm, h1, add_assoc]

/-- What a call counts for: while it is still to be made, while it waits, while it is served, and
for the one who makes it. -/
structure Weights (κ M : Type*) where
  todo : κ → M
  pend : κ → M
  serving : κ → M
  calling : M

def load (P : Protocol ι κ μ) (w : Weights κ M) (s : State ι κ μ) (a : ι) : M :=
  ((s.todo a).map w.todo).sum + ((s.pend a).map w.pend).sum +
    (s.cur a).elim 0 fun k => if a = P.caller k then w.calling else w.serving k

variable {P : Protocol ι κ μ} {rank : ι → ℕ} {below : κ → List κ} {s t : State ι κ μ} {a : ι} {k : κ}
  (w : Weights κ M)

theorem Consistent.load_dial (h : Consistent P s) (hl : Layered P rank below) {ks : List κ}
    (hcur : s.cur a = none) (htodo : s.todo a = k :: ks) (hstep : s.dial P a k ks = some t) :
    ∑ b, load P w t b + w.todo k = ∑ b, load P w s b + (w.calling + w.pend k) := by
  have hk : P.caller k = a := h.todo a k (by simp [htodo])
  have hne : a ≠ P.callee k := fun heq => (hl.rank_lt k).ne (by rw [← heq, hk])
  rw [State.dial] at hstep
  split_ifs at hstep
  obtain rfl := Option.some.inj hstep
  rw [← add_zero (w.todo k)]
  refine sum_change_two hne (fun c ha hb => ?_) ?_ ?_
  · simp only [load, Function.update_of_ne ha, Function.update_of_ne hb]
  · simp only [load, Function.update_self, Function.update_of_ne hne, hcur, htodo, hk, List.map_cons,
      List.sum_cons, Option.elim_some, Option.elim_none, if_true]
    abel
  · simp only [load, Function.update_self, Function.update_of_ne hne.symm, List.map_append,
      List.sum_append, List.map_cons, List.map_nil, List.sum_cons, List.sum_nil]
    abel

theorem load_accept {ks : List κ} (hcur : s.cur a = none) (hpend : s.pend a = k :: ks)
    (ha : a ≠ P.caller k) :
    ∑ b, load P w (s.accept a k ks) b + w.pend k = ∑ b, load P w s b + w.serving k := by
  refine sum_change (a := a) (fun c hc => ?_) ?_
  · simp only [load, State.accept, Function.update_of_ne hc]
  · simp only [load, State.accept, Function.update_self, hcur, hpend, if_neg ha, List.map_cons,
      List.sum_cons, Option.elim_some, Option.elim_none]
    abel

theorem load_called (hcur : s.cur a = some k) (ha : a = P.caller k) :
    ∑ b, load P w { s with cur := Function.update s.cur a none } b + w.calling =
      ∑ b, load P w s b + 0 := by
  refine sum_change (a := a) (fun c hc => ?_) ?_
  · simp only [load, Function.update_of_ne hc]
  · simp only [load, Function.update_self, hcur, if_pos ha, Option.elim_some, Option.elim_none]
    abel

theorem load_served (hcur : s.cur a = some k) (ha : a ≠ P.caller k) (htodo : s.todo a = [])
    (served : List κ) :
    ∑ b, load P w { s with
        todo := Function.update s.todo a (P.next k)
        cur := Function.update s.cur a none
        served := served } b + w.serving k =
      ∑ b, load P w s b + ((P.next k).map w.todo).sum := by
  refine sum_change (a := a) (fun c hc => ?_) ?_
  · simp only [load, Function.update_of_ne hc]
  · simp only [load, Function.update_self, hcur, htodo, if_neg ha, Option.elim_some, Option.elim_none,
      List.map_nil, List.sum_nil]
    abel

/-! ## Steps to the end -/

/-- The steps a call takes besides its messages: made, accepted, served, left. -/
def stepWeights (below : κ → List κ) : Weights κ ℕ :=
  ⟨fun k => 4 * (below k).length, fun k => 4 * (below k).length - 2,
    fun k => 4 * (below k).length - 3, 1⟩

def stepsLeft [Fintype κ] (P : Protocol ι κ μ) (below : κ → List κ) (s : State ι κ μ) : ℕ :=
  ∑ a, load P (stepWeights below) s a +
    ∑ k, ((s.conn k).caller.length + (s.conn k).callee.length)

variable [DecidableEq κ]

theorem stepsLeft_conn [Fintype κ] {x : Dialogue μ}
    (hx : (s.conn k).caller.length + (s.conn k).callee.length = x.caller.length + x.callee.length + 1) :
    stepsLeft P below { s with conn := Function.update s.conn k x } + 1 = stepsLeft P below s := by
  have hsum : ∑ j, ((Function.update s.conn k x j).caller.length +
      (Function.update s.conn k x j).callee.length) + 1 =
        ∑ j, ((s.conn j).caller.length + (s.conn j).callee.length) + 0 := by
    refine sum_change (a := k) (fun j hj => by rw [Function.update_of_ne hj]) ?_
    rw [Function.update_self, hx]
  rw [stepsLeft, stepsLeft, add_assoc, hsum]
  rfl

/-- Every step is one less to make. -/
theorem Consistent.stepsLeft_step [Fintype κ] (h : Consistent P s) (hl : Layered P rank below)
    (hstep : s.step P a = some t) : stepsLeft P below t + 1 = stepsLeft P below s := by
  have hpos : ∀ k, 1 ≤ (below k).length := by
    intro k
    rw [hl.below_eq k]
    simp
  rcases State.step_cases hstep with ⟨k, ks, hcur, htodo, hstep⟩ | ⟨k, ks, hcur, htodo, hpend, rfl⟩ |
    ⟨k, hcur, ha, hstep⟩ | ⟨k, hcur, ha, hstep⟩
  · have hload := h.load_dial (stepWeights below) hl hcur htodo hstep
    have hconn : t.conn = s.conn := by
      rw [State.dial] at hstep
      split_ifs at hstep
      rw [← Option.some.inj hstep]
    have := hpos k
    simp only [stepWeights] at hload
    rw [stepsLeft, stepsLeft, hconn, stepWeights]
    omega
  · have hk := h.pend a k (by simp [hpend])
    have hload := load_accept (stepWeights below) hcur hpend
      (P := P) (fun heq => (hl.rank_lt k).ne (by rw [hk, heq]))
    have := hpos k
    simp only [stepWeights] at hload
    rw [stepsLeft, stepsLeft, stepWeights]
    simp only [State.accept] at hload ⊢
    omega
  · rw [State.call] at hstep
    split_ifs at hstep with hdone
    · obtain rfl := Option.some.inj hstep
      have hload := load_called (stepWeights below) hcur ha
      simp only [stepWeights] at hload
      rw [stepsLeft, stepsLeft, stepWeights]
      dsimp only
      omega
    · obtain ⟨x, hx, rfl⟩ := Option.map_eq_some_iff.mp hstep
      obtain ⟨hlen, hsame⟩ := Dialogue.callerStep_length hx
      exact stepsLeft_conn (by rw [hlen, hsame]; omega)
  · have hk := (h.cur a k hcur).resolve_left ha
    rw [State.serve] at hstep
    split_ifs at hstep with hdone
    · obtain rfl := Option.some.inj hstep
      have hload := load_served (stepWeights below) hcur ha (hk ▸ h.serving k (hk ▸ hcur))
        (s.served ++ [k])
      have hbelow : (below k).length = 1 + ((P.next k).map fun k => (below k).length).sum := by
        rw [hl.below_eq k, List.length_cons, List.length_flatMap, add_comm]
      have hmul : ((P.next k).map fun k => 4 * (below k).length).sum =
          4 * ((P.next k).map fun k => (below k).length).sum := List.sum_map_mul_left ..
      simp only [stepWeights] at hload
      rw [stepsLeft, stepsLeft, stepWeights]
      dsimp only
      omega
    · obtain ⟨x, hx, rfl⟩ := Option.map_eq_some_iff.mp hstep
      obtain ⟨hlen, hsame⟩ := Dialogue.calleeStep_length hx
      exact stepsLeft_conn (by rw [hlen, hsame]; omega)

/-! ## Each call once -/

def callWeights (below : κ → List κ) : Weights κ (Multiset κ) :=
  ⟨fun k => below k, fun k => below k, fun k => below k, 0⟩

theorem coe_flatMap {α β : Type*} (l : List α) (f : α → List β) :
    (l.flatMap f : Multiset β) = (l.map fun a => (f a : Multiset β)).sum := by
  induction l with
  | nil => rfl
  | cons a l ih => rw [List.flatMap_cons, ← Multiset.coe_add, ih, List.map_cons, List.sum_cons]

def unserved (P : Protocol ι κ μ) (below : κ → List κ) (s : State ι κ μ) : Multiset κ :=
  ∑ a, load P (callWeights below) s a

/-- No call is lost, and none is served twice. -/
theorem Consistent.unserved_step (h : Consistent P s) (hl : Layered P rank below)
    (hstep : s.step P a = some t) :
    unserved P below t + (t.served : Multiset κ) = unserved P below s + (s.served : Multiset κ) := by
  rcases State.step_cases hstep with ⟨k, ks, hcur, htodo, hstep⟩ | ⟨k, ks, hcur, htodo, hpend, rfl⟩ |
    ⟨k, hcur, ha, hstep⟩ | ⟨k, hcur, ha, hstep⟩
  · have hload := h.load_dial (callWeights below) hl hcur htodo hstep
    have hserved : t.served = s.served := by
      rw [State.dial] at hstep
      split_ifs at hstep
      rw [← Option.some.inj hstep]
    simp only [callWeights, zero_add, add_left_inj] at hload
    rw [unserved, unserved, hserved, callWeights, hload]
  · have hk := h.pend a k (by simp [hpend])
    have hload := load_accept (callWeights below) hcur hpend
      (P := P) (fun heq => (hl.rank_lt k).ne (by rw [hk, heq]))
    simp only [callWeights, add_left_inj] at hload
    rw [unserved, unserved, callWeights, hload]
    rfl
  · rw [State.call] at hstep
    split_ifs at hstep with hdone
    · obtain rfl := Option.some.inj hstep
      have hload := load_called (callWeights below) hcur ha
      simp only [callWeights, add_zero] at hload
      rw [unserved, unserved, callWeights, hload]
    · obtain ⟨x, -, rfl⟩ := Option.map_eq_some_iff.mp hstep
      rfl
  · have hk := (h.cur a k hcur).resolve_left ha
    rw [State.serve] at hstep
    split_ifs at hstep with hdone
    · obtain rfl := Option.some.inj hstep
      have hload := load_served (callWeights below) hcur ha (hk ▸ h.serving k (hk ▸ hcur))
        (s.served ++ [k])
      have hbelow : (below k : Multiset κ) = ((P.next k).map (callWeights below).todo).sum + {k} := by
        rw [hl.below_eq k, callWeights, ← coe_flatMap, ← Multiset.cons_coe, ← Multiset.singleton_add,
          add_comm]
      rw [show (callWeights below).serving k = (below k : Multiset κ) from rfl, hbelow,
        add_comm _ ({k} : Multiset κ), ← add_assoc, add_left_inj] at hload
      rw [unserved, unserved, ← hload, ← Multiset.coe_add, Multiset.coe_singleton, add_assoc,
        add_comm ({k} : Multiset κ)]
    · obtain ⟨x, -, rfl⟩ := Option.map_eq_some_iff.mp hstep
      rfl

/-! ## Runs -/

def allCalls (below : κ → List κ) (todo : ι → List κ) : Multiset κ :=
  ∑ a, ((todo a).flatMap below : Multiset κ)

def allSteps [Fintype κ] (P : Protocol ι κ μ) (below : κ → List κ) (todo : ι → List κ) : ℕ :=
  stepsLeft P below (.start P todo)

variable {todo : ι → List κ} {as : List ι}

/-- A run has no more steps than the calls take. -/
theorem run_length_le [Fintype κ] (hl : Layered P rank below)
    (htodo : ∀ a, ∀ k ∈ todo a, P.caller k = a)
    (hrun : Transition.run (State.step P) (.start P todo) as = some s) :
    as.length ≤ allSteps P below todo := by
  have hle := (Transition.run_length_le (P := Consistent P) (A := fun _ => True)
    (fun s _ t h _ hstep => ⟨h.step hl hstep, show stepsLeft P below t < stepsLeft P below s by
      have := h.stepsLeft_step hl hstep
      omega⟩)
    (.start htodo) (fun _ _ => trivial) hrun).2
  exact (Nat.le_add_right ..).trans hle

theorem run_served (hl : Layered P rank below) (htodo : ∀ a, ∀ k ∈ todo a, P.caller k = a)
    (hrun : Transition.run (State.step P) (.start P todo) as = some s) :
    unserved P below s + (s.served : Multiset κ) = allCalls below todo := by
  refine (Transition.run_invariant (A := fun _ => True)
    (P := fun s => Consistent P s ∧
      unserved P below s + (s.served : Multiset κ) = allCalls below todo)
    (fun _ _ _ h _ hstep => ⟨h.1.step hl hstep, (h.1.unserved_step hl hstep).trans h.2⟩)
    ⟨.start htodo, ?_⟩ (fun _ _ => trivial) hrun).2
  rw [unserved, allCalls]
  simp only [load, State.start, callWeights, List.map_nil, List.sum_nil, add_zero, Option.elim_none,
    coe_flatMap]
  exact add_zero _

/-- Where a run ends, every call was served once. -/
theorem served_of_stuck (hl : Layered P rank below) (hloud : Loud P)
    (htodo : ∀ a, ∀ k ∈ todo a, P.caller k = a)
    (hrun : Transition.run (State.step P) (.start P todo) as = some s)
    (hstuck : ∀ a, s.step P a = none) : (s.served : Multiset κ) = allCalls below todo := by
  have h := Consistent.run hl htodo hrun
  rw [← run_served hl htodo hrun, unserved, sum_eq_zero fun a _ => ?_, zero_add]
  have hidle := h.idle_of_stuck hl (Talks.run hloud hrun) hstuck a
  simp [load, hidle.todo, hidle.pend, hidle.cur]

end counting

/-! ## One caller -/

section order

variable [DecidableEq κ] {P : Protocol ι κ μ} {rank : ι → ℕ} {below : κ → List κ} {s t : State ι κ μ}
  {a b c : ι}

/-- The calls to `b`: served, being served, waiting, still to be made by `a`. -/
def callsTo (P : Protocol ι κ μ) (s : State ι κ μ) (a b : ι) : List κ :=
  s.served.filter (P.callee · = b) ++ (s.cur b).toList.filter (P.callee · = b) ++ s.pend b ++
    (s.todo a).filter (P.callee · = b)

/-- Only `a` calls `b`, and nobody calls `a`: a step of anyone leaves the order of the calls. -/
theorem Consistent.callsTo_step (h : Consistent P s) (hl : Layered P rank below) (hab : a ≠ b)
    (hb : ∀ k, P.callee k = b → P.caller k = a) (ha : ∀ k, P.callee k ≠ a)
    (hstep : s.step P c = some t) : callsTo P t a b = callsTo P s a b := by
  rcases State.step_cases hstep with ⟨k, ks, hcur, htodo, hstep⟩ | ⟨k, ks, hcur, htodo, hpend, rfl⟩ |
    ⟨k, hcur, hc, hstep⟩ | ⟨k, hcur, hc, hstep⟩
  · have hk := h.todo c k (by simp [htodo])
    rw [State.dial] at hstep
    split_ifs at hstep
    obtain rfl := Option.some.inj hstep
    by_cases hkb : P.callee k = b
    · -- the call leaves the list of `a` and waits at `b`
      obtain rfl : c = a := by rw [← hk, hb k hkb]
      simp [callsTo, hkb, htodo, Function.update_of_ne hab.symm]
    · have hpend : Function.update s.pend (P.callee k) (s.pend (P.callee k) ++ [k]) b = s.pend b :=
        Function.update_of_ne (Ne.symm hkb) ..
      have hserving : (Function.update s.cur c (some k) b).toList.filter (P.callee · = b) =
          (s.cur b).toList.filter (P.callee · = b) := by
        rcases eq_or_ne b c with rfl | hbc
        · simp [hcur, hkb]
        · rw [Function.update_of_ne hbc]
      have htodo' : (Function.update s.todo c ks a).filter (P.callee · = b) =
          (s.todo a).filter (P.callee · = b) := by
        rcases eq_or_ne a c with rfl | hac
        · simp [htodo, hkb]
        · rw [Function.update_of_ne hac]
      simp only [callsTo, hpend, hserving, htodo']
  · have hk := h.pend c k (by simp [hpend])
    rcases eq_or_ne b c with rfl | hbc
    · simp [callsTo, State.accept, hcur, hpend, hk]
    · simp only [callsTo, State.accept, Function.update_of_ne hbc]
  · rw [State.call] at hstep
    split_ifs at hstep with hdone
    · obtain rfl := Option.some.inj hstep
      rcases eq_or_ne b c with rfl | hbc
      · -- what `b` leaves is a call of its own
        have hkb : P.callee k ≠ b := fun heq => (hl.rank_lt k).ne (by rw [heq, ← hc])
        simp [callsTo, hcur, hkb]
      · simp only [callsTo, Function.update_of_ne hbc]
    · obtain ⟨x, -, rfl⟩ := Option.map_eq_some_iff.mp hstep
      rfl
  · have hk := (h.cur c k hcur).resolve_left hc
    rw [State.serve] at hstep
    split_ifs at hstep with hdone
    · obtain rfl := Option.some.inj hstep
      have hac : a ≠ c := fun heq => ha k (by rw [heq, hk])
      rcases eq_or_ne b c with rfl | hbc
      · simp [callsTo, hcur, ← hk, Function.update_of_ne hac]
      · have hkb : P.callee k ≠ b := fun heq => hbc (by rw [← heq, hk])
        simp [callsTo, Function.update_of_ne hac, Function.update_of_ne hbc, hkb]
    · obtain ⟨x, -, rfl⟩ := Option.map_eq_some_iff.mp hstep
      rfl

/-- They are served in the order in which `a` makes them. -/
theorem served_in_order {todo : ι → List κ} {as : List ι} (hl : Layered P rank below) (hloud : Loud P)
    (htodo : ∀ a, ∀ k ∈ todo a, P.caller k = a) (hab : a ≠ b)
    (hb : ∀ k, P.callee k = b → P.caller k = a) (ha : ∀ k, P.callee k ≠ a)
    (hrun : Transition.run (State.step P) (.start P todo) as = some s)
    (hstuck : ∀ a, s.step P a = none) :
    s.served.filter (P.callee · = b) = (todo a).filter (P.callee · = b) := by
  have hcalls := (Transition.run_invariant (A := fun _ => True)
    (P := fun s => Consistent P s ∧ callsTo P s a b = callsTo P (.start P todo) a b)
    (fun _ _ _ h _ hstep =>
      ⟨h.1.step hl hstep, (h.1.callsTo_step hl hab hb ha hstep).trans h.2⟩)
    ⟨.start htodo, rfl⟩ (fun _ _ => trivial) hrun).2
  have h := Consistent.run hl htodo hrun
  have htalks := Talks.run hloud hrun
  have hida := h.idle_of_stuck hl htalks hstuck a
  have hidb := h.idle_of_stuck hl htalks hstuck b
  simpa [callsTo, hida.todo, hidb.cur, hidb.pend, State.start] using hcalls

end order

end Calls
