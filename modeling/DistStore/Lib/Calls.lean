import Mathlib.Tactic
import DistStore.Lib.Transition

/-! Agents that call each other. A call is a script that says who sends what next; whoever is in a
call does nothing else, and calls wait at a busy agent in the order they came, as many as its
backlog takes. If every call goes down in rank, no order of the agents' steps ends in a deadlock:
each run is finite, and where nobody can move every call was served. -/

namespace Calls

/-- The calls `κ` of the agents `ι`, with messages `μ`. -/
structure Protocol (ι κ μ : Type*) where
  caller : κ → ι
  callee : κ → ι
  /-- The messages in turn, `true` for those of the caller. -/
  script : κ → List (Bool × μ)
  /-- The messages that are nothing on the wire: who waits for one waits for ever. -/
  silent : μ → Bool
  /-- What the callee calls in its turn, once it has served. -/
  next : κ → List κ
  /-- How many calls wait at an agent at most. -/
  backlog : ℕ

/-- What is left of the script on either side, and the messages on their way. -/
structure Dialogue (μ : Type*) where
  caller : List (Bool × μ)
  callee : List (Bool × μ)
  toCallee : List μ
  toCaller : List μ
  /-- What the callee received. -/
  got : List μ

namespace Dialogue

variable {μ : Type*}

def start (script : List (Bool × μ)) : Dialogue μ := ⟨script, script, [], [], []⟩

def wire (silent : μ → Bool) (m : μ) : List μ := if silent m then [] else [m]

def callerStep (silent : μ → Bool) (x : Dialogue μ) : Option (Dialogue μ) :=
  match x.caller with
  | [] => none
  | (true, m) :: rest => some { x with caller := rest, toCallee := x.toCallee ++ wire silent m }
  | (false, _) :: rest =>
    match x.toCaller with
    | [] => none
    | _ :: ms => some { x with caller := rest, toCaller := ms }

def calleeStep (silent : μ → Bool) (x : Dialogue μ) : Option (Dialogue μ) :=
  match x.callee with
  | [] => none
  | (false, m) :: rest => some { x with callee := rest, toCaller := x.toCaller ++ wire silent m }
  | (true, _) :: rest =>
    match x.toCallee with
    | [] => none
    | m :: ms => some { x with callee := rest, toCallee := ms, got := x.got ++ [m] }

theorem callerStep_length {silent : μ → Bool} {x y : Dialogue μ} (h : x.callerStep silent = some y) :
    x.caller.length = y.caller.length + 1 ∧ y.callee = x.callee := by
  rcases hc : x.caller with _ | ⟨⟨dir, m⟩, rest⟩
  · simp [callerStep, hc] at h
  cases dir with
  | true =>
    simp only [callerStep, hc] at h
    obtain rfl := Option.some.inj h
    exact ⟨rfl, rfl⟩
  | false =>
    rcases hm : x.toCaller with _ | ⟨m', ms⟩
    · simp [callerStep, hc, hm] at h
    · simp only [callerStep, hc, hm] at h
      obtain rfl := Option.some.inj h
      exact ⟨rfl, rfl⟩

theorem calleeStep_length {silent : μ → Bool} {x y : Dialogue μ} (h : x.calleeStep silent = some y) :
    x.callee.length = y.callee.length + 1 ∧ y.caller = x.caller := by
  rcases hc : x.callee with _ | ⟨⟨dir, m⟩, rest⟩
  · simp [calleeStep, hc] at h
  cases dir with
  | false =>
    simp only [calleeStep, hc] at h
    obtain rfl := Option.some.inj h
    exact ⟨rfl, rfl⟩
  | true =>
    rcases hm : x.toCallee with _ | ⟨m', ms⟩
    · simp [calleeStep, hc, hm] at h
    · simp only [calleeStep, hc, hm] at h
      obtain rfl := Option.some.inj h
      exact ⟨rfl, rfl⟩

def fromCaller (script : List (Bool × μ)) : List μ :=
  script.filterMap fun p => if p.1 then some p.2 else none

theorem fromCaller_true (m : μ) (script : List (Bool × μ)) : fromCaller ((true, m) :: script) = m :: fromCaller script :=
  rfl

theorem fromCaller_false (m : μ) (script : List (Bool × μ)) : fromCaller ((false, m) :: script) = fromCaller script :=
  rfl

/-- The side that is ahead has sent what is on its way to the other. -/
structure Matched (script : List (Bool × μ)) (x : Dialogue μ) : Prop where
  ahead : (x.callee = x.toCallee.map (true, ·) ++ x.caller ∧ x.toCaller = []) ∨
    (x.caller = x.toCaller.map (false, ·) ++ x.callee ∧ x.toCallee = [])
  suffix : x.caller <:+ script ∧ x.callee <:+ script
  got : x.got ++ fromCaller x.callee = fromCaller script

namespace Matched

variable {silent : μ → Bool} {script : List (Bool × μ)} {x y : Dialogue μ}

theorem start (script : List (Bool × μ)) : Matched script (Dialogue.start script) where
  ahead := .inl ⟨rfl, rfl⟩
  suffix := ⟨List.suffix_refl _, List.suffix_refl _⟩
  got := rfl

theorem callerStep (h : x.Matched script) (hloud : ∀ p ∈ script, silent p.2 = false)
    (hstep : x.callerStep silent = some y) : y.Matched script := by
  obtain ⟨hahead, ⟨hcaller, hcallee⟩, hgot⟩ := h
  rcases hc : x.caller with _ | ⟨⟨dir, m⟩, rest⟩
  · simp [Dialogue.callerStep, hc] at hstep
  have hrest : rest <:+ script := (List.suffix_cons _ _).trans (hc ▸ hcaller)
  cases dir with
  | true =>
    have hwire : wire silent m = [m] := by
      rw [wire, hloud (true, m) (hcaller.mem (by simp [hc]))]
      rfl
    simp only [Dialogue.callerStep, hc, hwire] at hstep
    obtain rfl := Option.some.inj hstep
    refine ⟨.inl ?_, ⟨hrest, hcallee⟩, hgot⟩
    rcases hahead with ⟨h1, h2⟩ | ⟨h1, h2⟩
    · exact ⟨by simp [h1, hc], h2⟩
    · -- the caller is not behind: its next message would be one of the callee
      rcases hm : x.toCaller with _ | ⟨m', ms⟩
      · rw [hm, hc] at h1
        exact ⟨by simp [h2, h1], rfl⟩
      · rw [hm, hc] at h1
        simp at h1
  | false =>
    simp only [Dialogue.callerStep, hc] at hstep
    rcases hm : x.toCaller with _ | ⟨m', ms⟩
    · simp [hm] at hstep
    simp only [hm] at hstep
    obtain rfl := Option.some.inj hstep
    refine ⟨.inr ?_, ⟨hrest, hcallee⟩, hgot⟩
    rcases hahead with ⟨-, h2⟩ | ⟨h1, h2⟩
    · simp [hm] at h2
    · rw [hm, hc] at h1
      exact ⟨(List.cons.inj h1).2, h2⟩

theorem calleeStep (h : x.Matched script) (hloud : ∀ p ∈ script, silent p.2 = false)
    (hstep : x.calleeStep silent = some y) : y.Matched script := by
  obtain ⟨hahead, ⟨hcaller, hcallee⟩, hgot⟩ := h
  rcases hc : x.callee with _ | ⟨⟨dir, m⟩, rest⟩
  · simp [Dialogue.calleeStep, hc] at hstep
  have hrest : rest <:+ script := (List.suffix_cons _ _).trans (hc ▸ hcallee)
  cases dir with
  | false =>
    have hwire : wire silent m = [m] := by
      rw [wire, hloud (false, m) (hcallee.mem (by simp [hc]))]
      rfl
    simp only [Dialogue.calleeStep, hc, hwire] at hstep
    obtain rfl := Option.some.inj hstep
    rw [hc, fromCaller_false] at hgot
    refine ⟨.inr ?_, ⟨hcaller, hrest⟩, hgot⟩
    rcases hahead with ⟨h1, h2⟩ | ⟨h1, h2⟩
    · rcases hm : x.toCallee with _ | ⟨m', ms⟩
      · rw [hm, hc] at h1
        exact ⟨by simpa [h2] using h1.symm, rfl⟩
      · rw [hm, hc] at h1
        simp at h1
    · exact ⟨by simp [h1, hc], h2⟩
  | true =>
    simp only [Dialogue.calleeStep, hc] at hstep
    rcases hm : x.toCallee with _ | ⟨m', ms⟩
    · simp [hm] at hstep
    simp only [hm] at hstep
    obtain rfl := Option.some.inj hstep
    rcases hahead with ⟨h1, h2⟩ | ⟨-, h2⟩
    · rw [hm, hc] at h1
      obtain ⟨hhead, htail⟩ := List.cons.inj h1
      obtain rfl : m = m' := (Prod.mk.inj hhead).2
      rw [hc, fromCaller_true] at hgot
      refine ⟨.inl ⟨htail, h2⟩, ⟨hcaller, hrest⟩, ?_⟩
      rw [← hgot, List.append_assoc]
      rfl
    · simp [hm] at h2

/-- Once the callee is through, the caller only has to take what is on its way. -/
theorem callerStep_of_served (h : x.Matched script) (hcallee : x.callee = []) (hc : x.caller ≠ []) :
    x.callerStep silent ≠ none := by
  rcases h.ahead with ⟨h1, -⟩ | ⟨h1, -⟩
  · rw [hcallee] at h1
    exact absurd (List.append_eq_nil_iff.mp h1.symm).2 hc
  · rcases hm : x.toCaller with _ | ⟨m, ms⟩
    · rw [hm, hcallee] at h1
      exact absurd h1 hc
    · rw [hm, List.map_cons, List.cons_append] at h1
      simp [Dialogue.callerStep, h1, hm]

/-- Of two that talk one can go on. -/
theorem progress (h : x.Matched script) (hcallee : x.callee ≠ []) :
    x.calleeStep silent ≠ none ∨ x.caller ≠ [] ∧ x.callerStep silent ≠ none := by
  rcases hc : x.callee with _ | ⟨⟨dir, m⟩, rest⟩
  · exact absurd hc hcallee
  cases dir with
  | false => exact .inl (by simp [Dialogue.calleeStep, hc])
  | true =>
    rcases hm : x.toCallee with _ | ⟨m', ms⟩
    · right
      rcases h.ahead with ⟨h1, -⟩ | ⟨h1, -⟩
      · rw [hm, hc] at h1
        have h1 : x.caller = (true, m) :: rest := h1.symm
        simp [h1, Dialogue.callerStep]
      · rcases hu : x.toCaller with _ | ⟨u, us⟩
        · rw [hu, hc] at h1
          have h1 : x.caller = (true, m) :: rest := h1
          simp [h1, Dialogue.callerStep]
        · rw [hu, List.map_cons, List.cons_append] at h1
          simp [h1, Dialogue.callerStep, hu]
    · exact .inl (by simp [Dialogue.calleeStep, hc, hm])

/-- A script in which the turns alternate: at most one message is on its way. -/
theorem inFlight_le_one (h : x.Matched script) (hturns : script.IsChain fun p q => p.1 ≠ q.1) :
    x.toCallee.length + x.toCaller.length ≤ 1 := by
  have hshort : ∀ (b : Bool) (ms : List μ) (rest : List (Bool × μ)),
      (ms.map (b, ·) ++ rest) <:+ script → ms.length ≤ 1 := by
    intro b ms rest hs
    have hchain := (hturns.suffix hs).left_of_append
    rcases ms with _ | ⟨m, _ | ⟨m', ms⟩⟩
    · exact Nat.zero_le _
    · exact le_rfl
    · simp at hchain
  rcases h.ahead with ⟨h1, h2⟩ | ⟨h1, h2⟩
  · rw [h2]
    exact hshort true _ _ (h1 ▸ h.suffix.2)
  · rw [h2, List.length_nil, Nat.zero_add]
    exact hshort false _ _ (h1 ▸ h.suffix.1)

end Matched

end Dialogue

/-! ## The agents -/

structure State (ι κ μ : Type*) where
  /-- The calls an agent still has to make. -/
  todo : ι → List κ
  /-- The call an agent is in. -/
  cur : ι → Option κ
  /-- The calls that wait to be accepted. -/
  pend : ι → List κ
  conn : κ → Dialogue μ
  /-- The calls that were served, in that order. -/
  served : List κ

variable {ι κ μ : Type*}

def State.start (P : Protocol ι κ μ) (todo : ι → List κ) : State ι κ μ :=
  ⟨todo, fun _ => none, fun _ => [], fun k => .start (P.script k), []⟩

structure State.Idle (s : State ι κ μ) (a : ι) : Prop where
  todo : s.todo a = []
  cur : s.cur a = none
  pend : s.pend a = []

/-! ## What holds in every state -/

/-- Every call goes down in rank, the calls an agent makes once it served are its own, and
`below k` lists `k` with all that is called because of it. -/
structure Layered (P : Protocol ι κ μ) (rank : ι → ℕ) (below : κ → List κ) : Prop where
  rank_lt : ∀ k, rank (P.callee k) < rank (P.caller k)
  next_caller : ∀ k, ∀ k' ∈ P.next k, P.caller k' = P.callee k
  below_eq : ∀ k, below k = k :: (P.next k).flatMap below
  backlog_pos : 0 < P.backlog

/-- Every message is one on the wire. -/
def Loud (P : Protocol ι κ μ) : Prop := ∀ k, ∀ p ∈ P.script k, P.silent p.2 = false

/-- On every connection one side is ahead of the other. -/
def Talks (P : Protocol ι κ μ) (s : State ι κ μ) : Prop := ∀ k, (s.conn k).Matched (P.script k)

structure Consistent (P : Protocol ι κ μ) (s : State ι κ μ) : Prop where
  todo : ∀ a, ∀ k ∈ s.todo a, P.caller k = a
  pend : ∀ a, ∀ k ∈ s.pend a, P.callee k = a
  cur : ∀ a k, s.cur a = some k → a = P.caller k ∨ a = P.callee k
  /-- Nobody leaves a call that the other still waits for. -/
  caller : ∀ k, k ∈ s.pend (P.callee k) ∨ s.cur (P.callee k) = some k → (s.conn k).caller ≠ [] →
    s.cur (P.caller k) = some k
  callee : ∀ k, s.cur (P.caller k) = some k →
    k ∈ s.pend (P.callee k) ∨ s.cur (P.callee k) = some k ∨ (s.conn k).callee = []
  serving : ∀ k, s.cur (P.callee k) = some k → s.todo (P.callee k) = []
  served : ∀ k ∈ s.served, (s.conn k).callee = []

theorem Consistent.start {P : Protocol ι κ μ} {todo : ι → List κ}
    (htodo : ∀ a, ∀ k ∈ todo a, P.caller k = a) :
    Consistent P (State.start P todo) where
  todo := htodo
  pend := by simp [State.start]
  cur := by simp [State.start]
  caller := by simp [State.start]
  callee := by simp [State.start]
  serving := by simp [State.start]
  served := by simp [State.start]

/-! ## Steps -/

variable [DecidableEq ι]

namespace State

section

variable (P : Protocol ι κ μ) (s : State ι κ μ) (a : ι) (k : κ)

/-- The next call is made, if there is room for it to wait. -/
def dial (ks : List κ) : Option (State ι κ μ) :=
  if (s.pend (P.callee k)).length < P.backlog then
    some { s with
      todo := Function.update s.todo a ks
      cur := Function.update s.cur a (some k)
      pend := Function.update s.pend (P.callee k) (s.pend (P.callee k) ++ [k]) }
  else none

def accept (ks : List κ) : State ι κ μ :=
  { s with pend := Function.update s.pend a ks, cur := Function.update s.cur a (some k) }

end

variable [DecidableEq κ] (P : Protocol ι κ μ) (s : State ι κ μ) (a : ι) (k : κ)

/-- The caller goes on, or is through. -/
def call : Option (State ι κ μ) :=
  if (s.conn k).caller = [] then some { s with cur := Function.update s.cur a none }
  else ((s.conn k).callerStep P.silent).map fun x => { s with conn := Function.update s.conn k x }

/-- The callee goes on, or is through and has calls of its own to make. -/
def serve : Option (State ι κ μ) :=
  if (s.conn k).callee = [] then
    some { s with
      todo := Function.update s.todo a (P.next k)
      cur := Function.update s.cur a none
      served := s.served ++ [k] }
  else ((s.conn k).calleeStep P.silent).map fun x => { s with conn := Function.update s.conn k x }

/-- What agent `a` does next. It accepts calls only once it has none to make. -/
def step : Option (State ι κ μ) :=
  match s.cur a with
  | some k => if a = P.caller k then s.call P a k else s.serve P a k
  | none =>
    match s.todo a, s.pend a with
    | k :: ks, _ => s.dial P a k ks
    | [], k :: ks => some (s.accept a k ks)
    | [], [] => none

variable {P s a} in
theorem step_cases {t : State ι κ μ} (h : s.step P a = some t) :
    (∃ k ks, s.cur a = none ∧ s.todo a = k :: ks ∧ s.dial P a k ks = some t) ∨
    (∃ k ks, s.cur a = none ∧ s.todo a = [] ∧ s.pend a = k :: ks ∧ t = s.accept a k ks) ∨
    (∃ k, s.cur a = some k ∧ a = P.caller k ∧ s.call P a k = some t) ∨
    (∃ k, s.cur a = some k ∧ a ≠ P.caller k ∧ s.serve P a k = some t) := by
  rw [step] at h
  rcases hcur : s.cur a with _ | k
  · rw [hcur] at h
    rcases htodo : s.todo a with _ | ⟨k, ks⟩
    · rcases hpend : s.pend a with _ | ⟨k, ks⟩
      · simp [htodo, hpend] at h
      · simp only [htodo, hpend] at h
        exact .inr (.inl ⟨k, ks, rfl, rfl, rfl, (Option.some.inj h).symm⟩)
    · simp only [htodo] at h
      exact .inl ⟨k, ks, rfl, rfl, h⟩
  · rw [hcur] at h
    by_cases ha : a = P.caller k
    · exact .inr (.inr (.inl ⟨k, rfl, ha, by simpa [ha] using h⟩))
    · exact .inr (.inr (.inr ⟨k, rfl, ha, by simpa [ha] using h⟩))

end State

namespace Consistent

variable {P : Protocol ι κ μ} {rank : ι → ℕ} {below : κ → List κ} {s t : State ι κ μ} {a : ι} {k : κ}

theorem dial (h : Consistent P s) (hl : Layered P rank below) {ks : List κ} (hcur : s.cur a = none)
    (htodo : s.todo a = k :: ks) (hstep : s.dial P a k ks = some t) : Consistent P t := by
  have hk : P.caller k = a := h.todo a k (by simp [htodo])
  have hne : P.callee k ≠ a := fun heq => (hl.rank_lt k).ne (by rw [heq, hk])
  rw [State.dial] at hstep
  split_ifs at hstep
  obtain rfl := Option.some.inj hstep
  obtain ⟨htodo', hpend, hcur', hcaller, hcallee, hserving, hserved⟩ := h
  constructor <;> grind [Function.update_apply]

theorem accept (h : Consistent P s) (hl : Layered P rank below) {ks : List κ} (hcur : s.cur a = none)
    (htodo : s.todo a = []) (hpend : s.pend a = k :: ks) : Consistent P (s.accept a k ks) := by
  have hne := fun k => (hl.rank_lt k).ne
  obtain ⟨htodo', hpend', hcur', hcaller, hcallee, hserving, hserved⟩ := h
  rw [State.accept]
  constructor <;> grind [Function.update_apply]

variable [DecidableEq κ]

theorem call (h : Consistent P s) (hl : Layered P rank below) (hcur : s.cur a = some k)
    (ha : a = P.caller k) (hstep : s.call P a k = some t) : Consistent P t := by
  have hne := fun k => (hl.rank_lt k).ne
  rw [State.call] at hstep
  split_ifs at hstep with hdone
  · obtain rfl := Option.some.inj hstep
    obtain ⟨htodo', hpend', hcur', hcaller, hcallee, hserving, hserved⟩ := h
    constructor <;> grind [Function.update_apply]
  · obtain ⟨x, hx, rfl⟩ := Option.map_eq_some_iff.mp hstep
    have hsame := (Dialogue.callerStep_length hx).2
    obtain ⟨htodo', hpend', hcur', hcaller, hcallee, hserving, hserved⟩ := h
    constructor <;> grind [Function.update_apply]

theorem serve (h : Consistent P s) (hl : Layered P rank below) (hcur : s.cur a = some k)
    (ha : a ≠ P.caller k) (hstep : s.serve P a k = some t) : Consistent P t := by
  have hnext := hl.next_caller k
  rw [State.serve] at hstep
  split_ifs at hstep with hdone
  · obtain rfl := Option.some.inj hstep
    obtain ⟨htodo', hpend', hcur', hcaller, hcallee, hserving, hserved⟩ := h
    constructor <;> grind [Function.update_apply]
  · obtain ⟨x, hx, rfl⟩ := Option.map_eq_some_iff.mp hstep
    have hsame := (Dialogue.calleeStep_length hx).2
    obtain ⟨htodo', hpend', hcur', hcaller, hcallee, hserving, hserved⟩ := h
    constructor <;> grind [Function.update_apply]

theorem step (h : Consistent P s) (hl : Layered P rank below) (hstep : s.step P a = some t) :
    Consistent P t := by
  rcases State.step_cases hstep with ⟨k, ks, hcur, htodo, hstep⟩ | ⟨k, ks, hcur, htodo, hpend, rfl⟩ |
    ⟨k, hcur, ha, hstep⟩ | ⟨k, hcur, ha, hstep⟩
  · exact h.dial hl hcur htodo hstep
  · exact h.accept hl hcur htodo hpend
  · exact h.call hl hcur ha hstep
  · exact h.serve hl hcur ha hstep

/-- Nobody can move only if nobody has anything left to do: the agent of lowest rank that does could
always go on, or the one it talks to could. -/
theorem idle_of_stuck (h : Consistent P s) (hl : Layered P rank below) (htalks : Talks P s)
    (hstuck : ∀ a, s.step P a = none) (a : ι) : s.Idle a := by
  induction hr : rank a using Nat.strong_induction_on generalizing a with
  | _ r ih =>
  have hlower : ∀ b, rank b < rank a → s.Idle b := fun b hb => ih _ (hr ▸ hb) b rfl
  have ha := hstuck a
  rw [State.step] at ha
  rcases hcur : s.cur a with _ | k
  · rw [hcur] at ha
    rcases htodo : s.todo a with _ | ⟨k, ks⟩
    · rcases hpend : s.pend a with _ | ⟨k, ks⟩
      · exact ⟨htodo, hcur, hpend⟩
      · simp [htodo, hpend] at ha
    · -- there is room at the callee, which is idle
      have hk := h.todo a k (by simp [htodo])
      have hidle := hlower (P.callee k) (hk ▸ hl.rank_lt k)
      simp [htodo, State.dial, hidle.pend, hl.backlog_pos] at ha
  · rw [hcur] at ha
    exfalso
    by_cases hcaller : a = P.caller k
    · -- the callee is idle, so it is through with this call
      have hidle := hlower (P.callee k) (hcaller ▸ hl.rank_lt k)
      have hcallee : (s.conn k).callee = [] := by
        rcases h.callee k (hcaller ▸ hcur) with hk | hk | hk
        · simp [hidle.pend] at hk
        · simp [hidle.cur] at hk
        · exact hk
      simp only [if_pos hcaller, State.call] at ha
      split_ifs at ha with hdone
      exact (htalks k).callerStep_of_served hcallee hdone (Option.map_eq_none_iff.mp ha)
    · have hk := (h.cur a k hcur).resolve_left hcaller
      simp only [if_neg hcaller, State.serve] at ha
      split_ifs at ha with hdone
      rcases (htalks k).progress hdone with hmove | ⟨hopen, hmove⟩
      · exact hmove (Option.map_eq_none_iff.mp ha)
      · -- it waits for the caller, which is still there and can go on
        have hcur' := h.caller k (.inr (hk ▸ hcur)) hopen
        have hother := hstuck (P.caller k)
        simp only [State.step, hcur', if_true, State.call, if_neg hopen] at hother
        exact hmove (Option.map_eq_none_iff.mp hother)

theorem run {todo : ι → List κ} {as : List ι} (hl : Layered P rank below)
    (htodo : ∀ a, ∀ k ∈ todo a, P.caller k = a)
    (hrun : Transition.run (State.step P) (.start P todo) as = some s) : Consistent P s :=
  Transition.run_invariant (A := fun _ => True) (fun _ _ _ h _ hstep => h.step hl hstep)
    (.start htodo) (fun _ _ => trivial) hrun

end Consistent

/-! ## What is said -/

section talk

variable [DecidableEq κ] {P : Protocol ι κ μ} {s t : State ι κ μ} {a : ι}

/-- What every step of either side keeps of a connection, a step of the agents keeps of all. -/
theorem conn_step {Q : κ → Dialogue μ → Prop}
    (hcaller : ∀ k x y, Q k x → x.callerStep P.silent = some y → Q k y)
    (hcallee : ∀ k x y, Q k x → x.calleeStep P.silent = some y → Q k y)
    (h : ∀ k, Q k (s.conn k)) (hstep : s.step P a = some t) (j : κ) : Q j (t.conn j) := by
  rcases State.step_cases hstep with ⟨k, ks, hcur, htodo, hstep⟩ | ⟨k, ks, hcur, htodo, hpend, rfl⟩ |
    ⟨k, hcur, ha, hstep⟩ | ⟨k, hcur, ha, hstep⟩
  · rw [State.dial] at hstep
    split_ifs at hstep
    obtain rfl := Option.some.inj hstep
    exact h j
  · exact h j
  · rw [State.call] at hstep
    split_ifs at hstep
    · obtain rfl := Option.some.inj hstep
      exact h j
    · obtain ⟨x, hx, rfl⟩ := Option.map_eq_some_iff.mp hstep
      rcases eq_or_ne j k with rfl | hj
      · simpa using hcaller j _ x (h j) hx
      · simpa [Function.update_of_ne hj] using h j
  · rw [State.serve] at hstep
    split_ifs at hstep
    · obtain rfl := Option.some.inj hstep
      exact h j
    · obtain ⟨x, hx, rfl⟩ := Option.map_eq_some_iff.mp hstep
      rcases eq_or_ne j k with rfl | hj
      · simpa using hcallee j _ x (h j) hx
      · simpa [Function.update_of_ne hj] using h j

theorem conn_run {Q : κ → Dialogue μ → Prop}
    (hcaller : ∀ k x y, Q k x → x.callerStep P.silent = some y → Q k y)
    (hcallee : ∀ k x y, Q k x → x.calleeStep P.silent = some y → Q k y) {todo : ι → List κ}
    {as : List ι} (hstart : ∀ k, Q k (.start (P.script k)))
    (hrun : Transition.run (State.step P) (.start P todo) as = some s) (j : κ) : Q j (s.conn j) :=
  Transition.run_invariant (P := fun s => ∀ k, Q k (s.conn k)) (A := fun _ => True)
    (fun _ _ _ h _ hstep => conn_step hcaller hcallee h hstep) hstart (fun _ _ => trivial) hrun j

/-- A connection with nothing silent in its script, whatever the others are. -/
theorem matched_run {k : κ} (hloud : ∀ p ∈ P.script k, P.silent p.2 = false) {todo : ι → List κ}
    {as : List ι} (hrun : Transition.run (State.step P) (.start P todo) as = some s) :
    (s.conn k).Matched (P.script k) :=
  conn_run (Q := fun k x => (∀ p ∈ P.script k, P.silent p.2 = false) → x.Matched (P.script k))
    (fun _ _ _ h hstep hloud => (h hloud).callerStep hloud hstep)
    (fun _ _ _ h hstep hloud => (h hloud).calleeStep hloud hstep) (fun _ _ => .start _) hrun k hloud

theorem Talks.run (hloud : Loud P) {todo : ι → List κ} {as : List ι}
    (hrun : Transition.run (State.step P) (.start P todo) as = some s) : Talks P s :=
  fun k => matched_run (hloud k) hrun

/-- What the callee waits for: what is on its way, what the caller still sends, and what it never
could send. -/
def Owed (P : Protocol ι κ μ) (k : κ) (x : Dialogue μ) : Prop :=
  x.callee.countP (fun p => p.1) = x.toCallee.length +
    x.caller.countP (fun p => p.1 && !P.silent p.2) +
      (P.script k).countP (fun p => p.1 && P.silent p.2)

theorem owed_run {todo : ι → List κ} {as : List ι}
    (hrun : Transition.run (State.step P) (.start P todo) as = some s) (k : κ) :
    Owed P k (s.conn k) := by
  refine conn_run (fun k x y h hstep => ?_) (fun k x y h hstep => ?_) (fun k => ?_) hrun k
  · rcases hc : x.caller with _ | ⟨⟨dir, m⟩, rest⟩
    · simp [Dialogue.callerStep, hc] at hstep
    rw [Owed, hc, List.countP_cons] at h
    cases dir with
    | true =>
      simp only [Dialogue.callerStep, hc] at hstep
      obtain rfl := Option.some.inj hstep
      rw [Owed, List.length_append, Dialogue.wire, h]
      cases P.silent m with
      | true => simp
      | false =>
        simp
        omega
    | false =>
      rcases hm : x.toCaller with _ | ⟨m', ms⟩
      · simp [Dialogue.callerStep, hc, hm] at hstep
      · simp only [Dialogue.callerStep, hc, hm] at hstep
        obtain rfl := Option.some.inj hstep
        simpa [Owed] using h
  · rcases hc : x.callee with _ | ⟨⟨dir, m⟩, rest⟩
    · simp [Dialogue.calleeStep, hc] at hstep
    rw [Owed, hc, List.countP_cons] at h
    cases dir with
    | false =>
      simp only [Dialogue.calleeStep, hc] at hstep
      obtain rfl := Option.some.inj hstep
      simpa [Owed] using h
    | true =>
      rcases hm : x.toCallee with _ | ⟨m', ms⟩
      · simp [Dialogue.calleeStep, hc, hm] at hstep
      · simp only [Dialogue.calleeStep, hc, hm] at hstep
        obtain rfl := Option.some.inj hstep
        rw [hm, List.length_cons] at h
        rw [Owed]
        dsimp only
        simp only [if_true] at h
        omega
  · rw [Owed, Dialogue.start, List.length_nil, Nat.zero_add]
    induction P.script k with
    | nil => rfl
    | cons p script ih =>
      simp only [List.countP_cons, ih]
      cases p.1 <;> cases P.silent p.2 <;> simp <;> omega

/-- A message of the caller that is nothing on the wire keeps the callee waiting for ever. -/
theorem callee_ne_nil_of_silent {k : κ} {m : μ} (hm : (true, m) ∈ P.script k)
    (hsilent : P.silent m = true) {todo : ι → List κ} {as : List ι}
    (hrun : Transition.run (State.step P) (.start P todo) as = some s) :
    (s.conn k).callee ≠ [] := by
  intro hnil
  have howed := owed_run hrun k
  have hpos : 0 < (P.script k).countP (fun p => p.1 && P.silent p.2) :=
    List.countP_pos_iff.mpr ⟨(true, m), hm, by simpa using hsilent⟩
  rw [Owed, hnil, List.countP_nil] at howed
  omega

theorem got_of_served {rank : ι → ℕ} {below : κ → List κ} {k : κ} {todo : ι → List κ} {as : List ι}
    (hl : Layered P rank below) (htodo : ∀ a, ∀ k ∈ todo a, P.caller k = a)
    (hrun : Transition.run (State.step P) (.start P todo) as = some s) (hk : k ∈ s.served)
    (hcallee : ∀ m, (false, m) ∈ P.script k → P.silent m = false) :
    (s.conn k).got = Dialogue.fromCaller (P.script k) := by
  have hnil := (Consistent.run hl htodo hrun).served k hk
  have hloud : ∀ p ∈ P.script k, P.silent p.2 = false := by
    rintro ⟨_ | _, m⟩ hm
    · exact hcallee m hm
    · by_contra hsilent
      exact callee_ne_nil_of_silent hm (by simpa using hsilent) hrun hnil
  have hgot := (matched_run hloud hrun).got
  rwa [hnil, Dialogue.fromCaller, List.filterMap_nil, List.append_nil] at hgot

end talk

end Calls
