import Mathlib.Tactic
import Mathlib.Data.List.Basic

/-! Singly linked lists in memory, with a pointer to the last cell. A pointer is the number
of an allocation, or `none`. -/

structure Cell (α : Type*) where
  value : α
  next : Option ℕ
  deriving DecidableEq, Repr

/-- The cells that were allocated, and the pointers to the first and the last of the list. -/
structure Chain (α : Type*) where
  cells : List (Cell α)
  head : Option ℕ
  tail : Option ℕ
  deriving DecidableEq, Repr

namespace Chain

variable {α : Type*}

def empty : Chain α := ⟨[], none, none⟩

/-- A new cell at the end, and the pointer to it; `none` if the list has cells but no last one. -/
def append (ch : Chain α) (a : α) : Option (Chain α × ℕ) :=
  let new := ch.cells.length
  let cells := ch.cells ++ [⟨a, none⟩]
  match ch.head, ch.tail with
  | none, _ => some (⟨cells, some new, some new⟩, new)
  | some _, none => none
  | some h, some t =>
    some (⟨cells.modify t fun c => { c with next := some new }, some h, some new⟩, new)

def walk (ch : Chain α) : ℕ → Option ℕ → List ℕ
  | 0, _ | _, none => []
  | n + 1, some i => i :: walk ch n (ch.cells[i]?.bind Cell.next)

def ptrs (ch : Chain α) : List ℕ := ch.walk ch.cells.length ch.head

def get (ch : Chain α) (i : ℕ) : Option α := ch.cells[i]?.map Cell.value

def toList (ch : Chain α) : List α := ch.ptrs.filterMap ch.get

/-- `while (curr)`: the first cell from `ptr` on with `p`; the first argument bounds the rounds. -/
def findFrom (ch : Chain α) (p : α → Bool) : ℕ → Option ℕ → Option ℕ
  | 0, _ | _, none => none
  | n + 1, some i =>
    ch.cells[i]?.bind fun c => if p c.value then some i else findFrom ch p n c.next

def find (ch : Chain α) (p : α → Bool) : Option ℕ := ch.findFrom p ch.cells.length ch.head

def update (ch : Chain α) (i : ℕ) (f : α → α) : Chain α :=
  { ch with cells := ch.cells.modify i fun c => { c with value := f c.value } }

/-! ## What a chain holds -/

/-- The cells `xs`, pointers and values, follow one another from `ptr` to the end. -/
def Path (cells : List (Cell α)) : Option ℕ → List (ℕ × α) → Prop
  | ptr, [] => ptr = none
  | ptr, (i, a) :: xs =>
    ptr = some i ∧ ∃ next, cells[i]? = some ⟨a, next⟩ ∧ Path cells next xs

/-- The list is `xs`: no cell comes twice, and the last is where `tail` points. -/
structure Holds (ch : Chain α) (xs : List (ℕ × α)) : Prop where
  path : Path ch.cells ch.head xs
  nodup : (xs.map Prod.fst).Nodup
  tail : ch.tail = (xs.map Prod.fst).getLast?

variable {ch : Chain α} {cells cells' : List (Cell α)} {ptr : Option ℕ} {xs : List (ℕ × α)}

theorem Path.get (h : Path cells ptr xs) {i : ℕ} {a : α} (hi : (i, a) ∈ xs) :
    ∃ next, cells[i]? = some ⟨a, next⟩ := by
  induction xs generalizing ptr with
  | nil => cases hi
  | cons x xs ih =>
    obtain ⟨-, next, hx, hrest⟩ := h
    rcases List.mem_cons.mp hi with rfl | hi
    · exact ⟨next, hx⟩
    · exact ih hrest hi

theorem Path.lt (h : Path cells ptr xs) {i : ℕ} (hi : i ∈ xs.map Prod.fst) : i < cells.length := by
  obtain ⟨x, hx, rfl⟩ := List.mem_map.mp hi
  obtain ⟨next, hget⟩ := h.get hx
  exact (List.getElem?_eq_some_iff.mp hget).1

/-- Writes elsewhere leave a path alone. -/
theorem Path.frame (h : Path cells ptr xs)
    (heq : ∀ i ∈ xs.map Prod.fst, cells'[i]? = cells[i]?) : Path cells' ptr xs := by
  induction xs generalizing ptr with
  | nil => exact h
  | cons x xs ih =>
    obtain ⟨hptr, next, hx, hrest⟩ := h
    obtain ⟨hi, hxs⟩ := List.forall_mem_cons.mp heq
    exact ⟨hptr, next, hi.trans hx, ih hrest hxs⟩

/-- A cell linked behind the last one. -/
theorem Path.link {last : ℕ} {b a : α} {new : ℕ} (h : Path cells ptr (xs ++ [(last, b)]))
    (hold : ∀ i ∈ xs.map Prod.fst, cells'[i]? = cells[i]?)
    (hlast : cells'[last]? = some ⟨b, some new⟩) (hnew : cells'[new]? = some ⟨a, none⟩) :
    Path cells' ptr (xs ++ [(last, b), (new, a)]) := by
  induction xs generalizing ptr with
  | nil => exact ⟨h.1, some new, hlast, rfl, none, hnew, rfl⟩
  | cons x xs ih =>
    obtain ⟨hptr, next, hx, hrest⟩ := h
    obtain ⟨hi, hxs⟩ := List.forall_mem_cons.mp hold
    exact ⟨hptr, next, hi.trans hx, ih hrest hxs⟩

theorem Holds.length_le (h : Holds ch xs) : xs.length ≤ ch.cells.length := by
  rw [← List.length_map (f := Prod.fst)]
  have hsub : xs.map Prod.fst ⊆ List.range ch.cells.length := by
    intro i hi
    exact List.mem_range.mpr (h.path.lt hi)
  exact (h.nodup.subperm hsub).length_le.trans_eq List.length_range

theorem walk_eq {n : ℕ} (h : Path ch.cells ptr xs) (hn : xs.length ≤ n) :
    ch.walk n ptr = xs.map Prod.fst := by
  induction xs generalizing n ptr with
  | nil =>
    obtain rfl : ptr = none := h
    cases n <;> rfl
  | cons x xs ih =>
    obtain ⟨rfl, next, hx, hrest⟩ := h
    cases n with
    | zero => cases hn
    | succ n =>
      rw [walk, hx, Option.bind_some, ih hrest (Nat.le_of_succ_le_succ hn), List.map_cons]

theorem Holds.ptrs_eq (h : Holds ch xs) : ch.ptrs = xs.map Prod.fst := walk_eq h.path h.length_le

theorem Holds.get (h : Holds ch xs) {i : ℕ} {a : α} (hi : (i, a) ∈ xs) : ch.get i = some a := by
  obtain ⟨next, hget⟩ := h.path.get hi
  rw [Chain.get, hget]
  rfl

theorem Holds.toList_eq (h : Holds ch xs) : ch.toList = xs.map Prod.snd := by
  rw [toList, h.ptrs_eq, List.filterMap_map]
  have hget : ∀ x ∈ xs, (ch.get ∘ Prod.fst) x = (some ∘ Prod.snd) x := fun x hx => h.get hx
  rw [List.filterMap_congr hget, List.filterMap_eq_map]

theorem findFrom_eq {n : ℕ} (p : α → Bool) (h : Path ch.cells ptr xs) (hn : xs.length ≤ n) :
    ch.findFrom p n ptr = (xs.find? fun x => p x.2).map Prod.fst := by
  induction xs generalizing n ptr with
  | nil =>
    obtain rfl : ptr = none := h
    cases n <;> rfl
  | cons x xs ih =>
    obtain ⟨rfl, next, hx, hrest⟩ := h
    cases n with
    | zero => cases hn
    | succ n =>
      rw [findFrom, hx, Option.bind_some, List.find?_cons,
        ih hrest (Nat.le_of_succ_le_succ hn)]
      cases p x.2 <;> rfl

theorem Holds.find_eq (h : Holds ch xs) (p : α → Bool) :
    ch.find p = (xs.find? fun x => p x.2).map Prod.fst := findFrom_eq p h.path h.length_le

/-! ## Operations -/

theorem holds_empty : Holds (empty : Chain α) [] := ⟨rfl, List.nodup_nil, rfl⟩

theorem Holds.append (h : Holds ch xs) (a : α) :
    ∃ ch', ch.append a = some (ch', ch.cells.length) ∧ Holds ch' (xs ++ [(ch.cells.length, a)]) := by
  obtain ⟨cells, head, tail⟩ := ch
  have hnodup : ((xs ++ [(cells.length, a)]).map Prod.fst).Nodup := by
    rw [List.map_append, List.nodup_append]
    refine ⟨h.nodup, List.nodup_singleton _, ?_⟩
    intro i hi j hj
    rw [List.mem_singleton.mp hj]
    exact (h.path.lt hi).ne
  have htail : ((xs ++ [(cells.length, a)]).map Prod.fst).getLast? = some cells.length := by
    rw [List.map_append]
    exact List.getLast?_concat
  rcases List.eq_nil_or_concat' xs with rfl | ⟨ys, ⟨last, b⟩, rfl⟩
  · obtain rfl : head = none := h.path
    exact ⟨_, rfl, ⟨rfl, none, List.getElem?_concat_length, rfl⟩, hnodup, htail.symm⟩
  · have hlast : tail = some last := by
      refine h.tail.trans ?_
      rw [List.map_append]
      exact List.getLast?_concat
    obtain ⟨first, hfirst⟩ : ∃ first, head = some first := by
      cases ys with
      | nil => exact ⟨last, h.path.1⟩
      | cons y ys => exact ⟨y.1, h.path.1⟩
    subst hlast hfirst
    have hmem : ∀ i ∈ (ys ++ [(last, b)]).map Prod.fst, i < cells.length := fun i hi =>
      h.path.lt hi
    have hdistinct := h.nodup
    rw [List.map_append] at hmem hdistinct
    have hlt : last < cells.length := hmem last (List.mem_append_right _ (List.mem_singleton_self _))
    refine ⟨_, rfl, ?_, hnodup, htail.symm⟩
    rw [List.append_assoc]
    have hpath : Path cells (some first) (ys ++ [(last, b)]) := h.path
    show Path ((cells ++ [Cell.mk a none]).modify last fun c => { c with next := some cells.length })
      (some first) (ys ++ [(last, b), (cells.length, a)])
    refine hpath.link ?_ ?_ ?_
    · intro i hi
      have hne : last ≠ i := fun heq =>
        (List.nodup_append.mp hdistinct).2.2 i hi last (List.mem_singleton_self _) heq.symm
      rw [List.getElem?_modify_ne _ _ hne,
        List.getElem?_append_left (hmem i (List.mem_append_left _ hi))]
    · obtain ⟨next, hget⟩ := hpath.get (List.mem_append_right ys (List.mem_singleton_self (last, b)))
      rw [List.getElem?_modify_eq, List.getElem?_append_left hlt, hget]
      rfl
    · rw [List.getElem?_modify_ne _ _ hlt.ne, List.getElem?_concat_length]

theorem Path.update (h : Path cells ptr xs) (i : ℕ) (f : α → α) :
    Path (cells.modify i fun c => { c with value := f c.value }) ptr
      (xs.map fun x => if x.1 = i then (x.1, f x.2) else x) := by
  induction xs generalizing ptr with
  | nil => exact h
  | cons x xs ih =>
    obtain ⟨j, a⟩ := x
    obtain ⟨hptr, next, hx, hrest⟩ := h
    rw [List.map_cons]
    by_cases hij : j = i
    · rw [if_pos hij]
      refine ⟨hptr, next, ?_, ih hrest⟩
      rw [← hij, List.getElem?_modify_eq, hx]
      rfl
    · rw [if_neg hij]
      refine ⟨hptr, next, ?_, ih hrest⟩
      rw [List.getElem?_modify_ne _ _ (Ne.symm hij), hx]

theorem Holds.update (h : Holds ch xs) (i : ℕ) (f : α → α) :
    Holds (ch.update i f) (xs.map fun x => if x.1 = i then (x.1, f x.2) else x) := by
  have hfst : (xs.map fun x => if x.1 = i then (x.1, f x.2) else x).map Prod.fst =
      xs.map Prod.fst := by
    rw [List.map_map]
    refine List.map_congr_left fun x _ => ?_
    rw [Function.comp_apply]
    split_ifs <;> rfl
  refine ⟨h.path.update i f, ?_, ?_⟩
  · rw [hfst]
    exact h.nodup
  · rw [hfst]
    exact h.tail

/-! ## Pointers and positions -/

/-- A search in memory finds the cell at the position the search in the list finds. -/
theorem Holds.find_findIdx? (h : Holds ch xs) (p : α → Bool) :
    Option.Rel (fun i slot => xs[slot]?.map Prod.fst = some i) (ch.find p)
      ((xs.map Prod.snd).findIdx? p) := by
  rw [h.find_eq, List.findIdx?_map]
  clear h
  induction xs with
  | nil => exact .none
  | cons x xs ih =>
    rw [List.find?_cons, List.findIdx?_cons, Function.comp_apply]
    cases p x.2 with
    | true => exact .some rfl
    | false =>
      show Option.Rel _ ((xs.find? fun x => p x.2).map Prod.fst)
        ((xs.findIdx? (p ∘ Prod.snd)).map (· + 1))
      revert ih
      cases (xs.find? fun x => p x.2).map Prod.fst <;> cases xs.findIdx? (p ∘ Prod.snd) <;>
        intro ih <;> cases ih
      · exact .none
      · exact .some ‹_›

/-- A write through a pointer is one at its position. -/
theorem map_snd_update (hnd : (xs.map Prod.fst).Nodup) {slot i : ℕ}
    (hslot : xs[slot]?.map Prod.fst = some i) (f : α → α) :
    (xs.map fun x => if x.1 = i then (x.1, f x.2) else x).map Prod.snd =
      (xs.map Prod.snd).modify slot f := by
  refine List.ext_getElem? fun j => ?_
  rw [List.getElem?_map, List.getElem?_map, List.getElem?_modify, List.getElem?_map]
  cases hj : xs[j]? with
  | none => rfl
  | some x =>
    have hiff : x.1 = i ↔ slot = j := by
      have hjx : (xs.map Prod.fst)[j]? = some x.1 := by rw [List.getElem?_map, hj]; rfl
      have hslot' : (xs.map Prod.fst)[slot]? = some i := by rw [List.getElem?_map, hslot]
      constructor
      · intro heq
        have hlt := (List.getElem?_eq_some_iff.mp hslot').1
        exact (List.getElem?_inj hlt hnd).mp (by rw [hslot', hjx, heq])
      · rintro rfl
        rw [hj] at hslot
        exact Option.some.inj hslot
    show some (if x.1 = i then (x.1, f x.2) else x).2 = some (if slot = j then f x.2 else x.2)
    simp only [hiff]
    split_ifs <;> rfl

end Chain
