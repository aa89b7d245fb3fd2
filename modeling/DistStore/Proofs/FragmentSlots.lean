import DistStore.Lib.Transition
import DistStore.Model.Gateway

/-! A container over a history of `xfileserver_add_fragment`. It has two slots, and every call
after the first writes the second one. -/

namespace DSS

open Transition

def FragmentCall.stored (call : FragmentCall) : XFileFragment :=
  ⟨call.fragmentId, call.data, call.data.length⟩

/-- The container, and what the calls that returned `FRAG_OK` gave it under each id. -/
structure FragmentHistory where
  memory : ContainerMemory
  given : List XFileFragment

/-- What must be there after a call that returns `FRAG_OK`. -/
def remember (given : List XFileFragment) (call : FragmentCall) : List XFileFragment :=
  call.stored :: given.filter fun fr => fr.fragmentId ≠ call.fragmentId

def addStep (h : FragmentHistory) (call : FragmentCall) : Option FragmentHistory :=
  some ⟨(h.memory.addFragment call).2,
    if (h.memory.addFragment call).1 = .ok then remember h.given call else h.given⟩

/-- A call that returns `FRAG_OK` leaves the fragments under the other ids where they are found,
and its own; any other leaves the container as it was. -/
def LosesNothing (call : FragmentCall) (h : FragmentHistory) : Prop :=
  if (h.memory.addFragment call).1 = .ok then
    ∀ fr ∈ remember h.given call,
      (h.memory.addFragment call).2.file.fragment fr.fragmentId = some fr
  else (h.memory.addFragment call).2 = h.memory

instance (call : FragmentCall) (h : FragmentHistory) : Decidable (LosesNothing call h) :=
  inferInstanceAs (Decidable (if (h.memory.addFragment call).1 = .ok then
    ∀ fr ∈ remember h.given call,
      (h.memory.addFragment call).2.file.fragment fr.fragmentId = some fr
  else (h.memory.addFragment call).2 = h.memory))

def SameFragment (a b : FragmentCall) : Prop := b.fragmentId = a.fragmentId ∧ b.data = a.data

instance (a b : FragmentCall) : Decidable (SameFragment a b) := inferInstanceAs (Decidable (_ ∧ _))

/-- The calls that bring a second fragment: all under one id, which is not the first one's. -/
def OneOther (a : FragmentCall) : List FragmentCall → Prop
  | [] => True
  | b :: bs => b.fragmentId ≠ a.fragmentId ∧ ∀ b' ∈ bs, b'.fragmentId = b.fragmentId

instance (a : FragmentCall) : (bs : List FragmentCall) → Decidable (OneOther a bs)
  | [] => isTrue trivial
  | _ :: _ => inferInstanceAs (Decidable (_ ∧ _))

def FitsSlots : List FragmentCall → Prop
  | [] => True
  | a :: as => OneOther a (as.dropWhile fun b => SameFragment a b)

instance : (calls : List FragmentCall) → Decidable (FitsSlots calls)
  | [] => isTrue trivial
  | a :: _ => inferInstanceAs (Decidable (OneOther a _))

/-! ## One call -/

section call

variable {m : ContainerMemory} {call : FragmentCall} {given : List XFileFragment}

theorem addFragment_first (h : m.file.fragments0.fragmentId = 0) (hok : call.malloc = true) :
    m.addFragment call = (.ok, ⟨{ m.file with fragments0 := call.stored }, true, m.held1⟩) := by
  have hid : u8 call.fragmentId = call.fragmentId := u8_of_lt call.fragmentId_lt
  have hsize : u64 call.data.length = call.data.length := u64_of_lt call.size_lt
  simp only [ContainerMemory.addFragment, xfileserverAddFragment, hok, h, if_true, hid, hsize,
    List.take_length]
  rfl

theorem addFragment_second (h : m.file.fragments0.fragmentId ≠ 0) (hok : call.malloc = true) :
    m.addFragment call = (.ok, ⟨{ m.file with fragments1 := call.stored }, m.held0, true⟩) := by
  have hid : u8 call.fragmentId = call.fragmentId := u8_of_lt call.fragmentId_lt
  have hsize : u64 call.data.length = call.data.length := u64_of_lt call.size_lt
  simp only [ContainerMemory.addFragment, xfileserverAddFragment, hok, h, if_true, if_false, hid,
    hsize, List.take_length]
  rfl

/-- A failed call has put its id into the slot, and `NULL` with it. -/
theorem addFragment_failed (hfail : call.malloc = false) :
    (m.addFragment call).1 = .errInvalidBytes ∧
      (m.file.fragments0.fragmentId = 0 →
        (m.addFragment call).2.file.fragments0.fragmentId = call.fragmentId) ∧
      (m.file.fragments0.fragmentId ≠ 0 → (m.addFragment call).2.held1 = false ∧
        (m.addFragment call).2.file.fragments1.fragmentId = call.fragmentId) := by
  have hid : u8 call.fragmentId = call.fragmentId := u8_of_lt call.fragmentId_lt
  refine ⟨?_, fun h => ?_, fun h => ⟨?_, ?_⟩⟩
  · simp [ContainerMemory.addFragment, xfileserverAddFragment, hfail]
  · simp [ContainerMemory.addFragment, xfileserverAddFragment, hfail, h, hid]
  · simp [ContainerMemory.addFragment, hfail, h]
  · simp [ContainerMemory.addFragment, xfileserverAddFragment, hfail, h, hid]

/-- A failed call that finds its slot empty, or with a fragment, changes it. -/
theorem not_losesNothing_failed {h : FragmentHistory} (hfail : call.malloc = false)
    (hslot : h.memory.file.fragments0.fragmentId ≠ 0 →
      h.memory.file.fragments1.fragmentId = 0 ∨ h.memory.held1 = true) :
    ¬ LosesNothing call h := by
  obtain ⟨hstatus, hfirst, hsecond⟩ := addFragment_failed (m := h.memory) hfail
  intro hloses
  rw [LosesNothing] at hloses
  rw [hstatus, if_neg (by decide)] at hloses
  rw [hloses] at hfirst hsecond
  have hpos := call.fragmentId_pos
  by_cases h0 : h.memory.file.fragments0.fragmentId = 0
  · have := hfirst h0
    omega
  · obtain ⟨hheld, hid⟩ := hsecond h0
    rcases hslot h0 with hempty | hfull
    · omega
    · rw [hheld] at hfull
      cases hfull

end call

/-! ## Histories -/

structure HasFirst (a : FragmentCall) (h : FragmentHistory) : Prop where
  fragments0 : h.memory.file.fragments0 = a.stored
  fragments1 : h.memory.file.fragments1 = .zero ∨
    h.memory.file.fragments1 = a.stored ∧ h.memory.held1 = true
  given : h.given = [a.stored]

structure HasTwo (a b : FragmentCall) (h : FragmentHistory) : Prop where
  other : b.fragmentId ≠ a.fragmentId
  fragments0 : h.memory.file.fragments0 = a.stored
  fragments1 : h.memory.file.fragments1 = b.stored
  held1 : h.memory.held1 = true
  given : h.given = [b.stored, a.stored]

section histories

variable {a b call : FragmentCall} {h : FragmentHistory}

@[simp] theorem FragmentCall.stored_fragmentId (a : FragmentCall) :
    a.stored.fragmentId = a.fragmentId := rfl

theorem stored_id_ne_zero (a : FragmentCall) : a.stored.fragmentId ≠ 0 := a.fragmentId_pos.ne'

theorem losesNothing_second (h0 : h.memory.file.fragments0.fragmentId ≠ 0)
    (hok : call.malloc = true) :
    (LosesNothing call h ↔ ∀ fr ∈ remember h.given call,
      ({ h.memory.file with fragments1 := call.stored } : XFileContainer).fragment fr.fragmentId =
        some fr) ∧
      addStep h call = some ⟨⟨{ h.memory.file with fragments1 := call.stored }, h.memory.held0, true⟩,
        remember h.given call⟩ := by
  rw [LosesNothing, addStep, addFragment_second h0 hok]
  exact ⟨Iff.rfl, rfl⟩

theorem fragment_update (fc : XFileContainer) (fr : XFileFragment) (id : ℕ) :
    ({ fc with fragments1 := fr } : XFileContainer).fragment id =
      if fc.fragments0.fragmentId = id then some fc.fragments0
      else if fr.fragmentId = id then some fr else none := by
  rw [XFileContainer.fragment]
  split_ifs with h0 h1 <;> simp [*]

theorem remember_same {fr : XFileFragment} (hid : fr.fragmentId = call.fragmentId)
    (given : List XFileFragment) : remember (fr :: given) call = remember given call := by
  simp [remember, hid]

theorem remember_other {fr : XFileFragment} (hid : fr.fragmentId ≠ call.fragmentId) :
    remember [fr] call = [call.stored, fr] := by
  simp [remember, hid]

theorem SameFragment.stored (h : SameFragment a b) : b.stored = a.stored := by
  rw [FragmentCall.stored, FragmentCall.stored, h.1, h.2]

theorem malloc_of_losesNothing
    (hslot : h.memory.file.fragments0.fragmentId ≠ 0 →
      h.memory.file.fragments1.fragmentId = 0 ∨ h.memory.held1 = true)
    (hloses : LosesNothing call h) : call.malloc = true := by
  by_contra hfail
  exact not_losesNothing_failed (Bool.not_eq_true _ ▸ hfail) hslot hloses

theorem HasTwo.given_eq (hh : HasTwo a b h) (hid : call.fragmentId = b.fragmentId) :
    remember h.given call = [call.stored, a.stored] := by
  rw [hh.given, remember_same hid.symm, remember_other (hid ▸ hh.other.symm)]

/-- Once both slots are full, only the second fragment can be given again. -/
theorem HasTwo.losesNothing_iff (hh : HasTwo a b h) :
    LosesNothing call h ↔ call.malloc = true ∧ call.fragmentId = b.fragmentId := by
  have h0 : h.memory.file.fragments0.fragmentId ≠ 0 := hh.fragments0 ▸ stored_id_ne_zero a
  constructor
  · intro hloses
    have hok := malloc_of_losesNothing (fun _ => .inr hh.held1) hloses
    refine ⟨hok, ?_⟩
    by_contra hid
    have hmem : b.stored ∈ remember h.given call := by
      rw [remember, hh.given]
      exact List.mem_cons_of_mem _ (List.mem_filter.mpr
        ⟨List.mem_cons_self .., decide_eq_true (Ne.symm hid)⟩)
    have hfound := (losesNothing_second h0 hok).1.mp hloses b.stored hmem
    rw [fragment_update, hh.fragments0, FragmentCall.stored_fragmentId,
      FragmentCall.stored_fragmentId, FragmentCall.stored_fragmentId, if_neg hh.other.symm,
      if_neg hid] at hfound
    cases hfound
  · rintro ⟨hok, hid⟩
    have hfirst : a.stored.fragmentId ≠ call.stored.fragmentId := fun heq =>
      hh.other (hid.symm.trans heq.symm)
    rw [(losesNothing_second h0 hok).1, hh.given_eq hid, List.forall_mem_cons,
      List.forall_mem_singleton, fragment_update, fragment_update, hh.fragments0, if_neg hfirst,
      if_pos rfl, if_pos rfl]
    exact ⟨rfl, rfl⟩

theorem HasTwo.step (hh : HasTwo a b h) (hok : call.malloc = true)
    (hid : call.fragmentId = b.fragmentId) : ∃ h', addStep h call = some h' ∧ HasTwo a call h' := by
  have h0 : h.memory.file.fragments0.fragmentId ≠ 0 := hh.fragments0 ▸ stored_id_ne_zero a
  exact ⟨_, (losesNothing_second h0 hok).2, hid ▸ hh.other, hh.fragments0, rfl, rfl, hh.given_eq hid⟩

/-- After the first fragment, it may come again as it was, or another. -/
theorem HasFirst.losesNothing_iff (hh : HasFirst a h) :
    LosesNothing call h ↔ call.malloc = true ∧
      (call.fragmentId = a.fragmentId → call.data = a.data) := by
  have h0 : h.memory.file.fragments0.fragmentId ≠ 0 := hh.fragments0 ▸ stored_id_ne_zero a
  constructor
  · intro hloses
    have hok := malloc_of_losesNothing
      (fun _ => hh.fragments1.imp (fun h1 => by rw [h1]; rfl) And.right) hloses
    refine ⟨hok, fun hid => ?_⟩
    have hfound := (losesNothing_second h0 hok).1.mp hloses call.stored (List.mem_cons_self ..)
    rw [fragment_update, hh.fragments0, FragmentCall.stored_fragmentId,
      FragmentCall.stored_fragmentId, if_pos hid.symm] at hfound
    exact (congrArg XFileFragment.fragmentBytes (Option.some.inj hfound)).symm
  · rintro ⟨hok, hdata⟩
    rw [(losesNothing_second h0 hok).1, remember, List.forall_mem_cons, hh.given]
    constructor
    · rw [fragment_update, hh.fragments0, if_pos rfl]
      split_ifs with hid
      · rw [SameFragment.stored ⟨hid.symm, hdata hid.symm⟩]
      · rfl
    · intro fr hfr
      obtain rfl := List.mem_singleton.mp (List.mem_of_mem_filter hfr)
      rw [fragment_update, hh.fragments0, if_pos rfl]

theorem HasFirst.step_same (hh : HasFirst a h) (hok : call.malloc = true)
    (hsame : SameFragment a call) : ∃ h', addStep h call = some h' ∧ HasFirst a h' := by
  have h0 : h.memory.file.fragments0.fragmentId ≠ 0 := hh.fragments0 ▸ stored_id_ne_zero a
  refine ⟨_, (losesNothing_second h0 hok).2, hh.fragments0, .inr ⟨hsame.stored, rfl⟩, ?_⟩
  show remember h.given call = _
  rw [hh.given, remember_same hsame.1.symm, remember, List.filter_nil, hsame.stored]

theorem HasFirst.step_other (hh : HasFirst a h) (hok : call.malloc = true)
    (hid : call.fragmentId ≠ a.fragmentId) : ∃ h', addStep h call = some h' ∧ HasTwo a call h' := by
  have h0 : h.memory.file.fragments0.fragmentId ≠ 0 := hh.fragments0 ▸ stored_id_ne_zero a
  refine ⟨_, (losesNothing_second h0 hok).2, hid, hh.fragments0, rfl, rfl, ?_⟩
  show remember h.given call = _
  rw [hh.given, remember_other hid.symm]

/-! ## A run -/

theorem HasTwo.along_iff (hh : HasTwo a b h) (calls : List FragmentCall) :
    Along addStep LosesNothing h calls ↔
      ∀ call ∈ calls, call.malloc = true ∧ call.fragmentId = b.fragmentId := by
  induction calls generalizing b h with
  | nil => exact iff_of_true trivial (List.forall_mem_nil _)
  | cons call calls ih =>
    rw [Along, hh.losesNothing_iff, List.forall_mem_cons]
    refine and_congr_right fun ⟨hok, hid⟩ => ?_
    obtain ⟨h', hstep, hh'⟩ := hh.step hok hid
    rw [hstep, ← hid]
    simp only [Option.mem_some_iff, forall_eq']
    exact ih hh'

theorem HasFirst.along_iff (hh : HasFirst a h) (calls : List FragmentCall) :
    Along addStep LosesNothing h calls ↔ (∀ call ∈ calls, call.malloc = true) ∧
      OneOther a (calls.dropWhile fun b => SameFragment a b) := by
  induction calls generalizing h with
  | nil => exact iff_of_true trivial ⟨List.forall_mem_nil _, trivial⟩
  | cons call calls ih =>
    rw [Along, hh.losesNothing_iff, List.forall_mem_cons, and_assoc, and_assoc]
    refine and_congr_right fun hok => ?_
    by_cases hsame : SameFragment a call
    · obtain ⟨h', hstep, hh'⟩ := hh.step_same hok hsame
      rw [hstep, List.dropWhile_cons, if_pos (decide_eq_true hsame)]
      simp only [Option.mem_some_iff, forall_eq', hsame.2, implies_true, true_and]
      exact ih hh'
    · rw [List.dropWhile_cons, if_neg (by rwa [decide_eq_true_eq]), OneOther]
      by_cases hid : call.fragmentId = a.fragmentId
      · exact iff_of_false (fun hloses => hsame ⟨hid, hloses.1 hid⟩) fun hfits => hfits.2.1 hid
      · obtain ⟨h', hstep, hh'⟩ := hh.step_other hok hid
        rw [hstep]
        simp only [Option.mem_some_iff, forall_eq', hid, false_implies, true_and, ne_eq,
          not_false_eq_true, hh'.along_iff]
        exact forall₂_and

/-- A container keeps what it is given exactly if no allocation fails and there are at most two
fragments: the first, any number of times with the same bytes, and after it one other. -/
theorem fragments_kept_iff (fileName : List UInt8) (fileId totalSize fragmentCountTotal : ℕ)
    (calls : List FragmentCall) :
    Along addStep LosesNothing
        ⟨ContainerMemory.fresh fileName fileId totalSize fragmentCountTotal, []⟩ calls ↔
      (∀ call ∈ calls, call.malloc = true) ∧ FitsSlots calls := by
  cases calls with
  | nil => exact iff_of_true trivial ⟨List.forall_mem_nil _, trivial⟩
  | cons a calls =>
    set h : FragmentHistory :=
      ⟨ContainerMemory.fresh fileName fileId totalSize fragmentCountTotal, []⟩
    have h0 : h.memory.file.fragments0.fragmentId = 0 := rfl
    have hloses : LosesNothing a h ↔ a.malloc = true := by
      refine ⟨malloc_of_losesNothing fun hne => absurd h0 hne, fun hok => ?_⟩
      rw [LosesNothing, addFragment_first h0 hok]
      dsimp only
      rw [if_pos rfl, remember, List.filter_nil, List.forall_mem_singleton, XFileContainer.fragment]
      simp
    rw [Along, hloses, List.forall_mem_cons, and_assoc]
    refine and_congr_right fun hok => ?_
    have hstep : addStep h a = some ⟨⟨{ h.memory.file with fragments0 := a.stored }, true, false⟩,
        [a.stored]⟩ := by
      rw [addStep, addFragment_first h0 hok]
      rfl
    rw [hstep]
    simp only [Option.mem_some_iff, forall_eq']
    exact HasFirst.along_iff ⟨rfl, .inl rfl, rfl⟩ calls

end histories

def byteCall (fragmentId : ℕ) (malloc : Bool) (h0 : 0 < fragmentId) (h : fragmentId < 2 ^ 8) :
    FragmentCall := ⟨fragmentId, [7], malloc, h0, h, by simp⟩

/-- A third fragment takes the place of the second; a failed allocation leaves its id behind. -/
theorem not_fragments_kept :
    ¬ Along addStep LosesNothing ⟨ContainerMemory.fresh [97] 1 3 3, []⟩
        [byteCall 1 true (by decide) (by decide), byteCall 2 true (by decide) (by decide),
          byteCall 3 true (by decide) (by decide)] ∧
      ¬ Along addStep LosesNothing ⟨ContainerMemory.fresh [97] 1 3 3, []⟩
        [byteCall 1 false (by decide) (by decide)] := by
  decide +kernel

end DSS
