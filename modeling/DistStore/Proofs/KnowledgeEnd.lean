import Mathlib.Data.List.GetD
import DistStore.Model.MainLoop
import DistStore.Proofs.RawTransfer

/-! When the index is done with a reporter. It leaves the loop at an error or a `TYPE_OK`; a
closed connection is neither. -/

namespace DSS

variable {nd : Node}

/-- The loop is left on this result. -/
def EndsReport (r : Recv) : Prop := ∀ p, r = some p → commType p = TYPE_OK

theorem endsReport_some {p : XPacket} : EndsReport (some p) ↔ commType p = TYPE_OK :=
  ⟨fun h => h p rfl, fun h _ hq => Option.some.inj hq ▸ h⟩

theorem endsReport_none : EndsReport none := nofun

theorem not_endsReport_empty : ¬ EndsReport (some []) := by
  rw [endsReport_some]
  decide

theorem knowledgeRound_closed_iff (st : KnowledgeLoop) (r : Recv) :
    (knowledgeRound st r).closed = true ↔ st.closed = true ∨ EndsReport r := by
  obtain ⟨node, closed⟩ := st
  cases closed with
  | true => exact iff_of_true rfl (.inl rfl)
  | false =>
    cases r with
    | none => exact iff_of_true rfl (.inr endsReport_none)
    | some p =>
      by_cases hok : commType p = TYPE_OK
      · rw [knowledgeRound, if_neg Bool.false_ne_true]
        dsimp only
        rw [if_pos hok]
        exact iff_of_true rfl (.inr (endsReport_some.mpr hok))
      · rw [knowledgeRound, if_neg Bool.false_ne_true]
        dsimp only
        rw [if_neg hok]
        exact ⟨.inl, fun h => h.resolve_right (mt endsReport_some.mp hok)⟩

theorem knowledgeRounds_closed_iff (recv : ℕ → Recv) (n : ℕ) :
    (knowledgeRounds nd recv n).closed = true ↔ ∃ i < n, EndsReport (recv i) := by
  induction n with
  | zero => exact iff_of_false Bool.false_ne_true (fun ⟨i, hi, _⟩ => absurd hi (Nat.not_lt_zero i))
  | succ n ih =>
    rw [knowledgeRounds, knowledgeRound_closed_iff, ih]
    constructor
    · rintro (⟨i, hi, hends⟩ | hends)
      · exact ⟨i, by omega, hends⟩
      · exact ⟨n, n.lt_succ_self, hends⟩
    · rintro ⟨i, hi, hends⟩
      rcases Nat.lt_succ_iff_lt_or_eq.mp hi with hlt | rfl
      · exact .inl ⟨i, hlt, hends⟩
      · exact .inr hends

end DSS
