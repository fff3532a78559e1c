import Sceptre.Foundation.Transitions
import Mathlib.Tactic.Common

namespace Foundation

variable {State Label : Type} {step : State → Label → Option State} {Holds : State → Prop} {priced : Label → Bool}
  {budget : State → Nat} {s t : State} {labels : List Label}

/-- While `Holds`, no step raises the budget, and the priced labels are paid for from it. -/
structure Pays (step : State → Label → Option State) (Holds : State → Prop) (priced : Label → Bool)
    (budget : State → Nat) : Prop where
  kept : ∀ s label t, Holds s → step s label = some t → Holds t
  paid : ∀ s label t, Holds s → step s label = some t → budget t + (if priced label then 1 else 0) ≤ budget s

theorem Pays.runs (pays : Pays step Holds priced budget) (holds : Holds s) (ran : runs step s labels = some t) :
    Holds t ∧ budget t + labels.countP priced ≤ budget s := by
  refine runs_invariant (fun labels t => Holds t ∧ budget t + labels.countP priced ≤ budget s) ⟨holds, by simp⟩ ?_ ran
  intro labels before label after _ earlier stepped
  obtain ⟨holds, spent⟩ := earlier
  have paid := pays.paid before label after holds stepped
  refine ⟨pays.kept before label after holds stepped, ?_⟩
  rw [List.countP_append, List.countP_singleton]
  omega

theorem Pays.countP_le (pays : Pays step Holds priced budget) (holds : Holds s)
    (ran : Foundation.runs step s labels = some t) :
    labels.countP priced ≤ budget s := by
  have spent := (pays.runs holds ran).2
  omega

/-- Where every label is priced, the budget bounds the length of a run. -/
theorem Pays.length_le (pays : Pays step Holds (fun _ => true) budget) (holds : Holds s)
    (ran : Foundation.runs step s labels = some t) : labels.length ≤ budget s := by
  have spent := pays.countP_le holds ran
  rwa [List.countP_true] at spent

theorem Pays.settles (pays : Pays step Holds (fun _ => true) budget) (holds : Holds s) :
    ∃ labels t, Foundation.runs step s labels = some t ∧ Holds t ∧ ∀ label, step t label = none := by
  induction left : budget s using Nat.strongRecOn generalizing s with
  | _ n ih =>
    by_cases quiet : ∀ label, step s label = none
    · exact ⟨[], s, rfl, holds, quiet⟩
    · obtain ⟨label, enabled⟩ := not_forall.mp quiet
      obtain ⟨s', stepped⟩ := Option.ne_none_iff_exists'.mp enabled
      have paid := pays.paid s label s' holds stepped
      rw [if_pos rfl] at paid
      obtain ⟨labels, t, ran, final⟩ := ih (budget s') (by omega) (pays.kept s label s' holds stepped) rfl
      refine ⟨label :: labels, t, ?_, final⟩
      rw [Foundation.runs, stepped]
      exact ran

end Foundation
