import Mathlib.Data.List.Induction
import Mathlib.Tactic.Common

namespace Foundation

variable {State Label : Type} {step : State → Label → Option State}

def runs (step : State → Label → Option State) : State → List Label → Option State
  | s, [] => some s
  | s, label :: rest => (step s label).bind fun s' => runs step s' rest

theorem runs_append (s : State) (first second : List Label) :
    runs step s (first ++ second) = (runs step s first).bind fun t => runs step t second := by
  induction first generalizing s with
  | nil => rfl
  | cons label rest ih =>
    rw [List.cons_append, runs, runs, Option.bind_assoc]
    apply congrArg
    funext t
    exact ih t

theorem runs_concat {s t : State} {labels : List Label} {label : Label}
    (ran : runs step s (labels ++ [label]) = some t) :
    ∃ before, runs step s labels = some before ∧ step before label = some t := by
  rw [runs_append] at ran
  obtain ⟨before, ran', stepped⟩ := Option.bind_eq_some_iff.mp ran
  rw [runs] at stepped
  obtain ⟨after, stepped', same⟩ := Option.bind_eq_some_iff.mp stepped
  cases same
  exact ⟨before, ran', stepped'⟩

theorem runs_snoc {s t t' : State} {labels : List Label} {label : Label} (ran : runs step s labels = some t)
    (stepped : step t label = some t') : runs step s (labels ++ [label]) = some t' := by
  rw [runs_append, ran, Option.bind_some, runs, stepped]
  rfl

/-- What holds at the start and is kept by every step of a run holds at its end. -/
theorem runs_invariant {s : State} (Inv : List Label → State → Prop) (initial : Inv [] s)
    (kept : ∀ labels t label t', runs step s labels = some t → Inv labels t → step t label = some t' →
      Inv (labels ++ [label]) t')
    {labels : List Label} {t : State} (ran : runs step s labels = some t) : Inv labels t := by
  induction labels using List.reverseRecOn generalizing t with
  | nil =>
    cases ran
    exact initial
  | append_singleton earlier label ih =>
    obtain ⟨before, ran', stepped⟩ := runs_concat ran
    exact kept earlier before label t ran' (ih ran') stepped

/-- What a run puts out, where `output` says what a label does in a state. -/
def outputsAlong {α : Type} (step : State → Label → Option State) (output : State → Label → List α) :
    State → List Label → List α
  | _, [] => []
  | s, label :: rest => output s label ++ (step s label).elim [] fun t => outputsAlong step output t rest

theorem outputsAlong_concat {α : Type} (output : State → Label → List α) {s t : State} {labels : List Label}
    (ran : runs step s labels = some t) (label : Label) :
    outputsAlong step output s (labels ++ [label]) = outputsAlong step output s labels ++ output t label := by
  induction labels generalizing s with
  | nil =>
    cases ran
    rw [List.nil_append, outputsAlong, outputsAlong, List.nil_append]
    cases step t label with
    | none => exact List.append_nil _
    | some t' => exact List.append_nil _
  | cons first rest ih =>
    obtain ⟨middle, stepped, ran'⟩ := Option.bind_eq_some_iff.mp ran
    rw [List.cons_append, outputsAlong, outputsAlong, stepped, Option.elim_some, Option.elim_some, ih ran',
      List.append_assoc]

end Foundation
