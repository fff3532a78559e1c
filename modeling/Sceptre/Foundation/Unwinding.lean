import Mathlib.Data.List.Basic

namespace Foundation

variable {σ ε ο ν : Type}

def observe (step : σ → ε → σ) (output : σ → ε → List ο) : σ → List ε → List ο
  | _, [] => []
  | s, e :: rest => output s e ++ observe step output (step s e) rest

theorem observe_append (step : σ → ε → σ) (output : σ → ε → List ο) (s : σ) (first second : List ε) :
    observe step output s (first ++ second) =
      observe step output s first ++ observe step output (first.foldl step s) second := by
  induction first generalizing s with
  | nil => rfl
  | cons e rest ih =>
    rw [List.cons_append, observe, observe, ih, List.append_assoc, List.foldl_cons]

/-- The unwinding conditions of a machine for an observer who sees an event as `view` says: on allowed
    events, an unseen one changes nothing, and events seen alike keep two states in agreement. -/
structure Unwinding (step : σ → ε → σ) (output : σ → ε → List ο) (view : ε → Option ν)
    (Allowed : ε → Prop) (Agree : σ → σ → Prop) : Prop where
  symm : ∀ s t, Agree s t → Agree t s
  silent : ∀ s t e, Agree s t → Allowed e → view e = none → output s e = [] ∧ Agree (step s e) t
  visible : ∀ s t e e' v, Agree s t → Allowed e → Allowed e' → view e = some v → view e' = some v →
    output s e = output t e' ∧ Agree (step s e) (step t e')

namespace Unwinding

variable {step : σ → ε → σ} {output : σ → ε → List ο} {view : ε → Option ν} {Allowed : ε → Prop}
  {Agree : σ → σ → Prop}

theorem silent_run (unwinding : Unwinding step output view Allowed Agree) {s t : σ} (agree : Agree s t)
    {events : List ε} (allowed : ∀ e ∈ events, Allowed e) (unseen : ∀ e ∈ events, view e = none) :
    observe step output s events = [] ∧ Agree (events.foldl step s) t := by
  induction events generalizing s with
  | nil => exact ⟨rfl, agree⟩
  | cons e rest ih =>
    obtain ⟨nothing, agree'⟩ := unwinding.silent s t e agree (allowed e (by simp)) (unseen e (by simp))
    obtain ⟨later, agree''⟩ := ih agree' (fun e member => allowed e (List.mem_cons_of_mem _ member))
      fun e member => unseen e (List.mem_cons_of_mem _ member)
    exact ⟨by rw [observe, nothing, later, List.append_nil], agree''⟩

theorem runs (unwinding : Unwinding step output view Allowed Agree) {s t : σ} (agree : Agree s t)
    {events events' : List ε} (allowed : ∀ e ∈ events, Allowed e) (allowed' : ∀ e ∈ events', Allowed e)
    (alike : events.filterMap view = events'.filterMap view) :
    observe step output s events = observe step output t events' ∧
      Agree (events.foldl step s) (events'.foldl step t) := by
  induction events generalizing s t events' with
  | nil =>
    have unseen : ∀ e ∈ events', view e = none := List.filterMap_eq_nil_iff.mp alike.symm
    obtain ⟨nothing, agree'⟩ := unwinding.silent_run (unwinding.symm _ _ agree) allowed' unseen
    exact ⟨nothing.symm, unwinding.symm _ _ agree'⟩
  | cons e rest ih =>
    have allowedRest : ∀ e ∈ rest, Allowed e := fun e member => allowed e (List.mem_cons_of_mem _ member)
    cases seen : view e with
    | none =>
      obtain ⟨nothing, agree'⟩ := unwinding.silent s t e agree (allowed e (by simp)) seen
      rw [List.filterMap_cons_none seen] at alike
      rw [observe, nothing, List.nil_append, List.foldl_cons]
      exact ih agree' allowedRest allowed' alike
    | some v =>
      rw [List.filterMap_cons_some seen] at alike
      obtain ⟨quiet, e', rest', split, unseen, seen', alike'⟩ := List.filterMap_eq_cons_iff.mp alike.symm
      subst split
      have allowedQuiet : ∀ e ∈ quiet, Allowed e := fun e member => allowed' e (List.mem_append_left _ member)
      obtain ⟨nothing, agree'⟩ := unwinding.silent_run (unwinding.symm _ _ agree) allowedQuiet unseen
      obtain ⟨same, agree''⟩ := unwinding.visible _ _ e e' v (unwinding.symm _ _ agree') (allowed e (by simp))
        (allowed' e' (by simp)) seen seen'
      obtain ⟨later, final⟩ := ih agree'' allowedRest (fun e member => allowed' e (by simp [member])) alike'.symm
      rw [observe_append, nothing, List.nil_append, observe, observe, same, later, List.foldl_cons,
        List.foldl_append, List.foldl_cons]
      exact ⟨rfl, final⟩

end Unwinding

end Foundation
