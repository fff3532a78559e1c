import Mathlib
import Sceptre.Foundation.Method

namespace Foundation

open Std.Do

variable {ε σ α β : Type}

/-- From every state with `pre`, the body ends in a state with `returns` of its value, or raises in one with `raises`. -/
def Triple (pre : σ → Prop) (body : Method ε σ α) (returns : α → σ → Prop) (raises : σ → Prop) : Prop :=
  Std.Do.Triple body (fun s => ⌜pre s⌝) post⟨fun a s => ⌜returns a s⌝, fun _ s => ⌜raises s⌝⟩

namespace Triple

variable {pre mid : σ → Prop} {returns : α → σ → Prop} {raises : σ → Prop}

theorem iff_runs {body : Method ε σ α} : Triple pre body returns raises ↔
    ∀ s, pre s → match body s with
      | (.ok a, s') => returns a s'
      | (.error _, s') => raises s' := by
  apply forall_congr'
  intro s
  apply imp_congr_right
  intro _
  change (wp⟦body⟧ post⟨fun a s => ⌜returns a s⌝, fun _ s => ⌜raises s⌝⟩ s).down ↔ _
  simp only [WP.wp, ExceptT.run, StateT.run, Id.run, PredTrans.apply_pushExcept, PredTrans.apply_pushArg]
  cases body s with
  | mk result s' => cases result <;> rfl

theorem nothing (a : α) (holds : ∀ s, pre s → returns a s) : Triple pre (pure a : Method ε σ α) returns raises :=
  Std.Do.Triple.pure a holds

theorem weaken {body : Method ε σ α} {returns' : α → σ → Prop} (triple : Triple pre body returns raises)
    (after : ∀ a s, returns a s → returns' a s) : Triple pre body returns' raises :=
  .of_entails_wp (Std.Do.Triple.entails_wp_of_post triple ⟨after, ExceptConds.entails.rfl⟩)

theorem weakenRaises {body : Method ε σ α} {raises' : σ → Prop} (triple : Triple pre body returns raises)
    (failed : ∀ s, raises s → raises' s) : Triple pre body returns raises' :=
  .of_entails_wp (Std.Do.Triple.entails_wp_of_post triple ⟨fun _ => .rfl, fun _ => failed, trivial⟩)

theorem narrow {pre' : σ → Prop} {body : Method ε σ α} (triple : Triple pre body returns raises)
    (before : ∀ s, pre' s → pre s) : Triple pre' body returns raises :=
  .of_entails_wp (Std.Do.Triple.entails_wp_of_pre triple before)

theorem each {body : Method ε σ α} (holds : ∀ s, pre s → Triple (· = s) body returns raises) :
    Triple pre body returns raises :=
  fun s before => holds s before s rfl

theorem bind {first : Method ε σ α} {second : α → Method ε σ β} {returns : β → σ → Prop} (between : α → σ → Prop)
    (head : Triple pre first between raises) (tail : ∀ a, Triple (between a) (second a) returns raises) :
    Triple pre (first >>= second) returns raises :=
  Std.Do.Triple.bind first second head tail

theorem read {body : σ → Method ε σ α} (holds : ∀ s, pre s → Triple (· = s) (body s) returns raises) :
    Triple pre (Method.read >>= body) returns raises := by
  rw [iff_runs]
  intro s before
  exact iff_runs.mp (holds s before) s rfl

theorem update {f : σ → σ} {returns : Unit → σ → Prop} (holds : ∀ s, pre s → returns () (f s)) :
    Triple pre (Method.update f : Method ε σ Unit) returns raises :=
  iff_runs.mpr holds

theorem when {condition : Prop} [Decidable condition] {body : Method ε σ Unit} {returns : Unit → σ → Prop}
    (run : condition → Triple pre body returns raises) (skip : ¬ condition → ∀ s, pre s → returns () s) :
    Triple pre (Method.when condition body) returns raises := by
  by_cases holds : condition
  · rw [Method.when_true holds]
    exact run holds
  · rw [Method.when_false holds]
    exact nothing () (skip holds)

theorem returned {body : Method ε σ α} (triple : Triple pre body returns fun _ => False) {s : σ} (holds : pre s) :
    ∃ a s', body s = (.ok a, s') ∧ returns a s' := by
  have ended := iff_runs.mp triple s holds
  cases ran : body s with
  | mk result s' =>
    rw [ran] at ended
    cases result with
    | ok a => exact ⟨a, s', rfl, ended⟩
    | error e => exact absurd ended id

theorem always {body : Method ε σ α} {post : σ → Prop} (triple : Triple pre body (fun _ => post) post) {s : σ}
    (holds : pre s) : post (body s).2 := by
  have ended := iff_runs.mp triple s holds
  cases ran : body s with
  | mk result s' =>
    rw [ran] at ended
    cases result with
    | ok a => exact ended
    | error e => exact ended

end Triple

end Foundation
