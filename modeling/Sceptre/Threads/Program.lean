import Sceptre.Runtime.Undated
import Sceptre.Runtime.FinalFlush
import Sceptre.Threads.Capture

namespace Sceptre

open Foundation

structure Clock where
  arrival : ℚ
  readings : StreamId → ℚ

structure Program where
  threads : Threads
  runtime : Runtime

namespace Program

def main (queue : BoundedRawQueue RawItem) (mode : Mode) (start : Runtime) : Program :=
  ⟨.main queue mode, start⟩

def tick (item : Option Bytes) (clock : Clock) : Tick :=
  ⟨item.elim .timeout .item, clock.arrival, clock.readings⟩

/-- A call on the interpreter and the router, when it raises just as the label says. -/
def call {α : Type} (raised : Bool) (body : Runtime.Action α) (σ : Runtime) : Option Runtime :=
  match body σ with
  | (.ok _, σ') => if raised then none else some σ'
  | (.error _, σ') => if raised then some σ' else none

variable [Platform]

/-- What a label does to the objects of Thread B. An interrupt is one that falls at the stop check or at the wait
    for an item: one that falls while an item is handled or the age is polled can lose the item or a window, and is no
    step here. -/
def work (P : Program) (clock : Clock) : Label → Option Runtime
  | .consumer (.handle raised) =>
    match P.threads.consumer with
    | .handling item => call raised (Pipeline.iterate (tick item clock)) P.runtime
    | _ => none
  | .consumer .interrupt =>
    match P.threads.consumer with
    | .handling _ => none
    | _ => some P.runtime
  | .consumer (.flushAll raised) => call raised Runtime.flushAll P.runtime
  | .consumer .stopSource => some { P.runtime with sourceStopped := true }
  | _ => some P.runtime

def step (P : Program) (label : Label × Clock) : Option Program :=
  (P.threads.step label.1).bind fun threads => (P.work label.2 label.1).map fun runtime => ⟨threads, runtime⟩

def handles (P : Program) (label : Label × Clock) : List Bytes :=
  match label.1, P.threads.consumer with
  | .consumer (.handle _), .handling (some raw) => [raw]
  | _, _ => []

def returns (P : Program) (label : Label × Clock) : List (Option Record) :=
  Interpreter.outputs (P.handles label) P.runtime.interpreter

def ages (P : Program) (label : Label × Clock) : List StreamId :=
  match label.1, P.threads.consumer with
  | .consumer (.handle _), .handling item => (tick item label.2).aged P.runtime
  | _, _ => []

def handled (P : Program) (labels : List (Label × Clock)) : List Bytes := outputsAlong step handles P labels

def returned (P : Program) (labels : List (Label × Clock)) : List (Option Record) := outputsAlong step returns P labels

def aged (P : Program) (labels : List (Label × Clock)) : List StreamId := outputsAlong step ages P labels

variable {P P' : Program}

omit [Platform] in
theorem call_cases {α : Type} {raised : Bool} {body : Runtime.Action α} {σ σ' : Runtime}
    (called : call raised body σ = some σ') : (body σ).2 = σ' ∧
      ((raised = false ∧ ∃ a, (body σ).1 = .ok a) ∨ (raised = true ∧ ∃ e, (body σ).1 = .error e)) := by
  unfold call at called
  cases ran : body σ with
  | mk result after =>
    rw [ran] at called
    cases result with
    | ok a => cases raised <;> cases called; exact ⟨rfl, .inl ⟨rfl, a, rfl⟩⟩
    | error e => cases raised <;> cases called; exact ⟨rfl, .inr ⟨rfl, e, rfl⟩⟩

theorem step_parts {label : Label × Clock} (stepped : P.step label = some P') :
    P.threads.step label.1 = some P'.threads ∧ P.work label.2 label.1 = some P'.runtime := by
  obtain ⟨threads, moved, rest⟩ := Option.bind_eq_some_iff.mp stepped
  obtain ⟨runtime, worked, rfl⟩ := Option.map_eq_some_iff.mp rest
  exact ⟨moved, worked⟩

theorem runs_threads {labels : List (Label × Clock)} (ran : runs step P labels = some P') :
    runs Threads.step P.threads (labels.map Prod.fst) = some P'.threads := by
  induction labels generalizing P with
  | nil =>
    cases ran
    rfl
  | cons label rest ih =>
    obtain ⟨middle, stepped, ran'⟩ := Option.bind_eq_some_iff.mp ran
    rw [List.map_cons, runs, (step_parts stepped).1]
    exact ih ran'

end Program

end Sceptre
