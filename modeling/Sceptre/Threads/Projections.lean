import Sceptre.Threads.System

namespace Sceptre

open Foundation

def Label.source? : Label → Option SourceAction
  | .source action => some action
  | _ => none

def sourceActions (labels : List Label) : List SourceAction := labels.filterMap Label.source?

def Label.op? : Label → Option (BoundedRawQueue.Op RawItem)
  | .source (.put item) => some (.put item)
  | .consumer .get => some .get
  | _ => none

def queueOps (labels : List Label) : List (BoundedRawQueue.Op RawItem) := labels.filterMap Label.op?

theorem puts_queueOps (labels : List Label) :
    BoundedRawQueue.puts (queueOps labels) = (sourceActions labels).filterMap SourceAction.item? := by
  rw [BoundedRawQueue.puts, queueOps, sourceActions, List.filterMap_filterMap, List.filterMap_filterMap]
  apply congrArg (fun f => labels.filterMap f)
  funext label
  cases label with
  | source action => cases action <;> rfl
  | watchdog => rfl
  | consumer action => cases action <;> rfl

def Mode.Runs : Mode → SourceThread → List SourceAction → Prop
  | .live _, .liveIdle, actions => actions = []
  | .live _, .live pc, actions => runs LivePc.step .creating actions = some pc
  | .replay pace, .replayIdle pace', actions => pace' = pace ∧ actions = []
  | .replay pace, .replay pace' pc, actions => pace' = pace ∧ runs (ReplayPc.step pace) .loading actions = some pc
  | _, _, _ => False

theorem Mode.Runs.replay {pace : Pace} {source : SourceThread} {actions : List SourceAction}
    (ran : (Mode.replay pace).Runs source actions) : ∃ pc, runs (ReplayPc.step pace) .loading actions = some pc := by
  cases source with
  | replayIdle pace' =>
    obtain ⟨-, rfl⟩ := ran
    exact ⟨.loading, rfl⟩
  | replay pace' pc => exact ⟨pc, ran.2⟩
  | _ => exact absurd ran id

theorem Mode.Runs.start {mode : Mode} {source : SourceThread} {actions : List SourceAction}
    (runs : mode.Runs source actions) : mode.Runs source.start actions := by
  cases mode with
  | live recorder =>
    cases source with
    | liveIdle =>
      cases runs
      rfl
    | _ => exact runs
  | replay pace =>
    cases source with
    | replayIdle pace' =>
      obtain ⟨rfl, rfl⟩ := runs
      exact ⟨rfl, rfl⟩
    | _ => exact runs

theorem Mode.Runs.step {mode : Mode} {source source' : SourceThread} {actions : List SourceAction}
    {action : SourceAction} (ran : mode.Runs source actions) (stepped : source.step action = some source') :
    mode.Runs source' (actions ++ [action]) := by
  cases source with
  | liveIdle => cases stepped
  | replayIdle pace => cases stepped
  | live pc =>
    obtain ⟨pc', moved, rfl⟩ := Option.map_eq_some_iff.mp stepped
    cases mode with
    | live recorder => exact runs_snoc ran moved
    | replay pace => exact ran
  | replay pace pc =>
    obtain ⟨pc', moved, rfl⟩ := Option.map_eq_some_iff.mp stepped
    cases mode with
    | live recorder => exact ran
    | replay pace' =>
      obtain ⟨rfl, ran⟩ := ran
      exact ⟨rfl, runs_snoc ran moved⟩

namespace Threads

variable {queue : BoundedRawQueue RawItem} {mode : Mode} {labels : List Label} {σ σ' : Threads}

theorem step_queue {label : Label} (stepped : σ.step label = some σ') :
    σ'.queue = (BoundedRawQueue.run label.op?.toList σ.queue).2 := by
  cases label with
  | source action =>
    obtain ⟨source, moved, rest⟩ := Option.bind_eq_some_iff.mp stepped
    obtain ⟨τ, performed, rfl⟩ := Option.map_eq_some_iff.mp rest
    cases action with
    | bind result => cases result <;> (cases performed; rfl)
    | isSet set =>
      obtain ⟨-, rfl⟩ := perform_isSet performed
      rfl
    | wait answer =>
      simp only [perform] at performed
      split at performed <;> cases performed
      rfl
    | _ => cases performed; rfl
  | watchdog => exact (stepWatchdog_frame stepped).2.1
  | consumer action =>
    cases stepConsumer_consumed stepped with
    | _ => rfl

theorem runs_queue (ran : runs step (main queue mode) labels = some σ) :
    σ.queue = (BoundedRawQueue.run (queueOps labels) queue).2 := by
  refine runs_invariant (fun labels σ => σ.queue = (BoundedRawQueue.run (queueOps labels) queue).2) rfl ?_ ran
  intro labels σ label σ' _ same stepped
  rw [step_queue stepped, same, queueOps, queueOps, List.filterMap_append, BoundedRawQueue.run_append]
  rfl

theorem step_source {label : Label} (stepped : σ.step label = some σ') :
    (∃ action, label.source? = some action ∧ σ.source.step action = some σ'.source) ∨
      (label.source? = none ∧ (σ'.source = σ.source ∨ σ'.source = σ.source.start)) := by
  cases label with
  | source action =>
    obtain ⟨source, moved, rest⟩ := Option.bind_eq_some_iff.mp stepped
    obtain ⟨τ, performed, rfl⟩ := Option.map_eq_some_iff.mp rest
    exact .inl ⟨action, rfl, moved⟩
  | watchdog => exact .inr ⟨rfl, .inl (stepWatchdog_frame stepped).2.2.1⟩
  | consumer action =>
    cases stepConsumer_consumed stepped with
    | start idle => exact .inr ⟨rfl, .inr rfl⟩
    | _ => exact .inr ⟨rfl, .inl rfl⟩

theorem runs_source (ran : runs step (main queue mode) labels = some σ) :
    mode.Runs σ.source (sourceActions labels) := by
  refine runs_invariant (fun labels σ => mode.Runs σ.source (sourceActions labels)) ?_ ?_ ran
  · cases mode with
    | live recorder => exact rfl
    | replay pace => exact ⟨rfl, rfl⟩
  · intro labels σ label σ' _ follows stepped
    rw [sourceActions, List.filterMap_append]
    rcases step_source stepped with ⟨action, call, moved⟩ | ⟨none, same | started⟩
    · have single : [label].filterMap Label.source? = [action] := by simp [call]
      rw [single]
      exact follows.step moved
    · have single : [label].filterMap Label.source? = [] := by simp [none]
      rw [single, List.append_nil, same]
      exact follows
    · have single : [label].filterMap Label.source? = [] := by simp [none]
      rw [single, List.append_nil, started]
      exact follows.start

end Threads

end Sceptre
