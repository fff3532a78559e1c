import Sceptre.Threads.Accounting
import Sceptre.Threads.Unwind

namespace Sceptre

open Foundation

theorem ReplayPc.runs_calls {pace : Pace} {actions : List SourceAction} {pc : ReplayPc}
    (ran : runs (ReplayPc.step pace) .loading actions = some pc) :
    actions.length ≤ 3 * (loaded actions).length + 3 := by
  rcases ReplayPc.runs_follows ran with ⟨-, rfl⟩ | follows
  · exact Nat.zero_le _
  · exact le_of_add_le_left follows.calls

def aheadOfShutdown (items : List RawItem) : Nat := (items.takeWhile fun item => item ≠ .shutdown).length

namespace Threads

variable {queue : BoundedRawQueue RawItem} {mode : Mode} {σ σ' : Threads} {labels : List Label} {label : Label}

structure Draining (σ : Threads) : Prop where
  source : ∃ pace, σ.source = .replay pace .terminated
  watchdog : σ.watchdog = .absent
  begun : σ.consumer ≠ .idle
  sentinel : σ.consumer.Looping → RawItem.shutdown ∈ σ.queue.items

def draining (σ : Threads) : Nat :=
  match σ.consumer with
  | .checking => 3 * aheadOfShutdown σ.queue.items + 4
  | .getting => 3 * aheadOfShutdown σ.queue.items + 3
  | .handling _ => 3 * aheadOfShutdown σ.queue.items + 5
  | .flushing => 2
  | .stopping => 1
  | _ => 0

theorem Draining.consumed (drains : σ.Draining) {action : RunAction} (consumed : σ.Consumed action σ') :
    σ'.Draining ∧ σ'.draining < σ.draining := by
  obtain ⟨source, watchdog, begun, sentinel⟩ := drains
  cases consumed with
  | start idle => exact absurd idle begun
  | stopped checking =>
    exact ⟨⟨source, watchdog, by simp, by simp [RunPc.Looping]⟩, by simp only [draining, checking]; omega⟩
  | running checking =>
    exact ⟨⟨source, watchdog, by simp, fun _ => sentinel (.inl checking)⟩, by simp only [draining, checking]; omega⟩
  | timeout getting got =>
    have inside := sentinel (.inr (.inl getting))
    rw [BoundedRawQueue.get, List.head?_eq_none_iff] at got
    rw [got] at inside
    cases inside
  | shutdown getting got =>
    exact ⟨⟨source, watchdog, by simp, by simp [RunPc.Looping]⟩, by simp only [draining, getting]; omega⟩
  | datagram getting raw got =>
    have inside := sentinel (.inr (.inl getting))
    obtain ⟨rest, items⟩ := List.head?_eq_some_iff.mp got
    rw [items] at inside
    have later : RawItem.shutdown ∈ rest := by simpa using inside
    refine ⟨⟨source, watchdog, by simp, fun _ => by rw [BoundedRawQueue.get_items, items]; exact later⟩, ?_⟩
    simp only [draining, getting, BoundedRawQueue.get_items, items, aheadOfShutdown, List.tail_cons]
    simp
    omega
  | handle raised item handling =>
    have inside := sentinel (.inr (.inr ⟨item, handling⟩))
    cases raised with
    | true => exact ⟨⟨source, watchdog, by simp, by simp [RunPc.Looping]⟩, by simp [draining, handling]⟩
    | false => exact ⟨⟨source, watchdog, by simp, fun _ => inside⟩, by simp [draining, handling]⟩
  | interrupt looping =>
    refine ⟨⟨source, watchdog, by simp, by simp [RunPc.Looping]⟩, ?_⟩
    rcases looping with here | here | ⟨item, here⟩ <;> (simp only [draining, here]; omega)
  | flushAll raised flushing =>
    exact ⟨⟨source, watchdog, by simp, by simp [RunPc.Looping]⟩, by simp [draining, flushing]⟩
  | stopSource stopping =>
    exact ⟨⟨source, watchdog, by simp, by simp [RunPc.Looping]⟩, by simp [draining, stopping]⟩

theorem Draining.step (drains : σ.Draining) (stepped : σ.step label = some σ') :
    σ'.Draining ∧ σ'.draining < σ.draining := by
  cases label with
  | source action =>
    obtain ⟨pace, ended⟩ := drains.source
    obtain ⟨source, τ, moved, -, -⟩ := stepSource_cases stepped
    rw [ended] at moved
    cases action <;> cases moved
  | watchdog => simp [Threads.step, stepWatchdog, drains.watchdog] at stepped
  | consumer action => exact drains.consumed (stepConsumer_consumed stepped)

theorem drains : Pays step Draining (fun _ => true) draining where
  kept _ _ _ drains stepped := (drains.step stepped).1
  paid _ _ _ drains stepped := (drains.step stepped).2

theorem draining_le (σ : Threads) : σ.draining ≤ 3 * σ.queue.maxsize + 5 := by
  have ahead : aheadOfShutdown σ.queue.items ≤ σ.queue.maxsize :=
    (List.takeWhile_prefix _).length_le.trans σ.queue.bounded
  unfold draining
  split <;> omega

end Threads

open Threads

/-- A replay ends under any scheduling: its source makes a bounded number of calls, none of which has to wait for
    another thread; and once it has ended, Thread B empties the queue in a bounded number of steps and returns from
    `run`. -/
theorem replay_ends (queue : BoundedRawQueue RawItem) (pace : Pace) (labels : List Label) (σ : Threads)
    (ran : runs step (main queue (.replay pace)) labels = some σ) :
    (sourceActions labels).length ≤ 3 * (loaded (sourceActions labels)).length + 3 ∧
      (σ.consumer ≠ .idle → ¬ σ.source.Terminated → ∃ action, σ.step (.source action) ≠ none) ∧
      (σ.source.Terminated → ∀ rest σ', runs step σ rest = some σ' →
        rest.length ≤ 3 * queue.maxsize + 5 ∧
          ((∀ label, σ'.step label = none) → σ'.consumer = .finished) ∧
          ∃ more σ'', runs step σ' more = some σ'' ∧ σ''.consumer = .finished) := by
  have started := started_runs ran
  have inv := inv_runs ran
  obtain ⟨pc, calls⟩ := (runs_source ran).replay
  refine ⟨ReplayPc.runs_calls calls, source_enabled started, ?_⟩
  intro ended rest σ' later
  have drains' : σ.Draining := by
    have source : ∃ pace, σ.source = .replay pace .terminated := by
      rcases ended with live | replay
      · have mode := runs_source ran
        rw [live] at mode
        exact absurd mode id
      · exact replay
    obtain ⟨pace', source'⟩ := source
    refine ⟨⟨pace', source'⟩, inv.replay pace' (.inr ⟨_, source'⟩), ?_, ?_⟩
    · intro idle
      rcases inv.unstarted idle with same | ⟨_, same⟩ <;> (rw [source'] at same; cases same)
    · exact fun looping => (inv.replayed pace' source').2.resolve_right fun outside => outside looping
  have sized : σ.queue.maxsize = queue.maxsize := by
    rw [runs_queue ran]
    exact BoundedRawQueue.run_maxsize ..
  have bound := σ.draining_le
  rw [sized] at bound
  have finished : ∀ τ : Threads, τ.Draining → (∀ label, τ.step label = none) → τ.consumer = .finished := by
    intro τ holds quiet
    by_contra unfinished
    obtain ⟨action, enabled⟩ := consumer_enabled unfinished
    exact enabled (quiet _)
  have holds := (drains.runs drains' later).1
  refine ⟨(drains.length_le drains' later).trans bound, finished σ' holds, ?_⟩
  obtain ⟨more, σ'', settled, holds'', quiet⟩ := drains.settles holds
  exact ⟨more, σ'', settled, finished σ'' holds'' quiet⟩

def missingCapture : List Label :=
  [.consumer .start, .source (.load none), .source .setFailed, .source (.put .shutdown)]

def unloaded : Threads where
  stop := false
  queue := eightDeep.put .shutdown
  ready := false
  boundAddress := none
  failed := true
  recorder := none
  bindFailed := false
  source := .replay ⟨true, 9223372036⟩ .terminated
  watchdog := .absent
  consumer := .checking

theorem replay_ends_unloaded : ∃ more σ', runs step unloaded more = some σ' ∧ σ'.consumer = .finished :=
  ((replay_ends eightDeep ⟨true, 9223372036⟩ missingCapture unloaded rfl).2.2 (.inr ⟨_, rfl⟩) [] unloaded rfl).2.2

end Sceptre
