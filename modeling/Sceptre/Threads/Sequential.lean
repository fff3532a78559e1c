import Sceptre.Threads.Balance

namespace Sceptre

open Foundation

section
variable [Platform] {σ τ : Runtime}

namespace Pipeline

theorem iterate_more {tick : Tick} (running : tick.got ≠ .shutdown) {more : Bool}
    (iterated : iterate tick σ = (.ok more, τ)) : more = true := by
  cases got : tick.got with
  | shutdown => exact absurd got running
  | timeout =>
    simp only [iterate, got] at iterated
    rw [Method.bind_run] at iterated
    split at iterated <;> cases iterated
    rfl
  | item raw =>
    rw [iterate_item got, Method.bind_run] at iterated
    split at iterated
    · rw [Method.bind_run] at iterated
      split at iterated <;> cases iterated
      rfl
    · cases iterated

theorem loop_concat {ticks : List Tick} (running : ∀ t ∈ ticks, t.got ≠ .shutdown) (ran : loop ticks σ = (.ok (), τ))
    (tick : Tick) : loop (ticks ++ [tick]) σ = loop [tick] τ := by
  induction ticks generalizing σ with
  | nil =>
    cases ran
    rfl
  | cons first rest ih =>
    rw [List.cons_append, loop, Method.bind_run]
    rw [loop, Method.bind_run] at ran
    cases iterated : iterate first σ with
    | mk result σ' =>
      rw [iterated] at ran
      cases result with
      | error e => cases ran
      | ok more =>
        rw [iterate_more (running first List.mem_cons_self) iterated] at ran ⊢
        exact ih (fun t member => running t (List.mem_cons_of_mem _ member)) ran

theorem loop_single {tick : Tick} (running : tick.got ≠ .shutdown) :
    (loop [tick] σ).2 = (iterate tick σ).2 ∧ ((loop [tick] σ).1 = .ok () ↔ ∃ more, (iterate tick σ).1 = .ok more) := by
  rw [loop, Method.bind_run]
  cases iterated : iterate tick σ with
  | mk result σ' =>
    cases result with
    | error e => exact ⟨rfl, by simp⟩
    | ok more =>
      rw [iterate_more running iterated]
      exact ⟨rfl, iff_of_true rfl ⟨true, rfl⟩⟩

theorem run_parts (ticks : List Tick) (σ : Runtime) :
    (run ticks σ).2 = { (Runtime.flushAll (loop ticks σ).2).2 with sourceStopped := true } ∧
      ((run ticks σ).1 = .ok () ↔ (loop ticks σ).1 = .ok () ∧ (Runtime.flushAll (loop ticks σ).2).1 = .ok ()) := by
  simp only [run, Method.ensure_run, stopSource, Method.update_run]
  cases Runtime.flushAll (loop ticks σ).2 with
  | mk result σ' =>
    cases result with
    | error e => exact ⟨rfl, by simp⟩
    | ok _ => exact ⟨rfl, by simp⟩

end Pipeline

namespace Program

variable {queue : BoundedRawQueue RawItem} {mode : Mode} {start : Runtime} {labels : List (Label × Clock)}
    {P P' : Program}

def ticks (P : Program) (label : Label × Clock) : List Tick :=
  match label.1, P.threads.consumer with
  | .consumer (.handle _), .handling item => [tick item label.2]
  | _, _ => []

def ticked (P : Program) (labels : List (Label × Clock)) : List Tick := outputsAlong step ticks P labels

end Program

open Pipeline

/-- How far a sequential run from `start` has come when Thread B is here, and whether it has raised. -/
def RunPc.Reached (start : Runtime) (ticks : List Tick) (raised : Prop) (σ : Runtime) : RunPc → Prop
  | .flushing => (loop ticks start).2 = σ ∧ ((loop ticks start).1 = .ok () ↔ ¬ raised)
  | .stopping => (Runtime.flushAll (loop ticks start).2).2 = σ ∧
      ((loop ticks start).1 = .ok () ∧ (Runtime.flushAll (loop ticks start).2).1 = .ok () ↔ ¬ raised)
  | .finished => (run ticks start).2 = σ ∧ ((run ticks start).1 = .ok () ↔ ¬ raised)
  | _ => loop ticks start = (.ok (), σ) ∧ ¬ raised

theorem RunPc.Reached.congr {start : Runtime} {ticks : List Tick} {before after : Prop} {pc : RunPc}
    (reached : pc.Reached start ticks before σ) (same : before ↔ after) : pc.Reached start ticks after σ := by
  rwa [propext same] at reached

theorem RunPc.reached_flushing {start : Runtime} {ticks : List Tick} {raised : Prop}
    (reached : loop ticks start = (.ok (), σ) ∧ ¬ raised) : RunPc.flushing.Reached start ticks raised σ := by
  obtain ⟨looped, calm⟩ := reached
  exact ⟨by rw [looped], by rw [looped]; exact iff_of_true rfl calm⟩

namespace Program

variable {queue : BoundedRawQueue RawItem} {mode : Mode} {start : Runtime} {labels : List (Label × Clock)}
    {P P' : Program}
  {label : Label × Clock}

/-- A call on the objects of Thread B, against the same call of the sequential run. -/
theorem Worked.reached {threads : Threads} {τ : Runtime} {ticks : List Tick} {raised : Prop} {clock : Clock}
    {label : Label} (worked : P.Worked clock label τ) (moved : P.threads.step label = some threads)
    (running : ∀ t ∈ ticks, t.got ≠ .shutdown) (reached : P.threads.consumer.Reached start ticks raised P.runtime) :
    threads.consumer.Reached start (ticks ++ P.ticks (label, clock)) (raised ∨ label.raises = true) τ := by
  cases worked with
  | handle failed item handling called =>
    obtain ⟨after, result⟩ := call_cases called
    have here : P.ticks (.consumer (.handle failed), clock) = [tick item clock] := by
      simp only [Program.ticks, handling]
    have going : (tick item clock).got ≠ .shutdown := by cases item <;> simp [tick]
    rw [handling] at reached
    obtain ⟨looped, calm⟩ := reached
    obtain ⟨state, returns⟩ := loop_single going (σ := P.runtime)
    rw [← loop_concat running looped] at state returns
    rw [after] at state
    rw [here]
    have stepped : P.threads.stepConsumer (.handle failed) = some threads := moved
    have consumer : threads.consumer = if failed then .flushing else .checking := by
      cases Threads.stepConsumer_consumed stepped with
      | handle => rfl
    rcases result with ⟨rfl, fine⟩ | ⟨rfl, e, error⟩
    · rw [consumer, if_neg Bool.false_ne_true]
      exact ⟨Prod.ext (returns.mpr fine) state, by simp [calm, Label.raises]⟩
    · rw [consumer, if_pos rfl]
      refine ⟨state, iff_of_false ?_ (by simp [Label.raises])⟩
      rw [returns, error]
      simp
  | flushAll failed called =>
    obtain ⟨after, result⟩ := call_cases called
    have stepped : P.threads.stepConsumer (.flushAll failed) = some threads := moved
    cases Threads.stepConsumer_consumed stepped with
    | flushAll _ flushing =>
      rw [flushing] at reached
      obtain ⟨state, returns⟩ := reached
      rw [show P.ticks (.consumer (.flushAll failed), clock) = [] from rfl, List.append_nil]
      refine ⟨by rw [state]; exact after, ?_⟩
      rw [returns, state]
      rcases result with ⟨rfl, _, fine⟩ | ⟨rfl, e, error⟩
      · simp [fine, Label.raises]
      · simp [error, Label.raises]
  | stopSource =>
    have stepped : P.threads.stepConsumer .stopSource = some threads := moved
    cases Threads.stepConsumer_consumed stepped with
    | stopSource stopping =>
      rw [stopping] at reached
      obtain ⟨state, returns⟩ := reached
      obtain ⟨last, whole⟩ := run_parts ticks start
      rw [show P.ticks (.consumer .stopSource, clock) = [] from rfl, List.append_nil]
      refine ⟨by rw [last, state], ?_⟩
      rw [whole, returns]
      simp [Label.raises]
  | idle _ plain resting going =>
    have nothing : P.ticks (label, clock) = [] := by
      unfold Program.ticks
      split
      · rename_i failed item handle _
        exact absurd handle (plain failed)
      · rfl
    have silent : (raised ∨ label.raises = true) ↔ raised := by
      have calm : label.raises = false := by
        cases label with
        | consumer action =>
          cases action with
          | handle => exact absurd rfl (plain _)
          | flushAll => exact absurd rfl (going.1 _)
          | _ => rfl
        | _ => rfl
      simp [calm]
    rw [nothing, List.append_nil]
    apply RunPc.Reached.congr _ silent.symm
    cases label with
    | source action =>
      obtain ⟨source, σ', -, performed, rfl⟩ := Threads.stepSource_cases moved
      show σ'.consumer.Reached start ticks raised P.runtime
      rwa [(Threads.perform_frame performed).2.2.1]
    | watchdog => rwa [(Threads.stepWatchdog_frame moved).1]
    | consumer action =>
      cases Threads.stepConsumer_consumed moved with
      | start idle => rw [idle] at reached; exact reached
      | stopped checking stop => rw [checking] at reached; exact RunPc.reached_flushing reached
      | running checking stop => rw [checking] at reached; exact reached
      | timeout getting got => rw [getting] at reached; exact reached
      | shutdown getting got => rw [getting] at reached; exact RunPc.reached_flushing reached
      | datagram getting raw got => rw [getting] at reached; exact reached
      | handle failed => exact absurd rfl (plain failed)
      | interrupt looping =>
        rcases looping with here | here | ⟨item, here⟩
        · rw [here] at reached; exact RunPc.reached_flushing reached
        · rw [here] at reached; exact RunPc.reached_flushing reached
        · rw [here] at reached; exact RunPc.reached_flushing reached
      | flushAll failed => exact absurd rfl (going.1 failed)
      | stopSource => exact absurd rfl going.2

/-- What every run of the program keeps, whatever the consumer raises. -/
structure Sequential (queue : BoundedRawQueue RawItem) (mode : Mode) (start : Runtime) (labels : List (Label × Clock))
    (P : Program) : Prop where
  running : ∀ t ∈ ticked (main queue mode start) labels, t.got ≠ .shutdown
  dequeued : Pipeline.dequeued (ticked (main queue mode start) labels) = handled (main queue mode start) labels
  reached : P.threads.consumer.Reached start (ticked (main queue mode start) labels)
    (∃ label ∈ labels, label.1.raises = true) P.runtime
  taken : datagramsOf (BoundedRawQueue.run (queueOps (labels.map Prod.fst)) queue).1 =
    handled (main queue mode start) labels ++ P.threads.consumer.inHandRaw

omit [Platform] in
theorem ticks_running {t : Tick} (member : t ∈ P.ticks label) : t.got ≠ .shutdown := by
  unfold ticks at member
  split at member
  · rename_i item _ _
    rw [List.mem_singleton.mp member]
    cases item <;> simp [tick]
  · cases member

omit [Platform] in
theorem ticks_dequeued (P : Program) (label : Label × Clock) : Pipeline.dequeued (P.ticks label) = P.handles label := by
  obtain ⟨label, clock⟩ := label
  cases label with
  | consumer action =>
    cases action with
    | handle raised =>
      simp only [ticks, handles]
      cases P.threads.consumer with
      | handling item => cases item <;> rfl
      | _ => rfl
    | _ => rfl
  | _ => rfl

omit [Platform] in
theorem dequeued_append {first : List Tick} (running : ∀ t ∈ first, t.got ≠ .shutdown) (second : List Tick) :
    Pipeline.dequeued (first ++ second) = Pipeline.dequeued first ++ Pipeline.dequeued second := by
  induction first with
  | nil => rfl
  | cons t rest ih =>
    have later := ih fun other member => running other (List.mem_cons_of_mem _ member)
    rw [List.cons_append, Pipeline.dequeued, calls, Pipeline.dequeued, calls]
    cases got : t.got with
    | shutdown => exact absurd got (running t List.mem_cons_self)
    | timeout => exact later
    | item raw => exact congrArg (raw :: ·) later

theorem Sequential.step (sequential : Sequential queue mode start labels P)
    (ran : runs Program.step (main queue mode start) labels = some P) (stepped : P.step label = some P') :
    Sequential queue mode start (labels ++ [label]) P' := by
  obtain ⟨moved, worked⟩ := step_parts stepped
  obtain ⟨label, clock⟩ := label
  have ticked' : ticked (main queue mode start) (labels ++ [(label, clock)]) =
      ticked (main queue mode start) labels ++ P.ticks (label, clock) := outputsAlong_concat _ ran _
  have worked := work_worked worked
  constructor
  · rw [ticked']
    intro t member
    exact (List.mem_append.mp member).elim (sequential.running t) ticks_running
  · rw [ticked', dequeued_append sequential.running, sequential.dequeued, ticks_dequeued, handled_concat ran]
  · rw [ticked']
    apply RunPc.Reached.congr (worked.reached moved sequential.running sequential.reached)
    simp [or_and_right, exists_or]
  · rw [returned_concat ran, datagramsOf_append, sequential.taken, List.append_assoc,
      step_taken moved worked.interrupted, handled_concat ran, List.append_assoc]

theorem sequential_runs (ran : runs Program.step (main queue mode start) labels = some P) :
    Sequential queue mode start labels P := by
  refine runs_invariant (Sequential queue mode start) ?_ ?_ ran
  · exact ⟨fun _ member => (List.not_mem_nil member).elim, rfl, ⟨rfl, by simp⟩, rfl⟩
  · exact fun _ _ _ _ ran sequential stepped => sequential.step ran stepped

end Program

/-- Whatever Thread A, the watchdog and the interrupts do in between, Thread B is the sequential `run` over what the
    queue handed it, which is datagrams the source put, in their order: the objects it leaves are those `run` leaves,
    and it raises just when `run` does. -/
theorem program_sequential (maxsize : Int) (queue : BoundedRawQueue RawItem)
    (created : BoundedRawQueue.new maxsize = .ok queue) (mode : Mode) (start : Runtime) (labels : List (Label × Clock))
    (P : Program) (ran : runs Program.step (.main queue mode start) labels = some P) :
    let ticks := Program.ticked (.main queue mode start) labels
    List.Sublist (dequeued ticks ++ P.threads.consumer.inHandRaw ++ datagramsOf P.threads.queue.items)
        (datagramsPut (labels.map Prod.fst)) ∧
      (P.threads.consumer.Looping → loop ticks start = (.ok (), P.runtime)) ∧
      (P.threads.consumer = .finished → (run ticks start).2 = P.runtime ∧
        ((run ticks start).1 = .ok () ↔ ∀ label ∈ labels, label.1.raises = false)) := by
  intro ticks
  obtain ⟨-, dequeued, reached, taken⟩ := Program.sequential_runs ran
  refine ⟨?_, fun looping => ?_, fun finished => ?_⟩
  · rw [dequeued]
    exact Program.taken_ordered created ran taken
  · rcases looping with here | here | ⟨item, here⟩ <;> rw [here] at reached <;> exact reached.1
  · rw [finished] at reached
    obtain ⟨state, calm⟩ := reached
    exact ⟨state, calm.trans (by simp)⟩

end

namespace Session

open Exact

def unreliable : Runtime := buildRuntime 256 100 10 ⟨[], fun call => if call = 0 then some (.consumer call) else none⟩

def interrupted : List (Label × Clock) :=
  atZero ([.consumer .start] ++ [.socket false, .bind (.ok ("0.0.0.0", 4991)), .setReady].map Label.source ++
    receive 20 context ++ receive 10 data ++ consume ++ consume ++
    [.isSet false, .interrupt, .flushAll true, .stopSource].map Label.consumer)

theorem program_sequential_interrupted :
    let program := Program.main rawQueue (.live (some (.new none (some 1000)))) unreliable
    ∃ P, runs Program.step program interrupted = some P ∧
      (Pipeline.run (program.ticked interrupted) unreliable).2 = P.runtime ∧
      (Pipeline.run (program.ticked interrupted) unreliable).1 ≠ .ok () := by
  intro program
  have ran : (runs Program.step program interrupted).any (fun P => P.threads.consumer = .finished) = true := by
    decide +kernel
  obtain ⟨P, ran, finished⟩ := (Option.any_eq_true _ _).mp ran
  obtain ⟨-, -, whole⟩ :=
    program_sequential 4 rawQueue rfl (.live (some (.new none (some 1000)))) unreliable interrupted P ran
  obtain ⟨state, calm⟩ := whole (of_decide_eq_true finished)
  refine ⟨P, ran, state, fun fine => ?_⟩
  have quiet := calm.mp fine (.consumer (.flushAll true), ⟨0, fun _ => 0⟩) (by simp [interrupted, atZero])
  cases quiet

end Session

end Sceptre
