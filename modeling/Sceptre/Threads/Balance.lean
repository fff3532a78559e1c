import Sceptre.Runtime.Contents
import Sceptre.Threads.RoundTrip
import Sceptre.Threads.Wakeup
import Sceptre.Windowing.Bounded

namespace Sceptre

open Foundation

def RawItem.raw? : RawItem → Option Bytes
  | .datagram raw => some raw
  | .shutdown => none

def datagramsOf (items : List RawItem) : List Bytes := items.filterMap RawItem.raw?

theorem datagramsOf_append (first second : List RawItem) :
    datagramsOf (first ++ second) = datagramsOf first ++ datagramsOf second := List.filterMap_append ..

def RunPc.inHandRaw : RunPc → List Bytes
  | .handling item => item.toList
  | _ => []

section

variable [Platform] {limits : Limits} {maxStreams : Int} {σ : Runtime} {lanes : StreamId → Lane}

namespace Program

variable {queue : BoundedRawQueue RawItem} {mode : Mode} {labels : List (Label × Clock)} {P P' : Program}

abbrev launch (limits : Limits) (maxStreams : Int) (queue : BoundedRawQueue RawItem) (mode : Mode) : Program :=
  main queue mode (buildRuntime maxStreams limits.maxSamples limits.maxAgeS .quiet)

def openBytes (P : Program) (s : StreamId) : Bytes := ((P.runtime.router.buffers.get? s).elim [] (·.chunks)).flatten

inductive Worked (P : Program) (clock : Clock) : Label → Runtime → Prop where
  | handle (raised : Bool) (item : Option Bytes) (handling : P.threads.consumer = .handling item) {τ : Runtime}
      (called : call raised (Pipeline.iterate (tick item clock)) P.runtime = some τ) :
      Worked P clock (.consumer (.handle raised)) τ
  | flushAll (raised : Bool) {τ : Runtime} (called : call raised Runtime.flushAll P.runtime = some τ) :
      Worked P clock (.consumer (.flushAll raised)) τ
  | stopSource : Worked P clock (.consumer .stopSource) { P.runtime with sourceStopped := true }
  | idle (label : Label) (plain : ∀ raised, label ≠ .consumer (.handle raised))
      (running : label = .consumer .interrupt → P.threads.consumer.inHandRaw = [])
      (going : (∀ raised, label ≠ .consumer (.flushAll raised)) ∧ label ≠ .consumer .stopSource) :
      Worked P clock label P.runtime

theorem work_worked {clock : Clock} {label : Label} {τ : Runtime} (worked : P.work clock label = some τ) :
    P.Worked clock label τ := by
  cases label with
  | source action =>
    cases worked
    exact .idle _ (by simp) (by simp) (by simp)
  | watchdog =>
    cases worked
    exact .idle _ (by simp) (by simp) (by simp)
  | consumer action =>
    cases action with
    | handle raised =>
      simp only [work] at worked
      split at worked
      · rename_i item handling
        exact .handle raised item handling worked
      · cases worked
    | interrupt =>
      simp only [work] at worked
      split at worked
      · cases worked
      · rename_i other
        cases worked
        refine .idle _ (by simp) (fun _ => ?_) (by simp)
        cases consumer : P.threads.consumer with
        | handling item => exact absurd consumer (other item)
        | _ => rfl
    | flushAll raised => exact .flushAll raised worked
    | stopSource =>
      cases worked
      exact .stopSource
    | _ =>
      cases worked
      exact .idle _ (by simp) (by simp) (by simp)

theorem Worked.interrupted {clock : Clock} {label : Label} {τ : Runtime} (worked : P.Worked clock label τ)
    (interrupted : label = .consumer .interrupt) : P.threads.consumer.inHandRaw = [] := by
  cases worked with
  | handle => cases interrupted
  | flushAll => cases interrupted
  | stopSource => cases interrupted
  | idle _ _ running => exact running interrupted

omit [Platform] in
theorem step_taken {label : Label} {clock : Clock} {threads : Threads} (moved : P.threads.step label = some threads)
    (running : label = .consumer .interrupt → P.threads.consumer.inHandRaw = []) :
    P.threads.consumer.inHandRaw ++ datagramsOf (BoundedRawQueue.run label.op?.toList P.threads.queue).1 =
      P.handles (label, clock) ++ threads.consumer.inHandRaw := by
  cases label with
  | source action =>
    obtain ⟨source, σ', -, performed, rfl⟩ := Threads.stepSource_cases moved
    have consumer := (Threads.perform_frame performed).2.2.1
    have nothing : datagramsOf (BoundedRawQueue.run (Label.source action).op?.toList P.threads.queue).1 = [] := by
      cases action <;> rfl
    rw [nothing, List.append_nil]
    show _ = [] ++ σ'.consumer.inHandRaw
    rw [consumer]
    rfl
  | watchdog =>
    obtain ⟨consumer, -⟩ := Threads.stepWatchdog_frame moved
    rw [consumer]
    exact List.append_nil _
  | consumer action =>
    cases Threads.stepConsumer_consumed moved with
    | start here => rw [here]; rfl
    | stopped here => rw [here]; rfl
    | running here => rw [here]; rfl
    | timeout here got => rw [here, gets_run got]; rfl
    | shutdown here got => rw [here, gets_run got]; rfl
    | datagram here raw got => rw [here, gets_run got]; rfl
    | handle raised item here =>
      simp only [handles, here]
      cases item <;> cases raised <;> rfl
    | interrupt looping => rw [running rfl]; rfl
    | flushAll raised here => rw [here]; rfl
    | stopSource here => rw [here]; rfl

/-- What every run of the program keeps, as long as the consumer's calls return. -/
structure Balanced (limits : Limits) (maxStreams : Int) (queue : BoundedRawQueue RawItem) (mode : Mode)
    (labels : List (Label × Clock)) (P : Program) (lanes : StreamId → Lane) : Prop where
  wired : Wired limits maxStreams P.runtime lanes
  interpreter : P.runtime.interpreter =
    Interpreter.run (handled (launch limits maxStreams queue mode) labels) (Interpreter.new maxStreams)
  records : returned (launch limits maxStreams queue mode) labels =
    Interpreter.outputs (handled (launch limits maxStreams queue mode) labels) (Interpreter.new maxStreams)
  received : ∀ s, (lanes s).received.map Packet.content =
    contentsOf s (handled (launch limits maxStreams queue mode) labels) (Interpreter.new maxStreams)
  taken : datagramsOf (BoundedRawQueue.run (queueOps (labels.map Prod.fst)) queue).1 =
    handled (launch limits maxStreams queue mode) labels ++ P.threads.consumer.inHandRaw
  flushed : P.threads.consumer = .stopping ∨ P.threads.consumer = .finished → ∀ s, (lanes s).packets = []
  below : ∀ s, (lanes s).Below limits

omit [Platform] in
theorem dequeued_tick (item : Option Bytes) (clock : Clock) : Pipeline.dequeued [tick item clock] = item.toList := by
  cases item <;> rfl

omit [Platform] in
theorem step_flushed {label : Label} {threads : Threads} (moved : P.threads.step label = some threads)
    (other : ∀ raised, label ≠ .consumer (.flushAll raised))
    (past : threads.consumer = .stopping ∨ threads.consumer = .finished) :
    P.threads.consumer = .stopping ∨ P.threads.consumer = .finished := by
  cases label with
  | source action =>
    obtain ⟨source, σ', -, performed, rfl⟩ := Threads.stepSource_cases moved
    rwa [← (Threads.perform_frame performed).2.2.1]
  | watchdog => rwa [← (Threads.stepWatchdog_frame moved).1]
  | consumer action =>
    cases Threads.stepConsumer_consumed moved with
    | handle raised item handling => cases raised <;> simp at past
    | flushAll raised => exact absurd rfl (other raised)
    | stopSource stopping => exact .inl stopping
    | _ => simp at past

theorem Balanced.step (balanced : Balanced limits maxStreams queue mode labels P lanes) {label : Label × Clock}
    (ran : runs step (launch limits maxStreams queue mode) labels = some P) (stepped : P.step label = some P') :
    ∃ lanes', Balanced limits maxStreams queue mode (labels ++ [label]) P' lanes' := by
  obtain ⟨wired, interpreter, records, received, taken, flushed, below⟩ := balanced
  obtain ⟨moved, worked⟩ := step_parts stepped
  obtain ⟨label, clock⟩ := label
  obtain ⟨threads, runtime⟩ := P'
  have worked := work_worked worked
  have takes : datagramsOf (BoundedRawQueue.run (queueOps ((labels ++ [(label, clock)]).map Prod.fst)) queue).1 =
      handled (launch limits maxStreams queue mode) (labels ++ [(label, clock)]) ++ threads.consumer.inHandRaw := by
    rw [returned_concat ran, datagramsOf_append, taken, List.append_assoc, step_taken moved worked.interrupted,
      handled_concat ran, List.append_assoc]
  have handles' : handled (launch limits maxStreams queue mode) (labels ++ [(label, clock)]) =
      handled (launch limits maxStreams queue mode) labels ++ P.handles (label, clock) := handled_concat ran
  have returns' : returned (launch limits maxStreams queue mode) (labels ++ [(label, clock)]) =
      returned (launch limits maxStreams queue mode) labels ++ P.returns (label, clock) := outputsAlong_concat _ ran _
  -- what the interpreter and the records say follows from what was handled
  have books : ∀ lanes', Wired limits maxStreams runtime lanes' →
      runtime.interpreter = Interpreter.run (P.handles (label, clock)) P.runtime.interpreter →
      (∀ s, (lanes' s).received.map Packet.content =
        (lanes s).received.map Packet.content ++ contentsOf s (P.handles (label, clock)) P.runtime.interpreter) →
      (threads.consumer = .stopping ∨ threads.consumer = .finished → ∀ s, (lanes' s).packets = []) →
      (∀ s, (lanes' s).Below limits) →
      Balanced limits maxStreams queue mode (labels ++ [(label, clock)]) ⟨threads, runtime⟩ lanes' := by
    intro lanes' wired' after more past small
    refine ⟨wired', ?_, ?_, ?_, takes, past, small⟩
    · rw [handles', Interpreter.run_append, ← interpreter]
      exact after
    · rw [handles', returns', returns, records, Interpreter.outputs_append, ← interpreter]
    · intro s
      rw [more, received, handles', contentsOf_append, ← interpreter]
  have silent : (∀ raised, label ≠ .consumer (.handle raised)) → P.handles (label, clock) = [] :=
    fun plain => handles_nil plain
  cases worked with
  | handle raised item handling called =>
    obtain ⟨more, σ', iterated, after, wired'⟩ := wired.iterated (tick item clock)
    obtain ⟨result, -⟩ := call_cases called
    rw [iterated] at result
    subst result
    have own : P.handles (.consumer (.handle raised), clock) = Pipeline.dequeued [tick item clock] := by
      rw [dequeued_tick]
      simp only [handles, handling]
      cases item <;> rfl
    refine ⟨_, books _ wired' (by rw [own]; exact after) ?_ ?_ fun s => (below s).steps _⟩
    · intro s
      rw [traced_contents, own]
      rfl
    · intro past
      have before := step_flushed moved (by simp) past
      rw [handling] at before
      simp at before
  | flushAll raised called =>
    obtain ⟨σ', flushed', after, -, wired'⟩ := wired.handle .flushAll
    obtain ⟨result, -⟩ := call_cases called
    rw [show Runtime.flushAll P.runtime = _ from flushed'] at result
    subst result
    refine ⟨_, books _ wired' (by rw [silent (by simp)]; exact after) ?_ ?_ fun s => (below s).feed _⟩
    · intro s
      rw [silent (by simp)]
      simp [Event.input?, Lane.feed, Lane.step, contentsOf, packetsOf, trace]
    · exact fun _ s => Lane.close_packets _
  | stopSource =>
    refine ⟨lanes, books _ { wired with } (by rw [silent (by simp)]; rfl) ?_ ?_ below⟩
    · intro s
      rw [silent (by simp)]
      simp [contentsOf, packetsOf, trace]
    · exact fun past => flushed (step_flushed moved (by simp) past)
  | idle _ plain _ going =>
    refine ⟨lanes, books _ wired (by rw [silent plain]; rfl) ?_ ?_ below⟩
    · intro s
      rw [silent plain]
      simp [contentsOf, packetsOf, trace]
    · exact fun past => flushed (step_flushed moved going.1 past)

theorem balanced_runs (ran : runs step (launch limits maxStreams queue mode) labels = some P) :
    ∃ lanes, Balanced limits maxStreams queue mode labels P lanes := by
  refine runs_invariant (fun labels P => ∃ lanes, Balanced limits maxStreams queue mode labels P lanes) ?_ ?_ ran
  · exact ⟨_, .initial limits maxStreams, rfl, rfl, fun _ => rfl, rfl, (by rintro (same | same) <;> cases same),
      fun _ => Lane.below_initial⟩
  · rintro labels P label P' ran ⟨lanes, balanced⟩ stepped
    exact balanced.step ran stepped

theorem Balanced.recorded (balanced : Balanced limits maxStreams queue mode labels P lanes) (s : StreamId) :
    (lanes s).received.map (fun p => (p.metadata, p.data)) =
      dataRecords s (returned (launch limits maxStreams queue mode) labels) := by
  rw [balanced.records, ← contentsOf_records, ← balanced.received s, List.map_map]
  rfl

theorem Balanced.openBytes (balanced : Balanced limits maxStreams queue mode labels P lanes) (s : StreamId) :
    P.openBytes s = joined (lanes s).packets := by
  unfold Program.openBytes
  cases found : P.runtime.router.buffers.get? s with
  | some b =>
    exact (balanced.wired.found found).chunks_flatten
  | none =>
    rw [balanced.wired.absent found]
    rfl

end Program

omit [Platform]

def datagramsPut (labels : List Label) : List Bytes := datagramsOf (putItems (sourceActions labels))

theorem datagramsOf_length {items : List RawItem} (absent : .shutdown ∉ items) :
    (datagramsOf items).length = items.length := by
  induction items with
  | nil => rfl
  | cons item rest ih =>
    have later := ih fun member => absent (List.mem_cons_of_mem _ member)
    cases item with
    | shutdown => exact absurd (List.mem_cons_self ..) absent
    | datagram raw =>
      rw [datagramsOf, List.filterMap_cons, RawItem.raw?, List.length_cons, List.length_cons, ← later]
      rfl

theorem Threads.puts_shutdown {queue : BoundedRawQueue RawItem} {mode : Mode} {labels : List Label} {σ : Threads}
    (ran : runs Threads.step (.main queue mode) labels = some σ) :
    .shutdown ∉ (putItems (sourceActions labels)).dropLast := by
  have source := runs_source ran
  cases mode with
  | live recorder =>
    have among : ∀ item ∈ putItems (sourceActions labels), item ≠ .shutdown := by
      cases at' : σ.source with
      | live pc =>
        rw [at'] at source
        obtain ⟨puts, -⟩ := LivePc.runs_io source
        intro item member
        have inside := List.mem_append_left (pc.unput.map fun r => RawItem.datagram r.1) member
        rw [← puts] at inside
        obtain ⟨received, -, rfl⟩ := List.mem_map.mp inside
        simp
      | liveIdle =>
        rw [at'] at source
        rw [show sourceActions labels = [] from source]
        simp [putItems]
      | replay pace pc => rw [at'] at source; exact absurd source id
      | replayIdle pace => rw [at'] at source; exact absurd source id
    exact fun member => among _ (List.dropLast_subset _ member) rfl
  | replay pace =>
    obtain ⟨pc, calls⟩ := source.replay
    obtain ⟨sent, puts⟩ := ReplayPc.runs_puts calls
    rw [putItems, puts]
    split
    · rw [List.dropLast_concat]
      simp
    · rw [List.append_nil]
      exact fun member => absurd (List.dropLast_subset _ member) (by simp)

variable [Platform]

theorem Program.taken_ordered {maxsize : Int} {queue : BoundedRawQueue RawItem} {mode : Mode} {start : Runtime}
    {labels : List (Label × Clock)} {P : Program} (created : BoundedRawQueue.new maxsize = .ok queue)
    (ran : runs Program.step (main queue mode start) labels = some P)
    (taken : datagramsOf (BoundedRawQueue.run (queueOps (labels.map Prod.fst)) queue).1 =
      handled (main queue mode start) labels ++ P.threads.consumer.inHandRaw) :
    List.Sublist (handled (main queue mode start) labels ++ P.threads.consumer.inHandRaw ++
      datagramsOf P.threads.queue.items) (datagramsPut (labels.map Prod.fst)) := by
  have ordered := (queue.accounts created (queueOps (labels.map Prod.fst))).ordered.filterMap RawItem.raw?
  rw [puts_queueOps] at ordered
  change List.Sublist (datagramsOf _) (datagramsOf (putItems _)) at ordered
  rwa [datagramsOf_append, taken, ← Threads.runs_queue (runs_threads ran)] at ordered

theorem Program.Balanced.total {limits : Limits} {maxStreams maxsize : Int} {queue : BoundedRawQueue RawItem}
    {mode : Mode} {labels : List (Label × Clock)} {P : Program} {lanes : StreamId → Lane}
    (balanced : Balanced limits maxStreams queue mode labels P lanes)
    (ran : runs Program.step (launch limits maxStreams queue mode) labels = some P)
    (created : BoundedRawQueue.new maxsize = .ok queue) :
    (datagramsPut (labels.map Prod.fst)).length = (handled (launch limits maxStreams queue mode) labels).length +
      P.threads.consumer.inHandRaw.length + P.threads.queue.dropped + (datagramsOf P.threads.queue.items).length := by
  have threads := Program.runs_threads ran
  have final := Threads.runs_queue threads
  have accounts := queue.accounts created (queueOps (labels.map Prod.fst))
  have puts : BoundedRawQueue.puts (queueOps (labels.map Prod.fst)) = putItems (sourceActions (labels.map Prod.fst)) :=
    puts_queueOps _
  have whole := (accounts.partition.filterMap RawItem.raw?).length_eq
  have dropped := accounts.dropped
  have kept : .shutdown ∉ BoundedRawQueue.evictions (queueOps (labels.map Prod.fst)) queue := by
    intro evicted
    have early := accounts.last.subset evicted
    rw [puts] at early
    exact Threads.puts_shutdown threads early
  have evicted := datagramsOf_length kept
  change (datagramsOf _).length = (datagramsOf _).length at whole
  rw [datagramsOf_append, datagramsOf_append, balanced.taken, ← final, puts, List.length_append, List.length_append,
    List.length_append, evicted, ← dropped, ← final] at whole
  exact whole

/-- Nothing is lost in silence, in any state of any run of the three threads: every datagram put is still queued or in
    Thread B's hand, or counted by the queue or the interpreter, or has given a record; the records come of the
    datagrams in their order; and each stream's data records are, byte for byte, its emitted units and its open
    window. -/
theorem no_silent_loss (maxsize : Int) (queue : BoundedRawQueue RawItem)
    (created : BoundedRawQueue.new maxsize = .ok queue) (mode : Mode) (maxStreams : Int) (limits : Limits)
    (labels : List (Label × Clock)) (P : Program)
    (ran : runs Program.step (Program.launch limits maxStreams queue mode) labels = some P) :
    let put := datagramsPut (labels.map Prod.fst)
    let handled := Program.handled (Program.launch limits maxStreams queue mode) labels
    let returned := Program.returned (Program.launch limits maxStreams queue mode) labels
    put.length = P.threads.queue.dropped + P.runtime.interpreter.errors + P.runtime.interpreter.dropped +
        returned.countP Option.isSome + P.threads.consumer.inHandRaw.length +
        (datagramsOf P.threads.queue.items).length ∧
      List.Sublist (handled ++ P.threads.consumer.inHandRaw ++ datagramsOf P.threads.queue.items) put ∧
      returned = Interpreter.outputs handled (Interpreter.new maxStreams) ∧
      P.runtime.router.dropped = 0 ∧ (∀ s b, P.runtime.router.buffers.get? s = some b → b.dropped = 0) ∧
      (∀ s, (unitsOf s P.runtime.consumer.sent).flatMap (fun u => u.samples.raw) ++ P.openBytes s =
        (dataRecords s returned).flatMap Prod.snd) ∧
      (P.threads.consumer = .finished → ∀ s, P.openBytes s = []) := by
  intro put handled returned
  obtain ⟨lanes, balanced⟩ := Program.balanced_runs ran
  have counted := Interpreter.outputs_counted handled (Interpreter.new maxStreams)
  rw [← balanced.interpreter, ← balanced.records] at counted
  refine ⟨?_, Program.taken_ordered created ran balanced.taken, balanced.records, balanced.wired.dropped, ?_, ?_, ?_⟩
  · have total : put.length = handled.length + P.threads.consumer.inHandRaw.length + P.threads.queue.dropped +
        (datagramsOf P.threads.queue.items).length := balanced.total ran created
    have outcomes : returned.countP Option.isSome + P.runtime.interpreter.errors + P.runtime.interpreter.dropped =
        handled.length := counted
    omega
  · exact fun s b found => (balanced.wired.found found).labels.dropped
  · intro s
    have cut := (balanced.wired.sound s).cut.conserved Packet.data fun _ stray => stray
    rw [← List.flatMap_def, List.flatMap_assoc] at cut
    rw [← balanced.recorded s, List.flatMap_map, balanced.wired.emitted, List.flatMap_map, balanced.openBytes]
    exact cut.symm
  · intro finished s
    rw [balanced.openBytes, balanced.flushed (.inr finished) s]
    rfl

end

namespace Session

open Exact

theorem no_silent_loss_session :
    ∃ P, runs Program.step (.launch ⟨100, 10⟩ 256 rawQueue (.live (some (.new none (some 1000))))) live = some P ∧
      ∀ s, (unitsOf s P.runtime.consumer.sent).flatMap (fun u => u.samples.raw) ++ P.openBytes s =
        (dataRecords s (Program.returned (.launch ⟨100, 10⟩ 256 rawQueue (.live (some (.new none (some 1000)))))
          live)).flatMap
          Prod.snd := by
  obtain ⟨P, r, session, -⟩ := live_session
  obtain ⟨-, -, -, -, -, conserved, -⟩ :=
    no_silent_loss 4 rawQueue rfl (.live (some (.new none (some 1000)))) 256 ⟨100, 10⟩ live P session.ran
  exact ⟨P, session.ran, conserved⟩

end Session

end Sceptre
