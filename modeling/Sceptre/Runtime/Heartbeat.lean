import Sceptre.Runtime.Sender

namespace Sceptre

open Foundation

section
variable [Platform] {limits : Limits} {maxStreams : Int} {σ : Runtime} {lanes : StreamId → Lane}

/-- The datagram is a context packet that says what its stream's context already says. -/
def Interpreter.repeats (raw : Bytes) (i : Interpreter) : Bool :=
  match Interpreter.output raw i with
  | some (.context md (some ctx)) => i.contexts.get? md.streamId = some ctx
  | _ => false

def silenced : Interpreter → List Tick → List Tick
  | _, [] => []
  | i, tick :: rest =>
    match tick.got with
    | .item raw =>
      (if Interpreter.repeats raw i then { tick with got := .timeout }
        else tick) :: silenced (Interpreter.after raw i) rest
    | _ => tick :: silenced i rest

theorem Interpreter.repeats_cases {raw : Bytes} {i : Interpreter} (repeated : Interpreter.repeats raw i = true) :
    ∃ md ctx, Interpreter.output raw i = some (.context md (some ctx)) ∧ i.contexts.get? md.streamId = some ctx ∧
      Interpreter.after raw i = i := by
  have outcome := Interpreter.processed raw i
  unfold Interpreter.repeats at repeated
  generalize Interpreter.output raw i = out at *
  generalize Interpreter.after raw i = i' at *
  cases outcome with
  | rejected => cases repeated
  | dropped => cases repeated
  | @context hdr ctx parsed kind admitted decoded =>
    have held : i.contexts.get? hdr.streamId = some ctx := of_decide_eq_true repeated
    refine ⟨_, ctx, rfl, held, ?_⟩
    rw [OrderedDict.insert_same held]
  | data => cases repeated

theorem Refines.pushContext_same {s : StreamId} {b : IngestBuffer} {l : Lane} (refines : Refines limits s b l)
    {ctx : Context} (inForce : l.context = some ctx) (k : Consumer) : IngestBuffer.pushContext (some ctx)
    (b, k) = (.ok (), b, k) := by
  have unchanged : ¬ (b.chunks ≠ [] ∧ b.differs ctx = true) := by
    rintro ⟨-, differs⟩
    exact (refines.differs inForce ctx).mp differs (.refl ctx)
  have adopted : IngestBuffer.adopt ctx b = b := by
    have inert : b.inert = ctx.inert := by
      rw [refines.labels.inert, inForce]
      rfl
    obtain ⟨maxSamples, maxAgeS, streamId, flushFields, chunks, numSamples, componentDtype, bytesPerSample, isComplex,
      startTimestamp, firstArrival, currentContext, inert', dropped⟩ := b
    have context : currentContext = some ctx := refines.labels.context.trans inForce
    subst context
    dsimp only at inert
    subst inert
    rfl
  have skipped : Method.when (b.chunks ≠ [] ∧ b.differs ctx) IngestBuffer.flush (b, k) = (.ok (), b, k) := by
    rw [Method.when_false unchanged]
    rfl
  rw [IngestBuffer.pushContext, Method.read_bind, Method.bind_returns skipped]
  show (Except.ok (), IngestBuffer.adopt ctx b, k) = _
  rw [adopted]

theorem Wired.heartbeat (wired : Wired limits maxStreams σ lanes) {raw : Bytes}
    (repeated : Interpreter.repeats raw σ.interpreter = true) (arrival : ℚ) :
    Runtime.handle (.datagram raw arrival) σ = (.ok (), σ) := by
  obtain ⟨md, ctx, output, held, after⟩ := Interpreter.repeats_cases repeated
  have present : md.streamId ∈ σ.router.buffers.keys := by
    rw [wired.keys]
    exact (OrderedDict.mem_keys_iff ..).mpr ⟨ctx, held⟩
  obtain ⟨b, found⟩ := (OrderedDict.mem_keys_iff ..).mp present
  have buffer : σ.router.bufferFor md.streamId = b := bufferFor_found found
  have kept : IngestBuffer.push (.context md (some ctx)) arrival (b, σ.consumer) = (.ok (), b, σ.consumer) :=
    (wired.found found).pushContext_same ((wired.context _).trans held) σ.consumer
  have pushed : BufferRouter.push (.context md (some ctx)) arrival (σ.router, σ.consumer) =
    (.ok (), σ.router, σ.consumer) := by
    have room : ¬ (md.streamId ∉ σ.router.buffers.keys ∧ (σ.router.buffers.size : Int) ≥ σ.router.maxStreams) :=
      fun full => full.1 present
    unfold BufferRouter.push
    dsimp only [Record.metadata]
    rw [if_neg room, Method.within, buffer, kept]
    dsimp only
    rw [OrderedDict.insert_same found]
  rw [Runtime.handle, Method.bind_returns (process_returns raw σ), output, after, Runtime.push, routing_returns pushed]

theorem Wired.silenced (wired : Wired limits maxStreams σ lanes) (ticks : List Tick) :
    Pipeline.loop (silenced σ.interpreter ticks) σ = Pipeline.loop ticks σ := by
  induction ticks generalizing σ lanes with
  | nil => rfl
  | cons tick rest ih =>
    have polled : ∀ {σ' : Runtime} {lanes' : StreamId → Lane}, Wired limits maxStreams σ' lanes' →
        (do Runtime.maybeFlushOnAge tick.readings; Pipeline.loop (Sceptre.silenced σ'.interpreter rest)) σ' =
          (do Runtime.maybeFlushOnAge tick.readings; Pipeline.loop rest) σ' := by
      intro σ' lanes' wired'
      obtain ⟨σ'', returned, interpreter, -, wired''⟩ := wired'.handle (.poll tick.readings)
      have same : σ''.interpreter = σ'.interpreter := interpreter
      change Runtime.maybeFlushOnAge tick.readings σ' = _ at returned
      rw [Method.bind_returns returned, Method.bind_returns returned, ← same]
      exact ih wired''
    rw [Sceptre.silenced]
    cases got : tick.got with
    | shutdown => simp [Pipeline.loop, Pipeline.iterate, got]
    | timeout =>
      have step := polled wired
      simpa [Pipeline.loop, Pipeline.iterate, got] using step
    | item raw =>
      dsimp only
      obtain ⟨σ', returned, interpreter, -, wired'⟩ := wired.handle (.datagram raw tick.arrival)
      have step := polled wired'
      rw [interpreter] at step
      have taken : ∀ later, Pipeline.loop (tick :: later) σ =
          (do Runtime.maybeFlushOnAge tick.readings; Pipeline.loop later) σ' := by
        intro later
        rw [Pipeline.loop, Pipeline.iterate_item got, bind_assoc, Method.bind_returns returned]
        simp
      rw [taken]
      by_cases repeated : Interpreter.repeats raw σ.interpreter = true
      · rw [wired.heartbeat repeated] at returned
        cases returned
        rw [if_pos repeated, ← step, Pipeline.loop]
        simp [Pipeline.iterate]
        rfl
      · rw [if_neg repeated, taken]
        exact step

theorem silenced_records (s : StreamId) (i : Interpreter) (ticks : List Tick) :
    dataRecords s (Interpreter.outputs (Pipeline.dequeued (silenced i ticks)) i) =
      dataRecords s (Interpreter.outputs (Pipeline.dequeued ticks) i) := by
  induction ticks generalizing i with
  | nil => rfl
  | cons tick rest ih =>
    rw [silenced]
    cases got : tick.got with
    | shutdown => simp [Pipeline.dequeued, Pipeline.calls, got]
    | timeout =>
      have later := ih i
      simp only [Pipeline.dequeued, Pipeline.calls, got] at later ⊢
      exact later
    | item raw =>
      have later := ih (Interpreter.after raw i)
      have taken : ∀ more, Interpreter.outputs (Pipeline.dequeued (tick :: more)) i =
          Interpreter.output raw i :: Interpreter.outputs (Pipeline.dequeued more) (Interpreter.after raw i) := by
        intro more
        simp only [Pipeline.dequeued, Pipeline.calls, got]
        rfl
      dsimp only
      rw [taken, dataRecords_cons, ← later]
      by_cases repeated : Interpreter.repeats raw i = true
      · obtain ⟨md, ctx, output, -, after⟩ := Interpreter.repeats_cases repeated
        rw [if_pos repeated, output, after]
        simp only [Pipeline.dequeued, Pipeline.calls]
        rfl
      · rw [if_neg repeated, taken, dataRecords_cons]

/-- Heartbeats are invisible: a run with a timeout in place of each makes the same data records, emits the same units
    in the same windows, and ends in the same state. -/
theorem heartbeats_invisible (maxStreams maxSamples : Int) (maxAgeS : ℚ) (ticks : List Tick) :
    let quiet := silenced (Interpreter.new maxStreams) ticks
    Pipeline.run quiet (buildRuntime maxStreams maxSamples maxAgeS .quiet) =
        Pipeline.run ticks (buildRuntime maxStreams maxSamples maxAgeS .quiet) ∧
      ∀ s, dataRecords s (Interpreter.outputs (Pipeline.dequeued quiet) (Interpreter.new maxStreams)) =
        dataRecords s (Interpreter.outputs (Pipeline.dequeued ticks) (Interpreter.new maxStreams)) := by
  intro quiet
  refine ⟨?_, fun s => silenced_records s _ ticks⟩
  have looped : Pipeline.loop quiet (buildRuntime maxStreams maxSamples maxAgeS .quiet) =
      Pipeline.loop ticks (buildRuntime maxStreams maxSamples maxAgeS .quiet) :=
    (Wired.initial ⟨maxSamples, maxAgeS⟩ maxStreams).silenced ticks
  simp only [Pipeline.run, Method.ensure_run, looped]

end

end Sceptre
