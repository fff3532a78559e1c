import Sceptre.Runtime.Records

namespace Sceptre

open Foundation

variable [Platform] {limits : Limits} {maxStreams : Int} {σ : Runtime} {lanes : StreamId → Lane}

namespace Pipeline

def calls : List Tick → List Event
  | [] => []
  | tick :: rest =>
    match tick.got with
    | .shutdown => []
    | .timeout => .poll tick.readings :: calls rest
    | .item raw => .datagram raw tick.arrival :: .poll tick.readings :: calls rest

def dequeued (ticks : List Tick) : List Bytes := datagrams (calls ticks)

theorem iterate_item {tick : Tick} {raw : Bytes} (got : tick.got = .item raw) :
    iterate tick = do
      Runtime.handle (.datagram raw tick.arrival)
      Runtime.maybeFlushOnAge tick.readings
      return true := by
  funext σ
  rw [iterate, got, Runtime.handle, bind_assoc]
  dsimp only
  rw [Method.bind_returns (Method.attempt_returns (process_returns raw σ)),
    Method.bind_returns (process_returns raw σ)]

theorem loop_eq_drive (ticks : List Tick) : loop ticks = Runtime.drive (calls ticks) := by
  induction ticks with
  | nil => rfl
  | cons tick rest ih =>
    rw [loop, calls]
    cases got : tick.got with
    | shutdown => simp [iterate, got, Runtime.drive]
    | timeout => simp [iterate, got, Runtime.drive, Runtime.handle, ih]
    | item raw => simp [iterate_item got, Runtime.drive, Runtime.handle, ih]

end Pipeline

theorem Context.Classified.inert_iff {c : Context} (classified : c.Classified) :
    c.inert = true ↔ c.supported = some false ∨ c.bytesPerSample.join = none := by
  rw [Context.inert, decide_eq_true_eq]
  rcases classified with ⟨name, complex, group, usable⟩ | unusable
  · simp [usable.supported, usable.componentDtype, usable.bytesPerSample]
  · simp [unusable.componentDtype, unusable.bytesPerSample]

theorem Interpreter.process_dropped_iff {i : Interpreter} {raw : Bytes} {hdr : Header} {ctx : Context}
    (parsed : parseHeader raw = .ok hdr) (kind : hdr.packetType = packetTypeIfData)
    (tracked : i.contexts.get? hdr.streamId = some ctx) :
    process raw i = (.ok none, i.drop) ↔ ctx.supported = some false ∨ ctx.bytesPerSample.join = none := by
  have reached : processRaw raw i = processData raw hdr i := by
    simp [processRaw, parsed, kind, packetTypeIfData, packetTypeIfContext]
  rw [process, reached, processData, tracked]
  dsimp only
  by_cases unsupported : ctx.supported = some false
  · simp [unsupported]
  · rw [if_neg unsupported]
    cases sized : ctx.bytesPerSample.join with
    | none => simp
    | some bytesPerSample =>
      dsimp only
      cases trimmed : trimData raw hdr bytesPerSample with
      | error e =>
        refine iff_of_false (fun same => ?_) (by simp [unsupported])
        have counted := congrArg (fun ran : Except Exn (Option Record) × Interpreter => ran.2.errors) same
        exact absurd counted (Nat.succ_ne_self i.errors)
      | ok trim =>
        refine iff_of_false (fun same => ?_) (by simp [unsupported])
        cases congrArg (fun ran : Except Exn (Option Record) × Interpreter => ran.1) same

theorem Wired.iterate (wired : Wired limits maxStreams σ lanes) (tick : Tick) :
    ∃ more σ', Pipeline.iterate tick σ = (.ok more, σ') := by
  cases got : tick.got with
  | shutdown => exact ⟨false, σ, by rw [Pipeline.iterate, got]; rfl⟩
  | timeout =>
    obtain ⟨σ', polled, -⟩ := wired.handle (.poll tick.readings)
    refine ⟨true, σ', ?_⟩
    rw [Pipeline.iterate, got]
    exact Method.bind_returns polled _
  | item raw =>
    obtain ⟨σ', handled, -, -, wired'⟩ := wired.handle (.datagram raw tick.arrival)
    obtain ⟨σ'', polled, -⟩ := wired'.handle (.poll tick.readings)
    refine ⟨true, σ'', ?_⟩
    rw [Pipeline.iterate_item got, Method.bind_returns handled]
    exact Method.bind_returns polled _

theorem Wired.unit (wired : Wired limits maxStreams σ lanes) {u : EmitUnit} (member : u ∈ σ.consumer.sent) :
    ∃ w ∈ (lanes u.streamId).closed, Window.render u.streamId w = u := by
  have own : u ∈ unitsOf u.streamId σ.consumer.sent := List.mem_filter.mpr ⟨member, decide_eq_true rfl⟩
  rw [wired.emitted] at own
  exact List.mem_map.mp own

theorem Wired.converted (wired : Wired limits maxStreams σ lanes) {u : EmitUnit} (member : u ∈ σ.consumer.sent) :
    ∃ name dt, u.componentDtype = some name ∧ Platform.dtype name = some dt ∧ 0 < dt.itemsize ∧
      dt.itemsize * (if u.isComplex = some true then 2 else 1) ∣ u.samples.raw.length := by
  obtain ⟨w, closed, same⟩ := wired.unit member
  obtain ⟨c, name, complex, group, first, rest, -, usable, split, solid, covered⟩ :=
    (wired.sound u.streamId).window closed
  have reads : ∀ p ∈ w.packets, p.Reads name complex group := fun p inside => (covered p inside).2
  obtain ⟨dtype, isComplex, -, -⟩ := Window.render_reads (s := u.streamId) split reads
  obtain ⟨n, -, length, -, -⟩ := Window.render_counted (s := u.streamId) usable.positive split solid reads
  rw [same] at dtype isComplex length
  obtain ⟨dt, known, -, positive, size⟩ := usable.wire
  refine ⟨name, dt, dtype, known, positive, n, ?_⟩
  rw [length, size, isComplex]
  cases complex <;> simp [Nat.mul_comm]

theorem Wired.agrees (wired : Wired limits maxStreams σ lanes) {s : StreamId} {b : IngestBuffer}
    (found : σ.router.buffers.get? s = some b) :
    b.currentContext = σ.interpreter.contexts.get? s ∧ b.dropped = 0 ∧
      ∀ raw hdr, parseHeader raw = .ok hdr → hdr.packetType = packetTypeIfData → hdr.streamId = s →
        (b.inert = true ↔ Interpreter.process raw σ.interpreter = (.ok none, σ.interpreter.drop)) := by
  have labels := (wired.found found).labels
  have context := labels.context.trans (wired.context s)
  refine ⟨context, labels.dropped, ?_⟩
  intro raw hdr parsed kind own
  have tracked : s ∈ σ.interpreter.contexts.keys := by
    rw [← wired.keys]
    exact (OrderedDict.mem_keys_iff ..).mpr ⟨b, found⟩
  obtain ⟨ctx, held⟩ := (OrderedDict.mem_keys_iff ..).mp tracked
  subst own
  rw [Interpreter.process_dropped_iff parsed kind held, labels.inert, wired.context, held, Option.any_some]
  exact (wired.tracking.classified _ _ held).inert_iff

/-- After every iteration, whatever was dequeued: the buffers hold the interpreter's streams and contexts,
    nothing was dropped between the two, and the next iteration does not raise. -/
theorem components_agree (maxStreams maxSamples : Int) (maxAgeS : ℚ) (ticks : List Tick) :
    ∃ σ, Pipeline.loop ticks (buildRuntime maxStreams maxSamples maxAgeS .quiet) = (.ok (), σ) ∧
      (∀ s, s ∈ σ.router.buffers.keys ↔ s ∈ σ.interpreter.contexts.keys) ∧
      (∀ s b, σ.router.buffers.get? s = some b →
        b.currentContext = σ.interpreter.contexts.get? s ∧ b.dropped = 0 ∧
        ∀ raw hdr, parseHeader raw = .ok hdr → hdr.packetType = packetTypeIfData → hdr.streamId = s →
          (b.inert = true ↔ Interpreter.process raw σ.interpreter = (.ok none, σ.interpreter.drop))) ∧
      σ.router.dropped = 0 ∧
      (∀ raw, ∃ record i', Interpreter.process raw σ.interpreter = (.ok record, i')) ∧
      (∀ tick, ∃ more σ', Pipeline.iterate tick σ = (.ok more, σ')) ∧
      ∀ u ∈ σ.consumer.sent, ∃ name dt, u.componentDtype = some name ∧ Platform.dtype name = some dt ∧
        0 < dt.itemsize ∧ dt.itemsize * (if u.isComplex = some true then 2 else 1) ∣ u.samples.raw.length := by
  obtain ⟨σ, returned, -, wired⟩ := driven ⟨maxSamples, maxAgeS⟩ maxStreams (Pipeline.calls ticks)
  refine ⟨σ, by rw [Pipeline.loop_eq_drive]; exact returned, ?_, ?_, wired.dropped, ?_, ?_, ?_⟩
  · intro s
    rw [wired.keys]
  · exact fun s b found => wired.agrees found
  · exact fun raw => ⟨_, _, (Interpreter.process_returns raw σ.interpreter).1⟩
  · exact wired.iterate
  · exact fun u member => wired.converted member

end Sceptre
