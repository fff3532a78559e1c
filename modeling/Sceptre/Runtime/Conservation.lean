import Sceptre.Runtime.Agreement

namespace Sceptre

open Foundation

variable [Platform] {limits : Limits} {maxStreams : Int} {σ : Runtime} {lanes : StreamId → Lane}

namespace Pipeline

theorem run_returns (limits : Limits) (maxStreams : Int) (ticks : List Tick) :
    ∃ σ, run ticks (buildRuntime maxStreams limits.maxSamples limits.maxAgeS .quiet) =
        (.ok (), { σ with sourceStopped := true }) ∧
      Wired limits maxStreams σ fun s =>
        laneOf limits s (Interpreter.new maxStreams) (calls ticks ++ [.flushAll]) := by
  obtain ⟨σ, looped, interpreter, wired⟩ := driven limits maxStreams (calls ticks)
  obtain ⟨σ', flushed, -, -, wired'⟩ := wired.handle .flushAll
  refine ⟨σ', ?_, ?_⟩
  · rw [run, loop_eq_drive]
    exact Method.ensure_returns looped (Method.ensure_returns flushed rfl)
  · convert wired' using 2 with s
    rw [laneOf, trace_append, List.foldl_append]
    rfl

end Pipeline

theorem Lane.Sound.conserved {l : Lane} (sound : l.Sound) (finished : l.packets = []) :
    joined l.received = l.closed.flatMap fun w => joined w.packets := by
  have kept := sound.cut.conserved Packet.data fun _ stray => stray
  rw [finished, List.flatMap_nil, List.append_nil] at kept
  rw [joined, kept, ← List.flatMap_def, List.flatMap_assoc]
  rfl

theorem Wired.closed (wired : Wired limits maxStreams σ lanes) {s : StreamId} {b : IngestBuffer}
    (found : σ.router.buffers.get? s = some b) (finished : (lanes s).packets = []) : b.chunks = [] :=
  ((wired.found found).chunks_nil (wired.sound s)).mpr finished

theorem Wired.unit_counted (wired : Wired limits maxStreams σ lanes) {u : EmitUnit}
    (member : u ∈ σ.consumer.sent) :
    1 ≤ u.numSamples ∧ (u.samples.size : Int) = u.numSamples ∧
      ∃ bytesPerSample, u.bytesPerSample = some bytesPerSample ∧ 0 < bytesPerSample ∧
        u.numSamples * bytesPerSample = u.samples.raw.length := by
  obtain ⟨w, closed, same⟩ := wired.unit member
  obtain ⟨c, name, complex, group, first, rest, -, usable, split, solid, covered⟩ :=
    (wired.sound u.streamId).window closed
  have reads : ∀ p ∈ w.packets, p.Reads name complex group := fun p inside => (covered p inside).2
  have positive := usable.positive
  obtain ⟨-, -, size, -⟩ := Window.render_reads (s := u.streamId) split reads
  obtain ⟨n, one, length, count, samples⟩ := Window.render_counted (s := u.streamId) positive split solid reads
  rw [same] at size length count samples
  refine ⟨by omega, by omega, group, size, by omega, ?_⟩
  rw [samples, length, Int.natCast_mul]

/-- Every finished run has emitted every stream's samples once, in order, and left no window open. -/
theorem samples_conserved (maxStreams maxSamples : Int) (maxAgeS : ℚ) (ticks : List Tick) :
    ∃ σ, Pipeline.run ticks (buildRuntime maxStreams maxSamples maxAgeS .quiet) = (.ok (), σ) ∧
      σ.sourceStopped = true ∧
      (∀ s, (unitsOf s σ.consumer.sent).flatMap (fun u => u.samples.raw) =
        (dataRecords s (Interpreter.outputs (Pipeline.dequeued ticks) (Interpreter.new maxStreams))).flatMap
          Prod.snd) ∧
      (∀ s b, σ.router.buffers.get? s = some b → b.chunks = []) ∧
      ∀ u ∈ σ.consumer.sent, 1 ≤ u.numSamples ∧ (u.samples.size : Int) = u.numSamples ∧
        ∃ bytesPerSample, u.bytesPerSample = some bytesPerSample ∧ 0 < bytesPerSample ∧
          u.numSamples * bytesPerSample = u.samples.raw.length := by
  obtain ⟨σ, returned, wired⟩ := Pipeline.run_returns ⟨maxSamples, maxAgeS⟩ maxStreams ticks
  have finished : ∀ s, (laneOf ⟨maxSamples, maxAgeS⟩ s (Interpreter.new maxStreams)
      (Pipeline.calls ticks ++ [.flushAll])).packets = [] := by
    intro s
    rw [laneOf, trace_append, List.foldl_append]
    exact Lane.close_packets _
  refine ⟨_, returned, rfl, ?_, ?_, fun u member => wired.unit_counted member⟩
  · intro s
    have received := laneOf_received ⟨maxSamples, maxAgeS⟩ s (Interpreter.new maxStreams)
      (Pipeline.calls ticks ++ [.flushAll])
    have records := packetsOf_records s (Interpreter.new maxStreams) (Pipeline.calls ticks ++ [.flushAll])
    have dequeued : datagrams (Pipeline.calls ticks ++ [.flushAll]) = Pipeline.dequeued ticks := by
      simp [datagrams, Pipeline.dequeued, Event.raw?]
    have conserved := (wired.sound s).conserved (finished s)
    rw [← dequeued, ← records, ← received, List.flatMap_map, wired.emitted, List.flatMap_map]
    exact conserved.symm
  · exact fun s b found => wired.closed found (finished s)

end Sceptre
