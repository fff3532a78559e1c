import Sceptre.Runtime.Agreement

namespace Sceptre

open Foundation

variable [Platform] {limits : Limits} {maxStreams : Int} {σ : Runtime} {lanes : StreamId → Lane}

/-- The packet is the data record one call of `process` returned for stream `s`, and its context is the
    one the interpreter had decoded last for `s` before that call. -/
def Packet.ProcessedIn (maxStreams : Int) (events : List Event) (s : StreamId) (p : Packet) : Prop :=
  ∃ earlier raw later, events = earlier ++ .datagram raw p.arrival :: later ∧
    p.metadata.streamId = s ∧
    Interpreter.output raw (Interpreter.run (datagrams earlier) (Interpreter.new maxStreams)) =
      some (.data p.metadata p.data) ∧
    latestContext s (Interpreter.outputs (datagrams earlier) (Interpreter.new maxStreams)) = some p.context

theorem processedIn_of_mem {events : List Event} {s : StreamId} {p : Packet}
    (member : p ∈ packetsOf s (Interpreter.new maxStreams) events) : p.ProcessedIn maxStreams events s := by
  obtain ⟨earlier, raw, later, split, returned, own, inForce⟩ := mem_packetsOf member
  rw [contexts_latest] at inForce
  exact ⟨earlier, raw, later, split, own, returned, by simpa [Interpreter.new] using inForce⟩

omit [Platform] in
theorem Window.startTimestamp {s : StreamId} {w : Window} {first : Packet} {rest : List Packet}
    (split : w.packets = first :: rest) (solid : first.data ≠ []) :
    (w.render s).startTimestamp = (w.packets.find? fun p => p.data ≠ []).bind fun p => p.metadata.timestamp := by
  simp [Window.render, split, solid]

/-- Labels are right: every unit carries a supported context, that of its own samples, and every packet in
    it was received while the stream's context agreed with it. -/
theorem labels_right (maxStreams maxSamples : Int) (maxAgeS : ℚ) (events : List Event) :
    ∃ σ, Runtime.drive events (buildRuntime maxStreams maxSamples maxAgeS .quiet) = (.ok (), σ) ∧
      ∀ s, ∃ windows current,
        Segmentation Packet.Stray Packet.Follows (packetsOf s (Interpreter.new maxStreams) events) windows current ∧
        List.Forall₂ (fun packets u =>
          u.samples.raw = packets.flatMap Packet.data ∧
          u.startTimestamp = ((packets.find? fun p => p.data ≠ []).bind fun p => p.metadata.timestamp) ∧
          ∃ ctx name complex bytesPerSample, u.context = some ctx ∧ ctx.supported = some true ∧
            ctx.componentDtype.join = some name ∧ u.componentDtype = some name ∧
            ctx.isComplex = some complex ∧ u.isComplex = some complex ∧
            ctx.bytesPerSample.join = some bytesPerSample ∧ u.bytesPerSample = some bytesPerSample ∧
            ∀ p ∈ packets, p.ProcessedIn maxStreams events s ∧
              p.context.rfHz = ctx.rfHz ∧ p.context.sampleRateHz = ctx.sampleRateHz ∧
              p.context.componentDtype.join = ctx.componentDtype.join ∧ p.context.isComplex = ctx.isComplex ∧
              p.metadata.dtype = some name ∧ p.metadata.isComplex = some complex ∧
              p.metadata.bytesPerSample = some bytesPerSample)
          windows (unitsOf s σ.consumer.sent) := by
  obtain ⟨σ, returned, -, wired⟩ := driven ⟨maxSamples, maxAgeS⟩ maxStreams events
  refine ⟨σ, returned, fun s => ?_⟩
  have sound := wired.sound s
  have cut := sound.cut
  rw [laneOf_received] at cut
  refine ⟨_, _, cut, ?_⟩
  rw [wired.emitted, List.forall₂_map_left_iff, List.forall₂_map_right_iff, List.forall₂_same]
  intro w member
  obtain ⟨ctx, name, complex, group, first, rest, label, usable, split, solid, covered⟩ := sound.window member
  have reads : ∀ p ∈ w.packets, p.Reads name complex group := fun p inside => (covered p inside).2
  obtain ⟨dtype, isComplex, size, -⟩ := Window.render_reads (s := s) split reads
  refine ⟨rfl, Window.startTimestamp split solid, ctx, name, complex, group, label, usable.supported, ?_, dtype,
    usable.isComplex, isComplex, ?_, size, ?_⟩
  · rw [usable.componentDtype, Option.join_some]
  · rw [usable.bytesPerSample, Option.join_some]
  · intro p inside
    obtain ⟨same, read⟩ := covered p inside
    have source := (cut.isInfix _ (List.mem_map_of_mem member)).subset inside
    exact ⟨processedIn_of_mem source, same.rfHz, same.sampleRateHz, same.componentDtype, same.isComplex,
      read.dtype, read.isComplex, read.bytesPerSample⟩

end Sceptre
