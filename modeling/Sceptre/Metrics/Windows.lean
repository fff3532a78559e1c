import Sceptre.Metrics.Books
import Sceptre.Windowing.Routing

namespace Sceptre

theorem metered_stream (k : Consumer) (s : StreamId) :
    (ThroughputMeter.metered k).streams.get? s =
      if unitsOf s k.sent = [] then none
      else some (((unitsOf s k.sent).map EmitUnit.tallied).foldl StreamStat.tally {}) := by
  have own : (k.sent.map EmitUnit.tallied).filter (fun u => u.streamId = s) =
      (unitsOf s k.sent).map EmitUnit.tallied := by
    rw [List.filter_map, unitsOf]
    rfl
  simp only [ThroughputMeter.metered, ThroughputMeter.call_stream, own, List.map_eq_nil_iff]
  rfl

variable {s : StreamId}

/-- What the meter reads of a closed window: the timestamp of its first packet, the rate in force for every
    packet, and at least one sample. -/
structure Window.Tallies (s : StreamId) (w : Window) (first : Packet) : Prop where
  member : first ∈ w.packets
  solid : first.data ≠ []
  rate : (w.render s).tallied.context.bind Context.sampleRateHz = first.context.sampleRateHz
  shared : ∀ p ∈ w.packets, p.context.sampleRateHz = first.context.sampleRateHz
  start : (w.render s).tallied.startTimestamp = first.metadata.timestamp
  positive : 0 < windowSamples w.packets

theorem Lane.Sound.tallies [Platform] {l : Lane} (sound : l.Sound) (s : StreamId) {w : Window} (member : w ∈ l.closed) :
    ∃ first rest, w.packets = first :: rest ∧ w.Tallies s first := by
  obtain ⟨c, name, complex, group, first, rest, label, usable, split, solid, covered⟩ := sound.window member
  have head : first ∈ w.packets := by simp [split]
  obtain ⟨n, one, -, -, samples⟩ := Window.render_counted (s := s) usable.positive split solid
    fun p here => (covered p here).2
  refine ⟨first, rest, split, head, solid, ?_, ?_, ?_, ?_⟩
  · show w.label.bind Context.sampleRateHz = _
    rw [label, Option.bind_some, (covered first head).1.sampleRateHz]
  · intro p inside
    rw [(covered p inside).1.sampleRateHz, (covered first head).1.sampleRateHz]
  · simp [EmitUnit.tallied, Window.render, split]
  · show 0 < (w.render s).numSamples
    rw [samples]
    omega

theorem Window.Tallies.timed {w : Window} {first : Packet} (tallies : w.Tallies s first) {rate ts : ℚ}
    (declared : first.context.sampleRateHz = some rate) (positive : 0 < rate)
    (stamped : first.metadata.timestamp = some ts) :
    (w.render s).tallied.Timed ⟨ts, rate, windowSamples w.packets⟩ :=
  ⟨tallies.rate.trans declared, tallies.start.trans stamped, rfl, positive, tallies.positive⟩

theorem Window.Tallies.untimed {w : Window} {first : Packet} (tallies : w.Tallies s first)
    (undeclared : ∀ rate, first.context.sampleRateHz = some rate → ¬ 0 < rate) : (w.render s).tallied.Untimed :=
  fun t timed => undeclared t.rate (tallies.rate.symm.trans timed.rate) timed.positive

end Sceptre
