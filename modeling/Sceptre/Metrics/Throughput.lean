import Mathlib.Algebra.BigOperators.Ring.Finset
import Mathlib.Tactic.FieldSimp
import Sceptre.Foundation.Tally
import Sceptre.Metrics.Masking
import Sceptre.Runtime.Conservation

namespace Sceptre

open Foundation

/-- The line `summary` writes, with its values before they are formatted: `{elapsed:.2f}`, `{ms_per_s:.2f}` and
    `{mb_per_s:.1f}` print fewer digits. -/
inductive Throughput where
  | noSamples
  | elapsedTooShort (totalSamples : Int)
  | rates (totalSamples : Int) (elapsed msPerS mbPerS : ℚ)
  deriving DecidableEq, Repr

/-- `summary`, its divisions taken exactly: `start` is the reading `start()` took, `now` the one taken here. -/
def ThroughputMeter.summary (m : ThroughputMeter) (start : Option ℚ) (now : ℚ) : Throughput :=
  if m.totalSamples = 0 then .noSamples
  else
    let elapsed := start.elim 0 fun start => now - start
    if elapsed ≤ 0 then .elapsedTooShort m.totalSamples
    else .rates m.totalSamples elapsed (m.totalSamples / elapsed / 10 ^ 6) (m.totalBytes / elapsed / 10 ^ 6)

def Record.payload? : Record → Option (Metadata × Bytes)
  | .data md body => some (md, body)
  | .context _ _ => none

def allRecords (returned : List (Option Record)) : List (Metadata × Bytes) :=
  returned.filterMap fun record => record.bind Record.payload?

def recordSamples (record : Metadata × Bytes) : Int := Int.fdiv record.2.length (record.1.bytesPerSample.getD 0)

theorem dataRecords_eq (s : StreamId) (returned : List (Option Record)) :
    dataRecords s returned = (allRecords returned).filter fun record => record.1.streamId = s := by
  rw [dataRecords, allRecords, List.filter_filterMap]
  apply List.filterMap_congr
  intro record _
  cases record with
  | none => rfl
  | some record =>
    cases record with
    | context md ctx => rfl
    | data md body =>
      by_cases own : md.streamId = s <;> simp [Record.dataOf?, Record.payload?, Option.filter, own]

namespace ThroughputMeter

theorem call_bytes (units : List Tallied) (m : ThroughputMeter) :
    (units.foldl call m).totalBytes =
      m.totalBytes + (units.map fun u => u.numSamples.getD 0 * u.bytesPerSample.getD 0).sum := by
  induction units generalizing m with
  | nil => simp
  | cons u rest ih =>
    rw [List.foldl_cons, ih, List.map_cons, List.sum_cons]
    exact Int.add_assoc ..

theorem call_count (units : List Tallied) (m : ThroughputMeter) :
    (units.foldl call m).unitCount = m.unitCount + units.length := by
  induction units generalizing m with
  | nil => rfl
  | cons u rest ih =>
    rw [List.foldl_cons, ih, List.length_cons]
    show m.unitCount + 1 + rest.length = _
    omega

end ThroughputMeter

namespace StreamStat

theorem commit_samples (s : StreamStat) (w : TimedWindow) : (s.commit w).totalSamples = s.totalSamples := by
  simp only [commit]
  split <;> rfl

theorem add_samples (s : StreamStat) (w : TimedWindow) : (s.add w).totalSamples = s.totalSamples := by
  obtain ⟨oldest, rest, -, ⟨-, kept⟩ | ⟨-, committed⟩⟩ := s.add_cases w
  · rw [kept]
  · rw [committed, commit_samples]

theorem tally_samples (s : StreamStat) (u : Tallied) :
    (s.tally u).totalSamples = s.totalSamples + u.numSamples.getD 0 := by
  unfold tally
  cases u.context.bind Context.sampleRateHz with
  | none => rfl
  | some rate =>
    dsimp only
    cases u.startTimestamp with
    | none => rfl
    | some ts =>
      dsimp only
      split
      · rw [add_samples]
      · rfl

theorem tally_all_samples (s : StreamStat) (units : List Tallied) :
    (units.foldl tally s).totalSamples = s.totalSamples + (units.map fun u => u.numSamples.getD 0).sum := by
  induction units generalizing s with
  | nil => simp
  | cons u rest ih => rw [List.foldl_cons, ih, tally_samples, List.map_cons, List.sum_cons, Int.add_assoc]

end StreamStat

section
variable [Platform] {limits : Limits} {maxStreams : Int} {σ : Runtime} {lanes : StreamId → Lane}

theorem Lane.Sound.counted {l : Lane} (sound : l.Sound) (finished : l.packets = []) :
    windowSamples l.received = (l.closed.map fun w => windowSamples w.packets).sum := by
  let solid : Packet → List Int := fun p => if p.data = [] then [] else [p.samples]
  have sums : ∀ packets, windowSamples packets = (packets.flatMap solid).sum := by
    intro packets
    induction packets with
    | nil => rfl
    | cons p rest ih =>
      rw [windowSamples, List.map_cons, List.sum_cons, ← windowSamples, ih, List.flatMap_cons, List.sum_append]
      by_cases empty : p.data = []
      · simp [solid, empty, Packet.samples]
      · simp [solid, empty]
  have kept := sound.cut.conserved solid fun p stray => if_pos stray
  rw [finished, List.flatMap_nil, List.append_nil, ← List.flatMap_def, List.flatMap_assoc] at kept
  rw [sums, kept, List.flatMap_def, List.sum_flatten, List.map_map]
  congr 1
  apply List.map_congr_left
  intro w _
  rw [sums]
  rfl

namespace ThroughputMeter

theorem stream_exact (limits : Limits) (maxStreams : Int) (ticks : List Tick) (s : StreamId)
    (wired : Wired limits maxStreams σ fun s => laneOf limits s (.new maxStreams)
    (Pipeline.calls ticks ++ [.flushAll])) :
    ((unitsOf s σ.consumer.sent).map EmitUnit.numSamples).sum =
        ((dataRecords s (Interpreter.outputs (Pipeline.dequeued ticks) (.new maxStreams))).map recordSamples).sum ∧
      ((unitsOf s σ.consumer.sent).map fun u => (u.samples.raw.length : Int)).sum =
        ((dataRecords s (Interpreter.outputs (Pipeline.dequeued ticks) (.new maxStreams))).map fun r =>
          (r.2.length : Int)).sum := by
  have finished : (laneOf limits s (.new maxStreams) (Pipeline.calls ticks ++ [.flushAll])).packets = [] := by
    rw [laneOf, trace_append, List.foldl_append]
    exact Lane.close_packets _
  have received := laneOf_received limits s (.new maxStreams) (Pipeline.calls ticks ++ [.flushAll])
  have records := packetsOf_records s (.new maxStreams) (Pipeline.calls ticks ++ [.flushAll])
  have dequeued : datagrams (Pipeline.calls ticks ++ [.flushAll]) = Pipeline.dequeued ticks := by
    simp [datagrams, Pipeline.dequeued, Event.raw?]
  rw [dequeued, ← received] at records
  rw [wired.emitted, ← records, List.map_map, List.map_map, List.map_map, List.map_map]
  constructor
  · exact ((wired.sound s).counted finished).symm
  · have bytes := congrArg List.length ((wired.sound s).conserved finished)
    rw [joined, List.length_flatMap, List.length_flatMap] at bytes
    have cast := congrArg (Nat.cast : Nat → Int) bytes
    rw [Nat.cast_list_sum, Nat.cast_list_sum, List.map_map, List.map_map] at cast
    exact cast.symm

omit [Platform] in
theorem metered_samples (k : Consumer) : (metered k).totalSamples = (k.sent.map EmitUnit.numSamples).sum := by
  rw [metered, call_total, List.map_map]
  exact Int.zero_add _

theorem metered_bytes (wired : Wired limits maxStreams σ lanes) :
    (metered σ.consumer).totalBytes = (σ.consumer.sent.map fun u => (u.samples.raw.length : Int)).sum := by
  rw [metered, call_bytes, List.map_map]
  refine (Int.zero_add _).trans (congrArg List.sum (List.map_congr_left ?_))
  intro u member
  obtain ⟨-, -, group, sized, -, counted⟩ := wired.unit_counted member
  rw [← counted]
  show u.numSamples * u.bytesPerSample.getD 0 = _
  rw [sized, Option.getD_some]

theorem count_le_samples (wired : Wired limits maxStreams σ lanes) :
    (σ.consumer.sent.length : Int) ≤ (metered σ.consumer).totalSamples := by
  have count : σ.consumer.sent.length • (1 : Int) ≤ (σ.consumer.sent.map EmitUnit.numSamples).sum := by
    rw [← List.length_map EmitUnit.numSamples]
    apply List.card_nsmul_le_sum
    intro n inside
    obtain ⟨u, sent, same⟩ := List.mem_map.mp inside
    rw [← same]
    exact (wired.unit_counted sent).1
  rw [metered_samples]
  simpa using count

/-- No samples were counted just when no data record had a byte: every unit has a sample, so there was none. -/
theorem silent_iff (wired : Wired limits maxStreams σ lanes) {records : List (Metadata × Bytes)}
    (samples : (metered σ.consumer).totalSamples = (records.map recordSamples).sum)
    (size : (metered σ.consumer).totalBytes = (records.map fun r => (r.2.length : Int)).sum) :
    (metered σ.consumer).totalSamples = 0 ↔ ∀ r ∈ records, r.2 = [] := by
  constructor
  · intro none r member
    have count := count_le_samples wired
    have nothing : σ.consumer.sent = [] := List.eq_nil_of_length_eq_zero (by omega)
    have zero : (records.map fun r => (r.2.length : Int)).sum = 0 := by
      rw [← size, metered, nothing]
      rfl
    have least : (r.2.length : Int) ≤ (records.map fun r => (r.2.length : Int)).sum := by
      apply List.single_le_sum
      · intro n inside
        obtain ⟨r', -, same⟩ := List.mem_map.mp inside
        rw [← same]
        exact Int.natCast_nonneg _
      · exact List.mem_map_of_mem member
    exact List.eq_nil_of_length_eq_zero (by omega)
  · intro empty
    rw [samples]
    apply List.sum_eq_zero
    intro n inside
    obtain ⟨r, member, same⟩ := List.mem_map.mp inside
    rw [← same, recordSamples, empty r member]
    exact Int.zero_fdiv _

omit [Platform] in
theorem summary_rates (m : ThroughputMeter) (solid : m.totalSamples ≠ 0) (start now : ℚ) :
    if now ≤ start then m.summary (some start) now = .elapsedTooShort m.totalSamples
    else ∃ msPerS mbPerS, m.summary (some start) now = .rates m.totalSamples (now - start) msPerS mbPerS ∧
      msPerS * (now - start) * 10 ^ 6 = m.totalSamples ∧ mbPerS * (now - start) * 10 ^ 6 = m.totalBytes := by
  rw [summary, if_neg solid]
  dsimp only [Option.elim_some]
  by_cases early : now ≤ start
  · rw [if_pos early]
    exact if_pos (by linarith)
  · have nonzero : now - start ≠ 0 := by
      intro same
      exact early (by linarith)
    rw [if_neg early, if_neg (by intro short; exact early (by linarith))]
    refine ⟨_, _, rfl, ?_, ?_⟩
    · field_simp
    · field_simp

/-- The meter counts every sample and every byte of the data records, those of each stream under its own name, and the
    line has these counts, or says that there were none only when there were none. -/
theorem throughput_exact (maxStreams maxSamples : Int) (maxAgeS : ℚ) (ticks : List Tick) :
    ∃ σ, Pipeline.run ticks (buildRuntime maxStreams maxSamples maxAgeS .quiet) = (.ok (), σ) ∧
      let returned := Interpreter.outputs (Pipeline.dequeued ticks) (.new maxStreams)
      let m := metered σ.consumer
      let bytes := ((allRecords returned).map fun r => (r.2.length : Int)).sum
      m.unitCount = σ.consumer.sent.length ∧ m.totalSamples = ((allRecords returned).map recordSamples).sum ∧
      m.totalBytes = bytes ∧
      (∀ s, (m.streams.get? s).isSome ↔ ∃ u ∈ σ.consumer.sent, u.streamId = s) ∧
      (∀ s stat, m.streams.get? s = some stat →
        stat.totalSamples = ((dataRecords s returned).map recordSamples).sum) ∧
      ∀ start now, (m.summary (some start) now = .noSamples ↔ ∀ r ∈ allRecords returned, r.2 = []) ∧
        ((∃ r ∈ allRecords returned, r.2 ≠ []) →
          if now ≤ start then m.summary (some start) now = .elapsedTooShort m.totalSamples
          else ∃ msPerS mbPerS, m.summary (some start) now = .rates m.totalSamples (now - start) msPerS mbPerS ∧
            msPerS * (now - start) * 10 ^ 6 = m.totalSamples ∧ mbPerS * (now - start) * 10 ^ 6 = bytes) := by
  obtain ⟨σ, ran, wired⟩ := Pipeline.run_returns ⟨maxSamples, maxAgeS⟩ maxStreams ticks
  refine ⟨_, ran, ?_⟩
  intro returned m bytes
  have exact' := fun s => stream_exact ⟨maxSamples, maxAgeS⟩ maxStreams ticks s wired
  have samples : m.totalSamples = ((allRecords returned).map recordSamples).sum := by
    refine (metered_samples σ.consumer).trans ?_
    apply sum_eq_of_keys EmitUnit.streamId fun r : Metadata × Bytes => r.1.streamId
    intro s
    have own := (exact' s).1
    rwa [dataRecords_eq] at own
  have size : m.totalBytes = bytes := by
    refine (metered_bytes wired).trans ?_
    apply sum_eq_of_keys EmitUnit.streamId fun r : Metadata × Bytes => r.1.streamId
    intro s
    have own := (exact' s).2
    rwa [dataRecords_eq] at own
  have silent : m.totalSamples = 0 ↔ ∀ r ∈ allRecords returned, r.2 = [] := silent_iff wired samples size
  refine ⟨?_, samples, size, ?_, ?_, fun start now => ⟨?_, ?_⟩⟩
  · show (metered σ.consumer).unitCount = _
    rw [metered, call_count, List.length_map]
    exact Nat.zero_add _
  · intro s
    refine (stream_isSome _ s).trans ?_
    simp only [List.mem_map, exists_exists_and_eq_and]
    exact Iff.rfl
  · intro s stat found
    have own := stream_eq found
    rw [own, StreamStat.tally_all_samples, List.filter_map, List.map_map]
    exact (Int.zero_add _).trans (exact' s).1
  · rw [← silent, summary]
    by_cases none : m.totalSamples = 0
    · rw [if_pos none]
      exact iff_of_true rfl none
    · rw [if_neg none]
      refine iff_of_false ?_ none
      dsimp only
      split <;> simp
  · rintro ⟨r, member, solid⟩
    rw [← size]
    exact summary_rates m (fun none => solid (silent.mp none r member)) start now

end ThroughputMeter

end

end Sceptre
