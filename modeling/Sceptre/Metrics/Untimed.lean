import Sceptre.Metrics.Report
import Sceptre.Metrics.Transmission
import Sceptre.Metrics.Windows

namespace Sceptre

open Foundation

def ThroughputMeter.CaptureReport.Flags : CaptureReport → Prop
  | .rateUnknown => True
  | .windowTooShort => True
  | .steady .. => False
  | .flagged _ _ _ _ notAssessable undeclared _ _ => 0 < notAssessable + undeclared

/-- The meter has no timed window of the stream: it is left out of the percentage, and the line says so. -/
structure ThroughputMeter.Excludes (m : ThroughputMeter) (s : StreamId) : Prop where
  untimed : ∀ stat, m.streams.get? s = some stat → stat.delivered = 0 ∧ stat.expected = 0 ∧ stat.pending = []
  unmeasured : ∀ stat, (s, stat) ∉ m.finalizeAll.measurable
  flagged : s ∈ m.streams.keys → ∀ report, m.captureSummary.1 = some report → report.Flags
  alone : m.streams.keys = [s] → ∀ report, m.captureSummary.1 = some report →
    report = .windowTooShort ∨ report = .rateUnknown

namespace ThroughputMeter

variable {m : ThroughputMeter} {s : StreamId}

theorem measurable_lt {stat : StreamStat} (rated : (s, stat) ∈ m.declared) (unmeasured : (s, stat) ∉ m.measurable) :
    m.measurable.length < m.declared.length := by
  apply List.length_filter_lt_length_iff_exists.mpr
  refine ⟨_, rated, fun measured => unmeasured ?_⟩
  exact List.mem_filter.mpr ⟨rated, measured⟩

theorem report_flags {stat : StreamStat} (member : (s, stat) ∈ m.streams.entries)
    (unmeasured : (s, stat) ∉ m.measurable) : (report m).Flags := by
  have leftOut : m.measurable.length < m.declared.length ∨ m.undeclared ≠ [] := by
    by_cases rated : stat.rate = none
    · right
      exact List.ne_nil_of_mem (List.mem_filter.mpr ⟨member, by simpa using rated⟩)
    · left
      exact measurable_lt (List.mem_filter.mpr ⟨member, by simpa using rated⟩) unmeasured
  unfold report
  split
  · trivial
  · cases worst m.measurable with
    | none => trivial
    | some e =>
      obtain ⟨s', stat'⟩ := e
      dsimp only
      rcases leftOut with short | listed
      · rw [if_neg fun clean => by omega]
        show 0 < _ + _
        omega
      · rw [if_neg fun clean => listed clean.2.2.1]
        have some := List.length_pos_iff.mpr listed
        show 0 < _ + _
        omega

theorem report_empty (unmeasured : m.measurable = []) : report m = .windowTooShort ∨ report m = .rateUnknown := by
  unfold report
  split
  · exact .inr rfl
  · rw [unmeasured]
    exact .inl rfl

theorem Excludes.of_untimed
    (untimed : ∀ stat, m.streams.get? s = some stat → stat.delivered = 0 ∧ stat.expected = 0 ∧ stat.pending = []) :
    m.Excludes s := by
  have unmeasured : ∀ stat, (s, stat) ∉ m.finalizeAll.measurable := by
    intro stat measured
    obtain ⟨rated, positive⟩ := List.mem_filter.mp measured
    obtain ⟨earlier, held, rfl⟩ := mem_finalized (List.mem_of_mem_filter rated)
    obtain ⟨-, expected, pending⟩ := untimed earlier held
    simp [StreamStat.finalize, pending, StreamStat.drain, expected] at positive
  refine ⟨untimed, unmeasured, ?_, ?_⟩
  · intro known report' written
    rw [captureSummary_report written]
    obtain ⟨stat, found⟩ := (OrderedDict.mem_keys_iff ..).mp known
    have final : m.finalizeAll.streams.get? s = some stat.finalize := by
      rw [finalizeAll, OrderedDict.get?_map, found]
      rfl
    exact report_flags (OrderedDict.mem_of_get? _ final) (unmeasured _)
  · intro only report' written
    rw [captureSummary_report written]
    apply report_empty
    apply List.eq_nil_iff_forall_not_mem.mpr
    rintro ⟨s', stat⟩ measured
    have key : s' ∈ m.finalizeAll.streams.keys :=
      List.mem_map_of_mem (List.mem_of_mem_filter (List.mem_of_mem_filter measured))
    rw [finalizeAll, OrderedDict.keys_map, only] at key
    rw [List.mem_singleton.mp key] at measured
    exact unmeasured stat measured

end ThroughputMeter

namespace StreamStat

/-- All timed windows so far start at `c`: no sample time between two of them was charged. -/
structure Level (c : ℚ) (s : StreamStat) : Prop where
  expected : s.expected = s.delivered
  ahead : ∀ stop, s.lastEnd = some stop → c ≤ stop
  pending : ∀ w ∈ s.pending, w.ts = c ∧ 0 < w.rate ∧ 0 < w.n

variable {c : ℚ} {s : StreamStat}

theorem level_new (c : ℚ) : Level c {} := ⟨by simp, by simp, by simp⟩

theorem level_kept (c : ℚ) : Kept (fun s => s.expected = s.delivered ∧ ∀ stop, s.lastEnd = some stop → c ≤ stop)
    fun w => w.ts = c ∧ 0 < w.rate ∧ 0 < w.n where
  same holds delivered expected lastEnd _ := by
    rw [delivered, expected, lastEnd]
    exact holds
  commit := by
    intro s w level fits
    obtain ⟨start, positive, some⟩ := fits
    have noLoss : s.gapLoss w.ts = 0 := by
      unfold gapLoss
      cases edge : s.lastEnd with
      | none => rfl
      | some stop =>
        have behind := level.2 stop edge
        have noGap : ¬ w.ts - stop > 0 := by
          rw [start]
          linarith
        exact if_neg noGap
    have beyond : c ≤ w.ts + w.n / w.rate := by
      have length : (0 : ℚ) ≤ w.n / w.rate := div_nonneg (by exact_mod_cast some.le) positive.le
      rw [start]
      linarith
    constructor
    · rw [commit_expected, commit_delivered, noLoss, level.1]
      push_cast
      ring
    · intro stop edge
      simp only [StreamStat.commit] at edge
      split at edge
      · rw [← Option.some.inj edge]
        exact beyond
      · exact level.2 stop edge

theorem Level.tally_all {us : List Tallied} (start : ∀ u ∈ us, ∀ w, u.Timed w → w.ts = c) (level : s.Level c) :
    (us.foldl StreamStat.tally s).Level c := by
  have fits : ∀ u ∈ us, ∀ w, u.Timed w → w.ts = c ∧ 0 < w.rate ∧ 0 < w.n := fun u member w timed =>
    ⟨start u member w timed, timed.positive, timed.nonempty⟩
  obtain ⟨⟨expected, ahead⟩, pending⟩ := (level_kept c).tally_all fits ⟨level.expected, level.ahead⟩ level.pending
  exact ⟨expected, ahead, pending⟩

theorem Level.finalize (level : s.Level c) : s.finalize.Level c := by
  obtain ⟨expected, ahead⟩ := (level_kept c).finalize ⟨level.expected, level.ahead⟩ level.pending
  refine ⟨expected, ahead, ?_⟩
  rw [finalize_pending]
  simp

end StreamStat

section Runs

variable [Platform]

def timeless (s : StreamId) (raw : Bytes) : Bool :=
  match parseHeader raw with
  | .error _ => true
  | .ok hdr => decide (hdr.packetType = packetTypeIfData → hdr.streamId = s → hdr.tsi = 0 ∧ hdr.tsf = 0)

/-- The datagram is a data packet of the stream whose samples the interpreter takes, and the context in force
    declares a positive sample rate. -/
def Metered (s : StreamId) (i : Interpreter) (raw : Bytes) : Prop :=
  ∃ hdr ctx bytesPerSample body numSamples rate, parseHeader raw = .ok hdr ∧ hdr.packetType = packetTypeIfData ∧
    hdr.streamId = s ∧ i.contexts.get? s = some ctx ∧ ctx.supported ≠ some false ∧
    ctx.bytesPerSample.join = some bytesPerSample ∧ trimData raw hdr bytesPerSample = .ok (body, numSamples) ∧
    body ≠ [] ∧ ctx.sampleRateHz = some rate ∧ 0 < rate

def NeverMetered (s : StreamId) (i : Interpreter) (events : List Event) : Prop :=
  ∀ earlier raw arrival later, events = earlier ++ .datagram raw arrival :: later →
    ¬ Metered s (Interpreter.run (datagrams earlier) i) raw

variable {s : StreamId} {i : Interpreter} {events : List Event}

def Packet.Rated (p : Packet) : Prop := p.data ≠ [] ∧ ∃ rate, p.context.sampleRateHz = some rate ∧ 0 < rate

theorem neverMetered_iff : NeverMetered s i events ↔ ∀ p ∈ packetsOf s i events, ¬ p.Rated := by
  constructor
  · rintro never p member ⟨solid, rate, declared, positive⟩
    obtain ⟨earlier, raw, later, split, returned, own, inForce⟩ := mem_packetsOf member
    apply never earlier raw p.arrival later split
    obtain ⟨hdr, ctx, bytesPerSample, numSamples, parsed, kind, tracked, supported, sized, trimmed, record⟩ :=
      Interpreter.output_data returned
    rw [record] at own
    change hdr.streamId = s at own
    subst own
    rw [inForce] at tracked
    cases tracked
    exact ⟨hdr, _, bytesPerSample, _, numSamples, rate, parsed, kind, rfl, inForce, supported, sized, trimmed, solid,
      declared, positive⟩
  · rintro none earlier raw arrival later rfl
      ⟨hdr, ctx, bytesPerSample, body, numSamples, rate, parsed, kind, rfl, tracked, supported, sized, trimmed, solid,
        declared, positive⟩
    obtain ⟨returned, -⟩ := Interpreter.after_trimmed parsed kind tracked supported sized trimmed
    exact none _ (packetsOf_mem returned rfl tracked) ⟨solid, rate, declared, positive⟩

def absentTimestamp : ℚ := Platform.fl ((0 : Nat) + Platform.fl (Platform.fl (0 : Nat) / 1000000000000))

theorem timeless_timestamp (untimed : ∀ raw ∈ datagrams events, timeless s raw = true) {p : Packet}
    (member : p ∈ packetsOf s i events) : p.metadata.timestamp = some absentTimestamp := by
  obtain ⟨earlier, raw, later, split, returned, own, -⟩ := mem_packetsOf member
  obtain ⟨hdr, ctx, bytesPerSample, numSamples, parsed, kind, -, -, -, -, record⟩ := Interpreter.output_data returned
  have inside : raw ∈ datagrams events := by
    rw [split, datagrams_append]
    apply List.mem_append_right
    exact List.mem_cons_self ..
  have flags := untimed raw inside
  rw [record] at own ⊢
  simp only [timeless, parsed, decide_eq_true_eq] at flags
  obtain ⟨tsi, tsf⟩ := flags kind own
  obtain ⟨noInt, noFrac⟩ := parseHeader_absent parsed
  simp only [Interpreter.metadata, Header.timestamp, noInt tsi, noFrac tsf, Option.getD_none]
  rfl

variable {limits : Limits} {maxStreams : Int} {σ : Runtime} {lanes : StreamId → Lane}

theorem Wired.excludes (wired : Wired limits maxStreams σ lanes) (unrated : ∀ p ∈ (lanes s).received, ¬ p.Rated) :
    (ThroughputMeter.metered σ.consumer).Excludes s := by
  have sound := wired.sound s
  have untimed : ∀ u ∈ (unitsOf s σ.consumer.sent).map EmitUnit.tallied, u.Untimed := by
    intro u member
    rw [wired.emitted, List.map_map] at member
    obtain ⟨w, closed, rfl⟩ := List.mem_map.mp member
    obtain ⟨first, rest, split, tallies⟩ := sound.tallies s closed
    apply tallies.untimed
    intro rate declared positive
    have received := (sound.cut.isInfix w.packets (List.mem_map_of_mem closed)).subset tallies.member
    exact unrated first received ⟨tallies.solid, rate, declared, positive⟩
  apply ThroughputMeter.Excludes.of_untimed
  intro stat found
  rw [metered_stream] at found
  split at found
  · cases found
  · obtain ⟨delivered, expected, pending⟩ := StreamStat.tally_all_untimed untimed {}
    rw [Option.some.inj found] at delivered expected pending
    exact ⟨delivered, expected, pending⟩

theorem Wired.not_excludes (wired : Wired limits maxStreams σ lanes) {ts : ℚ}
    (stamped : ∀ p ∈ (lanes s).received, p.metadata.timestamp = some ts) (finished : (lanes s).packets = [])
    {p : Packet} (member : p ∈ (lanes s).received) (rated : p.Rated) :
    ¬ (ThroughputMeter.metered σ.consumer).Excludes s := by
  have sound := wired.sound s
  obtain ⟨solid, rate, declared, positive⟩ := rated
  have timed : ∃ u ∈ (unitsOf s σ.consumer.sent).map EmitUnit.tallied, ∃ w, u.Timed w := by
    rcases sound.cut.placed member solid with ⟨packets, among, inside⟩ | waiting
    · obtain ⟨w, closed, rfl⟩ := List.mem_map.mp among
      obtain ⟨first, rest, split, tallies⟩ := sound.tallies s closed
      have received := (sound.cut.isInfix w.packets among).subset tallies.member
      refine ⟨(w.render s).tallied, ?_, _,
        tallies.timed ((tallies.shared p inside).symm.trans declared) positive (stamped first received)⟩
      rw [wired.emitted, List.map_map]
      exact List.mem_map_of_mem closed
    · rw [finished] at waiting
      cases waiting
  obtain ⟨u, sent, w, timed⟩ := timed
  intro excludes
  have owed := StreamStat.owed_tally_all sent timed {}
  have some' : unitsOf s σ.consumer.sent ≠ [] := by
    intro none
    rw [none] at sent
    cases sent
  obtain ⟨delivered, -, pending⟩ := excludes.untimed _ (by rw [metered_stream, if_neg some'])
  rw [StreamStat.owed, StreamStat.owed, delivered, pending] at owed
  simp at owed

theorem Wired.level (wired : Wired limits maxStreams σ lanes) {ts : ℚ}
    (stamped : ∀ p ∈ (lanes s).received, p.metadata.timestamp = some ts) {stat : StreamStat}
    (found : (ThroughputMeter.metered σ.consumer).streams.get? s = some stat) : stat.Level ts := by
  have sound := wired.sound s
  rw [metered_stream] at found
  split at found
  · cases found
  · rw [← Option.some.inj found]
    refine StreamStat.Level.tally_all ?_ (StreamStat.level_new ts)
    intro u member t timed
    rw [wired.emitted, List.map_map] at member
    obtain ⟨w, closed, rfl⟩ := List.mem_map.mp member
    obtain ⟨first, rest, split, tallies⟩ := sound.tallies s closed
    have received := (sound.cut.isInfix w.packets (List.mem_map_of_mem closed)).subset tallies.member
    have start := tallies.start.symm.trans timed.ts
    rw [stamped first received] at start
    exact (Option.some.inj start).symm

/-- A stream without timestamps is left out of the report exactly in the runs in which nothing of it is
    metered; in all others it reads as free of loss, whatever was lost. -/
theorem untimed_excluded_iff (maxStreams maxSamples : Int) (maxAgeS : ℚ) (s : StreamId) (events : List Event)
    (untimed : ∀ raw ∈ datagrams events, timeless s raw = true) :
    (∃ σ, Runtime.drive events (buildRuntime maxStreams maxSamples maxAgeS .quiet) = (.ok (), σ) ∧
      (NeverMetered s (Interpreter.new maxStreams) events → (ThroughputMeter.metered σ.consumer).Excludes s)) ∧
    ∃ σ, Runtime.drive (events ++ [.flushAll]) (buildRuntime maxStreams maxSamples maxAgeS .quiet) = (.ok (), σ) ∧
      ((ThroughputMeter.metered σ.consumer).Excludes s ↔ NeverMetered s (Interpreter.new maxStreams) events) ∧
      ∀ stat, (ThroughputMeter.metered σ.consumer).streams.get? s = some stat →
        stat.finalize.expected = stat.finalize.delivered := by
  obtain ⟨σ, returned, -, wired⟩ := driven ⟨maxSamples, maxAgeS⟩ maxStreams events
  obtain ⟨σ', returned', -, wired'⟩ := driven ⟨maxSamples, maxAgeS⟩ maxStreams (events ++ [.flushAll])
  have received := laneOf_received ⟨maxSamples, maxAgeS⟩ s (Interpreter.new maxStreams) events
  have received' := laneOf_received ⟨maxSamples, maxAgeS⟩ s (Interpreter.new maxStreams) (events ++ [.flushAll])
  have flushed : packetsOf s (Interpreter.new maxStreams) (events ++ [.flushAll]) =
      packetsOf s (Interpreter.new maxStreams) events := by
    rw [packetsOf_append]
    exact List.append_nil _
  have finished : (laneOf ⟨maxSamples, maxAgeS⟩ s (Interpreter.new maxStreams)
    (events ++ [.flushAll])).packets = [] := by
    rw [laneOf, trace_append, List.foldl_append]
    exact Lane.close_packets _
  rw [flushed] at received'
  have stamped : ∀ p ∈ packetsOf s (Interpreter.new maxStreams) events,
      p.metadata.timestamp = some absentTimestamp := fun p member => timeless_timestamp untimed member
  refine ⟨⟨σ, returned, fun never => wired.excludes ?_⟩, σ', returned', ⟨?_, fun never => wired'.excludes ?_⟩, ?_⟩
  · rw [received]
    exact neverMetered_iff.mp never
  · intro excludes
    rw [neverMetered_iff]
    intro p member rated
    rw [← received'] at stamped member
    exact wired'.not_excludes stamped finished member rated excludes
  · rw [received']
    exact neverMetered_iff.mp never
  · intro stat found
    rw [← received'] at stamped
    exact (wired'.level stamped found).finalize.expected

end Runs

namespace Exact

def untimedPacket (k : Nat) : Bytes := buildDataPacket payload { counter := k, tsi := 0, tsf := 0 }

/-- The packet between the two is lost. -/
def untimedSession : List Event :=
  [.datagram contextPacket 0, .datagram (untimedPacket 0) 1, .datagram (untimedPacket 2) 3]

theorem untimedSession_timeless : ∀ raw ∈ datagrams untimedSession, timeless (some 123) raw = true := by
  decide +kernel

def idleSession : List Event :=
  [.datagram (buildContextPacket (standardContextFields 2 97 0 (encodePayloadFormatU64 0b00 0b00000 16 16)) {}) 0,
    .datagram (untimedPacket 0) 1, .datagram (untimedPacket 2) 3]

theorem idleSession_timeless : ∀ raw ∈ datagrams idleSession, timeless (some 123) raw = true := by
  decide +kernel

theorem idleSession_neverMetered : NeverMetered (some 123) (Interpreter.new 256) idleSession := by
  have idle : ∀ p ∈ packetsOf (some 123) (Interpreter.new 256) idleSession, p.context.sampleRateHz = some 0 := by
    decide +kernel
  rw [neverMetered_iff]
  rintro p member ⟨-, rate, declared, positive⟩
  rw [idle p member] at declared
  exact absurd (Option.some.inj declared) positive.ne

end Exact

open Exact

theorem untimed_excluded_iff_session :
    (∃ σ, Runtime.drive (untimedSession ++ [.flushAll]) (buildRuntime 256 100 10 .quiet) = (.ok (), σ) ∧
      ((ThroughputMeter.metered σ.consumer).Excludes (some 123) ↔
        NeverMetered (some 123) (Interpreter.new 256) untimedSession)) ∧
    NeverMetered (some 123) (Interpreter.new 256) idleSession ∧
    (packetsOf (some 123) (Interpreter.new 256) idleSession).length = 2 ∧
    ∃ σ, Runtime.drive (idleSession ++ [.flushAll]) (buildRuntime 256 100 10 .quiet) = (.ok (), σ) ∧
      (ThroughputMeter.metered σ.consumer).Excludes (some 123) := by
  obtain ⟨σ, returned, decides, -⟩ := (untimed_excluded_iff 256 100 10 _ _ untimedSession_timeless).2
  obtain ⟨σ', returned', decides', -⟩ := (untimed_excluded_iff 256 100 10 _ _ idleSession_timeless).2
  exact ⟨⟨σ, returned, decides⟩, idleSession_neverMetered, by decide +kernel, σ', returned',
    decides'.mpr idleSession_neverMetered⟩

/-- A third of a stream without timestamps is lost, and the report reads 100% and OK. -/
theorem untimed_loss_reads_ok :
    (∀ raw ∈ datagrams untimedSession, timeless (some 123) raw = true) ∧
    ∃ σ, Runtime.drive (untimedSession ++ [.flushAll]) (buildRuntime 256 100 10 .quiet) = (.ok (), σ) ∧
      (ThroughputMeter.metered σ.consumer).captureSummary.1 = some (.steady 4 4 100 (some 2) .ok) ∧
      ¬ (ThroughputMeter.metered σ.consumer).Excludes (some 123) := by
  have line : (ThroughputMeter.metered (Runtime.drive (untimedSession ++ [.flushAll])
      (buildRuntime 256 100 10 .quiet)).2.consumer).captureSummary.1 = some (.steady 4 4 100 (some 2) .ok) := by
    decide +kernel
  refine ⟨untimedSession_timeless, _, Prod.ext (by decide +kernel) rfl, line, ?_⟩
  intro excludes
  rcases excludes.alone (by decide +kernel) _ line with short | unknown
  · cases short
  · cases unknown

end Sceptre
