import Sceptre.Metrics.Settled

namespace Sceptre

open Foundation

def divide (a b : ℚ) : Option ℚ := if b = 0 then none else some (a / b)

theorem divide_eq {a b : ℚ} (divisor : b ≠ 0) : divide a b = some (a / b) := if_neg divisor

namespace StreamStat

def commitChecked (s : StreamStat) (w : TimedWindow) : Option StreamStat := do
  let length ← divide w.n w.rate
  let stop := w.ts + length
  let s := { s with expected := s.expected + s.gapLoss w.ts + w.n, delivered := s.delivered + w.n }
  if s.lastEnd.all fun lastEnd => stop > lastEnd then some { s with lastEnd := some stop, curRate := some w.rate }
    else some s

def drainChecked : List TimedWindow → StreamStat → Option StreamStat
  | [], s => some { s with pending := [] }
  | oldest :: rest, s => (({ s with pending := rest } : StreamStat).commitChecked oldest).bind (drainChecked rest)

def finalizeChecked (s : StreamStat) : Option StreamStat := drainChecked s.pending s

def efficiencyChecked (s : StreamStat) : Option ℚ := divide (100 * s.delivered) s.expected

theorem commitChecked_eq (s : StreamStat) {w : TimedWindow} (rated : 0 < w.rate) :
    s.commitChecked w = some (s.commit w) := by
  simp only [commitChecked, divide_eq rated.ne', commit, Option.bind_eq_bind, Option.bind_some]
  split
  · rfl
  · rfl

theorem drainChecked_eq {ws : List TimedWindow} (rated : ∀ w ∈ ws, 0 < w.rate) (s : StreamStat) :
    drainChecked ws s = some (drain ws s) := by
  induction ws generalizing s with
  | nil => rfl
  | cons w rest ih =>
    rw [drainChecked, commitChecked_eq _ (rated w (by simp)), Option.bind_some,
      ih fun v member => rated v (List.mem_cons_of_mem _ member), drain]

theorem add_pending_length {s : StreamStat} (w : TimedWindow) (room : s.pending.length ≤ reorderWindow) :
    (s.add w).pending.length ≤ reorderWindow := by
  have length := List.orderedInsert_length TimedWindow.Precedes s.pending w
  obtain ⟨oldest, rest, inserted, either⟩ := s.add_cases w
  rw [inserted, List.length_cons] at length
  rcases either with ⟨few, waits⟩ | ⟨-, commits⟩
  · rw [waits]
    exact few
  · rw [commits, commit_pending]
    dsimp only
    omega

theorem tally_pending_length {s : StreamStat} (u : Tallied) (room : s.pending.length ≤ reorderWindow) :
    (s.tally u).pending.length ≤ reorderWindow := by
  by_cases timed : ∃ w, u.Timed w
  · obtain ⟨w, timed⟩ := timed
    rw [tally_timed s timed]
    exact (s.noted u w.rate).add_pending_length w room
  · obtain ⟨-, -, pending, -⟩ := s.tally_untimed (not_exists.mp timed)
    rw [pending]
    exact room

theorem tally_all_pending_length (us : List Tallied) {s : StreamStat} (room : s.pending.length ≤ reorderWindow) :
    (us.foldl tally s).pending.length ≤ reorderWindow := by
  induction us generalizing s with
  | nil => exact room
  | cons u rest ih => exact ih (s.tally_pending_length u room)

end StreamStat

namespace ThroughputMeter

theorem stream_eq {units : List Tallied} {s : StreamId} {stat : StreamStat}
    (found : (units.foldl call new).streams.get? s = some stat) :
    stat = (units.filter fun u => u.streamId = s).foldl StreamStat.tally {} := by
  rw [call_stream] at found
  split at found
  · cases found
  · exact (Option.some.inj found).symm

theorem stream_isSome (units : List Tallied) (s : StreamId) :
    ((units.foldl call new).streams.get? s).isSome ↔ ∃ u ∈ units, u.streamId = s := by
  rw [call_stream]
  have known : unitsBy s units = [] ↔ ¬ ∃ u ∈ units, u.streamId = s := unitsBy_eq_nil
  rw [unitsBy] at known
  split
  · rename_i none
    exact iff_of_false Bool.false_ne_true (known.mp none)
  · rename_i some
    exact iff_of_true rfl (not_not.mp fun none => some (known.mpr none))

theorem measured {units : List Tallied} {e : StreamId × StreamStat}
    (member : e ∈ (units.foldl call new).finalizeAll.measurable) : e.2.Orderly ∧ 0 < e.2.expected := by
  obtain ⟨s, stat⟩ := e
  obtain ⟨same, assessed⟩ := mem_measurable_iff.mp member
  dsimp only
  rw [same]
  exact ⟨settled_orderly _, settled_expected_pos.mpr assessed⟩

theorem report_pct_isSome {units : List Tallied} {line : CaptureReport}
    (written : (units.foldl call new).captureSummary.1 = some line) :
    line.pct?.isSome ↔ ∃ u ∈ units, u.Assessed := by
  rw [captureSummary_report written, report_pct, Option.isSome_map, ← measurable_ne_nil, Option.isSome_iff_ne_none]
  exact not_congr worst_eq_none_iff

theorem efficiency_le_hundred {stat : StreamStat} (orderly : stat.Orderly) (measured : 0 < stat.expected) :
    efficiency stat ≤ 100 := by
  have bounded := orderly.bounded
  rw [efficiency, div_le_iff₀ measured]
  linarith

/-- Whatever units the meter is given, each stream with a unit has its books, in bounded memory, a line is written
    unless the sizes sum to zero, and its percentage, there as soon as one unit is assessed, is at most 100. -/
theorem efficiency_bounded (units : List Tallied) :
    (∀ s, ((units.foldl call new).streams.get? s).isSome ↔ ∃ u ∈ units, u.streamId = s) ∧
    (∀ s stat, (units.foldl call new).streams.get? s = some stat →
      stat.pending.length ≤ reorderWindow ∧
      (∀ stop, stat.lastEnd = some stop → ∃ rate, stat.curRate = some rate ∧ 0 < rate) ∧
      stat.finalizeChecked = some stat.finalize ∧
      stat.finalize.delivered =
        ((units.filter fun u => u.streamId = s ∧ u.Assessed).map fun u => u.numSamples.getD 0).sum ∧
      stat.finalize.delivered ≤ stat.finalize.expected ∧
      ∀ stop, stat.finalize.lastEnd = some stop → ∃ rate, stat.finalize.curRate = some rate ∧ 0 < rate) ∧
    (∀ e ∈ (units.foldl call new).finalizeAll.measurable, e.2.efficiencyChecked = some (efficiency e.2)) ∧
    ((units.foldl call new).captureSummary.1 = none ↔ (units.map fun u => u.numSamples.getD 0).sum = 0) ∧
    ∀ line, (units.foldl call new).captureSummary.1 = some line →
      (line.pct?.isSome ↔ ∃ u ∈ units, u.Assessed) ∧ ∀ pct, line.pct? = some pct → pct ≤ 100 := by
  refine ⟨stream_isSome units, ?_, ?_, captureSummary_eq_none, ?_⟩
  · intro s stat found
    obtain rfl := stream_eq found
    obtain ⟨holds, waiting⟩ := StreamStat.orderly_tally_all (units.filter fun u => u.streamId = s)
    have final := settled_orderly (units.filter fun u => u.streamId = s)
    refine ⟨StreamStat.tally_all_pending_length _ (Nat.zero_le _), holds.rated, ?_, ?_, final.bounded, final.rated⟩
    · exact StreamStat.drainChecked_eq (fun w member => (waiting w member).1) _
    · have both : units.filter (fun u => u.streamId = s ∧ u.Assessed) =
          (units.filter fun u => u.streamId = s).filter fun u => u.Assessed := by
        rw [List.filter_filter]
        apply List.filter_congr
        intro u _
        rw [Bool.decide_and, Bool.and_comm]
      rw [both]
      exact settled_delivered (units.filter fun u => u.streamId = s)
  · intro e member
    exact divide_eq (measured member).2.ne'
  · intro line written
    refine ⟨report_pct_isSome written, ?_⟩
    intro pct reported
    rw [captureSummary_report written, report_pct] at reported
    obtain ⟨e, least, rounded⟩ := Option.map_eq_some_iff.mp reported
    obtain ⟨holds, positive⟩ := measured (worst_mem least)
    rw [← rounded]
    exact roundTenth_le_hundred (efficiency_le_hundred holds positive)

section Lossy

def lossyContext : Context := { sampleRateHz := some 4 }

def lossyUnits : List Tallied :=
  [⟨some 4, some 8, some lossyContext, some 0, some 1⟩, ⟨some 4, some 8, some lossyContext, some 0, some 2⟩,
    ⟨some 4, some 8, some lossyContext, some 3, some 1⟩, ⟨some 4, some 8, some lossyContext, none, some 2⟩]

theorem efficiency_bounded_lossy :
    ((lossyUnits.foldl call new).streams.get? (some 1)).isSome ∧
    ((lossyUnits.foldl call new).streams.get? (some 2)).isSome ∧
    (∀ stat, (lossyUnits.foldl call new).streams.get? (some 1) = some stat →
      stat.finalizeChecked = some stat.finalize ∧ stat.finalize.delivered = 8 ∧ 8 ≤ stat.finalize.expected) ∧
    ∃ line, (lossyUnits.foldl call new).captureSummary.1 = some line ∧
      line = .flagged 50 2 2 false 0 0 0 .partialLoss ∧ (line.pct?.isSome ↔ ∃ u ∈ lossyUnits, u.Assessed) := by
  obtain ⟨known, books, -, -, bounded⟩ := efficiency_bounded lossyUnits
  have report : (lossyUnits.foldl call new).captureSummary.1 = some (.flagged 50 2 2 false 0 0 0 .partialLoss) := by
    decide +kernel
  refine ⟨(known _).mpr ⟨lossyUnits[0], by decide, rfl⟩, (known _).mpr ⟨lossyUnits[1], by decide, rfl⟩, ?_, _, report,
    rfl, (bounded _ report).1⟩
  intro stat found
  obtain ⟨-, -, checked, delivered, least, -⟩ := books _ stat found
  have sum :
      ((lossyUnits.filter fun u => u.streamId = some 1 ∧ u.Assessed).map fun u => u.numSamples.getD 0).sum = 8 := by
    decide +kernel
  rw [sum] at delivered
  rw [delivered] at least
  exact ⟨checked, delivered, least⟩

end Lossy

end ThroughputMeter

end Sceptre
