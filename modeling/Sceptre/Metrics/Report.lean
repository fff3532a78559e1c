import Sceptre.Metrics.Books

namespace Sceptre

open Foundation

namespace ThroughputMeter

def CaptureReport.pct? : CaptureReport → Option ℚ
  | .rateUnknown => none
  | .windowTooShort => none
  | .steady _ _ pct _ _ => some pct
  | .flagged pct .. => some pct

def CaptureReport.verdict? : CaptureReport → Option Verdict
  | .rateUnknown => none
  | .windowTooShort => none
  | .steady _ _ _ _ verdict => some verdict
  | .flagged _ _ _ _ _ _ _ verdict => some verdict

def CaptureReport.Single : CaptureReport → Prop
  | .steady .. => True
  | _ => False

def Verdict.severity : Verdict → Nat
  | .ok => 0
  | .partialLoss => 1
  | .severeLoss => 2

section Rounding

theorem roundTenth_mono {q q' : ℚ} (le : q ≤ q') : roundTenth q ≤ roundTenth q' := by
  have doubles : 10 * binary64 q ≤ 10 * binary64 q' := by linarith [binary64_mono le]
  have tenths : (nearestEven (10 * binary64 q) : ℚ) ≤ nearestEven (10 * binary64 q') :=
    Int.cast_le.mpr (nearestEven_mono doubles)
  rw [roundTenth, roundTenth]
  linarith

theorem roundTenth_le_hundred {q : ℚ} (le : q ≤ 100) : roundTenth q ≤ 100 := by
  have whole : roundTenth 100 = 100 := by decide +kernel
  exact (roundTenth_mono le).trans whole.le

theorem verdict_antitone {p p' : ℚ} (le : p' ≤ p) : (verdict p).severity ≤ (verdict p').severity := by
  unfold verdict
  split_ifs <;> first | decide | (exfalso; linarith)

end Rounding

section Worst

variable {l : List (StreamId × StreamStat)} {e : StreamId × StreamStat}

theorem worst_eq_none_iff : worst l = none ↔ l = [] := by
  cases l with
  | nil => simp [worst]
  | cons first rest =>
    rw [worst]
    cases worst rest with
    | none => simp
    | some later =>
      dsimp only
      split <;> simp

theorem worst_mem (least : worst l = some e) : e ∈ l := by
  induction l generalizing e with
  | nil => cases least
  | cons first rest ih =>
    rw [worst] at least
    cases later : worst rest with
    | none =>
      rw [later] at least
      exact Option.some.inj least ▸ List.mem_cons_self
    | some other =>
      rw [later] at least
      dsimp only at least
      split at least
      · exact List.mem_cons_of_mem _ (Option.some.inj least ▸ ih later)
      · exact Option.some.inj least ▸ List.mem_cons_self

theorem worst_least (least : worst l = some e) : ∀ e' ∈ l, efficiency e.2 ≤ efficiency e'.2 := by
  induction l generalizing e with
  | nil => cases least
  | cons first rest ih =>
    rw [worst] at least
    intro e' member
    cases later : worst rest with
    | none =>
      rw [worst_eq_none_iff.mp later, List.mem_singleton] at member
      rw [later] at least
      rw [member, Option.some.inj least]
    | some other =>
      rw [later] at least
      dsimp only at least
      split at least
      · rename_i less
        rw [← Option.some.inj least]
        rcases List.mem_cons.mp member with own | further
        · exact own ▸ less.le
        · exact ih later e' further
      · rename_i notLess
        rw [← Option.some.inj least]
        rcases List.mem_cons.mp member with own | further
        · exact own ▸ le_rfl
        · exact (not_lt.mp notLess).trans (ih later e' further)

end Worst

variable {m : ThroughputMeter}

theorem report_pct : (report m).pct? = (worst m.measurable).map fun e => roundTenth (efficiency e.2) := by
  unfold report
  by_cases none : m.declared = []
  · have unmeasured : m.measurable = [] := by
      rw [measurable, none, List.filter_nil]
    rw [if_pos none, unmeasured]
    rfl
  · rw [if_neg none]
    cases worst m.measurable with
    | none => rfl
    | some e =>
      obtain ⟨s, stat⟩ := e
      dsimp only
      split
      · rfl
      · rfl

theorem report_unknown_iff : report m = .rateUnknown ↔ m.declared = [] := by
  unfold report
  split
  · rename_i none
    exact ⟨fun _ => none, fun _ => rfl⟩
  · rename_i some
    refine ⟨?_, fun none => absurd none some⟩
    cases worst m.measurable with
    | none => exact fun short => nomatch short
    | some e =>
      dsimp only
      split
      · exact fun steady => nomatch steady
      · exact fun flagged => nomatch flagged

theorem report_short_iff : report m = .windowTooShort ↔ m.declared ≠ [] ∧ m.measurable = [] := by
  rw [← worst_eq_none_iff]
  unfold report
  split
  · rename_i none
    constructor
    · exact fun unknown => nomatch unknown
    · exact fun short => absurd none short.1
  · rename_i some
    cases worst m.measurable with
    | none => exact ⟨fun _ => ⟨some, rfl⟩, fun _ => rfl⟩
    | some e =>
      refine ⟨?_, fun short => nomatch short.2⟩
      dsimp only
      split
      · exact fun steady => nomatch steady
      · exact fun flagged => nomatch flagged

theorem report_single_of {s : StreamId} {stat : StreamStat} (single : m.streams.entries = [(s, stat)])
    (rated : stat.rate ≠ none) (positive : 0 < stat.expected) (unchanged : stat.rateChanged = false) :
    (report m).Single := by
  have declared : m.declared = [(s, stat)] := by
    rw [ThroughputMeter.declared, single]
    exact List.filter_cons_of_pos (by simpa using rated)
  have measurable : m.measurable = [(s, stat)] := by
    rw [ThroughputMeter.measurable, declared]
    exact List.filter_cons_of_pos (by simpa using positive)
  have undeclared : m.undeclared = [] := by
    rw [ThroughputMeter.undeclared, single]
    exact List.filter_cons_of_neg (by simpa using rated)
  unfold report
  rw [declared, measurable, undeclared, if_neg (List.cons_ne_nil _ _)]
  dsimp only [worst]
  rw [if_pos ⟨rfl, rfl, rfl, by simp [unchanged]⟩]
  trivial

theorem report_verdict : (report m).verdict? = (report m).pct?.map verdict := by
  unfold report
  split
  · rfl
  · cases worst m.measurable with
    | none => rfl
    | some e =>
      obtain ⟨s, stat⟩ := e
      dsimp only
      split
      · rfl
      · rfl

theorem captureSummary_report {line : CaptureReport} (written : m.captureSummary.1 = some line) :
    line = report m.finalizeAll := by
  unfold captureSummary at written
  split at written
  · cases written
  · exact (Option.some.inj written).symm

theorem mem_finalized {s : StreamId} {stat : StreamStat} (member : (s, stat) ∈ m.finalizeAll.streams.entries) :
    ∃ earlier, m.streams.get? s = some earlier ∧ stat = earlier.finalize := by
  have found := m.finalizeAll.streams.get?_of_mem member
  rw [finalizeAll, OrderedDict.get?_map] at found
  obtain ⟨earlier, held, same⟩ := Option.map_eq_some_iff.mp found
  exact ⟨earlier, held, same.symm⟩

end ThroughputMeter

end Sceptre
