import Mathlib.Algebra.Order.BigOperators.Group.List
import Sceptre.Metrics.Efficiency

namespace Sceptre

open Foundation

namespace ThroughputMeter

/-- The percentages of the streams with an assessed unit, and so a declared rate. -/
def percentages (units : List Tallied) : Set ℚ :=
  {p | ∃ s, (∃ u ∈ unitsBy s units, u.Assessed) ∧
    p = 100 * (((unitsBy s units).filter fun u => u.Assessed).map fun u => u.numSamples.getD 0).sum /
      (settled (unitsBy s units)).expected}

theorem mem_percentages_iff {units : List Tallied} {p : ℚ} :
    p ∈ percentages units ↔ ∃ e ∈ (units.foldl call new).finalizeAll.measurable, efficiency e.2 = p := by
  have share : ∀ s, efficiency (settled (unitsBy s units)) =
      100 * (((unitsBy s units).filter fun u => u.Assessed).map fun u => u.numSamples.getD 0).sum /
        (settled (unitsBy s units)).expected := by
    intro s
    rw [efficiency, settled_delivered]
  constructor
  · rintro ⟨s, assessed, rfl⟩
    exact ⟨(s, _), mem_measurable_iff.mpr ⟨rfl, assessed⟩, share s⟩
  · rintro ⟨⟨s, stat⟩, member, rfl⟩
    obtain ⟨rfl, assessed⟩ := mem_measurable_iff.mp member
    exact ⟨s, assessed, share s⟩

theorem report_least (units : List Tallied) (pct : ℚ) :
    (report (units.foldl call new).finalizeAll).pct? = some pct ↔
      ∃ p, IsLeast (percentages units) p ∧ pct = roundTenth p := by
  have least : ∀ e, worst (units.foldl call new).finalizeAll.measurable = some e →
      IsLeast (percentages units) (efficiency e.2) := by
    intro e found
    constructor
    · exact mem_percentages_iff.mpr ⟨e, worst_mem found, rfl⟩
    · intro p member
      obtain ⟨e', inside, same⟩ := mem_percentages_iff.mp member
      exact same ▸ worst_least found e' inside
  rw [report_pct]
  constructor
  · intro reported
    obtain ⟨e, found, rounded⟩ := Option.map_eq_some_iff.mp reported
    exact ⟨efficiency e.2, least e found, rounded.symm⟩
  · intro isLeast
    obtain ⟨p, lowest, rounded⟩ := isLeast
    obtain ⟨e', inside, -⟩ := mem_percentages_iff.mp lowest.1
    cases found : worst (units.foldl call new).finalizeAll.measurable with
    | none =>
      rw [worst_eq_none_iff.mp found] at inside
      cases inside
    | some e => rw [Option.map_some, (least e found).unique lowest, rounded]

theorem percentages_subset (kept : StreamId → Bool) (units : List Tallied) :
    percentages (units.filter fun u => kept u.streamId) ⊆ percentages units := by
  rintro p ⟨s, ⟨u, own, assessed⟩, rfl⟩
  obtain ⟨inside, here⟩ := mem_unitsBy.mp own
  have held : kept s := by
    rw [← here]
    exact (List.mem_filter.mp inside).2
  have same : unitsBy s (units.filter fun u => kept u.streamId) = unitsBy s units := by
    rw [unitsBy, unitsBy, List.filter_filter]
    apply List.filter_congr
    intro v _
    by_cases at' : v.streamId = s
    · simp [at', held]
    · simp [at']
  rw [same] at own ⊢
  exact ⟨s, ⟨u, own, assessed⟩, rfl⟩

theorem report_not_masked (kept : StreamId → Bool) (units : List Tallied) {pct : ℚ}
    (reported : (report ((units.filter fun u => kept u.streamId).foldl call new).finalizeAll).pct? = some pct) :
    ∃ pct', (report (units.foldl call new).finalizeAll).pct? = some pct' ∧ pct' ≤ pct := by
  obtain ⟨p, least, rounded⟩ := (report_least _ pct).mp reported
  have more : p ∈ percentages units := percentages_subset kept units least.1
  obtain ⟨e', inside, -⟩ := mem_percentages_iff.mp more
  cases found : worst (units.foldl call new).finalizeAll.measurable with
  | none =>
    rw [worst_eq_none_iff.mp found] at inside
    cases inside
  | some e =>
    have pct' : (report (units.foldl call new).finalizeAll).pct? = some (roundTenth (efficiency e.2)) := by
      rw [report_pct, found, Option.map_some]
    obtain ⟨p', least', rounded'⟩ := (report_least _ _).mp pct'
    refine ⟨_, pct', ?_⟩
    rw [rounded, rounded']
    exact roundTenth_mono (least'.2 more)

theorem captureSummary_written (kept : StreamId → Bool) {units : List Tallied}
    (nonneg : ∀ u ∈ units, 0 ≤ u.numSamples.getD 0)
    (written : ((units.filter fun u => kept u.streamId).foldl call new).captureSummary.1 ≠ none) :
    (units.foldl call new).captureSummary.1 ≠ none := by
  have some : ((units.filter fun u => kept u.streamId).foldl call new).totalSamples ≠ 0 := by
    intro none
    rw [captureSummary, if_pos none] at written
    exact written rfl
  have fewer : ((units.filter fun u => kept u.streamId).foldl call new).totalSamples ≤
      (units.foldl call new).totalSamples := by
    rw [call_total, call_total]
    apply Int.add_le_add_left
    apply List.Sublist.sum_le_sum
    · exact List.filter_sublist.map _
    · intro n member
      obtain ⟨u, inside, same⟩ := List.mem_map.mp member
      exact same ▸ nonneg u inside
  have first : 0 ≤ ((units.filter fun u => kept u.streamId).foldl call new).totalSamples := by
    rw [call_total]
    apply Int.add_nonneg (le_refl _)
    apply List.sum_nonneg
    intro n member
    obtain ⟨u, inside, same⟩ := List.mem_map.mp member
    exact same ▸ nonneg u (List.mem_of_mem_filter inside)
  have total : (units.foldl call new).totalSamples ≠ 0 := by omega
  rw [captureSummary, if_neg total]
  exact Option.some_ne_none _

theorem report_steady {m : ThroughputMeter} {delivered rate pct : ℚ} {bandwidth : Option ℚ} {verdict : Verdict}
    (steady : report m = .steady delivered rate pct bandwidth verdict) :
    ∃ s stat, m.streams.entries = [(s, stat)] ∧ stat.rate = some rate ∧ 0 < stat.expected ∧
      stat.rateChanged = false := by
  unfold report at steady
  split at steady
  · cases steady
  · cases found : worst m.measurable with
    | none =>
      rw [found] at steady
      cases steady
    | some e =>
      obtain ⟨s, stat⟩ := e
      rw [found] at steady
      dsimp only at steady
      split at steady
      · rename_i clean
        obtain ⟨one, all, unrated, unchanged⟩ := clean
        have every : m.declared = m.streams.entries := by
          apply List.filter_eq_self.mpr
          intro e member
          have rated := List.filter_eq_nil_iff.mp unrated e member
          simpa using rated
        obtain ⟨only, single⟩ := List.length_eq_one_iff.mp one
        have measured := worst_mem found
        have same : (s, stat) = only := by
          have declared := List.mem_of_mem_filter measured
          rw [single] at declared
          exact List.mem_singleton.mp declared
        have member : (s, stat) ∈ m.declared := List.mem_of_mem_filter measured
        refine ⟨s, stat, by rw [← every, single, same], ?_, ?_, ?_⟩
        · have rated : stat.rate ≠ none := by simpa using (List.mem_filter.mp member).2
          obtain ⟨declared, known⟩ := Option.ne_none_iff_exists'.mp rated
          have written := CaptureReport.steady.inj steady
          rw [known, ← written.2.1, known, Option.getD_some]
        · simpa using (List.mem_filter.mp measured).2
        · rw [single, ← same] at unchanged
          simpa using unchanged
      · cases steady

theorem units_of_single {units : List Tallied} {s : StreamId} {stat : StreamStat}
    (single : (units.foldl call new).finalizeAll.streams.entries = [(s, stat)]) :
    (∀ u ∈ units, u.streamId = s) ∧ stat = settled units := by
  have only : ∀ u ∈ units, u.streamId = s := by
    intro u member
    have own : unitsBy u.streamId units ≠ [] := List.ne_nil_of_mem (mem_unitsBy.mpr ⟨member, rfl⟩)
    have found := settled_stream units u.streamId
    rw [if_neg own] at found
    have entry := OrderedDict.mem_of_get? _ found
    rw [single, List.mem_singleton] at entry
    exact (Prod.mk.inj entry).1
  refine ⟨only, ?_⟩
  have member : (s, stat) ∈ (units.foldl call new).finalizeAll.streams.entries := by
    rw [single]
    exact List.mem_singleton_self _
  have found := OrderedDict.get?_of_mem _ member
  rw [settled_stream, unitsBy_eq_self only] at found
  split at found
  · cases found
  · exact (Option.some.inj found).symm

theorem single_of_units {units : List Tallied} {s : StreamId} (only : ∀ u ∈ units, u.streamId = s) (some : units ≠ []) :
    (units.foldl call new).finalizeAll.streams.entries = [(s, settled units)] := by
  apply OrderedDict.entries_singleton
  · intro k known
    obtain ⟨stat, found⟩ := (OrderedDict.mem_keys_iff ..).mp known
    rw [settled_stream] at found
    split at found
    · cases found
    · rename_i own
      obtain ⟨u, member⟩ := List.exists_mem_of_ne_nil _ own
      obtain ⟨inside, here⟩ := mem_unitsBy.mp member
      rw [← here, only u inside]
  · rw [settled_stream, unitsBy_eq_self only, if_neg some]

/-- The units are of one stream, one of them is assessed, and all that declare a rate declare the same one. -/
structure Steady (units : List Tallied) : Prop where
  single : ∃ s, ∀ u ∈ units, u.streamId = s
  assessed : ∃ u ∈ units, u.Assessed
  equal : ∃ rate, ∀ u ∈ units, ∀ declared, u.declaredRate = some declared → declared = rate

theorem report_single_iff (units : List Tallied) :
    (report (units.foldl call new).finalizeAll).Single ↔ Steady units := by
  constructor
  · intro form
    cases written : report (units.foldl call new).finalizeAll with
    | rateUnknown =>
      rw [written] at form
      cases form
    | windowTooShort =>
      rw [written] at form
      cases form
    | flagged =>
      rw [written] at form
      cases form
    | steady delivered rate pct bandwidth verdict =>
      obtain ⟨s, stat, entries, rated, positive, unchanged⟩ := report_steady written
      obtain ⟨only, rfl⟩ := units_of_single entries
      refine ⟨⟨s, only⟩, settled_expected_pos.mp positive, rate, ?_⟩
      intro u member declared known
      exact Option.some.inj ((settled_unchanged.mp unchanged u member declared known).symm.trans rated)
  · rintro ⟨⟨s, only⟩, assessed, rate, equal⟩
    have ⟨u, member, counted⟩ := assessed
    have rated : (settled units).rate ≠ none := settled_rate_ne_none.mpr ⟨u, member, counted.declares⟩
    have latest : (settled units).rate = some rate := by
      obtain ⟨held, same⟩ := Option.ne_none_iff_exists'.mp rated
      rw [settled_rate] at same
      obtain ⟨v, inside, known⟩ := List.mem_filterMap.mp (List.mem_of_getLast? same)
      rw [settled_rate, same, equal v inside held known]
    refine report_single_of (single_of_units only (List.ne_nil_of_mem member)) rated
      (settled_expected_pos.mpr assessed) (settled_unchanged.mpr ?_)
    intro v inside declared known
    rw [latest, equal v inside declared known]

theorem declared_eq_nil {units : List Tallied} :
    (units.foldl call new).finalizeAll.declared = [] ↔ ∀ u ∈ units, u.declaredRate = none := by
  constructor
  · intro unknown u member
    by_contra declares
    have own : u ∈ unitsBy u.streamId units := mem_unitsBy.mpr ⟨member, rfl⟩
    have found := settled_stream units u.streamId
    rw [if_neg (List.ne_nil_of_mem own)] at found
    have rated : (settled (unitsBy u.streamId units)).rate ≠ none := settled_rate_ne_none.mpr ⟨u, own, declares⟩
    exact List.filter_eq_nil_iff.mp unknown _ (OrderedDict.mem_of_get? _ found) (by simpa using rated)
  · intro silent
    apply List.filter_eq_nil_iff.mpr
    rintro ⟨s, stat⟩ entry rated
    have found := OrderedDict.get?_of_mem _ entry
    rw [settled_stream] at found
    split at found
    · cases found
    · have same := Option.some.inj found
      have declares : (settled (unitsBy s units)).rate ≠ none := by
        rw [same]
        simpa using rated
      obtain ⟨u, own, declares⟩ := settled_rate_ne_none.mp declares
      exact declares (silent u (mem_unitsBy.mp own).1)

/-- No stream masks another's loss: each stream's books are those of its own units, a line is written unless the
    sizes sum to zero, its percentage is the least over the streams with an assessed unit, more streams only lower it,
    and the single-stream form is that of a steady stream alone. -/
theorem no_masking (units : List Tallied) :
    (∀ s, (units.foldl call new).finalizeAll.streams.get? s =
      if unitsBy s units = [] then none else some (settled (unitsBy s units))) ∧
    (∀ own : List Tallied,
      (settled own).rate = (own.filterMap Tallied.declaredRate).getLast? ∧
      (settled own).delivered = ((own.filter fun u => u.Assessed).map fun u => u.numSamples.getD 0).sum ∧
      (0 < (settled own).expected ↔ ∃ u ∈ own, u.Assessed)) ∧
    ((units.foldl call new).captureSummary.1 = none ↔ (units.map fun u => u.numSamples.getD 0).sum = 0) ∧
    (∀ line, (units.foldl call new).captureSummary.1 = some line →
      (line = .rateUnknown ↔ ∀ u ∈ units, u.declaredRate = none) ∧
      (line = .windowTooShort ↔ (∃ u ∈ units, u.declaredRate ≠ none) ∧ ¬ ∃ u ∈ units, u.Assessed) ∧
      (line.pct?.isSome ↔ ∃ u ∈ units, u.Assessed) ∧
      ∀ pct, line.pct? = some pct ↔ ∃ p, IsLeast (percentages units) p ∧ pct = roundTenth p) ∧
    (∀ (kept : StreamId → Bool) (alone : CaptureReport) (pct : ℚ),
      ((units.filter fun u => kept u.streamId).foldl call new).captureSummary.1 = some alone → alone.pct? = some pct →
      alone.verdict? = some (verdict pct) ∧
      ((∀ u ∈ units, 0 ≤ u.numSamples.getD 0) → (units.foldl call new).captureSummary.1 ≠ none) ∧
      ∀ line, (units.foldl call new).captureSummary.1 = some line →
        ∃ pct', line.pct? = some pct' ∧ line.verdict? = some (verdict pct') ∧ pct' ≤ pct ∧
          (verdict pct).severity ≤ (verdict pct').severity) ∧
    (∀ line, (units.foldl call new).captureSummary.1 = some line → (line.Single ↔ Steady units)) ∧
    ∀ delivered rate pct bandwidth verdict,
      (units.foldl call new).captureSummary.1 = some (.steady delivered rate pct bandwidth verdict) →
      ∃ s, (∀ u ∈ units, u.streamId = s) ∧ 0 < (settled units).expected ∧ (settled units).rate = some rate ∧
        ∀ u ∈ units, ∀ declared, u.declaredRate = some declared → declared = rate := by
  refine ⟨settled_stream units, ?_, captureSummary_eq_none, ?_, ?_, ?_, ?_⟩
  · intro own
    exact ⟨settled_rate own, settled_delivered own, settled_expected_pos⟩
  · intro line written
    refine ⟨?_, ?_, report_pct_isSome written, ?_⟩
    · rw [captureSummary_report written, report_unknown_iff]
      exact declared_eq_nil
    · have declares : (∃ u ∈ units, u.declaredRate ≠ none) ↔ (units.foldl call new).finalizeAll.declared ≠ [] := by
        rw [ne_eq, declared_eq_nil]
        push Not
        exact Iff.rfl
      rw [captureSummary_report written, report_short_iff, declares, ← measurable_ne_nil, not_not]
    · intro pct
      rw [captureSummary_report written]
      exact report_least units pct
  · intro kept alone pct written reported
    have verdict' : alone.verdict? = some (verdict pct) := by
      rw [captureSummary_report written, report_verdict, ← captureSummary_report written, reported, Option.map_some]
    refine ⟨verdict', ?_, ?_⟩
    · intro nonneg
      apply captureSummary_written kept nonneg
      rw [written]
      exact Option.some_ne_none _
    · intro line written'
      rw [captureSummary_report written] at reported
      obtain ⟨pct', reported', lower⟩ := report_not_masked kept units reported
      rw [captureSummary_report written', report_verdict, reported', Option.map_some]
      exact ⟨pct', rfl, rfl, lower, verdict_antitone lower⟩
  · intro line written
    rw [captureSummary_report written]
    exact report_single_iff units
  · intro delivered rate pct bandwidth verdict written
    obtain ⟨s, stat, single, rated, positive, unchanged⟩ := report_steady (captureSummary_report written).symm
    obtain ⟨only, rfl⟩ := units_of_single single
    refine ⟨s, only, positive, rated, ?_⟩
    intro u member declared known
    exact Option.some.inj ((settled_unchanged.mp unchanged u member declared known).symm.trans rated)

theorem no_masking_lossy :
    (∃ line, (lossyUnits.foldl call new).captureSummary.1 = some line ∧
      line = .flagged 50 2 2 false 0 0 0 .partialLoss ∧
      (∃ p, IsLeast (percentages lossyUnits) p ∧ roundTenth p = 50) ∧ ¬ Steady lossyUnits) ∧
    ∃ alone, ((lossyUnits.filter fun u => u.streamId = some 1).foldl call new).captureSummary.1 = some alone ∧
      alone.Single ∧ alone.pct? = some 50 ∧ alone.verdict? = some .partialLoss := by
  obtain ⟨-, -, -, reports, masks, single, -⟩ := no_masking lossyUnits
  have report : (lossyUnits.foldl call new).captureSummary.1 = some (.flagged 50 2 2 false 0 0 0 .partialLoss) := by
    decide +kernel
  have alone : ((lossyUnits.filter fun u => u.streamId = some 1).foldl call new).captureSummary.1 =
      some (.steady 2 4 50 none .partialLoss) := by
    decide +kernel
  obtain ⟨p, least, rounded⟩ := ((reports _ report).2.2.2 50).mp rfl
  refine ⟨⟨_, report, rfl, ⟨p, least, rounded.symm⟩, fun steady => (single _ report).mpr steady⟩, _, alone,
    trivial, rfl, ?_⟩
  exact (masks (fun s => s = some 1) _ 50 alone rfl).1

end ThroughputMeter

end Sceptre
