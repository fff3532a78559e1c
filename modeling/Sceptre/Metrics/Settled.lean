import Sceptre.Metrics.Report

namespace Sceptre

open Foundation

def Tallied.declaredRate (u : Tallied) : Option ℚ := u.context.bind Context.sampleRateHz

def Tallied.Assessed (u : Tallied) : Prop :=
  u.startTimestamp.isSome ∧ u.declaredRate.any (fun rate => 0 < rate) ∧ 0 < u.numSamples.getD 0

instance : DecidablePred Tallied.Assessed := fun _ => inferInstanceAs (Decidable (_ ∧ _))

theorem Tallied.assessed_iff {u : Tallied} : u.Assessed ↔ ∃ w, u.Timed w := by
  constructor
  · intro assessed
    obtain ⟨stamped, rated, some⟩ := assessed
    obtain ⟨ts, start⟩ := Option.isSome_iff_exists.mp stamped
    cases declared : u.declaredRate with
    | none =>
      rw [declared] at rated
      cases rated
    | some rate =>
      rw [declared, Option.any_some, decide_eq_true_eq] at rated
      cases n : u.numSamples with
      | none =>
        rw [n] at some
        exact absurd some (lt_irrefl _)
      | some samples =>
        rw [n] at some
        exact ⟨⟨ts, rate, samples⟩, declared, start, n, rated, some⟩
  · intro timed
    obtain ⟨w, timed⟩ := timed
    have declared : u.declaredRate = some w.rate := timed.rate
    refine ⟨?_, ?_, ?_⟩
    · simp [timed.ts]
    · simp [declared, timed.positive]
    · simp [timed.n, timed.nonempty]

theorem Tallied.Assessed.declares {u : Tallied} (assessed : u.Assessed) : u.declaredRate ≠ none := by
  intro none
  have rated := assessed.2.1
  rw [none] at rated
  cases rated

namespace StreamStat

section Rates

theorem commit_rate (s : StreamStat) (w : TimedWindow) :
    (s.commit w).rate = s.rate ∧ (s.commit w).rateChanged = s.rateChanged := by
  simp only [commit]
  split
  · exact ⟨rfl, rfl⟩
  · exact ⟨rfl, rfl⟩

theorem add_rate (s : StreamStat) (w : TimedWindow) :
    (s.add w).rate = s.rate ∧ (s.add w).rateChanged = s.rateChanged := by
  obtain ⟨oldest, rest, -, either⟩ := s.add_cases w
  rcases either with ⟨-, waits⟩ | ⟨-, commits⟩
  · rw [waits]
    exact ⟨rfl, rfl⟩
  · rw [commits]
    exact commit_rate ..

theorem drain_rate (ws : List TimedWindow) (s : StreamStat) :
    (drain ws s).rate = s.rate ∧ (drain ws s).rateChanged = s.rateChanged := by
  induction ws generalizing s with
  | nil => exact ⟨rfl, rfl⟩
  | cons w rest ih =>
    rw [drain, (ih _).1, (ih _).2]
    exact commit_rate ..

theorem tally_rate (s : StreamStat) (u : Tallied) :
    (s.tally u).rate = u.declaredRate.or s.rate ∧
      (s.tally u).rateChanged =
        (s.rateChanged || u.declaredRate.any fun rate => s.rate.any fun earlier => rate ≠ earlier) := by
  unfold tally Tallied.declaredRate
  dsimp only
  cases u.context.bind Context.sampleRateHz with
  | none => simp
  | some rate =>
    dsimp only
    cases u.startTimestamp with
    | none => simp
    | some ts =>
      dsimp only
      split
      · rw [(add_rate _ _).1, (add_rate _ _).2]
        simp
      · simp

theorem tally_all_rate (us : List Tallied) (s : StreamStat) :
    (us.foldl tally s).rate = (us.filterMap Tallied.declaredRate).getLast?.or s.rate := by
  induction us generalizing s with
  | nil => rfl
  | cons u rest ih =>
    rw [List.foldl_cons, ih, (s.tally_rate u).1]
    cases declared : u.declaredRate with
    | none => rw [List.filterMap_cons_none declared, Option.none_or]
    | some rate =>
      rw [List.filterMap_cons_some declared, List.getLast?_cons]
      cases (rest.filterMap Tallied.declaredRate).getLast? with
      | none => rfl
      | some later => rfl

theorem tally_all_rate_new (us : List Tallied) :
    (us.foldl tally {}).rate = (us.filterMap Tallied.declaredRate).getLast? := by
  rw [tally_all_rate, show ({} : StreamStat).rate = none from rfl, Option.or_none]

theorem tally_all_rate_ne_none {us : List Tallied} :
    (us.foldl tally {}).rate ≠ none ↔ ∃ u ∈ us, u.declaredRate ≠ none := by
  rw [tally_all_rate_new, ne_eq, List.getLast?_eq_none_iff, List.filterMap_eq_nil_iff]
  push Not
  exact Iff.rfl

theorem tally_all_unchanged {us : List Tallied} :
    (us.foldl tally {}).rateChanged = false ↔
      ∀ u ∈ us, ∀ rate, u.declaredRate = some rate → (us.foldl tally {}).rate = some rate := by
  induction us using List.reverseRecOn with
  | nil => simp
  | append_singleton us last ih =>
    rw [List.foldl_append, List.foldl_cons, List.foldl_nil, (tally_rate _ last).1, (tally_rate _ last).2,
      Bool.or_eq_false_iff, ih]
    cases now : last.declaredRate with
    | none =>
      simp only [Option.any_none, and_true, Option.none_or, List.forall_mem_append, List.forall_mem_singleton, now]
      simp
    | some current =>
      simp only [Option.any_some, Option.some_or, List.forall_mem_append, List.forall_mem_singleton, now]
      constructor
      · rintro ⟨before, same⟩
        refine ⟨?_, fun rate declared => declared⟩
        intro u member rate declared
        have held := before u member rate declared
        rw [held] at same
        have equal : current = rate := by simpa using same
        rw [equal]
      · rintro ⟨equal, -⟩
        have latest : ∀ earlier, (us.foldl tally {}).rate = some earlier → earlier = current := by
          intro earlier held
          rw [tally_all_rate_new] at held
          obtain ⟨u, member, declared⟩ := List.mem_filterMap.mp (List.mem_of_getLast? held)
          exact (Option.some.inj (equal u member earlier declared)).symm
        refine ⟨?_, ?_⟩
        · intro u member rate declared
          have rated : (us.foldl tally {}).rate ≠ none :=
            tally_all_rate_ne_none.mpr ⟨u, member, by rw [declared]; exact Option.some_ne_none _⟩
          obtain ⟨earlier, held⟩ := Option.ne_none_iff_exists'.mp rated
          rw [held, latest earlier held]
          exact equal u member rate declared
        · cases held : (us.foldl tally {}).rate with
          | none => rfl
          | some earlier => simp [latest earlier held]

end Rates

/-- The books of a stream are in order: no more delivered than expected, and a frontier has a positive rate. -/
structure Orderly (s : StreamStat) : Prop where
  bounded : s.delivered ≤ s.expected
  rated : ∀ stop, s.lastEnd = some stop → ∃ rate, s.curRate = some rate ∧ 0 < rate

theorem orderly_new : Orderly {} := ⟨by simp, by simp⟩

theorem Orderly.gapLoss_nonneg {s : StreamStat} (orderly : s.Orderly) (ts : ℚ) : 0 ≤ s.gapLoss ts := by
  unfold gapLoss
  cases edge : s.lastEnd with
  | none => exact le_rfl
  | some stop =>
    obtain ⟨rate, current, positive⟩ := orderly.rated stop edge
    dsimp only
    split
    · rename_i ahead
      rw [current, Option.getD_some]
      exact mul_nonneg positive.le ahead.le
    · exact le_rfl

theorem orderly_kept : Kept Orderly fun w => 0 < w.rate ∧ 0 < w.n where
  same orderly delivered expected lastEnd curRate := by
    constructor
    · rw [delivered, expected]
      exact orderly.bounded
    · rw [lastEnd, curRate]
      exact orderly.rated
  commit := by
    intro s w orderly fits
    constructor
    · have loss := orderly.gapLoss_nonneg w.ts
      have bounded := orderly.bounded
      rw [commit_delivered, commit_expected, Int.cast_add]
      linarith
    · intro stop edge
      simp only [StreamStat.commit] at edge ⊢
      split
      · exact ⟨w.rate, rfl, fits.1⟩
      · rename_i covered
        rw [if_neg covered] at edge
        exact orderly.rated stop edge

theorem orderly_tally_all (us : List Tallied) :
    (us.foldl tally {}).Orderly ∧ ∀ w ∈ (us.foldl tally {}).pending, 0 < w.rate ∧ 0 < w.n := by
  apply orderly_kept.tally_all _ orderly_new
  · intro w member
    cases member
  · intro u _ w timed
    exact ⟨timed.positive, timed.nonempty⟩

theorem owed_tally_sum (us : List Tallied) (s : StreamStat) :
    (us.foldl tally s).owed = s.owed + ((us.filter fun u => u.Assessed).map fun u => u.numSamples.getD 0).sum := by
  induction us generalizing s with
  | nil => simp
  | cons u rest ih =>
    rw [List.foldl_cons, ih, List.filter_cons]
    by_cases assessed : u.Assessed
    · obtain ⟨w, timed⟩ := Tallied.assessed_iff.mp assessed
      rw [s.owed_tally_timed timed, if_pos (decide_eq_true assessed), List.map_cons, List.sum_cons, timed.n,
        Option.getD_some]
      omega
    · have untimed : u.Untimed := fun w timed => assessed (Tallied.assessed_iff.mpr ⟨w, timed⟩)
      rw [s.owed_tally_untimed untimed, if_neg (by simpa using assessed)]

end StreamStat

namespace ThroughputMeter

def settled (own : List Tallied) : StreamStat := (own.foldl StreamStat.tally {}).finalize

section Settled

variable (own : List Tallied)

theorem settled_owed : (settled own).delivered = (own.foldl StreamStat.tally {}).owed := StreamStat.drain_delivered ..

theorem settled_rates : (settled own).rate = (own.foldl StreamStat.tally {}).rate ∧
    (settled own).rateChanged = (own.foldl StreamStat.tally {}).rateChanged := StreamStat.drain_rate ..

theorem settled_orderly : (settled own).Orderly := by
  obtain ⟨holds, waiting⟩ := StreamStat.orderly_tally_all own
  exact StreamStat.orderly_kept.finalize holds waiting

theorem settled_delivered :
    (settled own).delivered = ((own.filter fun u => u.Assessed).map fun u => u.numSamples.getD 0).sum := by
  rw [settled_owed, StreamStat.owed_tally_sum, show ({} : StreamStat).owed = 0 from rfl, zero_add]

theorem settled_rate : (settled own).rate = (own.filterMap Tallied.declaredRate).getLast? := by
  rw [(settled_rates own).1]
  exact StreamStat.tally_all_rate_new own

variable {own}

theorem settled_rate_ne_none : (settled own).rate ≠ none ↔ ∃ u ∈ own, u.declaredRate ≠ none := by
  rw [(settled_rates own).1]
  exact StreamStat.tally_all_rate_ne_none

theorem settled_unchanged : (settled own).rateChanged = false ↔
    ∀ u ∈ own, ∀ rate, u.declaredRate = some rate → (settled own).rate = some rate := by
  rw [(settled_rates own).1, (settled_rates own).2]
  exact StreamStat.tally_all_unchanged

theorem settled_expected_pos : 0 < (settled own).expected ↔ ∃ u ∈ own, u.Assessed := by
  constructor
  · intro positive
    by_contra none
    have untimed : ∀ u ∈ own, u.Untimed := fun u member w timed =>
      none ⟨u, member, Tallied.assessed_iff.mpr ⟨w, timed⟩⟩
    obtain ⟨-, expected, pending⟩ := StreamStat.tally_all_untimed untimed {}
    rw [settled, StreamStat.finalize, pending, StreamStat.drain] at positive
    dsimp only at positive
    rw [expected] at positive
    exact absurd positive (lt_irrefl _)
  · rintro ⟨u, member, assessed⟩
    obtain ⟨w, timed⟩ := Tallied.assessed_iff.mp assessed
    have owed := StreamStat.owed_tally_all member timed {}
    have some : (0 : ℚ) < (settled own).delivered := by
      rw [settled_owed]
      exact_mod_cast owed
    exact some.trans_le (settled_orderly own).bounded

end Settled

def unitsBy (s : StreamId) (units : List Tallied) : List Tallied := units.filter fun u => u.streamId = s

theorem mem_unitsBy {s : StreamId} {units : List Tallied} {u : Tallied} :
    u ∈ unitsBy s units ↔ u ∈ units ∧ u.streamId = s := by
  rw [unitsBy, List.mem_filter, decide_eq_true_eq]

theorem unitsBy_eq_nil {s : StreamId} {units : List Tallied} :
    unitsBy s units = [] ↔ ¬ ∃ u ∈ units, u.streamId = s := by
  rw [unitsBy, List.filter_eq_nil_iff]
  push Not
  simp only [decide_eq_true_eq, ne_eq]

theorem unitsBy_eq_self {s : StreamId} {units : List Tallied} (only : ∀ u ∈ units, u.streamId = s) :
    unitsBy s units = units := by
  apply List.filter_eq_self.mpr
  intro u member
  exact decide_eq_true (only u member)

theorem settled_stream (units : List Tallied) (s : StreamId) :
    (units.foldl call new).finalizeAll.streams.get? s =
      if unitsBy s units = [] then none else some (settled (unitsBy s units)) := by
  rw [finalizeAll, OrderedDict.get?_map, call_stream]
  unfold unitsBy
  split
  · rfl
  · rfl

theorem mem_measurable_iff {units : List Tallied} {s : StreamId} {stat : StreamStat} :
    (s, stat) ∈ (units.foldl call new).finalizeAll.measurable ↔
      stat = settled (unitsBy s units) ∧ ∃ u ∈ unitsBy s units, u.Assessed := by
  constructor
  · intro member
    obtain ⟨declared, positive⟩ := List.mem_filter.mp member
    obtain ⟨entry, rated⟩ := List.mem_filter.mp declared
    have found := OrderedDict.get?_of_mem _ entry
    rw [settled_stream] at found
    split at found
    · cases found
    · have same := Option.some.inj found
      refine ⟨same.symm, settled_expected_pos.mp ?_⟩
      rw [same]
      simpa using positive
  · rintro ⟨rfl, u, own, assessed⟩
    have known : unitsBy s units ≠ [] := List.ne_nil_of_mem own
    have found : (units.foldl call new).finalizeAll.streams.get? s = some (settled (unitsBy s units)) := by
      rw [settled_stream, if_neg known]
    have rated : (settled (unitsBy s units)).rate ≠ none := settled_rate_ne_none.mpr ⟨u, own, assessed.declares⟩
    have positive : 0 < (settled (unitsBy s units)).expected := settled_expected_pos.mpr ⟨u, own, assessed⟩
    exact List.mem_filter.mpr ⟨List.mem_filter.mpr ⟨OrderedDict.mem_of_get? _ found, by simpa using rated⟩,
      by simpa using positive⟩

theorem measurable_ne_nil {units : List Tallied} :
    (units.foldl call new).finalizeAll.measurable ≠ [] ↔ ∃ u ∈ units, u.Assessed := by
  constructor
  · intro some
    obtain ⟨⟨s, stat⟩, member⟩ := List.exists_mem_of_ne_nil _ some
    obtain ⟨-, u, own, assessed⟩ := mem_measurable_iff.mp member
    exact ⟨u, (mem_unitsBy.mp own).1, assessed⟩
  · rintro ⟨u, member, assessed⟩
    have own : u ∈ unitsBy u.streamId units := mem_unitsBy.mpr ⟨member, rfl⟩
    exact List.ne_nil_of_mem (mem_measurable_iff.mpr ⟨rfl, u, own, assessed⟩)

theorem call_total (units : List Tallied) (m : ThroughputMeter) :
    (units.foldl call m).totalSamples = m.totalSamples + (units.map fun u => u.numSamples.getD 0).sum := by
  induction units generalizing m with
  | nil => simp
  | cons u rest ih =>
    rw [List.foldl_cons, ih, List.map_cons, List.sum_cons]
    exact Int.add_assoc ..

theorem captureSummary_eq_none {units : List Tallied} :
    (units.foldl call new).captureSummary.1 = none ↔ (units.map fun u => u.numSamples.getD 0).sum = 0 := by
  have total : (units.foldl call new).totalSamples = (units.map fun u => u.numSamples.getD 0).sum := by
    rw [call_total]
    exact Int.zero_add _
  rw [← total, captureSummary]
  split
  · rename_i nothing
    exact ⟨fun _ => nothing, fun _ => rfl⟩
  · rename_i some
    exact ⟨fun none => absurd none (Option.some_ne_none _), fun nothing => absurd nothing some⟩

end ThroughputMeter

end Sceptre
