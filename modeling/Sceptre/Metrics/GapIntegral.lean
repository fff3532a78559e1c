import Sceptre.Foundation.Hull
import Sceptre.Metrics.Reordering

namespace Sceptre

open Foundation MeasureTheory

namespace StreamStat

theorem books_commit_all (ws : List TimedWindow) :
    (ws.foldl commit {}).Books ((ws.map TimedWindow.span).foldl Ledger.commit .empty) := by
  induction ws using List.reverseRecOn with
  | nil => exact books_new
  | append_singleton ws w ih =>
    rw [List.foldl_append, List.map_append, List.foldl_append]
    exact ih.commit w

theorem finalize_of_pairwise {ws : List TimedWindow} (ordered : ws.Pairwise TimedWindow.Precedes) :
    (ws.foldl add {}).finalize = ws.foldl commit {} := by
  rw [finalize_sorted (ReorderBuffer.lags_of_pairwise _ ordered), ordered.insertionSort_eq]

end StreamStat

theorem TimedWindow.span_forward {w : TimedWindow} (positive : 0 < w.rate ∧ 0 < w.n) : w.span.start ≤ w.span.stop := by
  have length : 0 < (w.n : ℚ) / w.rate := div_pos (Int.cast_pos.mpr positive.2) positive.1
  simp only [span, Span.stop]
  linarith

theorem TimedWindow.starts_ordered {ws : List TimedWindow} (ordered : ws.Pairwise Precedes) :
    (ws.map span).Pairwise fun v w => v.start ≤ w.start := by
  apply List.Pairwise.map _ _ ordered
  intro v w precedes
  rcases precedes with before | ⟨same, -⟩
  · exact before.le
  · exact same.le

/-- What the stream lost is what the gaps of sample time hold, each at the rate of the first window that ends where
    it begins; at one rate, it is the hull less what the windows cover. -/
theorem gap_integral_exact (ws : List TimedWindow) (ordered : ws.Pairwise TimedWindow.Precedes)
    (positive : ∀ w ∈ ws, 0 < w.rate ∧ 0 < w.n) :
    (∃ gaps : Finset (ℚ × ℚ), (∀ a b, (a, b) ∈ gaps ↔ Gap (ws.map TimedWindow.span) a b) ∧
      (∀ g ∈ gaps, (rateAt (ws.map TimedWindow.span) g.1).isSome) ∧
      (ws.foldl StreamStat.commit {}).expected - (ws.foldl StreamStat.commit {}).delivered =
        ∑ g ∈ gaps, (g.2 - g.1) * (rateAt (ws.map TimedWindow.span) g.1).getD 0) ∧
    (∀ rate lo hi, (∀ w ∈ ws, w.rate = rate) → IsLeast {t | ∃ w ∈ ws, w.ts = t} lo →
      IsGreatest {t | ∃ w ∈ ws, w.ts + w.n / w.rate = t} hi →
      (((ws.foldl StreamStat.commit {}).expected - (ws.foldl StreamStat.commit {}).delivered : ℚ) : ℝ) =
        rate * (hi - lo - volume.real (coverage (ws.map TimedWindow.span)))) ∧
    (ws.foldl StreamStat.add {}).finalize = ws.foldl StreamStat.commit {} := by
  have forward : ∀ w ∈ ws.map TimedWindow.span, w.start ≤ w.stop := by
    intro w member
    obtain ⟨v, inside, rfl⟩ := List.mem_map.mp member
    exact TimedWindow.span_forward (positive v inside)
  have books := StreamStat.books_commit_all ws
  obtain ⟨gaps, members, rated, missed⟩ := missed_gaps _ forward (TimedWindow.starts_ordered ordered)
  rw [← books.expected, ← books.delivered] at missed
  refine ⟨⟨gaps, members, rated, missed⟩, ?_, StreamStat.finalize_of_pairwise ordered⟩
  intro rate lo hi common least greatest
  have each : ∀ g ∈ gaps, (g.2 - g.1) * (rateAt (ws.map TimedWindow.span) g.1).getD 0 = rate * (g.2 - g.1) := by
    intro g member
    obtain ⟨charged, at'⟩ := Option.isSome_iff_exists.mp (rated g member)
    have same : charged = rate := by
      obtain ⟨v, inside, own⟩ := exists_of_rateAt at'
      obtain ⟨w, member', rfl⟩ := List.mem_map.mp inside
      exact own.symm.trans (common w member')
    rw [at', Option.getD_some, same, mul_comm]
  have least' : IsLeast {t | ∃ w ∈ ws.map TimedWindow.span, w.start = t} lo := by
    simpa [TimedWindow.span] using least
  have greatest' : IsGreatest {t | ∃ w ∈ ws.map TimedWindow.span, w.stop = t} hi := by
    simpa [TimedWindow.span, Span.stop] using greatest
  have length := gaps_length forward least' greatest' fun a b => (members a b).trans (gap_iff forward)
  rw [missed, Finset.sum_congr rfl each, ← Finset.mul_sum, Rat.cast_mul, length]

namespace Hole

def windows : List TimedWindow := [⟨0, 10, 100⟩, ⟨2, 10, 20⟩, ⟨12, 10, 20⟩]

theorem gap_integral_exact_hole :
    (∃ gaps : Finset (ℚ × ℚ), (∀ a b, (a, b) ∈ gaps ↔ Gap (windows.map TimedWindow.span) a b) ∧
      20 = ∑ g ∈ gaps, (g.2 - g.1) * (rateAt (windows.map TimedWindow.span) g.1).getD 0) ∧
    (20 : ℝ) = 10 * (14 - 0 - volume.real (coverage (windows.map TimedWindow.span))) := by
  have lost : (windows.foldl StreamStat.commit {}).expected - (windows.foldl StreamStat.commit {}).delivered = 20 := by
    decide +kernel
  have exact := gap_integral_exact windows (by decide +kernel) (by decide +kernel)
  rw [lost] at exact
  obtain ⟨⟨gaps, members, -, missed⟩, measured, -⟩ := exact
  have least : IsLeast {t | ∃ w ∈ windows, w.ts = t} 0 := by
    constructor
    · exact ⟨⟨0, 10, 100⟩, by decide +kernel, rfl⟩
    · rintro t ⟨w, member, rfl⟩
      exact (by decide +kernel : ∀ w ∈ windows, 0 ≤ w.ts) w member
  have greatest : IsGreatest {t | ∃ w ∈ windows, w.ts + w.n / w.rate = t} 14 := by
    constructor
    · exact ⟨⟨12, 10, 20⟩, by decide +kernel, by decide +kernel⟩
    · rintro t ⟨w, member, rfl⟩
      exact (by decide +kernel : ∀ w ∈ windows, w.ts + w.n / w.rate ≤ 14) w member
  refine ⟨⟨gaps, members, missed⟩, ?_⟩
  have length := measured 10 0 14 (by decide +kernel) least greatest
  push_cast at length
  exact length

end Hole

end Sceptre
