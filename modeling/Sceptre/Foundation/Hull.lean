import Mathlib.MeasureTheory.Measure.Lebesgue.Basic
import Mathlib.MeasureTheory.Measure.Real
import Sceptre.Foundation.Sweep

namespace Foundation

open MeasureTheory

def coverage (ws : List (Span ℚ)) : Set ℝ := ⋃ w ∈ ws, Set.Icc (w.start : ℝ) (w.stop : ℝ)

variable {ws : List (Span ℚ)} {lo hi : ℚ} {found : Finset (ℚ × ℚ)}

theorem mem_coverage {x : ℝ} : x ∈ coverage ws ↔ ∃ w ∈ ws, (w.start : ℝ) ≤ x ∧ x ≤ (w.stop : ℝ) := by
  simp only [coverage, Set.mem_iUnion, Set.mem_Icc, exists_prop]

theorem coverage_subset (least : IsLeast {t | ∃ w ∈ ws, w.start = t} lo)
    (greatest : IsGreatest {t | ∃ w ∈ ws, w.stop = t} hi) : coverage ws ⊆ Set.Icc (lo : ℝ) (hi : ℝ) := by
  intro x covered
  obtain ⟨w, member, started, stopped⟩ := mem_coverage.mp covered
  have first : (lo : ℝ) ≤ w.start := Rat.cast_le.mpr (least.2 ⟨w, member, rfl⟩)
  have last : (w.stop : ℝ) ≤ hi := Rat.cast_le.mpr (greatest.2 ⟨w, member, rfl⟩)
  exact ⟨first.trans started, stopped.trans last⟩

theorem hull_eq (forward : ∀ w ∈ ws, w.start ≤ w.stop) (least : IsLeast {t | ∃ w ∈ ws, w.start = t} lo)
    (greatest : IsGreatest {t | ∃ w ∈ ws, w.stop = t} hi) (gaps : ∀ a b, (a, b) ∈ found ↔ Between ws a b) :
    Set.Icc (lo : ℝ) (hi : ℝ) = coverage ws ∪ ⋃ g ∈ found, Set.Ioo (g.1 : ℝ) (g.2 : ℝ) := by
  apply Set.Subset.antisymm
  · intro x inside
    by_cases covered : x ∈ coverage ws
    · exact Or.inl covered
    · right
      obtain ⟨v, first, starts⟩ := least.1
      obtain ⟨w, last, stops⟩ := greatest.1
      obtain ⟨a, b, between, left, right⟩ := Between.exists_of_bare Rat.castOrderEmbedding (x := x)
        ⟨v, first, by rw [starts]; exact inside.1⟩ ⟨w, last, by rw [stops]; exact inside.2⟩
        fun w member inside => covered (mem_coverage.mpr ⟨w, member, inside⟩)
      exact Set.mem_biUnion ((gaps a b).mpr between) ⟨left, right⟩
  · apply Set.union_subset (coverage_subset least greatest)
    apply Set.iUnion₂_subset
    intro g member x inside
    have uncovered := ((gaps g.1 g.2).mp member).uncovered forward
    obtain ⟨v, first, after⟩ := uncovered.after
    obtain ⟨w, last, before⟩ := uncovered.before
    have low : lo ≤ g.1 := (least.2 ⟨v, first, rfl⟩).trans after
    have high : g.2 ≤ hi := before.trans (greatest.2 ⟨w, last, rfl⟩)
    exact ⟨(Rat.cast_le.mpr low).trans inside.1.le, inside.2.le.trans (Rat.cast_le.mpr high)⟩

theorem coverage_disjoint_gaps (gaps : ∀ a b, (a, b) ∈ found ↔ Between ws a b) :
    Disjoint (coverage ws) (⋃ g ∈ found, Set.Ioo (g.1 : ℝ) (g.2 : ℝ)) := by
  apply Set.disjoint_left.mpr
  intro x covered inside
  obtain ⟨w, member, started, stopped⟩ := mem_coverage.mp covered
  obtain ⟨g, found', left, right⟩ := Set.mem_iUnion₂.mp inside
  rcases ((gaps g.1 g.2).mp found').apart w member with before | after
  · exact absurd (stopped.trans (Rat.cast_le.mpr before)) (not_le.mpr left)
  · exact absurd ((Rat.cast_le.mpr after).trans started) (not_le.mpr right)

theorem gaps_disjoint (forward : ∀ w ∈ ws, w.start ≤ w.stop) (gaps : ∀ a b, (a, b) ∈ found ↔ Between ws a b) :
    (found : Set (ℚ × ℚ)).PairwiseDisjoint fun g => Set.Ioo (g.1 : ℝ) (g.2 : ℝ) := by
  intro g member g' member' different
  apply Set.disjoint_left.mpr
  intro x inside inside'
  have overlap : g.1 < g'.2 := Rat.cast_lt.mp (inside.1.trans inside'.2)
  have overlap' : g'.1 < g.2 := Rat.cast_lt.mp (inside'.1.trans inside.2)
  obtain ⟨left, right⟩ := ((gaps g.1 g.2).mp member).unique forward ((gaps g'.1 g'.2).mp member') overlap overlap'
  exact different (Prod.ext left right)

/-- What the gaps hold is the length of the hull less the measure of what the spans cover. -/
theorem gaps_length (forward : ∀ w ∈ ws, w.start ≤ w.stop) (least : IsLeast {t | ∃ w ∈ ws, w.start = t} lo)
    (greatest : IsGreatest {t | ∃ w ∈ ws, w.stop = t} hi) (gaps : ∀ a b, (a, b) ∈ found ↔ Between ws a b) :
    ((∑ g ∈ found, (g.2 - g.1) : ℚ) : ℝ) = hi - lo - volume.real (coverage ws) := by
  have ordered : (lo : ℝ) ≤ hi := by
    obtain ⟨v, first, starts⟩ := least.1
    have last : v.stop ≤ hi := greatest.2 ⟨v, first, rfl⟩
    exact Rat.cast_le.mpr (starts ▸ (forward v first).trans last)
  have bounded : volume (coverage ws) ≠ ⊤ :=
    ((measure_mono (coverage_subset least greatest)).trans_lt measure_Icc_lt_top).ne
  have bounded' : volume (⋃ g ∈ found, Set.Ioo (g.1 : ℝ) (g.2 : ℝ)) ≠ ⊤ := by
    have inside : (⋃ g ∈ found, Set.Ioo (g.1 : ℝ) (g.2 : ℝ)) ⊆ Set.Icc (lo : ℝ) hi := by
      rw [hull_eq forward least greatest gaps]
      exact Set.subset_union_right
    exact ((measure_mono inside).trans_lt measure_Icc_lt_top).ne
  have each : ∀ g ∈ found, volume.real (Set.Ioo (g.1 : ℝ) (g.2 : ℝ)) = g.2 - g.1 := by
    intro g member
    exact Real.volume_real_Ioo_of_le (Rat.cast_le.mpr ((gaps g.1 g.2).mp member).proper.le)
  have whole : (hi : ℝ) - lo = volume.real (coverage ws) + ∑ g ∈ found, ((g.2 : ℝ) - g.1) := by
    rw [← Real.volume_real_Icc_of_le ordered, hull_eq forward least greatest gaps,
      measureReal_union (coverage_disjoint_gaps gaps) (Finset.measurableSet_biUnion _ fun g _ => measurableSet_Ioo)
        bounded bounded',
      measureReal_biUnion_finset (gaps_disjoint forward gaps) (fun g _ => measurableSet_Ioo)
        (fun g _ => measure_Ioo_lt_top.ne),
      Finset.sum_congr rfl each]
  push_cast
  linarith

end Foundation
