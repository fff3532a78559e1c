import Mathlib.Data.Set.Finite.Lemmas
import Mathlib.Order.CompletePartialOrder
import Mathlib.Order.Interval.Set.Basic
import Sceptre.Foundation.Ledger

namespace Foundation

variable {K : Type} [Field K] [LinearOrder K]

structure Uncovered (ws : List (Span K)) (a b : K) : Prop where
  proper : a < b
  after : ∃ w ∈ ws, w.start ≤ a
  before : ∃ w ∈ ws, b ≤ w.stop
  bare : ∀ w ∈ ws, Disjoint (Set.Ioo a b) (Set.Icc w.start w.stop)

structure Gap (ws : List (Span K)) (a b : K) : Prop where
  uncovered : Uncovered ws a b
  maximal : ∀ a' b', Uncovered ws a' b' → a' ≤ a → b ≤ b' → a' = a ∧ b' = b

structure Between (ws : List (Span K)) (a b : K) : Prop where
  proper : a < b
  stops : ∃ w ∈ ws, w.stop = a
  starts : ∃ w ∈ ws, w.start = b
  apart : ∀ w ∈ ws, w.stop ≤ a ∨ b ≤ w.start

namespace Between

variable {ws : List (Span K)} {a b a' b' : K}

theorem le_left (between : Between ws a b) (forward : ∀ w ∈ ws, w.start ≤ w.stop)
    (apart : ∀ w ∈ ws, w.stop ≤ a' ∨ b' ≤ w.start) (overlap : a < b') : a ≤ a' := by
  obtain ⟨v, earlier, stops⟩ := between.stops
  rcases apart v earlier with left | right
  · exact stops ▸ left
  · have before := right.trans (forward v earlier)
    rw [stops] at before
    exact absurd before (not_le.mpr overlap)

theorem right_le (between : Between ws a b) (forward : ∀ w ∈ ws, w.start ≤ w.stop)
    (apart : ∀ w ∈ ws, w.stop ≤ a' ∨ b' ≤ w.start) (overlap : a' < b) : b' ≤ b := by
  obtain ⟨w, later, starts⟩ := between.starts
  rcases apart w later with left | right
  · have after := (forward w later).trans left
    rw [starts] at after
    exact absurd after (not_le.mpr overlap)
  · exact starts ▸ right

theorem unique (forward : ∀ w ∈ ws, w.start ≤ w.stop) (between : Between ws a b) (between' : Between ws a' b')
    (overlap : a < b') (overlap' : a' < b) : a = a' ∧ b = b' := by
  constructor
  · exact le_antisymm (between.le_left forward between'.apart overlap) (between'.le_left forward between.apart overlap')
  · exact le_antisymm (between'.right_le forward between.apart overlap)
      (between.right_le forward between'.apart overlap')

theorem exists_of_bare {L : Type} [LinearOrder L] (place : K ↪o L) {x : L}
    (after : ∃ w ∈ ws, place w.start ≤ x) (before : ∃ w ∈ ws, x ≤ place w.stop)
    (bare : ∀ w ∈ ws, ¬ (place w.start ≤ x ∧ x ≤ place w.stop)) :
    ∃ a b, Between ws a b ∧ place a < x ∧ x < place b := by
  have side : ∀ w ∈ ws, place w.stop < x ∨ x < place w.start := by
    intro w member
    by_contra inside
    rw [not_or, not_lt, not_lt] at inside
    exact bare w member inside.symm
  have earlier : {w | w ∈ ws ∧ place w.stop < x}.Nonempty := by
    obtain ⟨w, member, started⟩ := after
    exact ⟨w, member, (side w member).resolve_right (not_lt.mpr started)⟩
  have later : {w | w ∈ ws ∧ x < place w.start}.Nonempty := by
    obtain ⟨w, member, stopped⟩ := before
    exact ⟨w, member, (side w member).resolve_left (not_lt.mpr stopped)⟩
  have few : {w | w ∈ ws ∧ place w.stop < x}.Finite := (List.finite_toSet ws).subset fun w inside => inside.1
  have few' : {w | w ∈ ws ∧ x < place w.start}.Finite := (List.finite_toSet ws).subset fun w inside => inside.1
  obtain ⟨last, ⟨member, stopped⟩, latest⟩ := Set.exists_max_image _ Span.stop few earlier
  obtain ⟨next, ⟨member', starts⟩, earliest⟩ := Set.exists_min_image _ Span.start few' later
  refine ⟨last.stop, next.start, ⟨?_, ⟨last, member, rfl⟩, ⟨next, member', rfl⟩, ?_⟩, stopped, starts⟩
  · exact place.lt_iff_lt.mp (stopped.trans starts)
  · intro w inside
    rcases side w inside with left | right
    · exact Or.inl (latest w ⟨inside, left⟩)
    · exact Or.inr (earliest w ⟨inside, right⟩)

end Between

def rateAt (ws : List (Span K)) (t : K) : Option K := (ws.find? fun w => w.stop = t).map Span.rate

theorem exists_of_rateAt {ws : List (Span K)} {t rate : K} (found : rateAt ws t = some rate) :
    ∃ w ∈ ws, w.rate = rate := by
  obtain ⟨w, first, own⟩ := Option.map_eq_some_iff.mp found
  exact ⟨w, List.mem_of_find?_eq_some first, own⟩

theorem rateAt_isSome {ws : List (Span K)} {t : K} (ends : ∃ v ∈ ws, v.stop = t) : (rateAt ws t).isSome := by
  obtain ⟨v, member, stops⟩ := ends
  rw [rateAt, Option.isSome_map, List.find?_isSome]
  exact ⟨v, member, by simpa using stops⟩

theorem rateAt_snoc {ws : List (Span K)} {t : K} (earlier : ∃ v ∈ ws, v.stop = t) (w : Span K) :
    rateAt (ws ++ [w]) t = rateAt ws t := by
  have found := rateAt_isSome earlier
  rw [rateAt, Option.isSome_map] at found
  rw [rateAt, rateAt, List.find?_append, Option.or_of_isSome found]

theorem rateAt_snoc_self {ws : List (Span K)} {w : Span K} (before : ∀ v ∈ ws, v.stop < w.stop) :
    rateAt (ws ++ [w]) w.stop = some w.rate := by
  have none : (ws.find? fun v => v.stop = w.stop) = none := by
    rw [List.find?_eq_none]
    intro v member
    simpa using (before v member).ne
  rw [rateAt, List.find?_append, none]
  simp

theorem between_snoc {ws : List (Span K)} {w : Span K} {stop a b : K} (forward : w.start ≤ w.stop)
    (later : ∀ v ∈ ws, v.start ≤ w.start) (last : IsGreatest {t | ∃ v ∈ ws, v.stop = t} stop) :
    Between (ws ++ [w]) a b ↔ Between ws a b ∨ (stop < w.start ∧ a = stop ∧ b = w.start) := by
  constructor
  · intro between
    have apart : ∀ v ∈ ws, v.stop ≤ a ∨ b ≤ v.start := fun v member => between.apart v (List.mem_append_left _ member)
    obtain ⟨u, member, starts⟩ := between.starts
    have bound : b ≤ w.start := by
      rcases List.mem_append.mp member with earlier | own
      · exact starts.ge.trans (later u earlier)
      · rw [List.mem_singleton.mp own] at starts
        exact starts.ge
    have stops : ∃ v ∈ ws, v.stop = a := by
      obtain ⟨v, member, stops⟩ := between.stops
      rcases List.mem_append.mp member with earlier | own
      · exact ⟨v, earlier, stops⟩
      · rw [List.mem_singleton.mp own] at stops
        exact absurd (bound.trans (forward.trans stops.le)) (not_le.mpr between.proper)
    rcases List.mem_append.mp member with earlier | own
    · exact Or.inl ⟨between.proper, stops, ⟨u, earlier, starts⟩, apart⟩
    · rw [List.mem_singleton.mp own] at starts
      obtain ⟨x, furthest, stop'⟩ := last.1
      rcases apart x furthest with left | right
      · right
        have same : a = stop := le_antisymm (last.2 stops) (stop' ▸ left)
        exact ⟨by rw [← same, starts]; exact between.proper, same, starts.symm⟩
      · left
        have same : x.start = b := le_antisymm (starts ▸ later x furthest) right
        exact ⟨between.proper, stops, ⟨x, furthest, same⟩, apart⟩
  · intro either
    rcases either with between | ⟨beyond, left, right⟩
    · obtain ⟨v, earlier, stops⟩ := between.stops
      obtain ⟨u, member, starts⟩ := between.starts
      refine ⟨between.proper, ⟨v, List.mem_append_left _ earlier, stops⟩,
        ⟨u, List.mem_append_left _ member, starts⟩, ?_⟩
      intro x inside
      rcases List.mem_append.mp inside with before | own
      · exact between.apart x before
      · rw [List.mem_singleton.mp own]
        exact Or.inr (starts ▸ later u member)
    · obtain ⟨v, earlier, stops⟩ := last.1
      rw [left, right]
      refine ⟨beyond, ⟨v, List.mem_append_left _ earlier, stops⟩, ⟨w, by simp, rfl⟩, ?_⟩
      intro x inside
      rcases List.mem_append.mp inside with before | own
      · exact Or.inl (last.2 ⟨x, before, rfl⟩)
      · rw [List.mem_singleton.mp own]
        exact Or.inr le_rfl

/-- What a ledger has found of the spans committed to it, in the order of their starts. -/
structure Swept (ws : List (Span K)) (l : Ledger K) (found : Finset (K × K)) : Prop where
  gaps : ∀ a b, (a, b) ∈ found ↔ Between ws a b
  missed : l.expected - l.received = ∑ g ∈ found, (g.2 - g.1) * (rateAt ws g.1).getD 0
  edge : ∃ stop rate, l.frontier = some (stop, rate) ∧ IsGreatest {t | ∃ v ∈ ws, v.stop = t} stop ∧
    rateAt ws stop = some rate

theorem swept_singleton {w : Span K} (forward : w.start ≤ w.stop) : Swept [w] (Ledger.empty.commit w) ∅ := by
  constructor
  · intro a b
    constructor
    · intro none
      simp at none
    · intro between
      obtain ⟨v, member, stops⟩ := between.stops
      obtain ⟨u, member', starts⟩ := between.starts
      rw [List.mem_singleton.mp member] at stops
      rw [List.mem_singleton.mp member'] at starts
      exact absurd (starts ▸ stops ▸ between.proper) (not_lt.mpr forward)
  · simp [Ledger.commit, Ledger.empty, Ledger.missed]
  · refine ⟨w.stop, w.rate, rfl, ⟨⟨w, by simp, rfl⟩, ?_⟩, by simp [rateAt]⟩
    rintro t ⟨v, member, stops⟩
    rw [← stops, List.mem_singleton.mp member]

namespace Swept

variable {ws : List (Span K)} {l : Ledger K} {found : Finset (K × K)} {w : Span K}

theorem edge_commit (swept : Swept ws l found) :
    ∃ stop rate, (l.commit w).frontier = some (stop, rate) ∧ IsGreatest {t | ∃ v ∈ ws ++ [w], v.stop = t} stop ∧
      rateAt (ws ++ [w]) stop = some rate := by
  obtain ⟨stop, rate, frontier, last, first⟩ := swept.edge
  by_cases beyond : w.stop > stop
  · refine ⟨w.stop, w.rate, ?_, ⟨⟨w, by simp, rfl⟩, ?_⟩, ?_⟩
    · simp only [Ledger.commit, Ledger.advance, frontier, if_pos beyond]
    · intro t ends
      obtain ⟨v, member, rfl⟩ := ends
      rcases List.mem_append.mp member with earlier | own
      · exact (last.2 ⟨v, earlier, rfl⟩).trans beyond.le
      · rw [List.mem_singleton.mp own]
    · exact rateAt_snoc_self fun v member => (last.2 ⟨v, member, rfl⟩).trans_lt beyond
  · obtain ⟨v, member, stops⟩ := last.1
    refine ⟨stop, rate, ?_, ⟨⟨v, List.mem_append_left _ member, stops⟩, ?_⟩, ?_⟩
    · simp only [Ledger.commit, Ledger.advance, frontier, if_neg beyond]
    · intro t ends
      obtain ⟨u, inside, rfl⟩ := ends
      rcases List.mem_append.mp inside with earlier | own
      · exact last.2 ⟨u, earlier, rfl⟩
      · rw [List.mem_singleton.mp own]
        exact not_lt.mp beyond
    · rw [rateAt_snoc ⟨v, member, stops⟩]
      exact first

variable [IsStrictOrderedRing K]

theorem commit (swept : Swept ws l found) (forward : ∀ v ∈ ws ++ [w], v.start ≤ v.stop)
    (later : ∀ v ∈ ws, v.start ≤ w.start) : ∃ found', Swept (ws ++ [w]) (l.commit w) found' := by
  have own : w.start ≤ w.stop := forward w (by simp)
  obtain ⟨stop, rate, frontier, last, first⟩ := swept.edge
  have kept : ∀ g ∈ found, rateAt (ws ++ [w]) g.1 = rateAt ws g.1 := fun g member =>
    rateAt_snoc ((swept.gaps g.1 g.2).mp member).stops w
  have edge := swept.edge_commit (w := w)
  by_cases beyond : stop < w.start
  · have fresh : (stop, w.start) ∉ found := by
      intro member
      obtain ⟨u, inside, starts⟩ := ((swept.gaps _ _).mp member).starts
      have before : u.start ≤ stop := (forward u (List.mem_append_left _ inside)).trans (last.2 ⟨u, inside, rfl⟩)
      exact absurd (starts ▸ before) (not_le.mpr beyond)
    refine ⟨insert (stop, w.start) found, ?_, ?_, edge⟩
    · intro a b
      rw [Finset.mem_insert, swept.gaps, between_snoc own later last, Prod.mk.injEq]
      tauto
    · have rate' : rateAt (ws ++ [w]) stop = some rate := by
        rw [rateAt_snoc last.1]
        exact first
      have ahead : w.start - stop > 0 := sub_pos.mpr beyond
      have charge : l.missed w.start = rate * (w.start - stop) := by
        simp only [Ledger.missed, frontier, if_pos ahead]
      rw [Finset.sum_insert fresh, Finset.sum_congr rfl fun g member => by rw [kept g member], ← swept.missed]
      simp only [Ledger.commit, charge, rate', Option.getD_some]
      ring
  · refine ⟨found, ?_, ?_, edge⟩
    · intro a b
      rw [swept.gaps, between_snoc own later last]
      tauto
    · rw [Finset.sum_congr rfl fun g member => by rw [kept g member], ← swept.missed]
      simp only [Ledger.commit, Ledger.missed_of_le frontier (not_lt.mp beyond)]
      ring

theorem commit_all (ws : List (Span K)) (forward : ∀ w ∈ ws, w.start ≤ w.stop)
    (ordered : ws.Pairwise fun v w => v.start ≤ w.start) (some : ws ≠ []) :
    ∃ found, Swept ws (ws.foldl Ledger.commit .empty) found := by
  induction ws using List.reverseRecOn with
  | nil => exact absurd rfl some
  | append_singleton ws w ih =>
    rw [List.foldl_append, List.foldl_cons, List.foldl_nil]
    cases ws with
    | nil => exact ⟨∅, swept_singleton (forward w (by simp))⟩
    | cons first rest =>
      obtain ⟨before, -, later⟩ := List.pairwise_append.mp ordered
      obtain ⟨found, swept⟩ :=
        ih (fun v member => forward v (List.mem_append_left _ member)) before (List.cons_ne_nil _ _)
      exact swept.commit forward fun v member => later v member w (by simp)

end Swept

section Dense

variable [IsStrictOrderedRing K]

theorem disjoint_iff_apart {a b start stop : K} (proper : a < b) (forward : start ≤ stop) :
    Disjoint (Set.Ioo a b) (Set.Icc start stop) ↔ stop ≤ a ∨ b ≤ start := by
  constructor
  · intro disjoint
    by_contra meets
    rw [not_or, not_le, not_le] at meets
    obtain ⟨late, early⟩ := meets
    rcases lt_or_ge a start with inside | earlier
    · exact Set.disjoint_left.mp disjoint (Set.mem_Ioo.mpr ⟨inside, early⟩) (Set.mem_Icc.mpr ⟨le_rfl, forward⟩)
    · obtain ⟨x, above, below⟩ := exists_between (lt_min proper late)
      have within := lt_min_iff.mp below
      exact Set.disjoint_left.mp disjoint (Set.mem_Ioo.mpr ⟨above, within.1⟩)
        (Set.mem_Icc.mpr ⟨earlier.trans above.le, within.2.le⟩)
  · intro sides
    apply Set.disjoint_left.mpr
    intro x inside covered
    rcases sides with early | late
    · exact absurd (covered.2.trans early) (not_le.mpr inside.1)
    · exact absurd (late.trans covered.1) (not_le.mpr inside.2)

theorem Between.uncovered {ws : List (Span K)} {a b : K} (forward : ∀ w ∈ ws, w.start ≤ w.stop)
    (between : Between ws a b) : Uncovered ws a b := by
  obtain ⟨v, earlier, stops⟩ := between.stops
  obtain ⟨w, later, starts⟩ := between.starts
  constructor
  · exact between.proper
  · exact ⟨v, earlier, (forward v earlier).trans stops.le⟩
  · exact ⟨w, later, starts.ge.trans (forward w later)⟩
  · intro u member
    exact (disjoint_iff_apart between.proper (forward u member)).mpr (between.apart u member)

theorem gap_iff {ws : List (Span K)} (forward : ∀ w ∈ ws, w.start ≤ w.stop) {a b : K} :
    Gap ws a b ↔ Between ws a b := by
  constructor
  · intro gap
    obtain ⟨x, above, below⟩ := exists_between gap.uncovered.proper
    have apart : ∀ w ∈ ws, w.stop ≤ a ∨ b ≤ w.start := fun w member =>
      (disjoint_iff_apart gap.uncovered.proper (forward w member)).mp (gap.uncovered.bare w member)
    obtain ⟨a', b', between, left, right⟩ := Between.exists_of_bare (RelEmbedding.refl (· ≤ ·))
      (gap.uncovered.after.imp fun w started => ⟨started.1, started.2.trans above.le⟩)
      (gap.uncovered.before.imp fun w stopped => ⟨stopped.1, below.le.trans stopped.2⟩)
      fun w member inside => Set.disjoint_left.mp (gap.uncovered.bare w member) ⟨above, below⟩ inside
    have left' : a' ≤ a := between.le_left forward apart (left.trans below)
    have right' : b ≤ b' := between.right_le forward apart (above.trans right)
    obtain ⟨same, same'⟩ := gap.maximal a' b' (between.uncovered forward) left' right'
    rw [← same, ← same']
    exact between
  · intro between
    constructor
    · exact between.uncovered forward
    · intro a' b' uncovered left right
      have apart : ∀ w ∈ ws, w.stop ≤ a' ∨ b' ≤ w.start := fun w member =>
        (disjoint_iff_apart uncovered.proper (forward w member)).mp (uncovered.bare w member)
      constructor
      · exact le_antisymm left (between.le_left forward apart (between.proper.trans_le right))
      · exact le_antisymm (between.right_le forward apart (left.trans_lt between.proper)) right

/-- The ledger of spans committed in the order of their starts has missed what the gaps between them hold, each at
    the rate of the first span that ends where it begins. -/
theorem missed_gaps (ws : List (Span K)) (forward : ∀ w ∈ ws, w.start ≤ w.stop)
    (ordered : ws.Pairwise fun v w => v.start ≤ w.start) :
    ∃ found : Finset (K × K), (∀ a b, (a, b) ∈ found ↔ Gap ws a b) ∧
      (∀ g ∈ found, (rateAt ws g.1).isSome) ∧
      (ws.foldl Ledger.commit .empty).expected - (ws.foldl Ledger.commit .empty).received =
        ∑ g ∈ found, (g.2 - g.1) * (rateAt ws g.1).getD 0 := by
  by_cases none : ws = []
  · subst none
    refine ⟨∅, ?_, by simp, by simp [Ledger.empty]⟩
    intro a b
    constructor
    · intro member
      simp at member
    · intro gap
      obtain ⟨w, member, -⟩ := gap.uncovered.after
      cases member
  · obtain ⟨found, swept⟩ := Swept.commit_all ws forward ordered none
    refine ⟨found, ?_, ?_, swept.missed⟩
    · intro a b
      rw [swept.gaps, gap_iff forward]
    · intro g member
      exact rateAt_isSome ((swept.gaps g.1 g.2).mp member).stops

end Dense

end Foundation
