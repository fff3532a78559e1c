import Sceptre.Foundation.Ledger
import Sceptre.Metrics.Model

namespace Sceptre

open Foundation

def TimedWindow.span (w : TimedWindow) : Span ℚ := ⟨w.ts, w.rate, w.n⟩

namespace StreamStat

structure Books (s : StreamStat) (l : Ledger ℚ) : Prop where
  delivered : (s.delivered : ℚ) = l.received
  expected : s.expected = l.expected
  lastEnd : s.lastEnd = l.frontier.map Prod.fst
  curRate : s.curRate = l.frontier.map Prod.snd

/-- The ledger once the jitter buffer has been drained. -/
def Settles (s : StreamStat) (l : Ledger ℚ) : Prop :=
  ∃ committed, s.Books committed ∧ l = s.pending.foldl (fun l w => l.commit w.span) committed

theorem books_new : ({} : StreamStat).Books .empty := ⟨rfl, rfl, rfl, rfl⟩

theorem settles_new : ({} : StreamStat).Settles .empty := ⟨_, books_new, rfl⟩

@[simp] theorem commit_pending (s : StreamStat) (w : TimedWindow) : (s.commit w).pending = s.pending := by
  simp only [commit]
  split <;> rfl

theorem add_cases (s : StreamStat) (w : TimedWindow) :
    ∃ oldest rest, s.pending.orderedInsert TimedWindow.Precedes w = oldest :: rest ∧
      ((rest.length < reorderWindow ∧ s.add w = { s with pending := oldest :: rest }) ∨
        (reorderWindow ≤ rest.length ∧ s.add w = ({ s with pending := rest } : StreamStat).commit oldest)) := by
  have length := List.orderedInsert_length TimedWindow.Precedes s.pending w
  unfold add
  cases inserted : s.pending.orderedInsert TimedWindow.Precedes w with
  | nil =>
    rw [inserted] at length
    simp at length
  | cons oldest rest =>
    refine ⟨oldest, rest, rfl, ?_⟩
    dsimp only
    rw [List.length_cons]
    by_cases full : rest.length + 1 > reorderWindow
    · right
      rw [if_pos full]
      exact ⟨by omega, rfl⟩
    · left
      rw [if_neg full]
      exact ⟨by omega, rfl⟩

theorem Books.commit {s : StreamStat} {l : Ledger ℚ} (books : s.Books l) (w : TimedWindow) :
    (s.commit w).Books (l.commit w.span) := by
  obtain ⟨received, expected, frontier⟩ := l
  obtain ⟨delivered, expected', lastEnd, curRate⟩ := books
  dsimp only at delivered expected' lastEnd curRate
  cases frontier with
  | none =>
    simp only [Option.map_none] at lastEnd curRate
    simp only [StreamStat.commit, gapLoss, lastEnd, Option.all_none, if_true]
    exact ⟨by simp [Ledger.commit, TimedWindow.span, delivered],
      by simp [Ledger.commit, Ledger.missed, TimedWindow.span, expected'], rfl, rfl⟩
  | some edge =>
    obtain ⟨stop, rate⟩ := edge
    simp only [Option.map_some] at lastEnd curRate
    have received' : ((s.delivered + w.n : Int) : ℚ) = received + w.n := by
      rw [Int.cast_add, delivered]
    simp only [StreamStat.commit, gapLoss, lastEnd, curRate, Option.all_some, Option.getD_some, decide_eq_true_eq]
    by_cases beyond : w.ts + w.n / w.rate > stop
    · rw [if_pos beyond]
      have advanced : w.span.stop > stop := beyond
      have frontier : (Ledger.commit ⟨received, expected, some (stop, rate)⟩ w.span).frontier =
          some (w.span.stop, w.rate) := if_pos advanced
      exact ⟨received', by simp [Ledger.commit, Ledger.missed, TimedWindow.span, expected'],
        by rw [frontier]; rfl, by rw [frontier]; rfl⟩
    · rw [if_neg beyond]
      have covered : ¬ w.span.stop > stop := beyond
      have frontier : (Ledger.commit ⟨received, expected, some (stop, rate)⟩ w.span).frontier =
          some (stop, rate) := if_neg covered
      exact ⟨received', by simp [Ledger.commit, Ledger.missed, TimedWindow.span, expected'],
        by rw [frontier]; rfl, by rw [frontier]; rfl⟩

theorem books_drain {ws : List TimedWindow} {s : StreamStat} {l : Ledger ℚ} (books : s.Books l) :
    (drain ws s).Books (ws.foldl (fun l w => l.commit w.span) l) := by
  induction ws generalizing s l with
  | nil => exact ⟨books.delivered, books.expected, books.lastEnd, books.curRate⟩
  | cons w rest ih =>
    have books' : ({ s with pending := rest } : StreamStat).Books l :=
      ⟨books.delivered, books.expected, books.lastEnd, books.curRate⟩
    exact ih (books'.commit w)

theorem Settles.finalize {s : StreamStat} {l : Ledger ℚ} (settles : s.Settles l) : s.finalize.Books l := by
  obtain ⟨committed, books, rfl⟩ := settles
  exact books_drain books

theorem orderedInsert_last {w : TimedWindow} {ws : List TimedWindow} (last : ∀ p ∈ ws, p.ts < w.ts) :
    ws.orderedInsert TimedWindow.Precedes w = ws ++ [w] := by
  induction ws with
  | nil => rfl
  | cons p rest ih =>
    have before : p.ts < w.ts := last p (by simp)
    have notFirst : ¬ w.Precedes p := by
      rintro (less | ⟨same, -⟩)
      · exact absurd less (not_lt.mpr before.le)
      · exact absurd same before.ne'
    rw [List.orderedInsert_cons, if_neg notFirst, ih fun p member => last p (List.mem_cons_of_mem _ member),
      List.cons_append]

theorem Settles.add {s : StreamStat} {l : Ledger ℚ} (settles : s.Settles l) {w : TimedWindow}
    (last : ∀ p ∈ s.pending, p.ts < w.ts) :
    (s.add w).Settles (l.commit w.span) ∧ ∀ p ∈ (s.add w).pending, p ∈ s.pending ∨ p = w := by
  obtain ⟨committed, books, rfl⟩ := settles
  have inserted := orderedInsert_last last
  have whole : (s.pending.foldl (fun l w => l.commit w.span) committed).commit w.span =
      (s.pending ++ [w]).foldl (fun l w => l.commit w.span) committed := by
    rw [List.foldl_append]
    rfl
  have members : ∀ p ∈ s.pending ++ [w], p ∈ s.pending ∨ p = w := by
    intro p member
    simpa using member
  obtain ⟨oldest, rest, first, either⟩ := s.add_cases w
  rw [inserted] at first
  rw [first] at members
  rw [whole, first]
  rcases either with ⟨-, waits⟩ | ⟨-, commits⟩
  · rw [waits]
    exact ⟨⟨committed, ⟨books.delivered, books.expected, books.lastEnd, books.curRate⟩, rfl⟩, members⟩
  · have books' : ({ s with pending := rest } : StreamStat).Books committed :=
      ⟨books.delivered, books.expected, books.lastEnd, books.curRate⟩
    rw [commits]
    exact ⟨⟨_, books'.commit oldest, by simp⟩, fun p member => members p (by simp at member; simp [member])⟩

theorem Settles.of_same {s s' : StreamStat} {l : Ledger ℚ} (settles : s.Settles l)
    (delivered : s'.delivered = s.delivered) (expected : s'.expected = s.expected) (lastEnd : s'.lastEnd = s.lastEnd)
    (curRate : s'.curRate = s.curRate) (pending : s'.pending = s.pending) : s'.Settles l := by
  obtain ⟨committed, books, same⟩ := settles
  refine ⟨committed, ⟨?_, ?_, ?_, ?_⟩, by rw [pending]; exact same⟩
  · rw [delivered, books.delivered]
  · rw [expected, books.expected]
  · rw [lastEnd, books.lastEnd]
  · rw [curRate, books.curRate]

def owed (s : StreamStat) : Int := s.delivered + (s.pending.map TimedWindow.n).sum

@[simp] theorem commit_delivered (s : StreamStat) (w : TimedWindow) :
    (s.commit w).delivered = s.delivered + w.n := by
  simp only [commit]
  split <;> rfl

@[simp] theorem commit_expected (s : StreamStat) (w : TimedWindow) :
    (s.commit w).expected = s.expected + s.gapLoss w.ts + w.n := by
  simp only [commit]
  split <;> rfl

theorem owed_add (s : StreamStat) (w : TimedWindow) : (s.add w).owed = s.owed + w.n := by
  have same : ((s.pending.orderedInsert TimedWindow.Precedes w).map TimedWindow.n).sum =
      w.n + (s.pending.map TimedWindow.n).sum := by
    have perm := (List.perm_orderedInsert TimedWindow.Precedes w s.pending).map TimedWindow.n
    rw [perm.sum_eq, List.map_cons, List.sum_cons]
  obtain ⟨oldest, rest, inserted, either⟩ := s.add_cases w
  rw [inserted, List.map_cons, List.sum_cons] at same
  rcases either with ⟨-, waits⟩ | ⟨-, commits⟩
  · rw [waits]
    simp only [owed, List.map_cons, List.sum_cons]
    omega
  · rw [commits]
    simp only [owed, commit_delivered, commit_pending]
    omega

@[simp] theorem finalize_pending (s : StreamStat) : s.finalize.pending = [] := by
  have drained : ∀ (ws : List TimedWindow) (s : StreamStat), (drain ws s).pending = [] := by
    intro ws
    induction ws with
    | nil => exact fun s => rfl
    | cons w rest ih => exact fun s => ih _
  exact drained s.pending s

theorem drain_delivered (ws : List TimedWindow) (s : StreamStat) :
    (drain ws s).delivered = s.delivered + (ws.map TimedWindow.n).sum := by
  induction ws generalizing s with
  | nil => simp [drain]
  | cons w rest ih =>
    rw [drain, ih, commit_delivered, List.map_cons, List.sum_cons]
    exact Int.add_assoc ..

end StreamStat

structure Tallied.Timed (u : Tallied) (w : TimedWindow) : Prop where
  rate : u.context.bind Context.sampleRateHz = some w.rate
  ts : u.startTimestamp = some w.ts
  n : u.numSamples = some w.n
  positive : 0 < w.rate
  nonempty : 0 < w.n

def Tallied.Untimed (u : Tallied) : Prop := ∀ w, ¬ u.Timed w

namespace StreamStat

def noted (s : StreamStat) (u : Tallied) (rate : ℚ) : StreamStat :=
  { s with
    totalSamples := s.totalSamples + u.numSamples.getD 0
    rateChanged := s.rateChanged || s.rate.any fun earlier => rate ≠ earlier
    rate := some rate
    bandwidth := (u.context.bind Context.bandwidthHz).or s.bandwidth }

theorem tally_timed (s : StreamStat) {u : Tallied} {w : TimedWindow} (timed : u.Timed w) :
    s.tally u = (s.noted u w.rate).add w := by
  have both : w.rate > 0 ∧ w.n > 0 := ⟨timed.positive, timed.nonempty⟩
  simp only [tally, timed.rate, timed.ts, timed.n, Option.getD_some, both, and_self, if_true, noted]

theorem tally_untimed (s : StreamStat) {u : Tallied} (untimed : u.Untimed) :
    (s.tally u).delivered = s.delivered ∧ (s.tally u).expected = s.expected ∧ (s.tally u).pending = s.pending ∧
      (s.tally u).lastEnd = s.lastEnd ∧ (s.tally u).curRate = s.curRate := by
  unfold tally
  dsimp only
  cases rate : u.context.bind Context.sampleRateHz with
  | none => exact ⟨rfl, rfl, rfl, rfl, rfl⟩
  | some rate' =>
    dsimp only
    cases ts : u.startTimestamp with
    | none => exact ⟨rfl, rfl, rfl, rfl, rfl⟩
    | some start =>
      dsimp only
      split
      · rename_i both
        cases n : u.numSamples with
        | none =>
          rw [n] at both
          exact absurd both.2 (lt_irrefl _)
        | some samples =>
          rw [n] at both
          exact absurd ⟨rate, ts, n, both.1, both.2⟩ (untimed ⟨start, rate', samples⟩)
      · exact ⟨rfl, rfl, rfl, rfl, rfl⟩

theorem owed_tally_timed (s : StreamStat) {u : Tallied} {w : TimedWindow} (timed : u.Timed w) :
    (s.tally u).owed = s.owed + w.n := by
  rw [tally_timed s timed]
  exact owed_add ..

theorem owed_tally_untimed (s : StreamStat) {u : Tallied} (untimed : u.Untimed) : (s.tally u).owed = s.owed := by
  obtain ⟨delivered, -, pending, -⟩ := s.tally_untimed untimed
  rw [owed, owed, delivered, pending]

/-- What commits of such windows keep, and nothing else touches. -/
structure Kept (P : StreamStat → Prop) (Q : TimedWindow → Prop) : Prop where
  commit : ∀ {s w}, P s → Q w → P (s.commit w)
  same : ∀ {s s' : StreamStat}, P s → s'.delivered = s.delivered → s'.expected = s.expected →
    s'.lastEnd = s.lastEnd → s'.curRate = s.curRate → P s'

namespace Kept

variable {P : StreamStat → Prop} {Q : TimedWindow → Prop} {s : StreamStat}

theorem add (kept : Kept P Q) (holds : P s) (waiting : ∀ p ∈ s.pending, Q p) {w : TimedWindow} (fits : Q w) :
    P (s.add w) ∧ ∀ p ∈ (s.add w).pending, Q p := by
  have all : ∀ p ∈ s.pending.orderedInsert TimedWindow.Precedes w, Q p := by
    intro p member
    rcases (List.mem_orderedInsert ..).mp member with own | earlier
    · rw [own]
      exact fits
    · exact waiting p earlier
  obtain ⟨oldest, rest, inserted, either⟩ := s.add_cases w
  rw [inserted] at all
  rcases either with ⟨-, waits⟩ | ⟨-, commits⟩
  · rw [waits]
    exact ⟨kept.same holds rfl rfl rfl rfl, all⟩
  · rw [commits, commit_pending]
    exact ⟨kept.commit (kept.same holds rfl rfl rfl rfl) (all oldest (List.mem_cons_self ..)),
      fun p member => all p (List.mem_cons_of_mem _ member)⟩

theorem tally (kept : Kept P Q) (holds : P s) (waiting : ∀ p ∈ s.pending, Q p) {u : Tallied}
    (fits : ∀ w, u.Timed w → Q w) : P (s.tally u) ∧ ∀ p ∈ (s.tally u).pending, Q p := by
  by_cases timed : ∃ w, u.Timed w
  · obtain ⟨w, timed⟩ := timed
    rw [tally_timed s timed]
    have noted : P (s.noted u w.rate) := kept.same holds rfl rfl rfl rfl
    exact kept.add noted waiting (fits w timed)
  · obtain ⟨delivered, expected, pending, lastEnd, curRate⟩ := s.tally_untimed (not_exists.mp timed)
    rw [pending]
    exact ⟨kept.same holds delivered expected lastEnd curRate, waiting⟩

theorem tally_all (kept : Kept P Q) {us : List Tallied} (fits : ∀ u ∈ us, ∀ w, u.Timed w → Q w) (holds : P s)
    (waiting : ∀ p ∈ s.pending, Q p) : P (us.foldl StreamStat.tally s) ∧
    ∀ p ∈ (us.foldl StreamStat.tally s).pending, Q p := by
  induction us generalizing s with
  | nil => exact ⟨holds, waiting⟩
  | cons u rest ih =>
    obtain ⟨holds', waiting'⟩ := kept.tally holds waiting (fits u (by simp))
    exact ih (fun v member => fits v (List.mem_cons_of_mem _ member)) holds' waiting'

theorem drain (kept : Kept P Q) {ws : List TimedWindow} (fits : ∀ w ∈ ws, Q w) (holds : P s) :
    P (StreamStat.drain ws s) := by
  induction ws generalizing s with
  | nil => exact kept.same holds rfl rfl rfl rfl
  | cons w rest ih =>
    exact ih (fun p member => fits p (List.mem_cons_of_mem _ member))
      (kept.commit (kept.same holds rfl rfl rfl rfl) (fits w (by simp)))

theorem finalize (kept : Kept P Q) (holds : P s) (waiting : ∀ p ∈ s.pending, Q p) : P s.finalize :=
  kept.drain waiting holds

end Kept

theorem tally_all_untimed {us : List Tallied} (untimed : ∀ u ∈ us, u.Untimed) (s : StreamStat) :
    (us.foldl tally s).delivered = s.delivered ∧ (us.foldl tally s).expected = s.expected ∧
      (us.foldl tally s).pending = s.pending := by
  induction us generalizing s with
  | nil => exact ⟨rfl, rfl, rfl⟩
  | cons u rest ih =>
    obtain ⟨delivered, expected, pending, -⟩ := s.tally_untimed (untimed u (by simp))
    obtain ⟨delivered', expected', pending'⟩ := ih (fun v member => untimed v (List.mem_cons_of_mem _ member))
      (s.tally u)
    exact ⟨delivered'.trans delivered, expected'.trans expected, pending'.trans pending⟩

theorem owed_le_tally_all (us : List Tallied) (s : StreamStat) : s.owed ≤ (us.foldl tally s).owed := by
  induction us generalizing s with
  | nil => exact le_refl _
  | cons u rest ih =>
    have first : s.owed ≤ (s.tally u).owed := by
      by_cases timed : ∃ w, u.Timed w
      · obtain ⟨w, timed⟩ := timed
        have some := timed.nonempty
        rw [s.owed_tally_timed timed]
        omega
      · exact (s.owed_tally_untimed (not_exists.mp timed)).ge
    exact first.trans (ih _)

theorem owed_tally_all {us : List Tallied} {u : Tallied} {w : TimedWindow} (member : u ∈ us) (timed : u.Timed w)
    (s : StreamStat) : s.owed < (us.foldl tally s).owed := by
  obtain ⟨before, after, rfl⟩ := List.append_of_mem member
  have earlier := owed_le_tally_all before s
  have here := (before.foldl tally s).owed_tally_timed timed
  have later := owed_le_tally_all after ((before.foldl tally s).tally u)
  have some := timed.nonempty
  rw [List.foldl_append, List.foldl_cons]
  omega

theorem Settles.tally_all {us : List Tallied} {ws : List TimedWindow} (timed : List.Forall₂ Tallied.Timed us ws)
    (ordered : ws.Pairwise fun w w' => w.ts < w'.ts) {s : StreamStat} {l : Ledger ℚ} (settles : s.Settles l)
    (earlier : ∀ p ∈ s.pending, ∀ w ∈ ws, p.ts < w.ts) :
    (us.foldl tally s).Settles (ws.foldl (fun l w => l.commit w.span) l) := by
  induction timed generalizing s l with
  | nil => exact settles
  | @cons u w us ws timed rest ih =>
    obtain ⟨first, ordered'⟩ := List.pairwise_cons.mp ordered
    have noted : (s.noted u w.rate).Settles l := settles.of_same rfl rfl rfl rfl rfl
    obtain ⟨added, members⟩ := noted.add (w := w) fun p member => earlier p member w (by simp)
    rw [List.foldl_cons, List.foldl_cons, tally_timed s timed]
    refine ih ordered' added fun p member w' inside => ?_
    rcases members p member with waiting | rfl
    · exact earlier p waiting w' (List.mem_cons_of_mem _ inside)
    · exact first w' inside

end StreamStat

namespace ThroughputMeter

theorem call_stream (units : List Tallied) (m : ThroughputMeter) (s : StreamId) :
    (units.foldl call m).streams.get? s =
      if units.filter (fun u => u.streamId = s) = [] then m.streams.get? s
      else some ((units.filter fun u => u.streamId = s).foldl StreamStat.tally ((m.streams.get? s).getD {})) := by
  induction units generalizing m with
  | nil => rfl
  | cons u rest ih =>
    rw [List.foldl_cons, ih]
    by_cases own : u.streamId = s
    · have here : (u :: rest).filter (fun u => u.streamId = s) = u :: rest.filter fun u => u.streamId = s := by
        simp [own]
      have tallied : (m.call u).streams.get? s = some (((m.streams.get? s).getD {}).tally u) := by
        rw [← own]
        exact OrderedDict.get?_insert_self ..
      rw [here, tallied, if_neg (List.cons_ne_nil _ _), List.foldl_cons, Option.getD_some]
      split
      · rename_i none
        rw [none, List.foldl_nil]
      · rfl
    · have here : (u :: rest).filter (fun u => u.streamId = s) = rest.filter fun u => u.streamId = s := by
        simp [own]
      have kept : (m.call u).streams.get? s = m.streams.get? s :=
        OrderedDict.get?_insert_of_ne _ _ fun same => own same.symm
      rw [here, kept]

end ThroughputMeter

end Sceptre
