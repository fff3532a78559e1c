import Mathlib.Data.Prod.Lex
import Sceptre.Foundation.Reorder
import Sceptre.Metrics.Books

namespace Sceptre

open Foundation

namespace TimedWindow

def key (w : TimedWindow) : ℚ ×ₗ ℚ ×ₗ Int := toLex (w.ts, toLex (w.rate, w.n))

theorem precedes_iff {a b : TimedWindow} : a.Precedes b ↔ a.key ≤ b.key := by
  simp only [Precedes, key, Prod.Lex.toLex_le_toLex]

theorem key_injective : Function.Injective key := by
  intro a b same
  obtain ⟨ts, rest⟩ := Prod.mk.inj (toLex.injective same)
  obtain ⟨rate, n⟩ := Prod.mk.inj (toLex.injective rest)
  cases a
  cases b
  congr

instance : Std.Total Precedes where
  total a b := by
    rw [precedes_iff, precedes_iff]
    exact le_total a.key b.key

instance : IsTrans TimedWindow Precedes where
  trans a b c before later := by
    rw [precedes_iff] at *
    exact before.trans later

instance : Std.Antisymm Precedes where
  antisymm _ _ before after := key_injective (le_antisymm (precedes_iff.mp before) (precedes_iff.mp after))

end TimedWindow

namespace StreamStat

def popped (s : StreamStat) (w : TimedWindow) : List TimedWindow :=
  match s.pending.orderedInsert TimedWindow.Precedes w with
  | [] => []
  | oldest :: rest => if (oldest :: rest).length > reorderWindow then [oldest] else []

/-- The windows in the order they are committed, when these are added and the buffer is drained. -/
def commits : List TimedWindow → StreamStat → List TimedWindow
  | [], s => s.pending
  | w :: rest, s => s.popped w ++ commits rest (s.add w)

theorem commit_waiting (s : StreamStat) (pending : List TimedWindow) (w : TimedWindow) :
    ({ s with pending := pending } : StreamStat).commit w = { s.commit w with pending := pending } := by
  simp only [commit, gapLoss]
  split
  · rfl
  · rfl

theorem commit_all_waiting (ws : List TimedWindow) (s : StreamStat) (pending : List TimedWindow) :
    ws.foldl commit ({ s with pending := pending } : StreamStat) = { ws.foldl commit s with pending := pending } := by
  induction ws generalizing s with
  | nil => rfl
  | cons w rest ih => rw [List.foldl_cons, List.foldl_cons, commit_waiting, ih]

theorem drain_eq (ws : List TimedWindow) (s : StreamStat) :
    drain ws s = { ws.foldl commit s with pending := [] } := by
  induction ws generalizing s with
  | nil => rfl
  | cons w rest ih => rw [drain, ih, commit_waiting, commit_all_waiting, List.foldl_cons]

theorem add_push {s : StreamStat} {b : ReorderBuffer TimedWindow} (waiting : s.pending = b.waiting) (w : TimedWindow) :
    (b.push TimedWindow.Precedes reorderWindow w).released = b.released ++ s.popped w ∧
      s.add w = { (s.popped w).foldl commit s with
        pending := (b.push TimedWindow.Precedes reorderWindow w).waiting } := by
  simp only [ReorderBuffer.push, popped, add, waiting]
  cases inserted : b.waiting.orderedInsert TimedWindow.Precedes w with
  | nil =>
    have length := List.orderedInsert_length TimedWindow.Precedes b.waiting w
    rw [inserted] at length
    simp at length
  | cons oldest rest =>
    dsimp only
    by_cases exceeds : (oldest :: rest).length > reorderWindow
    · simp only [if_pos exceeds, List.foldl_cons, List.foldl_nil]
      exact ⟨trivial, commit_waiting ..⟩
    · simp only [if_neg exceeds, List.foldl_nil, List.append_nil]
      exact ⟨trivial, trivial⟩

theorem finalize_add_all (ws : List TimedWindow) (s : StreamStat) :
    (ws.foldl add s).finalize = { (commits ws s).foldl commit s with pending := [] } := by
  induction ws generalizing s with
  | nil => exact drain_eq ..
  | cons w rest ih =>
    have step := (add_push (b := ⟨[], s.pending⟩) rfl w).2
    rw [List.foldl_cons, ih, commits, List.foldl_append, step, commit_all_waiting]

theorem commits_eq (ws : List TimedWindow) {s : StreamStat} {b : ReorderBuffer TimedWindow}
    (waiting : s.pending = b.waiting) :
    (ws.foldl (ReorderBuffer.push TimedWindow.Precedes reorderWindow) b).drained = b.released ++ commits ws s := by
  induction ws generalizing s b with
  | nil => rw [List.foldl_nil, ReorderBuffer.drained, commits, waiting]
  | cons w rest ih =>
    obtain ⟨released, step⟩ := add_push waiting w
    have waiting' : (s.add w).pending = (b.push TimedWindow.Precedes reorderWindow w).waiting := by
      rw [step]
    rw [List.foldl_cons, ih waiting', released, commits, List.append_assoc]

theorem commits_sorted {ws : List TimedWindow} (lags : ReorderBuffer.Lags TimedWindow.Precedes reorderWindow ws) :
    commits ws {} = ws.insertionSort TimedWindow.Precedes := by
  rw [← ReorderBuffer.drained_sorted lags, commits_eq ws (s := {}) (b := .empty) rfl]
  rfl

theorem finalize_sorted {ws : List TimedWindow} (lags : ReorderBuffer.Lags TimedWindow.Precedes reorderWindow ws) :
    (ws.foldl add {}).finalize = (ws.insertionSort TimedWindow.Precedes).foldl commit {} := by
  rw [finalize_add_all, commits_sorted lags, ← commit_all_waiting]

end StreamStat

/-- What arrives at most 64 places after its rank is committed in order, so nothing can tell it from what
    arrived in order; up to 65 windows may arrive in any order. -/
theorem reordering_undone :
    (∀ ws : List TimedWindow, ReorderBuffer.Prompt TimedWindow.Precedes reorderWindow ws →
      StreamStat.commits ws {} = ws.insertionSort TimedWindow.Precedes ∧
      (ws.foldl StreamStat.add {}).finalize =
        (ws.insertionSort TimedWindow.Precedes).foldl StreamStat.commit {} ∧
      (ws.foldl StreamStat.add {}).finalize =
        ((ws.insertionSort TimedWindow.Precedes).foldl StreamStat.add {}).finalize) ∧
    ∀ ws ws' : List TimedWindow, ws.Perm ws' → ws.length ≤ reorderWindow + 1 →
      (ws.foldl StreamStat.add {}).finalize = (ws'.foldl StreamStat.add {}).finalize := by
  constructor
  · intro ws prompt
    have again : (ws.insertionSort TimedWindow.Precedes).insertionSort TimedWindow.Precedes =
        ws.insertionSort TimedWindow.Precedes := (List.pairwise_insertionSort _ ws).insertionSort_eq
    have inOrder := StreamStat.finalize_sorted (ReorderBuffer.lags_of_pairwise reorderWindow
      (List.pairwise_insertionSort TimedWindow.Precedes ws))
    refine ⟨StreamStat.commits_sorted prompt.lags, StreamStat.finalize_sorted prompt.lags, ?_⟩
    rw [StreamStat.finalize_sorted prompt.lags, inOrder, again]
  · intro ws ws' same few
    have sorted : ws.insertionSort TimedWindow.Precedes = ws'.insertionSort TimedWindow.Precedes := by
      apply List.Perm.eq_of_pairwise' (List.pairwise_insertionSort _ ws) (List.pairwise_insertionSort _ ws')
      exact (List.perm_insertionSort _ ws).trans (same.trans (List.perm_insertionSort _ ws').symm)
    have few' : ws'.length ≤ reorderWindow + 1 := same.length_eq ▸ few
    rw [StreamStat.finalize_sorted (ReorderBuffer.lags_of_length_le few),
      StreamStat.finalize_sorted (ReorderBuffer.lags_of_length_le few'), sorted]

namespace Late

def windows : List TimedWindow := (List.range 64).map (fun k => ⟨k + 1, 1, 1⟩) ++ [⟨0, 1, 1⟩, ⟨65, 1, 1⟩]

def position (rank : Nat) : Nat := if rank = 0 then 64 else if rank < 65 then rank - 1 else rank

theorem prompt : ReorderBuffer.Prompt TimedWindow.Precedes reorderWindow windows := by
  refine ⟨position, ?_, by decide +kernel⟩
  intro i _ j _ same
  unfold position at same
  split_ifs at same <;> omega

theorem reordering_undone_late :
    StreamStat.commits windows {} = (List.range 66).map (fun k => ⟨k, 1, 1⟩) ∧
      (windows.foldl StreamStat.add {}).finalize.expected = 66 := by
  obtain ⟨sorted, whole, -⟩ := reordering_undone.1 windows prompt
  rw [sorted, whole]
  decide +kernel

end Late

end Sceptre
