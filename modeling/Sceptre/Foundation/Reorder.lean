import Mathlib.Data.List.Perm.Subperm
import Mathlib.Data.List.Sort
import Mathlib.Order.Interval.Set.Defs

namespace Foundation

/-- A buffer that puts in order what is pushed: the first in order leaves when more than `depth` wait. -/
structure ReorderBuffer (α : Type) where
  released : List α
  waiting : List α

namespace ReorderBuffer

variable {α : Type} (r : α → α → Prop) [DecidableRel r] (depth : Nat)

def empty : ReorderBuffer α := ⟨[], []⟩

def push (b : ReorderBuffer α) (x : α) : ReorderBuffer α :=
  match b.waiting.orderedInsert r x with
  | [] => b
  | first :: rest =>
    if (first :: rest).length > depth then ⟨b.released ++ [first], rest⟩ else ⟨b.released, first :: rest⟩

def drained (b : ReorderBuffer α) : List α := b.released ++ b.waiting

def Prompt (xs : List α) : Prop :=
  ∃ position : Nat → Nat, Set.InjOn position (Set.Iio xs.length) ∧
    ∀ j < xs.length, position j ≤ j + depth ∧ xs[position j]? = (xs.insertionSort r)[j]?

/-- Among the first `j + 1 + depth` to arrive are the `j + 1` least. -/
def Lags (xs : List α) : Prop :=
  ∀ j < xs.length, ((xs.insertionSort r).take (j + 1)).Subperm (xs.take (j + 1 + depth))

variable {r depth}

theorem map_some_take {xs : List α} {k : Nat} (inside : k ≤ xs.length) :
    (xs.take k).map some = (List.range k).map fun i => xs[i]? := by
  apply List.ext_getElem
  · simp only [List.length_map, List.length_take, List.length_range]
    omega
  · intro i _ within
    have before : i < xs.length := by
      rw [List.length_map, List.length_range] at within
      omega
    simp [before]

theorem Prompt.lags {xs : List α} (prompt : Prompt r depth xs) : Lags r depth xs := by
  obtain ⟨position, injective, arrives⟩ := prompt
  intro j inside
  have sorted : (xs.insertionSort r).length = xs.length := List.length_insertionSort r xs
  have bounded : ∀ i < j + 1, position i < min (j + 1 + depth) xs.length := by
    intro i before
    have arrival := arrives i (by omega)
    have present : xs[position i]?.isSome := by
      rw [arrival.2, List.getElem?_eq_getElem (by omega)]
      rfl
    have within : position i < xs.length := by simpa using present
    omega
  have distinct : ((List.range (j + 1)).map position).Nodup := by
    apply List.Nodup.map_on _ List.nodup_range
    intro i before i' before' same
    rw [List.mem_range] at before before'
    exact injective (Set.mem_Iio.mpr (by omega)) (Set.mem_Iio.mpr (by omega)) same
  have among : (List.range (j + 1)).map position ⊆ List.range (min (j + 1 + depth) xs.length) := by
    intro p member
    obtain ⟨i, before, rfl⟩ := List.mem_map.mp member
    exact List.mem_range.mpr (bounded i (List.mem_range.mp before))
  have least : ((xs.insertionSort r).take (j + 1)).map some =
      ((List.range (j + 1)).map position).map fun p => xs[p]? := by
    rw [map_some_take (by omega), List.map_map]
    apply List.map_congr_left
    intro i before
    exact (arrives i (by rw [List.mem_range] at before; omega)).2.symm
  have arrived : (xs.take (j + 1 + depth)).map some =
      (List.range (min (j + 1 + depth) xs.length)).map fun p => xs[p]? := by
    rw [← map_some_take (Nat.min_le_right _ _), ← List.take_eq_take_min]
  apply (List.map_subperm_map_iff (Option.some_injective α)).mp
  rw [least, arrived]
  obtain ⟨l, same, sub⟩ := distinct.subperm among
  exact ⟨l.map fun p => xs[p]?, same.map _, sub.map _⟩

theorem lags_of_length_le {xs : List α} (few : xs.length ≤ depth + 1) : Lags r depth xs := by
  intro j inside
  have whole : xs.take (j + 1 + depth) = xs := List.take_of_length_le (by omega)
  rw [whole]
  exact (List.take_sublist _ _).subperm.trans (List.perm_insertionSort r xs).subperm

theorem lags_of_pairwise (depth : Nat) {xs : List α} (ordered : xs.Pairwise r) : Lags r depth xs := by
  intro j _
  rw [ordered.insertionSort_eq]
  exact (List.take_sublist_take_left (by omega)).subperm

theorem push_cases (depth : Nat) (b : ReorderBuffer α) (x : α) :
    ((b.waiting.length < depth ∧ b.push r depth x = ⟨b.released, b.waiting.orderedInsert r x⟩) ∨
      (depth ≤ b.waiting.length ∧ ∃ first rest, b.waiting.orderedInsert r x = first :: rest ∧
        b.push r depth x = ⟨b.released ++ [first], rest⟩)) := by
  have length := List.orderedInsert_length r b.waiting x
  unfold push
  cases inserted : b.waiting.orderedInsert r x with
  | nil =>
    rw [inserted] at length
    simp at length
  | cons first rest =>
    rw [inserted] at length
    dsimp only
    split
    · right
      exact ⟨by omega, first, rest, rfl, rfl⟩
    · left
      exact ⟨by omega, rfl⟩

theorem inserted_perm (b : ReorderBuffer α) (x : α) :
    (b.released ++ b.waiting.orderedInsert r x).Perm (b.drained ++ [x]) := by
  rw [drained, List.append_assoc]
  apply List.Perm.append_left
  exact (List.perm_orderedInsert r x b.waiting).trans (List.perm_append_singleton x b.waiting).symm

theorem push_perm (b : ReorderBuffer α) (x : α) : (b.push r depth x).drained.Perm (b.drained ++ [x]) := by
  have joined := b.inserted_perm (r := r) x
  rcases b.push_cases (r := r) depth x with ⟨_, pushed⟩ | ⟨_, first, rest, inserted, pushed⟩
  · rw [pushed]
    exact joined
  · rw [inserted] at joined
    rw [pushed, drained, List.append_assoc]
    exact joined

section Total

variable [Std.Total r] [IsTrans α r] [Std.Antisymm r]

structure Fills (r : α → α → Prop) [DecidableRel r] (depth : Nat) (xs : List α) (arrived : Nat) (b : ReorderBuffer α) :
    Prop where
  released : b.released = (xs.insertionSort r).take (arrived - depth)
  same : b.drained.Perm (xs.take arrived)
  ordered : b.waiting.Pairwise r
  full : b.waiting.length = min arrived depth

omit [Std.Total r] [IsTrans α r] [Std.Antisymm r] in
theorem fills_empty (xs : List α) : Fills r depth xs 0 empty := by
  constructor
  · simp [empty]
  · simp [empty, drained]
  · exact List.Pairwise.nil
  · simp [empty]

theorem Fills.next {xs : List α} {arrived : Nat} {b : ReorderBuffer α} (fills : Fills r depth xs arrived b)
    (lags : Lags r depth xs) {x : α} (here : xs[arrived]? = some x) (overdue : depth ≤ arrived) {first : α}
    {rest : List α} (inserted : b.waiting.orderedInsert r x = first :: rest) :
    b.released ++ [first] = (xs.insertionSort r).take (arrived + 1 - depth) := by
  have sorted : (xs.insertionSort r).length = xs.length := List.length_insertionSort r xs
  have inside : arrived < xs.length := (List.getElem?_eq_some_iff.mp here).1
  have place : arrived - depth < (xs.insertionSort r).length := by omega
  have step : arrived + 1 - depth = arrived - depth + 1 := by omega
  have joined : ((xs.insertionSort r).take (arrived - depth) ++ first :: rest).Perm (xs.take (arrived + 1)) := by
    rw [← fills.released, ← inserted, List.take_add_one, here]
    exact (b.inserted_perm x).trans (fills.same.append_right _)
  -- the item of this rank has arrived and did not leave
  have due : (xs.insertionSort r)[arrived - depth] ∈ first :: rest := by
    have lag := lags (arrived - depth) (by omega)
    have reach : arrived - depth + 1 + depth = arrived + 1 := by omega
    rw [reach, ← joined.subperm_left, ← List.take_append_getElem place, List.subperm_append_left,
      List.singleton_subperm_iff] at lag
    exact lag
  -- and none of the earlier ones waits
  have waits : (first :: rest).Subperm ((xs.insertionSort r).drop (arrived - depth)) := by
    have all : ((xs.insertionSort r).take (arrived - depth) ++ first :: rest).Subperm
        ((xs.insertionSort r).take (arrived - depth) ++ (xs.insertionSort r).drop (arrived - depth)) := by
      rw [List.take_append_drop]
      exact joined.subperm.trans ((List.take_sublist _ _).subperm.trans (List.perm_insertionSort r xs).symm.subperm)
    rw [List.subperm_append_left] at all
    exact all
  have least : r (xs.insertionSort r)[arrived - depth] first := by
    have later := waits.subset (List.mem_cons_self (a := first))
    have ordered : ((xs.insertionSort r).drop (arrived - depth)).Pairwise r :=
      (List.pairwise_insertionSort r xs).sublist (List.drop_sublist _ _)
    rw [List.drop_eq_getElem_cons place] at later ordered
    rcases List.mem_cons.mp later with same | later
    · rw [same]
      exact refl_of r _
    · exact List.rel_of_pairwise_cons ordered later
  have leads : r first (xs.insertionSort r)[arrived - depth] := by
    have ordered := fills.ordered.orderedInsert x
    rw [inserted] at ordered
    rcases List.mem_cons.mp due with same | later
    · rw [same]
      exact refl_of r _
    · exact List.rel_of_pairwise_cons ordered later
  rw [fills.released, antisymm leads least, step]
  exact List.take_append_getElem place

theorem Fills.push {xs : List α} {arrived : Nat} {b : ReorderBuffer α} (fills : Fills r depth xs arrived b)
    (lags : Lags r depth xs) {x : α} (here : xs[arrived]? = some x) :
    Fills r depth xs (arrived + 1) (b.push r depth x) := by
  have full := fills.full
  have ordered := fills.ordered.orderedInsert x
  have length := List.orderedInsert_length r b.waiting x
  have same : (b.push r depth x).drained.Perm (xs.take (arrived + 1)) := by
    rw [List.take_add_one, here]
    exact (b.push_perm x).trans (fills.same.append_right _)
  rcases b.push_cases (r := r) depth x with ⟨room, pushed⟩ | ⟨overdue, first, rest, inserted, pushed⟩
  · constructor
    · have none : arrived + 1 - depth = arrived - depth := by omega
      rw [pushed, none]
      exact fills.released
    · exact same
    · rw [pushed]
      exact ordered
    · rw [pushed]
      dsimp only
      omega
  · have next := fills.next lags here (by omega) inserted
    rw [inserted] at ordered length
    constructor
    · rw [pushed]
      exact next
    · exact same
    · rw [pushed]
      exact ordered.of_cons
    · rw [pushed]
      dsimp only
      rw [List.length_cons] at length
      omega

theorem fills_take {xs : List α} (lags : Lags r depth xs) (k : Nat) (inside : k ≤ xs.length) :
    Fills r depth xs k ((xs.take k).foldl (push r depth) empty) := by
  induction k with
  | zero => exact fills_empty xs
  | succ k ih =>
    have here : xs[k]? = some xs[k] := List.getElem?_eq_getElem inside
    have step := (ih (by omega)).push lags here
    rw [List.take_add_one, here, Option.toList_some, List.foldl_append]
    exact step

theorem drained_sorted {xs : List α} (lags : Lags r depth xs) :
    (xs.foldl (push r depth) empty).drained = xs.insertionSort r := by
  have fills := fills_take lags xs.length le_rfl
  rw [List.take_length] at fills
  have same := fills.same
  rw [List.take_length, drained, fills.released] at same
  have rest : ((xs.foldl (push r depth) empty).waiting).Perm ((xs.insertionSort r).drop (xs.length - depth)) := by
    apply (List.perm_append_left_iff ((xs.insertionSort r).take (xs.length - depth))).mp
    rw [List.take_append_drop]
    exact same.trans (List.perm_insertionSort r xs).symm
  have ordered : ((xs.insertionSort r).drop (xs.length - depth)).Pairwise r :=
    (List.pairwise_insertionSort r xs).sublist (List.drop_sublist _ _)
  rw [drained, fills.released, rest.eq_of_pairwise' fills.ordered ordered, List.take_append_drop]

end Total

end ReorderBuffer

end Foundation
