import Mathlib.Data.List.Perm.Basic

namespace Foundation

inductive Departure where
  | returned
  | evicted
  deriving DecidableEq, Repr

structure Fifo (α : Type) where
  departed : List (α × Departure)
  contents : List α

namespace Fifo

variable {α : Type}

def empty : Fifo α := ⟨[], []⟩

def enter (f : Fifo α) (item : α) : Fifo α := { f with contents := f.contents ++ [item] }

def leave (f : Fifo α) (how : Departure) : Fifo α :=
  match f.contents with
  | [] => f
  | oldest :: rest => ⟨f.departed ++ [(oldest, how)], rest⟩

def entered (f : Fifo α) : List α := f.departed.map Prod.fst ++ f.contents

def gone (f : Fifo α) (how : Departure) : List α := (f.departed.filter fun d => d.2 = how).map Prod.fst

@[simp] theorem entered_empty : (empty : Fifo α).entered = [] := rfl

@[simp] theorem gone_empty (how : Departure) : (empty : Fifo α).gone how = [] := rfl

@[simp] theorem enter_contents (f : Fifo α) (item : α) : (f.enter item).contents = f.contents ++ [item] := rfl

@[simp] theorem entered_enter (f : Fifo α) (item : α) : (f.enter item).entered = f.entered ++ [item] := by
  simp [entered, enter]

@[simp] theorem gone_enter (f : Fifo α) (item : α) (how : Departure) : (f.enter item).gone how = f.gone how := rfl

@[simp] theorem leave_contents (f : Fifo α) (how : Departure) : (f.leave how).contents = f.contents.tail := by
  unfold leave
  cases contents : f.contents with
  | nil => exact contents
  | cons oldest rest => rfl

@[simp] theorem entered_leave (f : Fifo α) (how : Departure) : (f.leave how).entered = f.entered := by
  unfold leave entered
  cases contents : f.contents with
  | nil =>
    dsimp only
    rw [contents]
  | cons oldest rest => simp

@[simp] theorem gone_leave (f : Fifo α) (how : Departure) :
    (f.leave how).gone how = f.gone how ++ f.contents.head?.toList := by
  unfold leave gone
  cases contents : f.contents with
  | nil => simp
  | cons oldest rest => simp

theorem gone_leave_other (f : Fifo α) {how other : Departure} (differs : how ≠ other) :
    (f.leave how).gone other = f.gone other := by
  unfold leave gone
  cases contents : f.contents with
  | nil => rfl
  | cons oldest rest => simp [differs]

theorem contents_isSuffix (f : Fifo α) : f.contents <:+ f.entered := List.suffix_append ..

theorem gone_sublist (f : Fifo α) (how : Departure) : List.Sublist (f.gone how ++ f.contents) f.entered := by
  apply List.Sublist.append_right
  apply List.Sublist.map
  exact List.filter_sublist

theorem entered_perm (f : Fifo α) :
    List.Perm f.entered (f.gone .returned ++ f.gone .evicted ++ f.contents) := by
  have other : ∀ d : α × Departure, (!decide (d.2 = .returned)) = decide (d.2 = .evicted) := by
    rintro ⟨item, how⟩
    cases how <;> rfl
  have split := List.filter_append_perm (fun d : α × Departure => decide (d.2 = .returned)) f.departed
  simp only [other] at split
  apply List.Perm.append_right
  rw [gone, gone, ← List.map_append]
  exact (split.map Prod.fst).symm

theorem entered_length (f : Fifo α) :
    f.entered.length = (f.gone .returned).length + (f.gone .evicted).length + f.contents.length := by
  rw [f.entered_perm.length_eq, List.length_append, List.length_append]

end Fifo

end Foundation
