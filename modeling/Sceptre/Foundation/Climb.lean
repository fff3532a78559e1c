import Mathlib.Algebra.Order.Group.Defs
import Mathlib.Data.List.Basic
import Mathlib.Tactic.Abel

namespace Foundation

variable {α : Type} [AddCommGroup α] [LinearOrder α]

def climb : List α → α
  | first :: second :: rest => max 0 (second - first) + climb (second :: rest)
  | _ => 0

theorem climb_concat (items : List α) (last next : α) :
    climb (items ++ [last] ++ [next]) = climb (items ++ [last]) + max 0 (next - last) := by
  induction items with
  | nil => exact add_comm _ _
  | cons first rest ih =>
    cases rest with
    | nil =>
      show max 0 (last - first) + (max 0 (next - last) + 0) = max 0 (last - first) + 0 + max 0 (next - last)
      abel
    | cons second rest =>
      show max 0 (second - first) + climb (second :: rest ++ [last] ++ [next]) =
        max 0 (second - first) + climb (second :: rest ++ [last]) + max 0 (next - last)
      rw [ih, add_assoc]

variable [IsOrderedAddMonoid α]

end Foundation
