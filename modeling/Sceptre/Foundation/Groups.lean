import Mathlib.Data.List.Basic
import Mathlib.Algebra.Order.Ring.Nat
import Mathlib.Tactic.Common

namespace Foundation

variable {α β : Type}

/-- The list cut into groups of `n` from the front; a last group that is not full is left out. -/
def groups (n : Nat) (items : List α) : List (List α) :=
  (List.range (items.length / n)).map fun k => (items.drop (k * n)).take n

@[simp] theorem groups_nil (n : Nat) : groups n ([] : List α) = [] := by
  simp [groups]

theorem groups_append_front {n : Nat} (positive : 0 < n) {front : List α} (full : front.length = n) (rest : List α) :
    groups n (front ++ rest) = front :: groups n rest := by
  have count : (front ++ rest).length / n = rest.length / n + 1 := by
    rw [List.length_append, full, Nat.add_div_left _ positive]
  have shift : ∀ k, (front ++ rest).drop ((k + 1) * n) = rest.drop (k * n) := by
    intro k
    have past : (k + 1) * n = front.length + k * n := by
      rw [full, Nat.add_mul, Nat.one_mul, Nat.add_comm]
    rw [past, List.drop_append, List.drop_eq_nil_of_le (by omega), List.nil_append, Nat.add_sub_cancel_left]
  rw [groups, count, List.range_succ_eq_map, List.map_cons, List.map_map, Nat.zero_mul, List.drop_zero,
    List.take_left' full, groups]
  congr 1
  apply List.map_congr_left
  intro k _
  rw [Function.comp_apply, Nat.succ_eq_add_one, shift]

theorem groups_flatten {n : Nat} (positive : 0 < n) (parts : List (List α)) (full : ∀ part ∈ parts, part.length = n) :
    groups n parts.flatten = parts := by
  induction parts with
  | nil => rw [List.flatten_nil, groups_nil]
  | cons part parts ih =>
    rw [List.flatten_cons, groups_append_front positive (full part List.mem_cons_self),
      ih fun other member => full other (List.mem_cons_of_mem _ member)]

theorem flatten_whole {n : Nat} (parts : List (List α)) (full : ∀ part ∈ parts, part.length = n) :
    n ∣ parts.flatten.length := by
  induction parts with
  | nil => exact Nat.dvd_zero n
  | cons part parts ih =>
    rw [List.flatten_cons, List.length_append, full part List.mem_cons_self]
    exact Nat.dvd_add (Nat.dvd_refl n) (ih fun other member => full other (List.mem_cons_of_mem _ member))

theorem exists_flatten {n : Nat} (items : List α) (whole : n ∣ items.length) :
    ∃ parts : List (List α), parts.flatten = items ∧ ∀ part ∈ parts, part.length = n := by
  obtain ⟨count, length⟩ := whole
  induction count generalizing items with
  | zero =>
    rw [Nat.mul_zero] at length
    exact ⟨[], (List.eq_nil_of_length_eq_zero length).symm, by simp⟩
  | succ count ih =>
    rw [Nat.mul_succ] at length
    obtain ⟨parts, joined, full⟩ := ih (items.drop n) (by rw [List.length_drop]; omega)
    refine ⟨items.take n :: parts, ?_, ?_⟩
    · rw [List.flatten_cons, joined, List.take_append_drop]
    · intro part member
      rcases List.mem_cons.mp member with here | there
      · rw [here, List.length_take]
        omega
      · exact full part there

theorem groups_append {n : Nat} (positive : 0 < n) {first : List α} (whole : n ∣ first.length) (second : List α) :
    groups n (first ++ second) = groups n first ++ groups n second := by
  obtain ⟨parts, joined, full⟩ := exists_flatten first whole
  rw [← joined, groups_flatten positive parts full]
  clear joined whole
  induction parts with
  | nil => rfl
  | cons part parts ih =>
    rw [List.flatten_cons, List.append_assoc, groups_append_front positive (full part List.mem_cons_self),
      ih fun other member => full other (List.mem_cons_of_mem _ member), List.cons_append]

theorem groups_flatMap {n : Nat} (positive : 0 < n) (f : β → List α) (parts : List β)
    (whole : ∀ part ∈ parts, n ∣ (f part).length) :
    groups n (parts.flatMap f) = parts.flatMap fun part => groups n (f part) := by
  induction parts with
  | nil => rw [List.flatMap_nil, groups_nil, List.flatMap_nil]
  | cons part parts ih =>
    rw [List.flatMap_cons, groups_append positive (whole part List.mem_cons_self),
      ih fun other member => whole other (List.mem_cons_of_mem _ member), List.flatMap_cons]

end Foundation
