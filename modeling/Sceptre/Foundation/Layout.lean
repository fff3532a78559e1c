import Mathlib.Algebra.GroupWithZero.Nat
import Mathlib.Data.List.Basic
import Mathlib.Tactic.Common

namespace Foundation.Layout

variable {κ α : Type} [DecidableEq κ] (size : κ → Nat)

def offset : List κ → κ → Nat
  | [], _ => 0
  | first :: rest, key => if first = key then 0 else size first + offset rest key

def total (keys : List κ) : Nat := (keys.map size).sum

def part (keys : List κ) (whole : List α) (key : κ) : List α :=
  whole.extract (offset size keys key) (offset size keys key + size key)

variable {size}

theorem offset_add_le (size : κ → Nat) {keys : List κ} {key : κ} (member : key ∈ keys) :
    offset size keys key + size key ≤ total size keys := by
  induction keys with
  | nil => cases member
  | cons first rest ih =>
    rw [offset, total, List.map_cons, List.sum_cons]
    by_cases here : first = key
    · rw [if_pos here, here]
      omega
    · rw [if_neg here]
      have later := ih ((List.mem_cons.mp member).resolve_left fun same => here same.symm)
      rw [total] at later
      omega

theorem part_length {keys : List κ} {key : κ} {whole : List α} (member : key ∈ keys)
    (fits : total size keys ≤ whole.length) : (part size keys whole key).length = size key := by
  have inside := offset_add_le size member
  rw [part, List.extract_eq_take_drop, List.length_take, List.length_drop]
  omega

theorem part_append {keys : List κ} {key : κ} {whole : List α} (member : key ∈ keys)
    (fits : total size keys ≤ whole.length) (rest : List α) :
    part size keys (whole ++ rest) key = part size keys whole key := by
  have inside := offset_add_le size member
  rw [part, part, List.extract_eq_take_drop, List.extract_eq_take_drop, List.drop_append_of_le_length (by omega),
    List.take_append_of_le_length (by rw [List.length_drop]; omega)]

theorem part_cons {first key : κ} {rest : List κ} (other : first ≠ key) (whole : List α) :
    part size (first :: rest) whole key = part size rest (whole.drop (size first)) key := by
  rw [part, part, offset, if_neg other, List.extract_eq_take_drop, List.extract_eq_take_drop, List.drop_drop]
  congr 1
  omega

theorem part_flatMap (size : κ → Nat) {keys : List κ} {key : κ} (field : κ → List α) (rest : List α)
    (sized : ∀ key ∈ keys, (field key).length = size key) (member : key ∈ keys) :
    part size keys (keys.flatMap field ++ rest) key = field key := by
  induction keys with
  | nil => cases member
  | cons first more ih =>
    have length := sized first (List.mem_cons_self ..)
    rw [List.flatMap_cons, List.append_assoc]
    by_cases here : first = key
    · subst here
      rw [part, offset, if_pos rfl, Nat.zero_add, List.extract_eq_take_drop, List.drop_zero, Nat.sub_zero, ← length,
        List.take_left]
    · rw [part_cons here, ← length, List.drop_left]
      apply ih
      · exact fun key inside => sized key (List.mem_cons_of_mem _ inside)
      · exact (List.mem_cons.mp member).resolve_left fun same => here same.symm

theorem flatMap_part (size : κ → Nat) {keys : List κ} (nodup : keys.Nodup) (whole : List α) :
    keys.flatMap (part size keys whole) = whole.take (total size keys) := by
  induction keys generalizing whole with
  | nil => simp [total]
  | cons first rest ih =>
    obtain ⟨fresh, nodup⟩ := List.nodup_cons.mp nodup
    have here : part size (first :: rest) whole first = whole.take (size first) := by
      rw [part, offset, if_pos rfl, Nat.zero_add, List.extract_eq_take_drop, List.drop_zero, Nat.sub_zero]
    have later : rest.flatMap (part size (first :: rest) whole) =
        rest.flatMap (part size rest (whole.drop (size first))) := by
      apply List.flatMap_congr
      intro key member
      apply part_cons
      rintro rfl
      exact fresh member
    rw [List.flatMap_cons, here, later, ih nodup, total, total, List.map_cons, List.sum_cons, List.take_add]

end Foundation.Layout
