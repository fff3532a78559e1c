import Mathlib.Algebra.BigOperators.Group.Finset.Piecewise

namespace Foundation

variable {α β κ M : Type} [DecidableEq κ] [AddCommMonoid M]

theorem sum_keys (key : α → κ) (f : α → M) (items : List α) {keys : Finset κ} (covered : ∀ a ∈ items, key a ∈ keys) :
    (items.map f).sum = ∑ k ∈ keys, ((items.filter fun a => key a = k).map f).sum := by
  induction items with
  | nil => simp
  | cons a rest ih =>
    have later := ih fun b member => covered b (List.mem_cons_of_mem _ member)
    have own : ∑ k ∈ keys, (if key a = k then f a else 0) = f a := by
      rw [Finset.sum_ite_eq, if_pos (covered a List.mem_cons_self)]
    rw [List.map_cons, List.sum_cons, later]
    nth_rewrite 1 [← own]
    rw [← Finset.sum_add_distrib]
    apply Finset.sum_congr rfl
    intro k _
    by_cases here : key a = k
    · simp [here]
    · simp [here]

theorem sum_eq_of_keys (key : α → κ) (key' : β → κ) (f : α → M) (g : β → M) {items : List α} {others : List β}
    (same : ∀ k, ((items.filter fun a => key a = k).map f).sum = ((others.filter fun b => key' b = k).map g).sum) :
    (items.map f).sum = (others.map g).sum := by
  have covered : ∀ a ∈ items, key a ∈ (items.map key ++ others.map key').toFinset := by
    intro a member
    exact List.mem_toFinset.mpr (List.mem_append_left _ (List.mem_map_of_mem member))
  have covered' : ∀ b ∈ others, key' b ∈ (items.map key ++ others.map key').toFinset := by
    intro b member
    exact List.mem_toFinset.mpr (List.mem_append_right _ (List.mem_map_of_mem member))
  rw [sum_keys key f items covered, sum_keys key' g others covered']
  exact Finset.sum_congr rfl fun k _ => same k

end Foundation
