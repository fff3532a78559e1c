import Mathlib.Algebra.GroupWithZero.Nat
import Mathlib.Data.List.Basic
import Mathlib.Tactic.Common

namespace Foundation.Windows

def window (shift width word : Nat) : Nat := (word >>> shift) &&& (2 ^ width - 1)

def windows : Nat → List Nat → Nat → List Nat
  | _, [], _ => []
  | shift, width :: widths, word => window shift width word :: windows (shift + width) widths word

def join : List Nat → List Nat → Nat
  | width :: widths, value :: values => value + 2 ^ width * join widths values
  | _, _ => 0

theorem window_eq (shift width word : Nat) : window shift width word = word / 2 ^ shift % 2 ^ width := by
  rw [window, Nat.shiftRight_eq_div_pow, Nat.and_two_pow_sub_one_eq_mod]

theorem window_lt (shift width word : Nat) : window shift width word < 2 ^ width := by
  rw [window_eq]
  exact Nat.mod_lt _ (Nat.two_pow_pos width)

theorem window_and (shift width word mask : Nat) :
    window shift width (word &&& mask) = window shift width word &&& window shift width mask := by
  rw [window, window, window, Nat.shiftRight_and_distrib, Nat.and_assoc _ (2 ^ width - 1), Nat.and_comm (2 ^ width - 1),
    Nat.and_assoc (mask >>> shift), Nat.and_self, Nat.and_assoc]

theorem windows_and (shift : Nat) (widths : List Nat) (word mask : Nat) :
    windows shift widths (word &&& mask) =
      List.zipWith (· &&& ·) (windows shift widths word) (windows shift widths mask) := by
  induction widths generalizing shift with
  | nil => rfl
  | cons width widths ih => rw [windows, windows, windows, List.zipWith_cons_cons, window_and, ih]

theorem join_windows (shift : Nat) (widths : List Nat) (word : Nat) :
    join widths (windows shift widths word) = word / 2 ^ shift % 2 ^ widths.sum := by
  induction widths generalizing shift with
  | nil => exact (Nat.mod_one _).symm
  | cons width widths ih =>
    have above : word / 2 ^ (shift + width) = word / 2 ^ shift / 2 ^ width := by
      rw [Nat.pow_add, Nat.div_div_eq_div_mul]
    rw [windows, join, window_eq, ih, above, List.sum_cons, Nat.pow_add, Nat.mod_mul]

theorem windows_shift (shift : Nat) (widths : List Nat) (word : Nat) :
    windows shift widths word = windows 0 widths (word / 2 ^ shift) := by
  induction widths generalizing shift word with
  | nil => rfl
  | cons width widths ih =>
    rw [windows, windows, window_eq, window_eq, Nat.pow_zero, Nat.div_one, ih (shift + width), ih (0 + width),
      Nat.zero_add, Nat.pow_add, Nat.div_div_eq_div_mul]

theorem windows_join {widths values : List Nat}
    (fit : List.Forall₂ (fun width value => value < 2 ^ width) widths values) :
    windows 0 widths (join widths values) = values := by
  induction fit with
  | nil => rfl
  | @cons width value widths values small fit ih =>
    have digit : (value + 2 ^ width * join widths values) % 2 ^ width = value := by
      rw [Nat.add_mul_mod_self_left, Nat.mod_eq_of_lt small]
    have above : (value + 2 ^ width * join widths values) / 2 ^ width = join widths values := by
      rw [Nat.add_mul_div_left _ _ (Nat.two_pow_pos width), Nat.div_eq_of_lt small, Nat.zero_add]
    rw [windows, join, window_eq, Nat.pow_zero, Nat.div_one, digit, windows_shift, Nat.zero_add, above, ih]

theorem join_lt {widths values : List Nat} (fit : List.Forall₂ (fun width value => value < 2 ^ width) widths values) :
    join widths values < 2 ^ widths.sum := by
  have joined := join_windows 0 widths (join widths values)
  rw [windows_join fit, Nat.pow_zero, Nat.div_one] at joined
  rw [joined]
  exact Nat.mod_lt _ (Nat.two_pow_pos _)

theorem windows_injective (widths : List Nat) {word word' : Nat} (small : word < 2 ^ widths.sum)
    (small' : word' < 2 ^ widths.sum) (same : windows 0 widths word = windows 0 widths word') : word = word' := by
  have joined := join_windows 0 widths word
  have joined' := join_windows 0 widths word'
  rw [Nat.pow_zero, Nat.div_one, Nat.mod_eq_of_lt small] at joined
  rw [Nat.pow_zero, Nat.div_one, Nat.mod_eq_of_lt small'] at joined'
  rw [← joined, ← joined', same]

end Foundation.Windows
