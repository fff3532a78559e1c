import Mathlib.Data.Int.Log
import Mathlib.Data.Rat.Floor
import Mathlib.Tactic.FieldSimp
import Mathlib.Tactic.Linarith
import Mathlib.Tactic.Positivity

namespace Foundation

/-- To the nearest integer, a tie to the even one. -/
def nearestEven (q : ℚ) : Int :=
  if q - ⌊q⌋ < 1 / 2 then ⌊q⌋ else if q - ⌊q⌋ > 1 / 2 then ⌊q⌋ + 1 else if ⌊q⌋ % 2 = 0 then ⌊q⌋ else ⌊q⌋ + 1

def ulp (digits : Nat) (q : ℚ) : ℚ := 2 ^ (Int.log 2 q - digits)

def roundMagnitude (digits : Nat) (q : ℚ) : ℚ := nearestEven (q / ulp digits q) * ulp digits q

def roundBinary (digits : Nat) (q : ℚ) : ℚ := if q < 0 then -roundMagnitude digits (-q) else roundMagnitude digits q

/-- The nearest double, a number beyond the range of doubles apart. -/
def binary64 (q : ℚ) : ℚ := roundBinary 52 q

theorem floor_le_nearestEven (q : ℚ) : ⌊q⌋ ≤ nearestEven q := by
  unfold nearestEven
  split_ifs <;> omega

theorem nearestEven_le_floor (q : ℚ) : nearestEven q ≤ ⌊q⌋ + 1 := by
  unfold nearestEven
  split_ifs <;> omega

@[simp] theorem nearestEven_intCast (n : Int) : nearestEven n = n := by
  simp [nearestEven]

theorem nearestEven_mono {q q' : ℚ} (le : q ≤ q') : nearestEven q ≤ nearestEven q' := by
  rcases Int.lt_or_eq_of_le (Int.floor_le_floor le) with below | same
  · exact (nearestEven_le_floor q).trans ((Int.add_one_le_of_lt below).trans (floor_le_nearestEven q'))
  · -- of one floor: only the fractions differ
    unfold nearestEven
    rw [← same]
    split_ifs <;> first | omega | (exfalso; linarith)

variable {digits : Nat} {q q' : ℚ}

theorem ulp_pos : 0 < ulp digits q := zpow_pos two_pos _

theorem zpow_log (n : Nat) : (2 : ℚ) ^ (Int.log 2 q + n) = ((2 ^ (digits + n) : Int) : ℚ) * ulp digits q := by
  rw [ulp, Int.cast_pow, Int.cast_ofNat, ← zpow_natCast, ← zpow_add₀ two_ne_zero]
  congr 1
  push_cast
  ring

theorem roundMagnitude_le {k : Int} (below : q ≤ k * ulp digits q) : roundMagnitude digits q ≤ k * ulp digits q := by
  have ratio : q / ulp digits q ≤ k := (div_le_iff₀ ulp_pos).mpr below
  have whole := nearestEven_mono ratio
  rw [nearestEven_intCast] at whole
  exact mul_le_mul_of_nonneg_right (Int.cast_le.mpr whole) ulp_pos.le

theorem le_roundMagnitude {k : Int} (above : k * ulp digits q ≤ q) : k * ulp digits q ≤ roundMagnitude digits q := by
  have ratio : (k : ℚ) ≤ q / ulp digits q := (le_div_iff₀ ulp_pos).mpr above
  have whole := nearestEven_mono ratio
  rw [nearestEven_intCast] at whole
  exact mul_le_mul_of_nonneg_right (Int.cast_le.mpr whole) ulp_pos.le

theorem roundMagnitude_nonneg (nonneg : 0 ≤ q) : 0 ≤ roundMagnitude digits q := by
  have least : ((0 : Int) : ℚ) * ulp digits q ≤ roundMagnitude digits q := le_roundMagnitude (by simpa using nonneg)
  simpa using least

theorem roundMagnitude_mono (nonneg : 0 ≤ q) (le : q ≤ q') : roundMagnitude digits q ≤ roundMagnitude digits q' := by
  rcases nonneg.eq_or_lt with rfl | positive
  · rw [roundMagnitude, zero_div, show nearestEven 0 = 0 from nearestEven_intCast 0, Int.cast_zero, zero_mul]
    exact roundMagnitude_nonneg le
  rcases (Int.log_mono_right (b := 2) positive le).eq_or_lt with same | below
  · have grid : ulp digits q = ulp digits q' := by rw [ulp, ulp, same]
    rw [roundMagnitude, roundMagnitude, grid]
    have ratio : q / ulp digits q' ≤ q' / ulp digits q' := div_le_div_of_nonneg_right le ulp_pos.le
    exact mul_le_mul_of_nonneg_right (Int.cast_le.mpr (nearestEven_mono ratio)) ulp_pos.le
  · -- a power of two stands between them, on both grids
    have upper : q ≤ ((2 ^ (digits + 1) : Int) : ℚ) * ulp digits q := by
      rw [← zpow_log]
      exact (Int.lt_zpow_succ_log_self one_lt_two q).le
    have lower : ((2 ^ (digits + 0) : Int) : ℚ) * ulp digits q' ≤ q' := by
      rw [← zpow_log, Nat.cast_zero, add_zero]
      exact Int.zpow_log_le_self one_lt_two (positive.trans_le le)
    calc roundMagnitude digits q
      _ ≤ ((2 ^ (digits + 1) : Int) : ℚ) * ulp digits q := roundMagnitude_le upper
      _ = 2 ^ (Int.log 2 q + 1) := (zpow_log 1).symm
      _ ≤ 2 ^ (Int.log 2 q' + 0) := zpow_le_zpow_right₀ one_le_two (by omega)
      _ = ((2 ^ (digits + 0) : Int) : ℚ) * ulp digits q' := zpow_log 0
      _ ≤ roundMagnitude digits q' := le_roundMagnitude lower

theorem roundBinary_mono (le : q ≤ q') : roundBinary digits q ≤ roundBinary digits q' := by
  unfold roundBinary
  split_ifs with negative negative' negative'
  · exact neg_le_neg (roundMagnitude_mono (by linarith) (by linarith))
  · have below : 0 ≤ roundMagnitude digits (-q) := roundMagnitude_nonneg (by linarith)
    have above : 0 ≤ roundMagnitude digits q' := roundMagnitude_nonneg (not_lt.mp negative')
    linarith
  · exact absurd (le.trans_lt negative') negative
  · exact roundMagnitude_mono (not_lt.mp negative) le

theorem binary64_mono (le : q ≤ q') : binary64 q ≤ binary64 q' := roundBinary_mono le

end Foundation
