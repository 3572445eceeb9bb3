-- Decimals in the order of their numbers. The digits of a decimal hold its size
-- between two powers of ten, so the leading digits decide unless they count the same
-- power; then the scales are as far apart as the counts of digits, and no farther.
import Mathlib.Algebra.Order.Field.Power
import Mathlib.Order.Compare
import Mathlib.Tactic.NormNum
import ManagementSchema.Proofs.DecimalText

namespace ManagementSchema

namespace Decimal

open Whole

variable {a b d : Decimal}

/-! ## Sizes -/

/-- The number of the decimal without its sign. -/
def size (d : Decimal) : ℚ := d.unscaled.natAbs * 10 ^ (-d.scale.toInt)

theorem ten_zpow_pos (e : Int) : (0 : ℚ) < 10 ^ e := zpow_pos (by norm_num) e

theorem one_le_digitCount (d : Decimal) : 1 ≤ d.digitCount :=
  List.length_pos_iff.mpr (digits_ne_nil d.unscaled.natAbs)

/-- The leading digit tells between which powers of ten a shifted number lies. -/
theorem scaled_bounds {n : Nat} (h : n ≠ 0) (e : Int) :
    (10 : ℚ) ^ ((digits n).length + e - 1) ≤ n * 10 ^ e ∧
      (n * 10 ^ e : ℚ) < 10 ^ ((digits n).length + e) := by
  obtain ⟨hlow, hhigh⟩ := digits_bounds h
  have hcount : 0 < (digits n).length := List.length_pos_iff.mpr (digits_ne_nil n)
  have hleast : (10 : ℚ) ^ (((digits n).length - 1 : Nat) : Int) ≤ n := by
    rw [zpow_natCast]
    exact_mod_cast hlow
  have hgreatest : (n : ℚ) < 10 ^ ((digits n).length : Int) := by
    rw [zpow_natCast]
    exact_mod_cast hhigh
  have hfrom : (digits n).length + e - 1 = (((digits n).length - 1 : Nat) : Int) + e := by omega
  have hscale := ten_zpow_pos e
  rw [hfrom, zpow_add₀ (by norm_num), zpow_add₀ (by norm_num)]
  exact ⟨mul_le_mul_of_nonneg_right hleast hscale.le, mul_lt_mul_of_pos_right hgreatest hscale⟩

/-- The leading digit tells between which powers of ten the size lies. -/
theorem size_bounds (h : d.unscaled ≠ 0) :
    10 ^ d.leadingExponent ≤ d.size ∧ d.size < 10 ^ (d.leadingExponent + 1) := by
  have hfrom : d.leadingExponent = d.digitCount + -d.scale.toInt - 1 := by
    unfold leadingExponent
    omega
  have hto : d.leadingExponent + 1 = d.digitCount + -d.scale.toInt := by
    unfold leadingExponent
    omega
  rw [hto, hfrom]
  exact scaled_bounds (Int.natAbs_ne_zero.mpr h) _

theorem size_lt_of_leadingExponent_lt (ha : a.unscaled ≠ 0) (hb : b.unscaled ≠ 0)
    (h : a.leadingExponent < b.leadingExponent) : a.size < b.size := by
  calc a.size < 10 ^ (a.leadingExponent + 1) := (size_bounds ha).2
    _ ≤ 10 ^ b.leadingExponent := zpow_le_zpow_right₀ (by norm_num) (by omega)
    _ ≤ b.size := (size_bounds hb).1

theorem compare_scaled {x y : Nat} {c : ℚ} (hc : 0 < c) :
    compare ((x : ℚ) * c) (y * c) = compare x y := by
  rw [← cmp_eq_compare, cmp_mul_pos_right hc, Nat.strictMono_cast.cmp_map_eq, cmp_eq_compare]

/-- Brought to the greater scale, the coefficients compare as the sizes. -/
theorem compare_rescaled (h : 0 ≤ scaleGap a b) :
    compare a.unscaled.natAbs (b.unscaled.natAbs * Nat.pow 10 (scaleGap a b).toNat) =
      compare a.size b.size := by
  have hb : b.size =
      ((b.unscaled.natAbs * Nat.pow 10 (scaleGap a b).toNat : Nat) : ℚ) *
        10 ^ (-a.scale.toInt) := by
    have hscale : -b.scale.toInt = ((scaleGap a b).toNat : Int) + -a.scale.toInt := by
      unfold scaleGap at *
      omega
    unfold size
    rw [hscale, zpow_add₀ (by norm_num), zpow_natCast, ← mul_assoc, Nat.pow_eq]
    push_cast
    rfl
  rw [hb]
  exact (compare_scaled (ten_zpow_pos _)).symm

/-- The scales are as far apart as the counts of digits when the leading digits count the same power
of ten. -/
theorem scaleGap_lt (h : a.leadingExponent = b.leadingExponent) :
    (scaleGap a b).natAbs < max a.digitCount b.digitCount := by
  have ha := a.one_le_digitCount
  have hb := b.one_le_digitCount
  unfold leadingExponent at h
  unfold scaleGap
  omega

/-- The comparison asks for one power of ten at most, the one of the gap between the scales, and
only if the leading digits count the same power. -/
theorem compareSizeBy_eq {m : Type → Type} [Monad m] [LawfulMonad m] {power : Nat → m Nat}
    (ha : a.unscaled ≠ 0) (hb : b.unscaled ≠ 0)
    (hpower : a.leadingExponent = b.leadingExponent →
      power (scaleGap a b).natAbs = pure (Nat.pow 10 (scaleGap a b).natAbs)) :
    compareSizeBy power a b = pure (compare a.size b.size) := by
  unfold compareSizeBy
  rcases lt_trichotomy a.leadingExponent b.leadingExponent with h | h | h
  · rw [compare_lt_iff_lt.mpr h, compare_lt_iff_lt.mpr (size_lt_of_leadingExponent_lt ha hb h)]
  · rw [compare_eq_iff_eq.mpr h]
    have hgiven := hpower h
    by_cases hgap : 0 ≤ scaleGap a b
    · have habs : (scaleGap a b).natAbs = (scaleGap a b).toNat := by omega
      rw [habs] at hgiven
      simp only [if_pos hgap, hgiven, pure_bind, compare_rescaled hgap]
    · have habs : (scaleGap a b).natAbs = (-scaleGap a b).toNat := by omega
      have hback : -scaleGap a b = scaleGap b a := by
        unfold scaleGap
        omega
      have hrescaled := compare_rescaled (a := b) (b := a) (by omega)
      rw [habs, hback] at hgiven
      simp only [if_neg hgap, hback, hgiven, pure_bind]
      rw [Std.OrientedOrd.eq_swap, hrescaled, ← Std.OrientedOrd.eq_swap]
  · rw [compare_gt_iff_gt.mpr h, compare_gt_iff_gt.mpr (size_lt_of_leadingExponent_lt hb ha h)]

/-! ## Signs -/

theorem size_pos (h : d.unscaled ≠ 0) : 0 < d.size :=
  lt_of_lt_of_le (ten_zpow_pos _) (size_bounds h).1

theorem number_of_neg (h : d.unscaled < 0) : d.number = -d.size := by
  have habs : d.unscaled = -(d.unscaled.natAbs : Int) := by omega
  have hcast : (d.unscaled : ℚ) = -(d.unscaled.natAbs : ℚ) := by
    rw [← Int.cast_natCast, ← Int.cast_neg, ← habs]
  unfold number size
  rw [hcast, neg_mul]

theorem number_of_pos (h : 0 < d.unscaled) : d.number = d.size := by
  have habs : d.unscaled = (d.unscaled.natAbs : Int) := by omega
  have hcast : (d.unscaled : ℚ) = (d.unscaled.natAbs : ℚ) := by
    rw [← Int.cast_natCast, ← habs]
  unfold number size
  rw [hcast]

theorem number_of_zero (h : d.unscaled = 0) : d.number = 0 := by
  unfold number
  rw [h, Int.cast_zero, zero_mul]

theorem number_neg (h : d.unscaled < 0) : d.number < 0 := by
  rw [number_of_neg h]
  exact neg_neg_of_pos (size_pos (by omega))

theorem number_pos (h : 0 < d.unscaled) : 0 < d.number := by
  rw [number_of_pos h]
  exact size_pos (by omega)

theorem number_lt_of_sign_lt (h : a.unscaled.sign < b.unscaled.sign) : a.number < b.number := by
  rcases Int.lt_trichotomy a.unscaled 0 with ha | ha | ha
  · rw [Int.sign_eq_neg_one_of_neg ha] at h
    rcases Int.lt_trichotomy b.unscaled 0 with hb | hb | hb
    · rw [Int.sign_eq_neg_one_of_neg hb] at h
      omega
    · rw [number_of_zero hb]
      exact number_neg ha
    · exact lt_trans (number_neg ha) (number_pos hb)
  · rw [ha, Int.sign_zero, Int.sign_pos_iff] at h
    rw [number_of_zero ha]
    exact number_pos h
  · rw [Int.sign_eq_one_of_pos ha] at h
    have hb := Int.sign_trichotomy b.unscaled
    omega

theorem compare_neg (x y : ℚ) : compare (-x) (-y) = (compare x y).swap := by
  rw [← Std.OrientedOrd.eq_swap, ← cmp_eq_compare, ← cmp_eq_compare]
  exact strictMono_id.neg.cmp_map_eq x y

/-- The comparison of two decimals is that of their numbers, wherever it has the one power of ten
that it asks for. -/
theorem compareNumericBy_eq {m : Type → Type} [Monad m] [LawfulMonad m] {power : Nat → m Nat}
    (hpower : a.leadingExponent = b.leadingExponent →
      power (scaleGap a b).natAbs = pure (Nat.pow 10 (scaleGap a b).natAbs)) :
    compareNumericBy power a b = pure (compare a.number b.number) := by
  unfold compareNumericBy
  rcases lt_trichotomy a.unscaled.sign b.unscaled.sign with h | h | h
  · rw [compare_lt_iff_lt.mpr h, compare_lt_iff_lt.mpr (number_lt_of_sign_lt h)]
  · rw [compare_eq_iff_eq.mpr h]
    simp only
    rcases Int.lt_trichotomy a.unscaled 0 with ha | ha | ha
    · have hb : b.unscaled < 0 := by rwa [← Int.sign_neg_iff, ← h, Int.sign_neg_iff]
      rw [if_neg (by omega), if_pos ha, compareSizeBy_eq (by omega) (by omega) hpower, pure_bind,
        number_of_neg ha, number_of_neg hb, compare_neg]
    · have hb : b.unscaled = 0 := by
        rwa [← Int.sign_eq_zero_iff_zero, ← h, Int.sign_eq_zero_iff_zero]
      rw [if_pos ha, number_of_zero ha, number_of_zero hb, compare_eq_iff_eq.mpr rfl]
    · have hb : 0 < b.unscaled := by rwa [← Int.sign_pos_iff, ← h, Int.sign_pos_iff]
      rw [if_neg (by omega), if_neg (by omega), compareSizeBy_eq (by omega) (by omega) hpower,
        number_of_pos ha, number_of_pos hb]
  · rw [compare_gt_iff_gt.mpr h, compare_gt_iff_gt.mpr (number_lt_of_sign_lt h)]

/-- With all powers of ten at hand the comparison is that of the numbers. -/
theorem compareNumeric_eq (a b : Decimal) : compareNumeric a b = compare a.number b.number :=
  congrArg Id.run (compareNumericBy_eq fun _ => rfl)

/-! ## The law -/

/-- A power of ten, as long as the exponent is below the bound. -/
def powerBelow (bound exponent : Nat) : Option Nat :=
  if exponent < bound then some (Nat.pow 10 exponent) else none

/-- Decimals are ordered as the numbers that they stand for, whatever their scales; and however far
these are apart, the comparison needs no power of ten but those with exponents below the count of
digits of the longer one. -/
theorem decimals_are_ordered_as_numbers (a b : Decimal) :
    (compareNumeric a b = .lt ↔ a.number < b.number) ∧
    (compareNumeric a b = .eq ↔ a.number = b.number) ∧
    (compareNumeric a b = .gt ↔ b.number < a.number) ∧
    compareNumericBy (powerBelow (max a.digitCount b.digitCount)) a b =
      some (compareNumeric a b) := by
  have hpower : a.leadingExponent = b.leadingExponent →
      powerBelow (max a.digitCount b.digitCount) (scaleGap a b).natAbs =
        pure (Nat.pow 10 (scaleGap a b).natAbs) := by
    intro h
    exact if_pos (scaleGap_lt h)
  refine ⟨?_, ?_, ?_, ?_⟩
  · rw [compareNumeric_eq, compare_lt_iff_lt]
  · rw [compareNumeric_eq, compare_eq_iff_eq]
  · rw [compareNumeric_eq, compare_gt_iff_gt]
  · rw [compareNumeric_eq]
    exact compareNumericBy_eq hpower

end Decimal

end ManagementSchema
