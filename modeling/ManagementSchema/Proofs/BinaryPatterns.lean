-- Patterns of binary numbers: which ones stand for numbers, how large these
-- are, and that rounding an integer of 64 bits gives such a pattern.
import Mathlib.Algebra.Group.Nat.Defs
import ManagementSchema.Number.Binary

namespace ManagementSchema

namespace BinaryFormat

variable {f : BinaryFormat} {bits m : Nat} {q : Int}

/-! ## Signs -/

theorem infinity_lt_signWeight (f : BinaryFormat) : f.infinity < f.signWeight := by
  have hfield : 0 < 2 ^ f.exponentBits := Nat.two_pow_pos _
  show (2 ^ f.exponentBits - 1) * 2 ^ f.fractionBits < 2 ^ (f.fractionBits + f.exponentBits)
  rw [Nat.pow_add, Nat.mul_comm (2 ^ f.fractionBits)]
  exact Nat.mul_lt_mul_of_pos_right (by omega) (Nat.two_pow_pos _)

/-- The sign that a pattern is given is found again. -/
theorem isNegative_withSign (h : bits < f.signWeight) (negative : Bool) :
    f.isNegative (f.withSign negative bits) = negative := by
  unfold isNegative withSign
  cases negative with
  | true => simp
  | false =>
    rw [if_neg (by decide), decide_eq_false (by omega)]

theorem unsigned_withSign (h : bits < f.signWeight) (negative : Bool) :
    f.unsigned (f.withSign negative bits) = bits := by
  unfold unsigned withSign
  cases negative with
  | true =>
    rw [if_pos rfl, Nat.add_mod_right]
    exact Nat.mod_eq_of_lt h
  | false =>
    rw [if_neg (by decide)]
    exact Nat.mod_eq_of_lt h

theorem withSign_lt (h : bits < f.signWeight) (negative : Bool) :
    f.withSign negative bits < 2 * f.signWeight := by
  unfold withSign
  split <;> omega

/-! ## Places -/

/-- Patterns with the sign bit are below zero, the greater ones farther. -/
theorem place_eq (h : bits < 2 * f.signWeight) :
    f.place bits = if f.signWeight ≤ bits then (f.signWeight : Int) - bits - 1 else bits := by
  unfold place isNegative unsigned
  by_cases hnegative : f.signWeight ≤ bits
  · rw [Nat.mod_eq_sub_mod hnegative, Nat.mod_eq_of_lt (by omega)]
    simp only [hnegative, decide_true, if_true]
    omega
  · simp [hnegative]

/-- No two patterns are at one place. -/
theorem place_inj {other : Nat} (h : bits < 2 * f.signWeight) (hother : other < 2 * f.signWeight)
    (hplace : f.place bits = f.place other) : bits = other := by
  rw [place_eq h, place_eq hother] at hplace
  split at hplace
  · split at hplace <;> omega
  · split at hplace <;> omega

/-! ## Magnitudes -/

theorem magnitude_of_lt (h : bits < f.infinity) : ∃ m q, f.magnitude bits = .finite m q := by
  unfold magnitude
  simp only
  rw [if_neg (Nat.ne_of_gt h), if_neg (Nat.lt_asymm h)]
  split
  · exact ⟨_, _, rfl⟩
  · exact ⟨_, _, rfl⟩

theorem magnitude_infinity (f : BinaryFormat) : f.magnitude f.infinity = .infinite := by
  unfold magnitude
  simp

theorem magnitude_of_gt (h : f.infinity < bits) : f.magnitude bits = .notANumber := by
  unfold magnitude
  simp [Nat.ne_of_lt h, h]

/-- A finite pattern counts its units in the fraction field, and the unit in the exponent field. -/
theorem magnitude_finite (h : f.magnitude bits = .finite m q) :
    bits < f.infinity ∧ f.leastExponent ≤ q ∧ m < 2 ^ (f.fractionBits + 1) ∧
      (q = f.leastExponent ∨ 2 ^ f.fractionBits ≤ m) ∧
      bits = (q - f.leastExponent).toNat * 2 ^ f.fractionBits + m := by
  have hfraction : bits % 2 ^ f.fractionBits < 2 ^ f.fractionBits :=
    Nat.mod_lt _ (Nat.two_pow_pos _)
  have hbits := Nat.div_add_mod' bits (2 ^ f.fractionBits)
  unfold magnitude at h
  simp only [Nat.pow_eq] at h
  rw [Nat.pow_succ]
  split at h
  · cases h
  · split at h
    · cases h
    · refine ⟨by omega, ?_⟩
      split at h
      · rename_i hfield
        cases h
        rw [hfield, Nat.zero_mul, Nat.zero_add] at hbits
        rw [Int.sub_self, Int.toNat_zero, Nat.zero_mul, Nat.zero_add]
        exact ⟨Int.le_refl _, by omega, .inl rfl, hbits.symm⟩
      · cases h
        generalize hfield : bits / 2 ^ f.fractionBits = field at *
        have hcount : (f.leastExponent + field - 1 - f.leastExponent).toNat = field - 1 := by omega
        obtain ⟨k, rfl⟩ : ∃ k, field = k + 1 := ⟨field - 1, by omega⟩
        rw [Nat.add_mul, Nat.one_mul] at hbits
        rw [hcount, Nat.add_sub_cancel]
        exact ⟨by omega, by omega, .inr (by omega), by omega⟩

/-! ## The format of 64 bits -/

theorem double_infinity : double.infinity = 2047 * 2 ^ 52 := rfl

theorem double_leastExponent : double.leastExponent = -1074 := rfl

/-- A pattern below the one of infinity is that of a number. -/
theorem exists_finite (h : bits < double.infinity) :
    ∃ m q, double.magnitude bits = .finite m q ∧ m < 2 ^ 53 ∧ -1074 ≤ q ∧ q ≤ 971 := by
  obtain ⟨m, q, hmagnitude⟩ := magnitude_of_lt h
  obtain ⟨_, hleast, hm, hfull, hbits⟩ := magnitude_finite hmagnitude
  rw [double_leastExponent] at hleast hfull hbits
  rw [double_infinity] at h
  change m < 2 ^ 53 at hm
  change q = -1074 ∨ 2 ^ 52 ≤ m at hfull
  change bits = (q - -1074).toNat * 2 ^ 52 + m at hbits
  exact ⟨m, q, hmagnitude, hm, hleast, by omega⟩

theorem roundHalfEven_le (num den : Nat) : roundHalfEven num den ≤ num / den + 1 := by
  unfold roundHalfEven
  simp only
  split
  · omega
  · split <;> omega

/-- So many bits are left of an integer in units of `2 ^ q`. -/
theorem div_inUnits_lt {num : Nat} {q : Int} {k : Nat} (h : (num.log2 : Int) + 1 - q ≤ k) :
    (inUnits num 1 q).1 / (inUnits num 1 q).2 < 2 ^ k := by
  have hnum : num < 2 ^ (num.log2 + 1) := Nat.lt_log2_self
  unfold inUnits
  split
  · show num / (1 * 2 ^ q.toNat) < 2 ^ k
    rw [Nat.one_mul, Nat.div_lt_iff_lt_mul (Nat.two_pow_pos _), ← Nat.pow_add]
    exact Nat.lt_of_lt_of_le hnum (Nat.pow_le_pow_right (by decide) (by omega))
  · show num * 2 ^ (-q).toNat / 1 < 2 ^ k
    rw [Nat.div_one]
    calc num * 2 ^ (-q).toNat
        < 2 ^ (num.log2 + 1) * 2 ^ (-q).toNat := Nat.mul_lt_mul_of_pos_right hnum (Nat.two_pow_pos _)
      _ = 2 ^ (num.log2 + 1 + (-q).toNat) := (Nat.pow_add 2 _ _).symm
      _ ≤ 2 ^ k := Nat.pow_le_pow_right (by decide) (by omega)

/-- A number of 64 bits is not rounded to infinity. -/
theorem ofRatio_lt_infinity {num : Nat} (h : num < 2 ^ 64) :
    double.ofRatio num 1 < double.infinity := by
  unfold ofRatio
  split
  · exact Nat.mul_pos (by decide) (Nat.two_pow_pos 52)
  · rename_i hne
    have hlog : num.log2 < 64 := (Nat.log2_lt hne).mpr h
    have hone : Nat.log2 1 = 0 := rfl
    have hleast : (num.log2 : Int) - 53 ≤ double.unitExponent num 1 ∧
        double.unitExponent num 1 ≤ 11 := by
      unfold unitExponent
      simp only [hone, double_leastExponent, show double.fractionBits = 52 from rfl]
      split <;> omega
    generalize double.unitExponent num 1 = q at hleast
    have hunits := @div_inUnits_lt num q 54 (by omega)
    have hround := roundHalfEven_le (inUnits num 1 q).1 (inUnits num 1 q).2
    have hfield : (q - double.leastExponent).toNat ≤ 1085 := by
      rw [double_leastExponent]
      omega
    show min double.infinity ((q - double.leastExponent).toNat * 2 ^ 52 +
      roundHalfEven (inUnits num 1 q).1 (inUnits num 1 q).2) < double.infinity
    rw [double_infinity]
    omega

end BinaryFormat

end ManagementSchema
