-- Rounding to binary numbers, seen from the rationals. A number has one unit in
-- which the format keeps it, so its pattern does not depend on the ratio or the
-- decimal that says it, and a number of the format is rounded to its own pattern.
import Mathlib.Algebra.Order.Field.Power
import Mathlib.Algebra.Order.Field.Rat
import Mathlib.Tactic.Positivity
import ManagementSchema.Proofs.BinaryPatterns
import ManagementSchema.Proofs.DecimalOrder

namespace ManagementSchema

namespace BinaryFormat

variable {f : BinaryFormat} {num den n d n' d' bits m : Nat} {x : ℚ} {q r : Int}

theorem two_zpow_pos (q : Int) : (0 : ℚ) < 2 ^ q := zpow_pos two_pos q

/-! ## Units -/

/-- In units of `2 ^ q` the number has as many bits as the format keeps; in the least unit it may
have fewer. -/
structure HasUnit (f : BinaryFormat) (x : ℚ) (q : Int) : Prop where
  least : f.leastExponent ≤ q
  below : x < 2 ^ (f.fractionBits + 1 + q)
  full : q = f.leastExponent ∨ 2 ^ (f.fractionBits + q) ≤ x

theorem HasUnit.le (h : f.HasUnit x q) (h' : f.HasUnit x r) : r ≤ q := by
  rcases h'.full with hleast | hfull
  · rw [hleast]
    exact h.least
  · have hless := (zpow_lt_zpow_iff_right₀ one_lt_two).mp (lt_of_le_of_lt hfull h.below)
    omega

/-- No number has two units. -/
theorem HasUnit.unique (h : f.HasUnit x q) (h' : f.HasUnit x r) : q = r :=
  Int.le_antisymm (h'.le h) (h.le h')

theorem inUnits_pos (hden : 0 < den) : 0 < (inUnits num den q).2 := by
  unfold inUnits
  split
  · exact Nat.mul_pos hden (Nat.two_pow_pos _)
  · exact hden

theorem inUnits_eq (num den : Nat) (q : Int) :
    ((inUnits num den q).1 / (inUnits num den q).2 : ℚ) = num / den / 2 ^ q := by
  unfold inUnits
  split
  · rename_i hq
    obtain ⟨k, rfl⟩ := Int.eq_ofNat_of_zero_le hq
    simp [div_div]
  · obtain ⟨k, rfl⟩ : ∃ k : Nat, q = -k := ⟨(-q).toNat, by omega⟩
    simp [div_mul_eq_mul_div]

/-- The whole part of a ratio has so many bits just if the ratio is below the power of two. -/
theorem div_lt_two_pow_iff (hd : 0 < d) {k : Nat} : n / d < 2 ^ k ↔ (n / d : ℚ) < 2 ^ k := by
  rw [Nat.div_lt_iff_lt_mul hd, div_lt_iff₀ (Nat.cast_pos.mpr hd)]
  norm_cast

/-- The lengths of numerator and denominator tell the size of a ratio up to a factor of four. -/
theorem ratio_bounds (hnum : 0 < num) (hden : 0 < den) :
    (2 : ℚ) ^ ((num.log2 : Int) - den.log2 - 1) ≤ num / den ∧
      (num / den : ℚ) < 2 ^ ((num.log2 : Int) - den.log2 + 1) := by
  have hden' : (0 : ℚ) < den := Nat.cast_pos.mpr hden
  have hlow : (2 : ℚ) ^ (num.log2 : Int) ≤ num := by
    exact_mod_cast Nat.log2_self_le (Nat.ne_of_gt hnum)
  have hhigh : (num : ℚ) < 2 ^ ((num.log2 : Int) + 1) := by
    exact_mod_cast Nat.lt_log2_self
  have hlow' : (2 : ℚ) ^ (den.log2 : Int) ≤ den := by
    exact_mod_cast Nat.log2_self_le (Nat.ne_of_gt hden)
  have hhigh' : (den : ℚ) < 2 ^ ((den.log2 : Int) + 1) := by
    exact_mod_cast Nat.lt_log2_self
  refine ⟨?_, ?_⟩
  · rw [le_div_iff₀ hden']
    calc (2 : ℚ) ^ ((num.log2 : Int) - den.log2 - 1) * den
        ≤ 2 ^ ((num.log2 : Int) - den.log2 - 1) * 2 ^ ((den.log2 : Int) + 1) :=
          mul_le_mul_of_nonneg_left hhigh'.le (two_zpow_pos _).le
      _ = 2 ^ (num.log2 : Int) := by rw [← zpow_add₀ two_ne_zero]; congr 1; omega
      _ ≤ num := hlow
  · rw [div_lt_iff₀ hden']
    calc (num : ℚ) < 2 ^ ((num.log2 : Int) + 1) := hhigh
      _ = 2 ^ ((num.log2 : Int) - den.log2 + 1) * 2 ^ (den.log2 : Int) := by
          rw [← zpow_add₀ two_ne_zero]; congr 1; omega
      _ ≤ 2 ^ ((num.log2 : Int) - den.log2 + 1) * den :=
          mul_le_mul_of_nonneg_left hlow' (two_zpow_pos _).le

theorem hasUnit_unitExponent (hnum : 0 < num) (hden : 0 < den) :
    f.HasUnit (num / den) (f.unitExponent num den) := by
  obtain ⟨hlow, hhigh⟩ := ratio_bounds hnum hden
  unfold unitExponent
  generalize hguess : max f.leastExponent ((num.log2 : Int) - den.log2 - 1 - f.fractionBits) = guess
  -- What is asked of the whole part says whether the guess leaves the number enough room.
  have hroom : (inUnits num den guess).1 / (inUnits num den guess).2 < 2 ^ (f.fractionBits + 1) ↔
      (num / den : ℚ) < 2 ^ (f.fractionBits + 1 + guess) := by
    rw [div_lt_two_pow_iff (inUnits_pos hden), inUnits_eq, div_lt_iff₀ (two_zpow_pos _),
      ← zpow_natCast, ← zpow_add₀ two_ne_zero]
    simp
  show f.HasUnit (num / den) (if (inUnits num den guess).1 / (inUnits num den guess).2 <
    2 ^ (f.fractionBits + 1) then guess else guess + 1)
  split
  · rename_i hless
    refine ⟨by omega, hroom.mp hless, ?_⟩
    by_cases hleast : guess = f.leastExponent
    · exact .inl hleast
    · refine .inr (le_trans (zpow_le_zpow_right₀ one_le_two ?_) hlow)
      omega
  · rename_i hless
    have hfull := not_lt.mp (mt hroom.mpr hless)
    refine ⟨by omega, ?_, .inr ?_⟩
    · refine lt_of_lt_of_le hhigh (zpow_le_zpow_right₀ one_le_two ?_)
      omega
    · refine le_trans (zpow_le_zpow_right₀ one_le_two ?_) hfull
      omega

/-! ## Rounding -/

theorem roundHalfEven_mul (n d : Nat) {k : Nat} (hk : 0 < k) :
    roundHalfEven (n * k) (d * k) = roundHalfEven n d := by
  unfold roundHalfEven
  rw [Nat.mul_div_mul_right _ _ hk, Nat.mul_mod_mul_right]
  simp only [← Nat.mul_assoc, Nat.mul_lt_mul_right hk]

/-- Ratios of one value are rounded to one integer. -/
theorem roundHalfEven_congr (hd : 0 < d) (hd' : 0 < d') (h : (n / d : ℚ) = n' / d') :
    roundHalfEven n d = roundHalfEven n' d' := by
  have hcross : n * d' = n' * d := by
    rw [div_eq_div_iff (Nat.cast_ne_zero.mpr (Nat.ne_of_gt hd))
      (Nat.cast_ne_zero.mpr (Nat.ne_of_gt hd'))] at h
    exact_mod_cast h
  rw [← roundHalfEven_mul n d hd', hcross, Nat.mul_comm d, roundHalfEven_mul n' d' hd]

theorem roundHalfEven_one (n : Nat) : roundHalfEven n 1 = n := by
  simp [roundHalfEven, Nat.mod_one]

/-- Less than a half is rounded to nothing. -/
theorem roundHalfEven_eq_zero (h : 2 * n < d) : roundHalfEven n d = 0 := by
  unfold roundHalfEven
  rw [Nat.mod_eq_of_lt (by omega), Nat.div_eq_of_lt (by omega)]
  simp [h]

/-- A ratio has the pattern that its unit and its size in this unit give. -/
theorem ofRatio_eq (hnum : 0 < num) (hden : 0 < den) (hunit : f.HasUnit (num / den) q) (hd : 0 < d)
    (hsize : (n / d : ℚ) = num / den / 2 ^ q) :
    f.ofRatio num den = min f.infinity
      ((q - f.leastExponent).toNat * 2 ^ f.fractionBits + roundHalfEven n d) := by
  have hq : f.unitExponent num den = q := (hasUnit_unitExponent hnum hden).unique hunit
  have hround : roundHalfEven (inUnits num den q).1 (inUnits num den q).2 = roundHalfEven n d :=
    roundHalfEven_congr (inUnits_pos hden) hd ((inUnits_eq num den q).trans hsize.symm)
  unfold ofRatio
  rw [if_neg (Nat.ne_of_gt hnum)]
  simp only [hq, hround, Nat.pow_eq]

theorem ofRatio_zero (f : BinaryFormat) (den : Nat) : f.ofRatio 0 den = 0 := rfl

/-- Ratios of one value have one pattern. -/
theorem ofRatio_congr (hden : 0 < den) (hd : 0 < d) (h : (num / den : ℚ) = n / d) :
    f.ofRatio num den = f.ofRatio n d := by
  have hden' : (den : ℚ) ≠ 0 := Nat.cast_ne_zero.mpr (Nat.ne_of_gt hden)
  have hd' : (d : ℚ) ≠ 0 := Nat.cast_ne_zero.mpr (Nat.ne_of_gt hd)
  rcases Nat.eq_zero_or_pos n with rfl | hn
  · have hzero : num = 0 := by simpa [hden'] using h
    rw [hzero, ofRatio_zero, ofRatio_zero]
  · have hnum : 0 < num := by
      rw [Nat.pos_iff_ne_zero]
      rintro rfl
      have hzero : n = 0 := by simpa [hd', eq_comm] using h
      omega
    have hunit := @hasUnit_unitExponent f _ _ hn hd
    rw [ofRatio_eq hn hd hunit (inUnits_pos hd) (inUnits_eq n d _)]
    rw [← h] at hunit
    exact ofRatio_eq hnum hden hunit (inUnits_pos hd) (by rw [inUnits_eq, h])

/-- The pattern that a number is rounded to. -/
def ofRational (f : BinaryFormat) (x : ℚ) : Nat := f.ofRatio x.num.toNat x.den

theorem toNat_num_div_den (hx : 0 ≤ x) : ((x.num.toNat : Nat) / x.den : ℚ) = x := by
  have hcast : ((x.num.toNat : Nat) : ℚ) = x.num := by
    exact_mod_cast Int.toNat_of_nonneg (Rat.num_nonneg.mpr hx)
  rw [hcast, Rat.num_div_den]

theorem ofRatio_eq_ofRational (num : Nat) (hden : 0 < den) :
    f.ofRatio num den = f.ofRational (num / den) :=
  ofRatio_congr hden (Rat.den_pos _) (toNat_num_div_den (by positivity)).symm

theorem ofRational_eq (hx : 0 < x) (hunit : f.HasUnit x q) (hd : 0 < d)
    (hsize : (n / d : ℚ) = x / 2 ^ q) :
    f.ofRational x = min f.infinity
      ((q - f.leastExponent).toNat * 2 ^ f.fractionBits + roundHalfEven n d) := by
  have hnum := Rat.num_pos.mpr hx
  rw [← toNat_num_div_den hx.le] at hunit hsize
  exact ofRatio_eq (by omega) x.den_pos hunit hd hsize

theorem inUnits_num (hx : 0 ≤ x) (q : Int) :
    ((inUnits x.num.toNat x.den q).1 / (inUnits x.num.toNat x.den q).2 : ℚ) = x / 2 ^ q := by
  rw [inUnits_eq, toNat_num_div_den hx]

/-! ## Numbers out of reach -/

theorem exists_hasUnit (f : BinaryFormat) (hx : 0 < x) : ∃ q, f.HasUnit x q := by
  have hnum := Rat.num_pos.mpr hx
  have hunit := @hasUnit_unitExponent f x.num.toNat x.den (by omega) x.den_pos
  rw [toNat_num_div_den hx.le] at hunit
  exact ⟨_, hunit⟩

theorem leastExponent_le (f : BinaryFormat) : f.leastExponent + f.fractionBits ≤ 1 := by
  have hpow : 0 < Nat.pow 2 (f.exponentBits - 1) := Nat.two_pow_pos _
  unfold leastExponent
  omega

theorem neg_reach_le (f : BinaryFormat) : -(f.reach : Int) ≤ f.leastExponent := by
  have hpow : Nat.pow 2 (f.exponentBits - 1) ≤ Nat.pow 2 f.exponentBits :=
    Nat.pow_le_pow_right (by decide) (Nat.sub_le _ _)
  unfold leastExponent reach
  omega

theorem infinity_le (f : BinaryFormat) (q : Int) (h : (Nat.pow 2 f.exponentBits : Nat) ≤ q) :
    f.infinity ≤ (q - f.leastExponent).toNat * 2 ^ f.fractionBits := by
  have hleast := f.leastExponent_le
  exact Nat.mul_le_mul_right _ (by omega)

/-- What is far beyond the greatest number is infinite. -/
theorem ofRational_of_large (h : 2 ^ (f.reach : Int) ≤ x) : f.ofRational x = f.infinity := by
  have hx : 0 < x := lt_of_lt_of_le (two_zpow_pos _) h
  obtain ⟨q, hunit⟩ := f.exists_hasUnit hx
  have hfar : (f.reach : Int) < f.fractionBits + 1 + q :=
    (zpow_lt_zpow_iff_right₀ one_lt_two).mp (lt_of_le_of_lt h hunit.below)
  have hbeyond := f.infinity_le q (by unfold reach at hfar; omega)
  rw [ofRational_eq hx hunit (inUnits_pos x.den_pos) (inUnits_num hx.le q)]
  omega

/-- What is less than half of the least number is zero. -/
theorem ofRational_of_small (hx : 0 < x) (h : x < 2 ^ (f.leastExponent - 1)) :
    f.ofRational x = 0 := by
  have hunit : f.HasUnit x f.leastExponent := by
    refine ⟨Int.le_refl _, lt_of_lt_of_le h (zpow_le_zpow_right₀ one_le_two ?_), .inl rfl⟩
    omega
  have hsize := inUnits_num hx.le f.leastExponent
  have hd := @inUnits_pos x.num.toNat x.den f.leastExponent x.den_pos
  rw [ofRational_eq hx hunit hd hsize]
  generalize (inUnits x.num.toNat x.den f.leastExponent).1 = n at hsize ⊢
  generalize (inUnits x.num.toNat x.den f.leastExponent).2 = d at hsize hd ⊢
  have hhalf : 2 * n < d := by
    have hless : (n / d : ℚ) < 1 / 2 := by
      rw [hsize, div_lt_iff₀ (two_zpow_pos _)]
      rw [zpow_sub_one₀ two_ne_zero] at h
      linarith
    rw [div_lt_div_iff₀ (Nat.cast_pos.mpr hd) two_pos] at hless
    have hcast : (n * 2 : ℚ) < d := by linarith
    have hnat : n * 2 < d := by exact_mod_cast hcast
    omega
  rw [roundHalfEven_eq_zero hhalf, Int.sub_self]
  simp

/-! ## Decimals -/

/-- A negative power of ten is no more than that of two. -/
theorem ten_zpow_neg_le (k : Nat) : (10 : ℚ) ^ (-(k : Int)) ≤ 2 ^ (-(k : Int)) := by
  rw [zpow_neg, zpow_neg, zpow_natCast, zpow_natCast]
  exact inv_anti₀ (pow_pos two_pos k) (pow_le_pow_left₀ two_pos.le (by norm_num) k)

/-- A decimal is rounded as the number that it says: what is left out because it is too large or
too small has the pattern that rounding would give. -/
theorem ofDecimal_eq_ofRational (f : BinaryFormat) (c : Nat) (e : Int) :
    f.ofDecimal c e = f.ofRational (c * 10 ^ e) := by
  unfold ofDecimal
  simp only
  split
  · rename_i hzero
    rw [hzero]
    simp [ofRational, ofRatio_zero]
  · rename_i hne
    obtain ⟨hlow, hhigh⟩ := Decimal.scaled_bounds hne e
    have hpos : (0 : ℚ) < c * 10 ^ e :=
      mul_pos (Nat.cast_pos.mpr (Nat.pos_of_ne_zero hne)) (Decimal.ten_zpow_pos e)
    generalize hlength : ((Nat.toDigits 10 c).length : Int) = length
    rw [show ((Whole.digits c).length : Int) = length from hlength] at hlow hhigh
    split
    · rename_i hfar
      refine (ofRational_of_large (le_trans ?_ hlow)).symm
      calc (2 : ℚ) ^ (f.reach : Int) ≤ 10 ^ (f.reach : Int) := by
            rw [zpow_natCast, zpow_natCast]
            exact pow_le_pow_left₀ two_pos.le (by norm_num) _
        _ ≤ 10 ^ (length + e - 1) := zpow_le_zpow_right₀ (by norm_num) (by omega)
    · split
      · rename_i hnear
        have hleast := f.neg_reach_le
        refine (ofRational_of_small hpos (lt_of_lt_of_le hhigh ?_)).symm
        calc (10 : ℚ) ^ (length + e) ≤ 10 ^ (-((f.reach + 1 : Nat) : Int)) :=
              zpow_le_zpow_right₀ (by norm_num) (by omega)
          _ ≤ 2 ^ (-((f.reach + 1 : Nat) : Int)) := ten_zpow_neg_le _
          _ ≤ 2 ^ (f.leastExponent - 1) := zpow_le_zpow_right₀ one_le_two (by omega)
      · split
        · rename_i hwhole
          obtain ⟨k, rfl⟩ := Int.eq_ofNat_of_zero_le hwhole
          rw [ofRatio_eq_ofRational _ Nat.one_pos]
          simp
        · obtain ⟨k, rfl⟩ : ∃ k : Nat, e = -k := ⟨(-e).toNat, by omega⟩
          rw [Nat.pow_eq, ofRatio_eq_ofRational c (Nat.pow_pos (show 0 < 10 by decide))]
          simp [div_eq_mul_inv]

/-! ## Numbers of the format -/

/-- A number of the format is rounded to its own pattern. -/
theorem ofRational_magnitude (h : f.magnitude bits = .finite m q) :
    f.ofRational (m * 2 ^ q) = bits := by
  obtain ⟨hless, hleast, hm, hfull, hbits⟩ := magnitude_finite h
  rcases Nat.eq_zero_or_pos m with rfl | hpos
  · have hq : q = f.leastExponent := by
      refine hfull.resolve_right ?_
      have hpow := Nat.two_pow_pos f.fractionBits
      omega
    rw [hbits, hq]
    simp [ofRational, ofRatio_zero]
  · have hunit : f.HasUnit (m * 2 ^ q) q := by
      refine ⟨hleast, ?_, hfull.imp_right ?_⟩
      · rw [zpow_add₀ two_ne_zero]
        refine mul_lt_mul_of_pos_right ?_ (two_zpow_pos q)
        exact_mod_cast hm
      · intro hle
        rw [zpow_add₀ two_ne_zero, zpow_natCast]
        refine mul_le_mul_of_nonneg_right ?_ (two_zpow_pos q).le
        exact_mod_cast hle
    have hx : (0 : ℚ) < m * 2 ^ q := mul_pos (Nat.cast_pos.mpr hpos) (two_zpow_pos q)
    have hsize : (m / (1 : Nat) : ℚ) = m * 2 ^ q / 2 ^ q := by
      rw [mul_div_cancel_right₀ _ (two_zpow_pos q).ne', Nat.cast_one, div_one]
    rw [ofRational_eq hx hunit Nat.one_pos hsize, roundHalfEven_one, ← hbits]
    omega

end BinaryFormat

end ManagementSchema
