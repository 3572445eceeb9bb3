-- Rows of digits. The shortest row of a binary number reaches no further than
-- the number does, so its exponents are small, and the text that is made of a
-- row is read as a decimal of the same number.
import Mathlib.Tactic.Ring
import ManagementSchema.Json.Number
import ManagementSchema.Proofs.DecimalText

namespace ManagementSchema

namespace DigitRow

variable {r : DigitRow} {f : BinaryFormat} {tie : TieRule} {m num den count width : Nat}
  {bits limit fuel : Nat} {q e : Int}

/-! ## Reach -/

/-- All digits of the row count powers of ten between `-limit` and `limit`. -/
structure Within (limit : Nat) (r : DigitRow) : Prop where
  low : -(limit : Int) ≤ r.exponent
  high : r.exponent + r.digits.length ≤ limit

theorem within_of_lt {reach : Nat} (hcoefficient : r.coefficient < 10 ^ reach)
    (hlow : -(limit : Int) ≤ r.exponent) (hhigh : r.exponent + reach ≤ limit)
    (hreach : 0 < reach) : r.Within limit := by
  have hlength : r.digits.length ≤ reach := Whole.length_digits_le hreach hcoefficient
  exact ⟨hlow, by omega⟩

/-- A zero at the end goes into the exponent, and the leading digit stays in its place. -/
theorem Within.stripZeros (h : r.Within limit) : (r.stripZeros fuel).Within limit := by
  induction fuel generalizing r with
  | zero => exact h
  | succ fuel ih =>
    unfold DigitRow.stripZeros
    split
    · rename_i hzero
      have hdigits : r.digits = Nat.toDigits 10 (r.coefficient / 10) ++ ['0'] := by
        unfold digits
        rw [Nat.toDigits_of_base_le (by decide) (by omega), hzero.2]
        rfl
      have hlength := congrArg List.length hdigits
      rw [List.length_append, List.length_singleton] at hlength
      obtain ⟨hlow, hhigh⟩ := h
      apply ih
      refine ⟨?_, ?_⟩
      · show -(limit : Int) ≤ r.exponent + 1
        omega
      · show r.exponent + 1 + ((Nat.toDigits 10 (r.coefficient / 10)).length : Int) ≤ limit
        omega
    · exact h

theorem leadingExponent_bounds (hwidth : 0 < width) (hnum : num < 10 ^ width)
    (hden : den < 10 ^ width) :
    -(width + 1 : Int) ≤ leadingExponent num den ∧ leadingExponent num den ≤ width := by
  unfold leadingExponent
  split
  · have hlength : (Nat.toDigits 10 (num / den)).length ≤ width :=
      Whole.length_digits_le hwidth (Nat.lt_of_le_of_lt (Nat.div_le_self num den) hnum)
    omega
  · have hceiling : (den + num - 1) / num - 1 < 10 ^ (width + 1) := by
      have hquotient := Nat.div_le_self (den + num - 1) num
      rw [Nat.pow_succ]
      omega
    have hlength : (Nat.toDigits 10 ((den + num - 1) / num - 1)).length ≤ width + 1 :=
      Whole.length_digits_le (by omega) hceiling
    omega

/-- A ratio has no more units of `10 ^ e` than its numerator allows. -/
theorem inUnits_le (num den : Nat) (e : Int) :
    (inUnits num den e).1 / (inUnits num den e).2 ≤ num * 10 ^ (-e).toNat := by
  refine Nat.le_trans (Nat.div_le_self _ _) ?_
  unfold inUnits
  split
  · exact Nat.le_mul_of_pos_right num (Nat.pow_pos (by decide))
  · exact Nat.le_refl _

/-- A row of so many digits is one of the two neighbours of the ratio, and reads back. -/
theorem withDigits_eq_some (h : withDigits f tie bits num den count = some r) :
    r.exponent = leadingExponent num den - count + 1 ∧
      r.coefficient ≤ (inUnits num den r.exponent).1 / (inUnits num den r.exponent).2 + 1 ∧
      f.ofDecimal r.coefficient r.exponent = bits := by
  unfold withDigits at h
  simp only at h
  generalize leadingExponent num den - count + 1 = e at *
  generalize hlow : (inUnits num den e).1 / (inUnits num den e).2 = low at h
  split at h
  · rename_i hboth
    cases h
    rw [hlow]
    refine ⟨rfl, ?_⟩
    split
    · exact ⟨Nat.le_refl _, hboth.2⟩
    · exact ⟨Nat.le_succ _, hboth.1⟩
  · split at h
    · rename_i hreads
      cases h
      rw [hlow]
      exact ⟨rfl, Nat.le_succ _, hreads⟩
    · split at h
      · rename_i hreads
        cases h
        rw [hlow]
        exact ⟨rfl, Nat.le_refl _, hreads⟩
      · cases h

theorem within_withDigits (hwidth : 0 < width) (hnum : num < 10 ^ width) (hden : den < 10 ^ width)
    (hcount : count ≤ 17) (h : withDigits f tie bits num den count = some r) :
    r.Within (3 * width + 40) := by
  obtain ⟨hleast, hgreatest⟩ := leadingExponent_bounds hwidth hnum hden
  obtain ⟨hexponent, hcoefficient, _⟩ := withDigits_eq_some h
  have hunits := inUnits_le num den r.exponent
  generalize he : r.exponent = e at hexponent hcoefficient hunits
  have hpower : num * 10 ^ (-e).toNat < 10 ^ (width + (-e).toNat) := by
    rw [Nat.pow_add]
    exact Nat.mul_lt_mul_of_pos_right hnum (Nat.pow_pos (by decide))
  have hless : r.coefficient < 10 ^ (width + (-e).toNat + 1) := by
    rw [Nat.pow_succ]
    omega
  exact within_of_lt hless (by omega) (by omega) (by omega)

theorem within_exact (hwidth : 0 < width) (hm : m < 10 ^ width) (hleast : -(width : Int) ≤ q)
    (hgreatest : q ≤ width) : (exact m q).Within (2 * width) := by
  unfold exact
  split
  · have hless : m * 2 ^ q.toNat < 10 ^ (width + width) := by
      rw [Nat.pow_add]
      refine Nat.mul_lt_mul_of_lt_of_le hm ?_ (Nat.pow_pos (by decide))
      exact Nat.le_trans (Nat.pow_le_pow_left (by decide) _)
        (Nat.pow_le_pow_right (by decide) (by omega))
    refine within_of_lt hless ?_ ?_ (by omega)
    · show -((2 * width : Nat) : Int) ≤ 0
      omega
    · show 0 + ((width + width : Nat) : Int) ≤ (2 * width : Nat)
      omega
  · have hless : m * 5 ^ (-q).toNat < 10 ^ (width + (-q).toNat) := by
      rw [Nat.pow_add]
      refine Nat.mul_lt_mul_of_lt_of_le hm ?_ (Nat.pow_pos (by decide))
      exact Nat.pow_le_pow_left (by decide) _
    refine within_of_lt hless ?_ ?_ (by omega)
    · show -((2 * width : Nat) : Int) ≤ q
      omega
    · show q + ((width + (-q).toNat : Nat) : Int) ≤ (2 * width : Nat)
      omega

/-- The ratio of a number is one of numbers that are no wider than it. -/
theorem ratio_lt (hwidth : 0 < width) (hm : m * 2 ^ q.toNat < 10 ^ width)
    (hleast : -(width : Int) < q) :
    (BinaryFormat.ratio m q).1 < 10 ^ width ∧ (BinaryFormat.ratio m q).2 < 10 ^ width := by
  unfold BinaryFormat.ratio
  split
  · refine ⟨hm, ?_⟩
    exact Nat.one_lt_pow (by omega) (by decide)
  · have hzero : q.toNat = 0 := by omega
    rw [hzero, Nat.pow_zero, Nat.mul_one] at hm
    refine ⟨hm, ?_⟩
    show 2 ^ (-q).toNat < 10 ^ width
    exact Nat.lt_of_le_of_lt (Nat.pow_le_pow_left (by decide) _)
      (Nat.pow_lt_pow_right (by decide) (by omega))

theorem Within.mono {limit' : Nat} (h : r.Within limit) (hle : limit ≤ limit') :
    r.Within limit' := by
  obtain ⟨hlow, hhigh⟩ := h
  exact ⟨by omega, by omega⟩

/-- The shortest row comes about in one of three ways, and then loses the zeros at its end. -/
theorem shortest_cases {P : DigitRow → Prop} (hzero : m = 0 → P ⟨0, 0⟩)
    (hdigits : ∀ count row, count ≤ 17 → withDigits f tie bits (BinaryFormat.ratio m q).1
      (BinaryFormat.ratio m q).2 count = some row → P row)
    (hexact : P (exact m q)) (hstrip : ∀ fuel row, P row → P (row.stripZeros fuel)) :
    P (shortest f tie bits m q) := by
  unfold shortest
  apply hstrip
  split
  · rename_i hm
    exact hzero hm
  · rcases hfound : (List.range 17).findSome? _ with _ | row
    · exact hexact
    · obtain ⟨k, hk, hrow⟩ := List.exists_of_findSome?_eq_some hfound
      rw [List.mem_range] at hk
      exact hdigits _ row hk hrow

/-- The shortest row of a number reaches little further than the number. -/
theorem within_shortest (hwidth : 0 < width) (hm : m * 2 ^ q.toNat < 10 ^ width)
    (hleast : -(width : Int) < q) (hgreatest : q ≤ width) :
    (shortest f tie bits m q).Within (3 * width + 40) := by
  obtain ⟨hnum, hden⟩ := ratio_lt hwidth hm hleast
  apply shortest_cases
  case hzero =>
    intro _
    refine within_of_lt (Nat.pow_pos (by decide)) ?_ ?_ Nat.one_pos
    · show -((3 * width + 40 : Nat) : Int) ≤ 0
      omega
    · show 0 + ((1 : Nat) : Int) ≤ (3 * width + 40 : Nat)
      omega
  case hdigits =>
    intro count row hcount hrow
    exact within_withDigits hwidth hnum hden hcount hrow
  case hexact =>
    have hsmall : m < 10 ^ width :=
      Nat.lt_of_le_of_lt (Nat.le_mul_of_pos_right m (Nat.two_pow_pos _)) hm
    exact (within_exact hwidth hsmall (by omega) hgreatest).mono (by omega)
  case hstrip =>
    intro fuel row hrow
    exact hrow.stripZeros

/-- The shortest row of a number of 64 bits. -/
theorem within_shortest_double (hm : m < 2 ^ 53) (hleast : -1074 ≤ q) (hgreatest : q ≤ 971) :
    (shortest f tie bits m q).Within 3340 := by
  obtain ⟨width, hwidth⟩ : ∃ width, width = 1100 := ⟨_, rfl⟩
  have hless : m * 2 ^ q.toNat < 10 ^ width := by
    calc m * 2 ^ q.toNat
        < 2 ^ 53 * 2 ^ q.toNat := Nat.mul_lt_mul_of_pos_right hm (Nat.two_pow_pos _)
      _ = 2 ^ (53 + q.toNat) := (Nat.pow_add 2 _ _).symm
      _ ≤ 10 ^ (53 + q.toNat) := Nat.pow_le_pow_left (by decide) _
      _ ≤ 10 ^ width := Nat.pow_le_pow_right (by decide) (by omega)
  exact (within_shortest (by omega) hless (by omega) (by omega)).mono (by omega)

/-! ## Text -/

/-- The number of the row, with a sign. -/
def number (negative : Bool) (r : DigitRow) : ℚ :=
  (Whole.signed negative r.coefficient : ℚ) * 10 ^ r.exponent

/-- The text of a row is visibly no integer. -/
theorem exists_mark (r : DigitRow) :
    ∃ c ∈ Json.Number.rowChars r, c.isDigit = false ∧ c ≠ '-' ∧ c ≠ '+' := by
  unfold Json.Number.rowChars
  simp only
  split
  · refine ⟨'.', ?_, by decide⟩
    split
    · rename_i hneg
      have hcount : 0 < (-r.exponent).toNat := by omega
      have hplain : r.plain = Decimal.pointed r.digits (-r.exponent).toNat := by
        unfold plain
        rw [if_neg (by omega)]
      rw [hplain]
      unfold Decimal.pointed
      split <;> simp
    · simp
  · exact ⟨'e', by simp, by decide⟩

theorem value_plain (h : 0 ≤ r.exponent) :
    Whole.value r.plain = r.coefficient * 10 ^ r.exponent.toNat := by
  unfold plain
  rw [if_pos h]
  split
  · rename_i hzero
    rw [hzero, Nat.zero_mul]
    rfl
  · rw [Whole.value_append, Whole.value_zeros, List.length_replicate, Nat.mul_comm, Nat.add_zero]
    exact congrArg (· * _) (Whole.value_digits r.coefficient)

/-- The digits of a row of an integer, with a zero behind the point. -/
theorem splits_plain (h : 0 ≤ r.exponent) :
    Decimal.Splits (r.plain ++ ['0']) 1 r.plain ['0'] := by
  have hdigits : (Whole.digits r.coefficient).all Char.isDigit = true :=
    Whole.all_digits r.coefficient
  have hne : Whole.digits r.coefficient ≠ [] := Whole.digits_ne_nil r.coefficient
  unfold plain
  rw [if_pos h]
  split
  · exact ⟨by simp, rfl, rfl, rfl, rfl⟩
  · refine ⟨?_, ?_, rfl, rfl, rfl⟩
    · exact List.append_ne_nil_of_left_ne_nil hne _
    · rw [List.all_append, List.all_replicate]
      simp only [show r.digits = Whole.digits r.coefficient from rfl, hdigits]
      simp

/-- The characters are digits around a point and an exponent, and write the number of the row. -/
def Writes (r : DigitRow) (cs : List Char) : Prop :=
  ∃ ds count front behind tail shift, cs = Decimal.joined front behind ++ tail ∧
    Decimal.Splits ds count front behind ∧ Decimal.Shifts tail shift ∧
    Whole.fits 32 (count - shift) = true ∧
    (Whole.value ds : ℚ) * 10 ^ (shift - count : Int) = r.coefficient * 10 ^ r.exponent

theorem writes_pointed (h : r.Within limit) (hlimit : limit < 2 ^ 31) (hneg : r.exponent < 0) :
    r.Writes r.plain := by
  obtain ⟨hlow, _⟩ := h
  have hdigits : r.digits.all Char.isDigit = true := Whole.all_digits r.coefficient
  have hvalue : Whole.value r.digits = r.coefficient := Whole.value_digits r.coefficient
  have hcount : 0 < (-r.exponent).toNat := by omega
  obtain ⟨front, behind, heq, hsplit⟩ := Decimal.splits_pointed hcount hdigits
  refine ⟨_, _, front, behind, [], 0, ?_, hsplit, .none, Whole.fits_iff.mpr (by omega), ?_⟩
  · unfold plain
    rw [if_neg (by omega), heq, List.append_nil]
  · rw [hvalue]
    congr 2
    omega

theorem writes_whole (h : 0 ≤ r.exponent) : r.Writes (r.plain ++ ['.', '0']) := by
  refine ⟨_, _, _, _, [], 0, ?_, splits_plain h, .none, Whole.fits_iff.mpr (by decide), ?_⟩
  · rw [Decimal.joined_of_ne_nil (by simp), List.append_nil]
  · have hpower : (10 : ℚ) ^ r.exponent = 10 ^ r.exponent.toNat := by
      rw [← zpow_natCast, Int.toNat_of_nonneg h]
    have hten : Whole.value (r.plain ++ ['0']) = 10 * (r.coefficient * 10 ^ r.exponent.toNat) := by
      rw [Whole.value_append, value_plain h]
      rfl
    rw [hten, hpower]
    push_cast
    norm_num
    ring

theorem writes_scientific (h : r.Within limit) (hlimit : limit < 2 ^ 31) {leading : Int}
    (hleading : r.exponent + (r.digits.length : Int) - 1 = leading) :
    r.Writes (Decimal.pointedAfterFirst r.digits ++
      'e' :: (if leading < 0 then '-' else '+') :: Whole.digits leading.natAbs) := by
  obtain ⟨hlow, hhigh⟩ := h
  have hdigits : r.digits.all Char.isDigit = true := Whole.all_digits r.coefficient
  have hne : r.digits ≠ [] := Whole.digits_ne_nil r.coefficient
  have hlength := List.length_pos_iff.mpr hne
  have hvalue : Whole.value r.digits = r.coefficient := Whole.value_digits r.coefficient
  obtain ⟨front, behind, heq, hsplit⟩ := Decimal.splits_pointedAfterFirst hne hdigits
  have hexponent := Decimal.readExponent_signed (e := leading) (Whole.fits_iff.mpr (by omega))
  refine ⟨_, _, front, behind, _, leading, ?_, hsplit, .some (.inl rfl) hexponent,
    Whole.fits_iff.mpr (by omega), ?_⟩
  · rw [heq]
  · rw [hvalue]
    congr 2
    omega

theorem writes_rowChars (h : r.Within limit) (hlimit : limit < 2 ^ 31) :
    r.Writes (Json.Number.rowChars r) := by
  unfold Json.Number.rowChars
  simp only
  split
  · split
    · rename_i hneg
      exact writes_pointed h hlimit hneg
    · rename_i hwhole
      exact writes_whole (Int.not_lt.mp hwhole)
  · exact writes_scientific h hlimit rfl

/-- The text of a row is read as a decimal of its number. -/
theorem read_rowChars (h : r.Within limit) (hlimit : limit < 2 ^ 31) (negative : Bool) :
    ∃ d, Decimal.read ((if negative then ['-'] else []) ++ Json.Number.rowChars r) = .ok d ∧
      d.number = r.number negative := by
  obtain ⟨ds, count, front, behind, tail, shift, heq, hsplit, htail, hfits, hwrites⟩ :=
    writes_rowChars h hlimit
  obtain ⟨d, hread, hnumber⟩ := @Decimal.read_number _ _ negative _ _ _ _ hsplit htail hfits
  rw [List.append_assoc, ← heq] at hread
  refine ⟨d, hread, ?_⟩
  rw [hnumber]
  unfold number Whole.signed
  cases negative with
  | true => simp [hwrites]
  | false => simp [hwrites]

end DigitRow

end ManagementSchema
