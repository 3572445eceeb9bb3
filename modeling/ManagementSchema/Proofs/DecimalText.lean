-- Decimals written and read back. Whatever form a decimal is written in, the
-- digits before and behind the point are together those of its unscaled
-- value, and the digits behind the point less the exponent are its scale.
import Mathlib.Algebra.Field.Rat
import ManagementSchema.Proofs.DecimalGrammar

namespace ManagementSchema

namespace Decimal

open Whole

variable {cs front behind : List Char} {negative : Bool} {shift : Int} {d : Decimal}

/-! ## Digits around a point -/

/-- Digits, and a point with more digits behind it if there are any. -/
def joined (front : List Char) : (behind : List Char) → List Char
  | [] => front
  | c :: rest => front ++ '.' :: c :: rest

/-- The digits stand around a point, so many of them behind it; zeros may stand before them. -/
structure Splits (ds : List Char) (scale : Nat) (front behind : List Char) : Prop where
  front_ne : front ≠ []
  front_digits : front.all Char.isDigit = true
  behind_digits : behind.all Char.isDigit = true
  length_behind : behind.length = scale
  same_value : value (front ++ behind) = value ds

theorem joined_of_ne_nil (h : behind ≠ []) : joined front behind = front ++ '.' :: behind := by
  obtain ⟨c, rest, rfl⟩ := List.exists_cons_of_ne_nil h
  rfl

theorem splits_unpointed {ds : List Char} (hne : ds ≠ []) (hall : ds.all Char.isDigit = true) :
    Splits ds 0 ds [] :=
  ⟨hne, hall, rfl, rfl, by rw [List.append_nil]⟩

theorem splits_pointedAfterFirst {ds : List Char} (hne : ds ≠ [])
    (hall : ds.all Char.isDigit = true) :
    ∃ front behind, pointedAfterFirst ds = joined front behind ∧
      Splits ds (ds.length - 1) front behind := by
  obtain ⟨c, rest, rfl⟩ := List.exists_cons_of_ne_nil hne
  rw [List.all_cons, Bool.and_eq_true] at hall
  refine ⟨[c], rest, ?_, ⟨by simp, by simp [hall.1], hall.2, by simp, rfl⟩⟩
  cases rest with
  | nil => rfl
  | cons d more => rfl

theorem splits_pointed {ds : List Char} {scale : Nat} (hpos : 0 < scale)
    (hall : ds.all Char.isDigit = true) :
    ∃ front behind, pointed ds scale = joined front behind ∧ Splits ds scale front behind := by
  unfold pointed
  by_cases hscale : scale < ds.length
  · rw [if_pos hscale]
    have hlength : (ds.drop (ds.length - scale)).length = scale := by
      rw [List.length_drop]
      omega
    have hbehind : ds.drop (ds.length - scale) ≠ [] := by
      rw [← List.length_pos_iff, hlength]
      exact hpos
    have hfront : ds.take (ds.length - scale) ≠ [] := by
      rw [← List.length_pos_iff, List.length_take]
      omega
    rw [← List.take_append_drop (ds.length - scale) ds, List.all_append, Bool.and_eq_true] at hall
    refine ⟨_, _, (joined_of_ne_nil hbehind).symm, hfront, hall.1, hall.2, hlength, ?_⟩
    rw [List.take_append_drop]
  · rw [if_neg hscale]
    have hlength : (List.replicate (scale - ds.length) '0' ++ ds).length = scale := by
      rw [List.length_append, List.length_replicate]
      omega
    have hbehind : List.replicate (scale - ds.length) '0' ++ ds ≠ [] := by
      rw [← List.length_pos_iff, hlength]
      exact hpos
    refine ⟨['0'], List.replicate (scale - ds.length) '0' ++ ds, ?_, by simp, rfl, ?_, hlength, ?_⟩
    · rw [joined_of_ne_nil hbehind]
      rfl
    · rw [List.all_append, hall, Bool.and_true, List.all_replicate]
      simp
    · have hzero : value ['0'] = 0 := value_zeros 1
      rw [value_append, hzero, value_append, value_zeros]
      omega

/-- Digits around a point are a mantissa, with a minus sign or without. -/
theorem Splits.exists_mantissa {ds : List Char} {count : Nat} (h : Splits ds count front behind)
    (negative : Bool) :
    ∃ m : Mantissa, m.chars = (if negative then ['-'] else []) ++ joined front behind ∧
      m.sign.isMinus = negative ∧ m.unscaled = signed negative (value ds) ∧
      m.behind.length = count := by
  obtain ⟨hne, hfront, hbehind, hlength, hvalue⟩ := h
  have hdigits : (front ++ behind).all Char.isDigit = true := by
    rw [List.all_append, hfront, hbehind]
    rfl
  obtain ⟨sign, hsign, rfl⟩ : ∃ sign : Sign,
      sign.chars = (if negative then ['-'] else []) ∧ sign.isMinus = negative := by
    cases negative with
    | true => exact ⟨.minus, rfl, rfl⟩
    | false => exact ⟨.none, rfl, rfl⟩
  rw [← hsign, ← hvalue, ← hlength]
  cases behind with
  | nil =>
    refine ⟨⟨sign, front, none, ?_, hdigits⟩, ?_, rfl, rfl, rfl⟩
    · exact List.append_ne_nil_of_left_ne_nil hne _
    · show sign.chars ++ (front ++ []) = sign.chars ++ front
      rw [List.append_nil]
  | cons c rest =>
    refine ⟨⟨sign, front, some (c :: rest), ?_, hdigits⟩, rfl, rfl, rfl, rfl⟩
    exact List.append_ne_nil_of_left_ne_nil hne _

/-! ## Exponents -/

/-- The end of a text after the mantissa, and how far it shifts the point. -/
inductive Shifts : List Char → Int → Prop
  | none : Shifts [] 0
  | some {mark : Char} {body : List Char} {shift : Int} : mark = 'e' ∨ mark = 'E' →
      readExponent body = .ok shift → Shifts (mark :: body) shift

/-- An exponent of 64 bits is read from its digits after a sign. -/
theorem readExponent_signed {e : Int} (h : fits 64 e = true) :
    readExponent ((if e < 0 then '-' else '+') :: digits e.natAbs) = .ok e := by
  rw [← Whole.Numeral.chars_ofInt, readExponent_chars, Whole.Numeral.value_ofInt, if_pos h]

/-- The exponent as it is written; zero is left out. -/
def exponentOf (e : Int) : Option Exponent :=
  if e = 0 then none else some (.capital (Whole.Numeral.ofInt e))

theorem exponentChars_exponentOf (m : Mantissa) (e : Int) :
    (Numeral.mk m (exponentOf e)).exponentChars = exponentText e := by
  unfold Numeral.exponentChars exponentOf exponentText
  by_cases hzero : e = 0
  · simp only [if_pos hzero]
  · simp only [if_neg hzero, Exponent.capital, Whole.Numeral.chars_ofInt]
    by_cases hpos : 0 < e
    · rw [if_pos hpos, if_neg (by omega)]
    · rw [if_neg hpos, if_pos (by omega)]

theorem shift_exponentOf (m : Mantissa) (e : Int) : (Numeral.mk m (exponentOf e)).shift = e := by
  unfold Numeral.shift exponentOf
  by_cases hzero : e = 0
  · simp [hzero]
  · simp [hzero, Exponent.capital, Whole.Numeral.value_ofInt]

/-! ## The written form -/

/-- The number that a decimal stands for, whatever its scale. -/
def number (d : Decimal) : ℚ := d.unscaled * 10 ^ (-d.scale.toInt)

/-- Digits around a point and an exponent are read as the number that they write, as long as the
scale has 32 bits. -/
theorem read_number {ds tail : List Char} {count : Nat} (hsplit : Splits ds count front behind)
    (htail : Shifts tail shift) (hfits : fits 32 (count - shift) = true) :
    ∃ d, read ((if negative then ['-'] else []) ++ joined front behind ++ tail) = .ok d ∧
      d.number = signed negative (value ds) * 10 ^ (shift - count) := by
  obtain ⟨m, hchars, _, hunscaled, hcount⟩ := hsplit.exists_mantissa negative
  have hread : read (m.chars ++ tail) = ofScale m.unscaled (count - shift) := by
    rw [← hcount]
    cases htail with
    | none => exact m.read_append .none
    | some hmark hexponent =>
      rw [m.read_append (.some hmark), shiftOf, hexponent]
      rfl
  rw [hchars, hunscaled] at hread
  obtain ⟨hlow, hhigh⟩ := fits_iff.mp hfits
  obtain ⟨d, hd, hunscaled, hscale⟩ := ofScale_of_fits hlow hhigh
  refine ⟨d, hread.trans hd, ?_⟩
  unfold number
  rw [hunscaled, hscale, Int.neg_sub]

/-- Around a point the digits of a decimal and an exponent are a numeral of its value. -/
theorem exists_numeral_of_splits {count : Nat}
    (hsplit : Splits (digits d.unscaled.natAbs) count front behind) (e : Int)
    (hscale : count - e = d.scale.toInt) :
    ∃ n : Numeral,
      n.chars = (if d.unscaled < 0 then ['-'] else []) ++ joined front behind ++ exponentText e ∧
      n.unscaled = d.unscaled ∧ n.scale = d.scale.toInt ∧ n.shift = e := by
  obtain ⟨m, hchars, _, hunscaled, hcount⟩ := hsplit.exists_mantissa (d.unscaled < 0)
  rw [value_digits, signed_natAbs] at hunscaled
  have hshift := shift_exponentOf m e
  refine ⟨⟨m, exponentOf e⟩, ?_, hunscaled, ?_, hshift⟩
  · unfold Numeral.chars
    rw [exponentChars_exponentOf, hchars]
    simp
  · unfold Numeral.scale
    rw [hcount, hshift, hscale]

/-- A decimal is written as a numeral of its value. -/
theorem exists_numeral (d : Decimal) :
    ∃ n : Numeral, n.chars = d.chars ∧ n.unscaled = d.unscaled ∧ n.scale = d.scale.toInt ∧
      (n.shift = 0 ∨ n.shift = d.leadingExponent) := by
  have hall := all_digits d.unscaled.natAbs
  have hne := digits_ne_nil d.unscaled.natAbs
  have hlength := List.length_pos_iff.mpr hne
  unfold chars
  simp only
  split
  · rename_i hzero
    have hscale : ((0 : Nat) : Int) - 0 = d.scale.toInt := by omega
    obtain ⟨n, hchars, hunscaled, hscale, hshift⟩ :=
      exists_numeral_of_splits (splits_unpointed hne hall) 0 hscale
    exact ⟨n, by simpa [joined, exponentText] using hchars, hunscaled, hscale, .inl hshift⟩
  · split
    · rename_i hpos
      have hpoint : 0 < d.scale.toInt.toNat := by omega
      have hscale : (d.scale.toInt.toNat : Int) - 0 = d.scale.toInt := by omega
      obtain ⟨front, behind, heq, hsplit⟩ := splits_pointed hpoint hall
      obtain ⟨n, hchars, hunscaled, hscale, hshift⟩ := exists_numeral_of_splits hsplit 0 hscale
      rw [heq]
      exact ⟨n, by simpa [exponentText] using hchars, hunscaled, hscale, .inl hshift⟩
    · have hscale : (((digits d.unscaled.natAbs).length - 1 : Nat) : Int) - d.leadingExponent =
          d.scale.toInt := by
        unfold leadingExponent digitCount
        omega
      obtain ⟨front, behind, heq, hsplit⟩ := splits_pointedAfterFirst hne hall
      obtain ⟨n, hchars, hunscaled, hscale, hshift⟩ := exists_numeral_of_splits hsplit _ hscale
      rw [heq]
      exact ⟨n, hchars, hunscaled, hscale, .inr hshift⟩

/-- A decimal is read from its written form, with its scale. -/
theorem read_chars {d : Decimal} (h : fits 64 d.leadingExponent = true) : read d.chars = .ok d := by
  obtain ⟨n, hchars, hunscaled, hscale, hshift⟩ := exists_numeral d
  have hfits : fits 64 n.shift = true := by
    rcases hshift with hshift | hshift
    · rw [hshift]
      decide
    · rw [hshift, h]
  rw [← hchars, n.read_chars, if_pos hfits]
  exact ofScale_eq_ok.mpr ⟨hunscaled.symm, hscale.symm⟩

theorem read_toString {d : Decimal} (h : fits 64 d.leadingExponent = true) :
    read d.toString.toList = .ok d := by
  unfold Decimal.toString
  rw [String.toList_ofList, read_chars h]

/-! ## Decimals that were read -/

/-- A decimal with no more digits than memory holds has a leading digit that 64 bits count. -/
theorem fits_leadingExponent (h : d.digitCount < rowLimit) :
    fits 64 d.leadingExponent = true := by
  have hscale := fits_iff.mp (fits_int32 d.scale)
  unfold rowLimit at h
  rw [fits_iff]
  unfold leadingExponent
  omega

theorem Numeral.Spelling.length_le {n : Numeral} (h : n.Spelling cs) :
    (n.mantissa.front ++ n.mantissa.behind).length ≤ cs.length := by
  have hbehind : n.mantissa.behind.length ≤ (fractionChars n.mantissa.fraction).length := by
    unfold Mantissa.behind
    cases n.mantissa.fraction with
    | none => exact Nat.le_refl 0
    | some digits => exact Nat.le_succ _
  cases h with
  | plain =>
    simp only [Numeral.chars, Mantissa.chars, Mantissa.body, List.length_append]
    omega
  | plusMinus _ _ =>
    simp only [Mantissa.chars, Mantissa.body, List.length_append]
    omega

/-- A decimal has no more digits than the text that it was read from has characters. -/
theorem digitCount_le_of_read (h : read cs = .ok d) : d.digitCount ≤ cs.length := by
  obtain ⟨n, hn, _, hunscaled, _⟩ := read_eq_ok.mp h
  have hvalue : d.unscaled.natAbs = value (n.mantissa.front ++ n.mantissa.behind) := by
    rw [hunscaled]
    exact natAbs_signed _ _
  have hless := value_lt n.mantissa.all_digits
  have hcount : d.digitCount ≤ (n.mantissa.front ++ n.mantissa.behind).length := by
    unfold digitCount
    rw [hvalue]
    exact length_digits_le (List.length_pos_iff.mpr n.mantissa.digits_ne) hless
  exact Nat.le_trans hcount hn.length_le

/-! ## The law -/

theorem eq_of_chars_eq {e : Decimal} (h : e.chars = d.chars) : e = d := by
  obtain ⟨n, hn, hunscaled, hscale, _⟩ := exists_numeral e
  obtain ⟨k, hk, hunscaled', hscale', _⟩ := exists_numeral d
  obtain ⟨hsame, hsame'⟩ := Numeral.value_eq_of_chars_eq (hn.trans (h.trans hk.symm))
  obtain ⟨unscaled, scale⟩ := e
  obtain ⟨unscaled', scale'⟩ := d
  have hu : unscaled = unscaled' := hunscaled.symm.trans (hsame.trans hunscaled')
  have hs : scale = scale' := Int32.toInt_inj.mp (hscale.symm.trans (hsame'.trans hscale'))
  rw [hu, hs]

/-- A decimal is read from its written form as it was, with its scale, and no other decimal has
the same written form. -/
theorem written_forms_are_read_back (d : Decimal) :
    (d.digitCount < rowLimit → read d.toString.toList = .ok d) ∧
      ∀ e : Decimal, e.toString = d.toString → e = d := by
  refine ⟨?_, ?_⟩
  · intro hsize
    exact read_toString (fits_leadingExponent hsize)
  · intro e h
    have hchars := congrArg String.toList h
    unfold Decimal.toString at hchars
    rw [String.toList_ofList, String.toList_ofList] at hchars
    exact eq_of_chars_eq hchars

/-- At the least scale a decimal is written with an exponent beyond 32 bits. -/
theorem the_least_scale_is_read_back :
    (⟨-12345, -2147483648⟩ : Decimal).toString = "-1.2345E+2147483652" ∧
      (⟨-12345, -2147483648⟩ : Decimal).digitCount < rowLimit ∧
      read (⟨-12345, -2147483648⟩ : Decimal).toString.toList = .ok ⟨-12345, -2147483648⟩ := by
  have hsize : (⟨-12345, -2147483648⟩ : Decimal).digitCount < rowLimit := by decide +kernel
  exact ⟨rfl, hsize, (written_forms_are_read_back _).1 hsize⟩

end Decimal

end ManagementSchema
