-- Binary numbers written and read back. However the shortest digits come about,
-- they say a number that is rounded to the pattern they were made of, and their
-- plain form is read as the number that they say. So a pattern is read from its
-- written form, with the sign of zero and of infinity; but the number that is none
-- is written without its sign.
import Mathlib.Data.List.TakeWhile
import ManagementSchema.Proofs.BinaryRounding
import ManagementSchema.Proofs.DigitRows
import ManagementSchema.Value.Scalar

namespace ManagementSchema

/-! ## Rows that read back -/

namespace DigitRow

variable {r : DigitRow} {f : BinaryFormat} {tie : TieRule} {m bits fuel : Nat} {q : Int}

/-- The number of the row is rounded to the pattern. -/
def Gives (f : BinaryFormat) (bits : Nat) (r : DigitRow) : Prop :=
  f.ofDecimal r.coefficient r.exponent = bits

/-- A zero at the end goes into the exponent, and the number stays the same. -/
theorem Gives.stripZeros (h : r.Gives f bits) : (r.stripZeros fuel).Gives f bits := by
  induction fuel generalizing r with
  | zero => exact h
  | succ fuel ih =>
    unfold DigitRow.stripZeros
    split
    · rename_i hzero
      apply ih
      have hcoefficient : (r.coefficient : ℚ) = (r.coefficient / 10 : Nat) * 10 := by
        have hten : r.coefficient = r.coefficient / 10 * 10 := by omega
        exact_mod_cast hten
      unfold Gives at h ⊢
      rw [BinaryFormat.ofDecimal_eq_ofRational] at h ⊢
      rw [← h, hcoefficient, zpow_add_one₀ (by norm_num), mul_assoc, mul_comm 10]
    · exact h

/-- All digits of a number say just that number. -/
theorem number_exact (m : Nat) (q : Int) :
    ((exact m q).coefficient * 10 ^ (exact m q).exponent : ℚ) = m * 2 ^ q := by
  unfold exact
  split
  · rename_i hq
    obtain ⟨k, rfl⟩ := Int.eq_ofNat_of_zero_le hq
    simp
  · obtain ⟨k, rfl⟩ : ∃ k : Nat, q = -k := ⟨(-q).toNat, by omega⟩
    have hfive : (5 : ℚ) ^ k * (10 ^ k)⁻¹ = (2 ^ k)⁻¹ := by
      rw [← inv_pow, ← inv_pow, ← mul_pow]
      norm_num
    simp [mul_assoc, hfive]

/-- The shortest row of a number is rounded to the pattern of the number. -/
theorem gives_shortest (h : f.magnitude bits = .finite m q) :
    (shortest f tie bits m q).Gives f bits := by
  have hexact := BinaryFormat.ofRational_magnitude h
  apply shortest_cases
  case hzero =>
    rintro rfl
    unfold Gives
    rw [BinaryFormat.ofDecimal_eq_ofRational, ← hexact]
    simp
  case hdigits =>
    intro count row _ hrow
    exact (withDigits_eq_some hrow).2.2
  case hexact =>
    unfold Gives
    rw [BinaryFormat.ofDecimal_eq_ofRational, number_exact, hexact]
  case hstrip =>
    intro fuel row hrow
    exact hrow.stripZeros

/-- The plain form has the digits of the row around a point or without one. -/
theorem exists_splits (r : DigitRow) : ∃ ds count front behind,
    r.plain = Decimal.joined front behind ∧ Decimal.Splits ds count front behind ∧
      (Whole.value ds * 10 ^ (-(count : Int)) : ℚ) = r.coefficient * 10 ^ r.exponent := by
  by_cases hwhole : 0 ≤ r.exponent
  · have hplain := splits_plain hwhole
    refine ⟨_, _, r.plain, [], rfl,
      Decimal.splits_unpointed hplain.front_ne hplain.front_digits, ?_⟩
    obtain ⟨k, hk⟩ := Int.eq_ofNat_of_zero_le hwhole
    rw [value_plain hwhole, hk]
    simp
  · have hdigits : r.digits.all Char.isDigit = true := Whole.all_digits r.coefficient
    obtain ⟨front, behind, heq, hsplit⟩ :=
      @Decimal.splits_pointed r.digits (-r.exponent).toNat (by omega) hdigits
    refine ⟨_, _, front, behind, ?_, hsplit, ?_⟩
    · unfold plain
      rw [if_neg hwhole, heq]
    · rw [show Whole.value r.digits = r.coefficient from Whole.value_digits r.coefficient]
      congr 2
      omega

end DigitRow

namespace BinaryFormat

variable {f : BinaryFormat} {cs : List Char} {bits bare : Nat}

/-! ## Mantissas -/

/-- Digits around a point are read as the number that they write together. -/
theorem readUnsigned_body (w : Decimal.Mantissa) :
    readUnsigned w.body = some (Whole.value (w.front ++ w.behind), -(w.behind.length : Int)) := by
  have hmantissa : (w.body.takeWhile fun c => c ≠ 'e' && c ≠ 'E') = w.body := by
    rw [List.takeWhile_eq_self_iff]
    intro c hc
    rcases w.digit_or_point hc with hdigit | rfl
    · simpa using (Decimal.plain_of_isDigit hdigit).1
    · rfl
  have hne : w.front ++ w.behind ≠ [] := w.digits_ne
  have hdigits : (w.front ++ w.behind).all Char.isDigit = true := w.all_digits
  unfold readUnsigned
  simp only [hmantissa, List.drop_length, w.cut_body, hdigits]
  simpa using hne

theorem toLower_of_isDigit {c : Char} (h : c.isDigit = true) : c.toLower = c := by
  unfold Char.isDigit at h
  rw [Bool.and_eq_true, decide_eq_true_eq, decide_eq_true_eq] at h
  unfold Char.toLower
  rw [dif_neg]
  intro hupper
  exact absurd (UInt32.le_trans hupper.1 h.2) (by decide)

/-- A mantissa begins with a digit or a point, and so does not name a number. -/
theorem lower_body_ne (w : Decimal.Mantissa) {c : Char} {rest : List Char}
    (hc : c.isDigit = false ∧ c ≠ '.') : w.body.map Char.toLower ≠ c :: rest := by
  intro heq
  obtain ⟨first, more, hbody, hlower, _⟩ := List.map_eq_cons_iff.mp heq
  have hfirst : first ∈ w.body := by
    rw [hbody]
    exact List.mem_cons_self
  rcases w.digit_or_point hfirst with hdigit | rfl
  · rw [← hlower, toLower_of_isDigit hdigit, hdigit] at hc
    cases hc.1
  · exact hc.2 hlower.symm

theorem ofList_eq_iff {s : String} : String.ofList cs = s ↔ cs = s.toList := by
  rw [← String.toList_inj, String.toList_ofList]

theorem toList_names : "inf".toList = ['i', 'n', 'f'] ∧
    "infinity".toList = ['i', 'n', 'f', 'i', 'n', 'i', 't', 'y'] ∧
    "nan".toList = ['n', 'a', 'n'] := ⟨rfl, rfl, rfl⟩

/-- Digits around a point, after a sign or none, are read as the nearest number. -/
theorem read_mantissa (f : BinaryFormat) (w : Decimal.Mantissa) :
    f.read w.chars = .ok (f.withSign w.sign.isMinus
      (f.ofDecimal (Whole.value (w.front ++ w.behind)) (-(w.behind.length : Int)))) := by
  have hne : w.chars ≠ [] := by
    intro heq
    have hbody : w.body = [] := (List.append_eq_nil_iff.mp heq).2
    have hcut := w.cut_body
    rw [hbody, show Text.cut '.' [] = none from rfl] at hcut
    obtain ⟨hfront, hbehind⟩ := Prod.ext_iff.mp hcut
    exact w.digits_ne (List.append_eq_nil_iff.mpr ⟨hfront.symm, hbehind.symm⟩)
  have hinf := @lower_body_ne w 'i' ['n', 'f'] (by decide)
  have hinfinity := @lower_body_ne w 'i' ['n', 'f', 'i', 'n', 'i', 't', 'y'] (by decide)
  have hnan := @lower_body_ne w 'n' ['a', 'n'] (by decide)
  unfold read
  simp only [w.dropSign_chars, ofList_eq_iff, readUnsigned_body, toList_names]
  simp [hne, hinf, hinfinity, hnan]

/-! ## The written form -/

/-- The plain form of a row is read as the number that is nearest to the one of the row. -/
theorem read_plain (f : BinaryFormat) (row : DigitRow) (negative : Bool) :
    f.read ((if negative then ['-'] else []) ++ row.plain) =
      .ok (f.withSign negative (f.ofDecimal row.coefficient row.exponent)) := by
  obtain ⟨ds, count, front, behind, hplain, hsplit, hnumber⟩ := row.exists_splits
  obtain ⟨w, hchars, hminus, hunscaled, hcount⟩ := hsplit.exists_mantissa negative
  have hvalue : Whole.value (w.front ++ w.behind) = Whole.value ds := by
    have habs := congrArg Int.natAbs hunscaled
    unfold Decimal.Mantissa.unscaled at habs
    rwa [Whole.natAbs_signed, Whole.natAbs_signed] at habs
  rw [hplain, ← hchars, read_mantissa, hminus, hvalue, hcount, ofDecimal_eq_ofRational, hnumber,
    ← ofDecimal_eq_ofRational]

/-- A number and infinity are read from their written form, with their sign. -/
theorem read_plainChars (h : bare ≤ f.infinity) (negative : Bool) :
    f.read (f.plainChars (f.withSign negative bare)) = .ok (f.withSign negative bare) := by
  have hweight : bare < f.signWeight := Nat.lt_of_le_of_lt h f.infinity_lt_signWeight
  unfold plainChars
  simp only [unsigned_withSign hweight, isNegative_withSign hweight]
  rcases Nat.lt_or_eq_of_le h with hless | rfl
  · obtain ⟨m, q, hmagnitude⟩ := magnitude_of_lt hless
    have hgives : (DigitRow.shortest f .larger bare m q).Gives f bare :=
      DigitRow.gives_shortest hmagnitude
    rw [hmagnitude]
    simp only
    rw [read_plain, hgives]
  · rw [magnitude_infinity]
    cases negative with
    | true => rfl
    | false => rfl

/-- Any pattern beyond infinity is written as the name of the number that is none, and that name
is read as the one pattern of it. -/
theorem read_plainChars_none (h : f.infinity < bare) (hweight : bare < f.signWeight)
    (negative : Bool) : f.plainChars (f.withSign negative bare) = ['N', 'a', 'N'] ∧
      f.read ['N', 'a', 'N'] = .ok f.quietNaN := by
  refine ⟨?_, rfl⟩
  unfold plainChars
  simp only [unsigned_withSign hweight, magnitude_of_gt h]

/-! ## What is read -/

/-- A minus, and then the name of the number that is none, in any letter case. -/
def SaysMinusNaN (cs : List Char) : Prop :=
  ∃ name, cs = '-' :: name ∧ name.map Char.toLower = ['n', 'a', 'n']

theorem saysMinusNaN_iff : SaysMinusNaN cs ↔ (Whole.dropSign cs).1 = true ∧
    (Whole.dropSign cs).2.map Char.toLower = ['n', 'a', 'n'] := by
  refine ⟨?_, ?_⟩
  · rintro ⟨name, rfl, hname⟩
    exact ⟨rfl, hname⟩
  · rintro ⟨hminus, hname⟩
    obtain ⟨sign, hsign, hchars⟩ := Whole.exists_sign cs
    rw [hminus] at hsign
    refine ⟨_, ?_, hname⟩
    cases sign
    case minus => exact hchars.symm
    all_goals cases hsign

theorem infinity_lt_quietNaN (f : BinaryFormat) : f.infinity < f.quietNaN :=
  Nat.lt_add_of_pos_right (Nat.two_pow_pos _)

theorem quietNaN_lt_signWeight (hfraction : 0 < f.fractionBits) : f.quietNaN < f.signWeight := by
  have hhalf : 2 ^ (f.fractionBits - 1) < 2 ^ f.fractionBits :=
    Nat.pow_lt_pow_right (by decide) (by omega)
  have hfield : 2 ^ f.exponentBits = 2 ^ f.exponentBits - 1 + 1 :=
    (Nat.sub_add_cancel (Nat.two_pow_pos _)).symm
  show (2 ^ f.exponentBits - 1) * 2 ^ f.fractionBits + 2 ^ (f.fractionBits - 1) <
    2 ^ (f.fractionBits + f.exponentBits)
  rw [Nat.pow_add, Nat.mul_comm (2 ^ f.fractionBits), hfield, Nat.add_mul, Nat.add_sub_cancel]
  omega

theorem ofRatio_le (f : BinaryFormat) (num den : Nat) : f.ofRatio num den ≤ f.infinity := by
  unfold ofRatio
  split
  · exact Nat.zero_le _
  · exact Nat.min_le_left _ _

theorem ofDecimal_le (f : BinaryFormat) (c : Nat) (e : Int) : f.ofDecimal c e ≤ f.infinity := by
  rw [ofDecimal_eq_ofRational]
  exact f.ofRatio_le _ _

/-- What is read is a number or infinity with a sign, or else the one pattern of no number. -/
theorem read_eq_ok (h : f.read cs = .ok bits) : ∃ negative bare, bits = f.withSign negative bare ∧
    (bare ≤ f.infinity ∧ ¬ SaysMinusNaN cs ∨
      bare = f.quietNaN ∧ (SaysMinusNaN cs ↔ negative = true)) := by
  refine ⟨(Whole.dropSign cs).1, ?_⟩
  unfold read at h
  simp only [ofList_eq_iff, toList_names] at h
  rw [saysMinusNaN_iff]
  split at h
  · cases h
  · split at h
    · rename_i hname
      cases h
      refine ⟨_, rfl, .inl ⟨Nat.le_refl _, ?_⟩⟩
      rintro ⟨_, hother⟩
      rw [hother] at hname
      revert hname
      decide
    · split at h
      · rename_i hname
        cases h
        exact ⟨_, rfl, .inr ⟨rfl, and_iff_left hname⟩⟩
      · rename_i hname
        split at h
        · cases h
          refine ⟨_, rfl, .inl ⟨ofDecimal_le f _ _, ?_⟩⟩
          rintro ⟨_, hother⟩
          exact hname hother
        · cases h

/-- The pattern that comes back from the written form of what was read: the same one, unless the
text says that no number is meant and has a minus. -/
structure ComesBack (f : BinaryFormat) (cs : List Char) (bits bits' : Nat) : Prop where
  lt : bits < 2 * f.signWeight
  lt' : bits' < 2 * f.signWeight
  reads : f.read (f.plainChars bits) = .ok bits'
  same_iff : bits' = bits ↔ ¬ SaysMinusNaN cs

theorem comesBack_of_read (hfraction : 0 < f.fractionBits) (h : f.read cs = .ok bits) :
    ∃ bits', f.ComesBack cs bits bits' := by
  obtain ⟨negative, bare, rfl, ⟨hle, hnan⟩ | ⟨rfl, hnan⟩⟩ := read_eq_ok h
  · have hless := withSign_lt (Nat.lt_of_le_of_lt hle f.infinity_lt_signWeight) negative
    refine ⟨_, hless, hless, read_plainChars hle negative, ?_⟩
    simp [hnan]
  · have hweight := quietNaN_lt_signWeight hfraction
    obtain ⟨hchars, hread⟩ := read_plainChars_none f.infinity_lt_quietNaN hweight negative
    refine ⟨f.quietNaN, withSign_lt hweight negative, by omega, by rw [hchars, hread], ?_⟩
    rw [hnan]
    cases negative with
    | true =>
      have hpos : f.signWeight ≠ 0 := by omega
      simp [withSign, hpos]
    | false => simp [withSign]

end BinaryFormat

/-! ## Kinds -/

namespace Kind

variable {kind : Kind} {s : String} {v : Scalar}

/-- The kinds of binary numbers. -/
def binaries : List Kind := [float, double]

/-- How a kind of binary numbers reads and writes: in a format, and by what is made of the patterns
of the format. -/
structure BinaryReader (kind : Kind) (f : BinaryFormat) (make : Nat → Scalar) : Prop where
  fraction : 0 < f.fractionBits
  reads : ∀ s, kind.readReason s = ((f.read s.toList).mapError .binary).map make
  text : ∀ bits < 2 * f.signWeight, (make bits).text.toList = f.plainChars bits
  make_inj : ∀ bits < 2 * f.signWeight, ∀ bits' < 2 * f.signWeight,
    make bits' = make bits ↔ bits' = bits

theorem exists_binaryReader (h : kind ∈ binaries) : ∃ f make, kind.BinaryReader f make := by
  cases kind
  case float =>
    have hpattern : ∀ bits < 2 * BinaryFormat.single.signWeight,
        (UInt32.ofNat bits).toNat = bits := fun _ h => UInt32.toNat_ofNat_of_lt' h
    refine ⟨.single, fun bits => .float (UInt32.ofNat bits), by decide, fun _ => rfl, ?_, ?_⟩
    · intro bits hbits
      simp only [Scalar.text, hpattern bits hbits, BinaryFormat.plainText, String.toList_ofList]
    · intro bits hbits bits' hbits'
      rw [Scalar.float.injEq, ← UInt32.toNat_inj, hpattern bits hbits, hpattern bits' hbits']
  case double =>
    have hpattern : ∀ bits < 2 * BinaryFormat.double.signWeight,
        (UInt64.ofNat bits).toNat = bits := fun _ h => UInt64.toNat_ofNat_of_lt' h
    refine ⟨.double, fun bits => .double (UInt64.ofNat bits), by decide, fun _ => rfl, ?_, ?_⟩
    · intro bits hbits
      simp only [Scalar.text, hpattern bits hbits, BinaryFormat.plainText, String.toList_ofList]
    · intro bits hbits bits' hbits'
      rw [Scalar.double.injEq, ← UInt64.toNat_inj, hpattern bits hbits, hpattern bits' hbits']
  all_goals exact absurd h (by decide)

/-- What was read as a binary number has a written form that is read as well. It is the same number
again, zero and infinity with their signs, unless the text was a minus and the name of no number. -/
theorem written_binaries_are_read_back (h : kind ∈ binaries) (hread : kind.read s = .ok v) :
    (∃ w, kind.read v.text = .ok w) ∧
      (kind.read v.text = .ok v ↔ ¬ BinaryFormat.SaysMinusNaN s.toList) := by
  obtain ⟨f, make, hfraction, hreads, htext, hinj⟩ := exists_binaryReader h
  unfold read at hread ⊢
  simp only [Outcome.mapError_eq_ok, hreads, Outcome.map_eq_ok] at hread ⊢
  obtain ⟨bits, hbits, rfl⟩ := hread
  obtain ⟨bits', hless, hless', hback, hsame⟩ := BinaryFormat.comesBack_of_read hfraction hbits
  simp only [htext bits hless, hback, Except.ok.injEq]
  refine ⟨⟨_, bits', rfl, rfl⟩, ?_⟩
  rw [← hsame, ← hinj bits hless bits' hless']
  refine ⟨?_, ?_⟩
  · rintro ⟨_, rfl, heq⟩
    exact heq
  · intro heq
    exact ⟨bits', rfl, heq⟩

/-- The least number of 32 bits is written with all its zeros and read back. -/
theorem the_least_single_is_read_back :
    float.read "1e-45" = .ok (.float 1) ∧
      (Scalar.float 1).text = "0.000000000000000000000000000000000000000000001" ∧
      float.read (Scalar.float 1).text = .ok (.float 1) := by
  have hread : float.read "1e-45" = .ok (.float 1) := by rfl
  refine ⟨hread, by rfl, ?_⟩
  apply (written_binaries_are_read_back (by decide) hread).2.mpr
  rintro ⟨name, heq, _⟩
  cases heq

/-- After a minus the name of no number is read as a pattern with a sign, and the written form of
that is read as the pattern without it. -/
theorem a_negative_nan_loses_its_sign :
    float.read "-nan" = .ok (.float 0xffc00000) ∧
      float.read (Scalar.float 0xffc00000).text = .ok (.float 0x7fc00000) ∧
      Scalar.float 0x7fc00000 ≠ .float 0xffc00000 := by
  refine ⟨by rfl, by rfl, by decide⟩

end Kind

end ManagementSchema
