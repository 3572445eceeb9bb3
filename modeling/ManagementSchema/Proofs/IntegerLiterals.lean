-- Integers that stand in JSON without quotation marks. One of 64 bits keeps
-- its value through its text into every kind that has it. Any other one is
-- rounded to a binary number first, and what is read is the text of that.
import Mathlib.Data.List.TakeWhile
import ManagementSchema.Proofs.BinaryPatterns
import ManagementSchema.Proofs.DigitRows
import ManagementSchema.Proofs.IntegerKinds
import ManagementSchema.Proofs.RecognizedFields
import ManagementSchema.Proofs.TextualPath

namespace ManagementSchema

namespace Json

/-! ## Literals -/

namespace Literal

variable {cs ds : List Char} {negative : Bool} {n : Nat}

/-- The characters write an integer: a minus or none, and digits, a zero only by itself in the
first place. -/
structure IsInteger (cs : List Char) (negative : Bool) (ds : List Char) : Prop where
  chars : cs = (if negative then ['-'] else []) ++ ds
  digits_ne : ds ≠ []
  digits : ds.all Char.isDigit = true
  first : ds.head? = some '0' → ds = ['0']

/-- The integer has 64 bits, as a natural number or, after a minus, as one below zero. -/
def Fits (negative : Bool) (n : Nat) : Prop :=
  if negative then 0 < n ∧ n ≤ 2 ^ 63 else n < 2 ^ 64

theorem read_integer (h : IsInteger cs negative ds) :
    read cs = some ⟨negative, ds, none, none⟩ := by
  obtain ⟨hchars, hne, hdigits, hfirst⟩ := h
  rw [List.all_eq_true] at hdigits
  have hsign : (cs.head? = some '-' ↔ negative = true) ∧
      (if negative then cs.drop 1 else cs) = ds := by
    cases negative with
    | true => simp [hchars]
    | false =>
      obtain ⟨c, rest, rfl⟩ := List.exists_cons_of_ne_nil hne
      have hminus := (Whole.not_sign_of_isDigit (hdigits c List.mem_cons_self)).1
      simp [hchars, hminus]
  have hmantissa : (ds.takeWhile fun c => c ≠ 'e' && c ≠ 'E') = ds := by
    rw [List.takeWhile_eq_self_iff]
    intro c hc
    simpa using (Decimal.plain_of_isDigit (hdigits c hc)).1
  have hcut : Text.cut '.' ds = none := by
    rw [Text.cut_eq_none_iff]
    intro hmem
    exact (Decimal.plain_of_isDigit (hdigits '.' hmem)).2 rfl
  have hwhole : readWhole ds = some ds := by
    unfold readWhole readDigits
    have hall : ds.all Char.isDigit = true := List.all_eq_true.mpr hdigits
    rw [if_neg (by simpa using hfirst)]
    simp [hall, hne]
  unfold read
  simp only [hsign.1, hsign.2, hmantissa, List.drop_length, hcut, hwhole]
  simp

/-- All digits are taken in when the whole number has 64 bits. -/
theorem accumulate_eq (h : Nat.ofDigitChars 10 ds n < 2 ^ 64) :
    accumulate n ds = (Nat.ofDigitChars 10 ds n, ds.length) := by
  induction ds generalizing n with
  | nil => rfl
  | cons c rest ih =>
    rw [Nat.ofDigitChars_cons] at h ⊢
    have hnext : 10 * n + Whole.digitValue c < Nat.pow 2 64 :=
      Nat.lt_of_le_of_lt (Whole.le_ofDigitChars rest _) h
    unfold accumulate
    simp only [hnext, if_true]
    rw [show 10 * n + Whole.digitValue c = 10 * n + (c.toNat - '0'.toNat) from rfl, ih h]
    rfl

/-- If it has not, some digit is left. -/
theorem accumulate_lt (hn : n < 2 ^ 64) (h : 2 ^ 64 ≤ Nat.ofDigitChars 10 ds n) :
    (accumulate n ds).2 < ds.length := by
  induction ds generalizing n with
  | nil =>
    rw [Nat.ofDigitChars_nil] at h
    omega
  | cons c rest ih =>
    rw [Nat.ofDigitChars_cons] at h
    unfold accumulate
    simp only
    split
    · rename_i hnext
      have hrest := ih hnext h
      simp only [List.length_cons]
      omega
    · simp

/-- The digits of zero are a zero. -/
theorem IsInteger.eq_zero (h : IsInteger cs negative ds) (hzero : Whole.value ds = 0) :
    ds = ['0'] := by
  obtain ⟨_, hne, hdigits, hfirst⟩ := h
  obtain ⟨c, rest, rfl⟩ := List.exists_cons_of_ne_nil hne
  apply hfirst
  rw [List.all_cons, Bool.and_eq_true] at hdigits
  have hlow : 48 ≤ c.toNat := by
    have hc := hdigits.1
    unfold Char.isDigit at hc
    rw [Bool.and_eq_true, decide_eq_true_eq, decide_eq_true_eq] at hc
    exact hc.1
  have hhigh : c.toNat - '0'.toNat ≤ 0 := by
    unfold Whole.value at hzero
    rw [Nat.ofDigitChars_cons, Nat.mul_zero, Nat.zero_add] at hzero
    rw [← hzero]
    exact Whole.le_ofDigitChars rest _
  have hc : c = '0' := by
    apply Char.ext
    apply UInt32.toNat_inj.mp
    show c.toNat = 48
    have : '0'.toNat = 48 := rfl
    omega
  rw [hc]
  rfl

/-- Of the integers with 64 bits, zero after a minus is the only one that does not fit. -/
theorem IsInteger.eq_minusZero (h : IsInteger cs negative ds)
    (hfits : Whole.fits 64 (Whole.signed negative (Whole.value ds)) = true)
    (hnot : ¬ Fits negative (Whole.value ds)) : cs = ['-', '0'] := by
  rw [Whole.fits_iff] at hfits
  unfold Fits at hnot
  unfold Whole.signed at hfits
  cases negative with
  | true =>
    simp only [if_true] at hfits hnot
    have hdigits := h.eq_zero (by omega)
    rw [h.chars, hdigits]
    rfl
  | false =>
    simp only [Bool.false_eq_true, if_false] at hfits hnot
    omega

end Literal

namespace Number

open Literal

variable {cs ds : List Char} {negative : Bool} {bits : Nat}

theorem ofLiteral?_of_fits (h : Fits negative (Whole.value ds)) :
    ofLiteral? ⟨negative, ds, none, none⟩ =
      some (.whole (Whole.signed negative (Whole.value ds))) := by
  unfold Fits at h
  have hless : Nat.ofDigitChars 10 ds 0 < 2 ^ 64 := by
    split at h
    · exact Nat.lt_of_le_of_lt h.2 (by decide)
    · exact h
  unfold ofLiteral? Whole.signed
  simp only [accumulate_eq hless, Nat.sub_self]
  cases negative with
  | true =>
    rw [if_pos rfl] at h
    have hbounds : 0 < Nat.ofDigitChars 10 ds 0 ∧ Nat.ofDigitChars 10 ds 0 ≤ Nat.pow 2 63 := h
    simp [hbounds, Whole.value]
  | false => simp [Whole.value]

theorem scale?_eq_some {significand dropped : Nat} (h : scale? significand dropped = some bits) :
    bits < format.infinity := by
  unfold scale? at h
  rw [if_neg (by omega)] at h
  split at h
  · simp only [Option.ite_none_right_eq_some] at h
    obtain ⟨hless, hbits⟩ := h
    cases hbits
    exact hless
  · simp only [Option.ite_none_right_eq_some] at h
    obtain ⟨_, hbits⟩ := h
    cases hbits
    decide

/-- An integer that has not 64 bits becomes a binary number with its sign, or is too large. -/
theorem ofLiteral?_of_not_fits (h : ¬ Fits negative (Whole.value ds)) :
    ofLiteral? ⟨negative, ds, none, none⟩ = none ∨ ∃ bits < format.infinity,
      ofLiteral? ⟨negative, ds, none, none⟩ =
        some (.real (UInt64.ofNat (format.withSign negative bits))) := by
  unfold Fits at h
  unfold ofLiteral?
  by_cases hless : Nat.ofDigitChars 10 ds 0 < 2 ^ 64
  · cases negative with
    | true =>
      have hbounds : ¬ (0 < Nat.ofDigitChars 10 ds 0 ∧ Nat.ofDigitChars 10 ds 0 ≤ Nat.pow 2 63) := by
        rw [if_pos rfl] at h
        exact h
      refine .inr ⟨_, BinaryFormat.ofRatio_lt_infinity hless, ?_⟩
      simp only [accumulate_eq hless, Nat.sub_self, hbounds]
      rfl
    | false => exact absurd hless h
  · have hdropped : 0 < ds.length - (accumulate 0 ds).2 := by
      have hcount := accumulate_lt (by decide) (Nat.not_lt.mp hless)
      omega
    simp only [Nat.ne_of_gt hdropped, and_false, if_false]
    rcases hscale : scale? (accumulate 0 ds).1 (ds.length - (accumulate 0 ds).2 : Nat) with _ | bits
    · refine .inl ?_
      unfold real?
      simp [accumulate, hscale]
    · refine .inr ⟨bits, scale?_eq_some hscale, ?_⟩
      unfold real?
      simp [accumulate, hscale]

/-- Zero after a minus is a binary number, the sign bit alone. -/
theorem read?_minusZero : read? ['-', '0'] = some (.real 0x8000000000000000) := by rfl

/-! ## Text -/

/-- The number that the text of a JSON number says: an integer, or the shortest row of a binary
number. -/
def said? : Number → Option ℚ
  | whole n => some n
  | real bits =>
    match format.magnitude (format.unsigned bits.toNat) with
    | .finite m q =>
      some ((DigitRow.shortest format .evenDigit (format.unsigned bits.toNat) m q).number
        (format.isNegative bits.toNat))
    | _ => none

/-- A binary number is written as a row of digits after its sign. -/
theorem exists_row (h : bits < format.infinity) (negative : Bool) :
    ∃ r : DigitRow, r.Within 3340 ∧
      (real (UInt64.ofNat (format.withSign negative bits))).said? = some (r.number negative) ∧
      (real (UInt64.ofNat (format.withSign negative bits))).text.toList =
        (if negative then ['-'] else []) ++ rowChars r := by
  obtain ⟨m, q, hmagnitude, hm, hleast, hgreatest⟩ := BinaryFormat.exists_finite h
  have hweight : bits < format.signWeight := h.trans format.infinity_lt_signWeight
  have hpattern : (UInt64.ofNat (format.withSign negative bits)).toNat =
      format.withSign negative bits :=
    UInt64.toNat_ofNat_of_lt' (BinaryFormat.withSign_lt hweight negative)
  refine ⟨DigitRow.shortest format .evenDigit bits m q,
    DigitRow.within_shortest_double hm hleast hgreatest, ?_, ?_⟩
  · unfold said?
    simp only [hpattern, BinaryFormat.unsigned_withSign hweight,
      BinaryFormat.isNegative_withSign hweight]
    rw [show format.magnitude bits = .finite m q from hmagnitude]
  · unfold text
    simp only [hpattern, BinaryFormat.unsigned_withSign hweight,
      BinaryFormat.isNegative_withSign hweight]
    rw [show format.magnitude bits = .finite m q from hmagnitude]
    simp only [String.toList_ofList]

end Number

end Json

/-! ## Kinds -/

namespace Kind

variable {kind : Kind} {bits : Nat}

section

open Json.Number

/-- The text of a binary number is read as a decimal of the number that it says. -/
theorem readReason_bigDecimal (h : bits < format.infinity) (negative : Bool) :
    ∃ s, bigDecimal.readReason (real (UInt64.ofNat (format.withSign negative bits))).text = .ok s ∧
      s.number? = (real (UInt64.ofNat (format.withSign negative bits))).said? := by
  obtain ⟨r, hwithin, hsaid, htext⟩ := exists_row h negative
  obtain ⟨d, hread, hnumber⟩ := DigitRow.read_rowChars hwithin (by decide) negative
  refine ⟨.bigDecimal d, ?_, ?_⟩
  · simp only [readReason, htext, hread]
    rfl
  · rw [hsaid, ← hnumber]
    rfl

/-- The text of a binary number is no integer. -/
theorem readReason_bigInteger (h : bits < format.infinity) (negative : Bool) :
    bigInteger.readReason (real (UInt64.ofNat (format.withSign negative bits))).text =
      .error (.whole .badDigit) := by
  obtain ⟨r, _, _, htext⟩ := exists_row h negative
  obtain ⟨c, hc, hplain⟩ := DigitRow.exists_mark r
  simp only [readReason, htext,
    Whole.readUnbounded_eq_error (List.mem_append_right _ hc) hplain]
  rfl

/-- The kinds of integers refuse a literal that 64 bits do not hold, although they have its value:
it is zero after a minus, or too large for all of them but the one without limits. -/
theorem readReason_of_not_fits {cs ds : List Char} {negative : Bool} {number : Json.Number}
    (hinteger : Json.Literal.IsInteger cs negative ds)
    (hkind : kind.Represents (Whole.signed negative (Whole.value ds))) (hdecimal : kind ≠ .bigDecimal)
    (hnot : ¬ Json.Literal.Fits negative (Whole.value ds)) (hread : read? cs = some number) :
    kind.readReason number.text = .error (.whole .badDigit) := by
  cases kind with
  | bigInteger =>
    unfold read? at hread
    rw [Json.Literal.read_integer hinteger, Option.bind_some] at hread
    rcases ofLiteral?_of_not_fits hnot with hnone | ⟨bits, hbits, hsome⟩
    · rw [hnone] at hread
      cases hread
    · rw [hsome] at hread
      cases hread
      exact readReason_bigInteger hbits negative
  | bigDecimal => exact absurd rfl hdecimal
  | byte | short | integer | long =>
    have hfits : Whole.fits 64 (Whole.signed negative (Whole.value ds)) = true := by
      have hnarrow := Whole.fits_iff.mp hkind
      rw [Whole.fits_iff]
      omega
    rw [hinteger.eq_minusZero hfits hnot, read?_minusZero] at hread
    cases hread
    decide
  | _ => cases hkind

end

end Kind

/-! ## Defaults -/

namespace Constraints

variable {kind : Kind} {text : String} {s : Scalar} {reason : Reason} (conversions : Conversions)

/-- Without other constraints any default will do. -/
theorem consistent_default (type : OpenType) (v : Option Value) :
    Consistent { type, default := v } := by
  intro rule
  cases rule <;> simp [Keeps, Lists, Bounds]

/-- A text that the kind reads is taken as the default. -/
theorem validate_default (h : kind.readReason text = .ok s) :
    validate conversions (.simple kind) { default := some (.text text) } =
      .ok { type := .simple kind, default := some (.scalar s) } := by
  have hcoerce : conversions.coerce (.simple kind) (.text text) = .ok (.scalar s) := by
    rw [Conversions.coerce_eq_ok]
    refine ⟨?_, ?_⟩
    · show ((kind.readReason text).mapError _).map Value.scalar = _
      rw [h]
      rfl
    · simp [OpenType.hasValue, Kind.kind_of_readReason h]
  rw [validate_eq_ok]
  exact ⟨⟨rfl, .value hcoerce, .absent, .absent, .absent⟩, consistent_default _ _⟩

theorem validate_default_refused (h : kind.readReason text = .error reason) :
    validate conversions (.simple kind) { default := some (.text text) } =
      .error (.refused ⟨kind.className, Kind.refusedInput text reason, reason⟩) := by
  have hcoerce : conversions.coerce (.simple kind) (.text text) =
      .error ⟨kind.className, Kind.refusedInput text reason, reason⟩ := by
    unfold Conversions.coerce Conversions.ofRaw Conversions.ofText Value.read Kind.read
    simp only [h]
    rfl
  unfold validate coerceField
  simp only [hcoerce]
  rfl

end Constraints

namespace Descriptor

variable {members : List (String × Json)} {number : Json.Number}

/-- Of the four constraints the members state the default alone, as a number. -/
def StatesDefault (members : List (String × Json)) (number : Json.Number) : Prop :=
  ∀ field : ConstraintField, Json.member? members field.name =
    if field = .defaultValue then some (.number number) else none

theorem statesDefault_alone (number : Json.Number) :
    StatesDefault [("defaultValue", .number number)] number := by
  intro field
  cases field <;> rfl

/-- The default that is stated as a number is its text. -/
theorem fields_of_statesDefault (h : StatesDefault members number) :
    ∃ d, ofJson members = .ok d ∧ d.constraintFields = { default := some (.text number.text) } := by
  have hstated : ∀ field, stated members field =
      .ok (if field = .defaultValue then some (.text number.text) else none) := by
    intro field
    unfold stated
    rw [h field]
    cases field <;> rfl
  rcases hd : ofJson members with e | d
  · obtain ⟨field, fault, hfault, _⟩ := ofJson_eq_error.mp hd
    rw [hstated] at hfault
    cases hfault
  · refine ⟨d, rfl, ?_⟩
    have hfield : ∀ field, d.field? field =
        if field = .defaultValue then some (.text number.text) else none := by
      intro field
      exact Except.ok.inj ((stated_of_ofJson hd field).symm.trans (hstated field))
    unfold constraintFields
    rw [hfield, hfield, hfield, hfield]
    rfl

variable {kind : Kind} {conversions : Conversions}

/-- The members make a descriptor that suits the kind, and its default is the number. -/
def TakesDefault (conversions : Conversions) (kind : Kind) (members : List (String × Json))
    (x : ℚ) : Prop :=
  ∃ d s, ofJson members = .ok d ∧
    Constraints.validate conversions (.simple kind) d.constraintFields =
      .ok { type := .simple kind, default := some (.scalar s) } ∧
    s.number? = some x

/-- The members make a descriptor, and the kind refuses what it states. -/
def RefusesDefault (conversions : Conversions) (kind : Kind) (members : List (String × Json))
    (refusal : Refusal) : Prop :=
  ∃ d, ofJson members = .ok d ∧
    Constraints.validate conversions (.simple kind) d.constraintFields = .error (.refused refusal)

theorem takesDefault_of_read {s : Scalar} {x : ℚ} (h : StatesDefault members number)
    (hread : kind.readReason number.text = .ok s) (hx : s.number? = some x) :
    TakesDefault conversions kind members x := by
  obtain ⟨d, hd, hfields⟩ := fields_of_statesDefault h
  refine ⟨d, s, hd, ?_, hx⟩
  rw [hfields]
  exact Constraints.validate_default conversions hread

/-- Members take one number only. -/
theorem TakesDefault.unique {x y : ℚ} (hx : TakesDefault conversions kind members x)
    (hy : TakesDefault conversions kind members y) : x = y := by
  obtain ⟨d, s, hd, hs, hsx⟩ := hx
  obtain ⟨d', s', hd', hs', hsy⟩ := hy
  rw [hd] at hd'
  cases hd'
  rw [hs] at hs'
  cases hs'
  rw [hsx] at hsy
  exact Option.some.inj hsy

/-! ## The law -/

/-- An integer that JSON states without quotation marks as the default of a kind that has it is
taken at its value, if 64 bits are enough for it. Else it is a binary number, or the JSON is not
read at all. A decimal default is then the number that the text of the binary number says, and
the kinds of integers refuse this text. -/
theorem integer_literals_of_64_bits_keep_their_value {cs ds : List Char} {negative : Bool}
    (hinteger : Json.Literal.IsInteger cs negative ds)
    (hkind : kind.Represents (Whole.signed negative (Whole.value ds))) (conversions : Conversions) :
    (Json.Literal.Fits negative (Whole.value ds) →
      Json.Number.read? cs = some (.whole (Whole.signed negative (Whole.value ds))) ∧
      ∀ members, StatesDefault members (.whole (Whole.signed negative (Whole.value ds))) →
        TakesDefault conversions kind members (Whole.signed negative (Whole.value ds))) ∧
    (¬ Json.Literal.Fits negative (Whole.value ds) → Json.Number.read? cs = none ∨
      ∃ bits x, Json.Number.read? cs = some (.real bits) ∧
        (Json.Number.real bits).said? = some x ∧
        ∀ members, StatesDefault members (.real bits) →
          if kind = .bigDecimal then TakesDefault conversions kind members x
          else RefusesDefault conversions kind members
            ⟨kind.className, Text.quoted (Json.Number.real bits).text, .whole .badDigit⟩) := by
  have hread : Json.Number.read? cs = Json.Number.ofLiteral? ⟨negative, ds, none, none⟩ := by
    unfold Json.Number.read?
    rw [Json.Literal.read_integer hinteger, Option.bind_some]
  refine ⟨?_, ?_⟩
  · intro hfits
    refine ⟨hread.trans (Json.Number.ofLiteral?_of_fits hfits), ?_⟩
    intro members hmembers
    obtain ⟨s, hs, hnumber⟩ := Kind.readReason_toString hkind
    exact takesDefault_of_read hmembers hs hnumber
  · intro hnot
    rcases Json.Number.ofLiteral?_of_not_fits hnot with hnone | ⟨bits, hbits, hsome⟩
    · exact .inl (hread.trans hnone)
    · obtain ⟨r, _, hsaid, _⟩ := Json.Number.exists_row hbits negative
      refine .inr ⟨_, _, hread.trans hsome, hsaid, ?_⟩
      intro members hmembers
      by_cases hdecimal : kind = .bigDecimal
      · rw [if_pos hdecimal, hdecimal]
        obtain ⟨s, hs, hnumber⟩ := Kind.readReason_bigDecimal hbits negative
        exact takesDefault_of_read hmembers hs (hnumber.trans hsaid)
      · rw [if_neg hdecimal]
        have hrefused :=
          Kind.readReason_of_not_fits hinteger hkind hdecimal hnot (hread.trans hsome)
        obtain ⟨d, hd, hfields⟩ := fields_of_statesDefault hmembers
        refine ⟨d, hd, ?_⟩
        rw [hfields, Constraints.validate_default_refused conversions hrefused]
        rfl

/-- The greatest natural number of 64 bits is taken as it is, and zero after a minus is refused. -/
theorem the_greatest_word_is_taken_as_it_is :
    TakesDefault .empty .bigInteger [("defaultValue", .number (.whole 18446744073709551615))]
      18446744073709551615 ∧
    RefusesDefault .empty .integer [("defaultValue", .number (.real 0x8000000000000000))]
      ⟨"java.lang.Integer", "\"-0.0\"", .whole .badDigit⟩ := by
  refine ⟨?_, ?_⟩
  · have hinteger : Json.Literal.IsInteger "18446744073709551615".toList false
        "18446744073709551615".toList := ⟨rfl, by decide, by decide, by decide⟩
    have hkind : Kind.bigInteger.Represents 18446744073709551615 := trivial
    have hfits : Json.Literal.Fits false 18446744073709551615 := by
      show 18446744073709551615 < 2 ^ 64
      decide
    obtain ⟨hkept, _⟩ := integer_literals_of_64_bits_keep_their_value hinteger hkind .empty
    exact_mod_cast (hkept hfits).2 _ (statesDefault_alone _)
  · have hinteger : Json.Literal.IsInteger ['-', '0'] true ['0'] :=
      ⟨rfl, by decide, by decide, by decide⟩
    have hkind : Kind.integer.Represents (Whole.signed true (Whole.value ['0'])) := by
      show Whole.fits 32 _ = true
      decide
    have hnot : ¬ Json.Literal.Fits true (Whole.value ['0']) := by
      show ¬ (0 < 0 ∧ 0 ≤ 2 ^ 63)
      decide
    obtain ⟨_, hrounded⟩ := integer_literals_of_64_bits_keep_their_value hinteger hkind .empty
    rcases hrounded hnot with hnone | ⟨bits, _, hbits, _, hrefused⟩
    · rw [Json.Number.read?_minusZero] at hnone
      cases hnone
    · rw [Json.Number.read?_minusZero] at hbits
      cases hbits
      have hquoted : Text.quoted (Json.Number.real 0x8000000000000000).text = "\"-0.0\"" := by
        decide +kernel
      rw [← hquoted]
      exact hrefused _ (statesDefault_alone _)

/-- A decimal default beyond 64 bits becomes another number, without a word. -/
theorem a_decimal_beyond_64_bits_is_rounded :
    Json.Literal.IsInteger "18446744073709551617".toList false "18446744073709551617".toList ∧
    Whole.value "18446744073709551617".toList = 18446744073709551617 ∧
    Kind.bigDecimal.Represents 18446744073709551617 ∧
    ∃ number, Json.Number.read? "18446744073709551617".toList = some number ∧
      StatesDefault [("defaultValue", .number number)] number ∧
      ∀ conversions,
        TakesDefault conversions .bigDecimal [("defaultValue", .number number)]
          18446744073709552000 ∧
        ¬ TakesDefault conversions .bigDecimal [("defaultValue", .number number)]
          18446744073709551617 := by
  refine ⟨⟨rfl, by decide, by decide, by decide⟩, by decide, trivial, .real 0x43F0000000000000,
    by rfl, statesDefault_alone _, ?_⟩
  intro conversions
  have hread : Kind.bigDecimal.readReason (Json.Number.real 0x43F0000000000000).text =
      .ok (.bigDecimal ⟨18446744073709552, -3⟩) := by rfl
  have htaken : TakesDefault conversions .bigDecimal
      [("defaultValue", .number (.real 0x43F0000000000000))] 18446744073709552000 := by
    refine takesDefault_of_read (statesDefault_alone _) hread ?_
    show some ((18446744073709552 : ℤ) * (10 : ℚ) ^ (3 : ℤ)) = some 18446744073709552000
    norm_num
  refine ⟨htaken, ?_⟩
  intro hexact
  have heq := htaken.unique hexact
  norm_num at heq

end Descriptor

end ManagementSchema
