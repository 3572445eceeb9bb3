-- The grammar of decimals: a sign or none, digits with at most one point among
-- them, and an exponent or none. A text of the grammar is read at the value that it
-- writes, as long as the scale has 32 bits, and no other text is read, but for one
-- kind: a minus sign of an exponent may have a plus sign in front of it.
import ManagementSchema.Number.Decimal
import ManagementSchema.Proofs.IntegerGrammar

namespace ManagementSchema

namespace Decimal

open Whole

variable {cs ending : List Char} {exponent : Option (List Char)} {d : Decimal}

/-! ## The end of a text -/

/-- The end of a text after the mantissa: nothing, or a letter and what stands after it. -/
inductive Ending : List Char → Option (List Char) → Prop
  | none : Ending [] none
  | some {mark : Char} {body : List Char} : mark = 'e' ∨ mark = 'E' →
      Ending (mark :: body) (some body)

theorem cutExponent_append (h : ∀ c ∈ cs, ¬ (c = 'e' ∨ c = 'E'))
    (hending : Ending ending exponent) : cutExponent (cs ++ ending) = (cs, exponent) := by
  induction cs with
  | nil =>
    cases hending with
    | none => rfl
    | some hmark =>
      rw [List.nil_append]
      unfold cutExponent
      rw [if_pos hmark]
  | cons c cs ih =>
    rw [List.forall_mem_cons] at h
    rw [List.cons_append]
    unfold cutExponent
    rw [if_neg h.1, ih h.2]

/-- The cut loses nothing. -/
theorem exists_ending (cs : List Char) :
    ∃ ending, Ending ending (cutExponent cs).2 ∧ (cutExponent cs).1 ++ ending = cs := by
  induction cs with
  | nil => exact ⟨[], .none, rfl⟩
  | cons c rest ih =>
    unfold cutExponent
    by_cases hmark : c = 'e' ∨ c = 'E'
    · rw [if_pos hmark]
      exact ⟨c :: rest, .some hmark, rfl⟩
    · rw [if_neg hmark]
      obtain ⟨ending, hending, heq⟩ := ih
      exact ⟨ending, hending, congrArg (c :: ·) heq⟩

/-- What the end of a text says about the point, if it is an exponent. -/
def shiftOf : Option (List Char) → Except Fault Int
  | some body => readExponent body
  | none => .ok 0

/-! ## Mantissas -/

theorem plain_of_isDigit {c : Char} (h : c.isDigit = true) : ¬ (c = 'e' ∨ c = 'E') ∧ c ≠ '.' := by
  refine ⟨?_, ?_⟩
  · rintro (rfl | rfl)
    · cases h
    · cases h
  · rintro rfl
    cases h

/-- A point and the digits behind it, if there is one. -/
def fractionChars : Option (List Char) → List Char
  | none => []
  | some digits => '.' :: digits

/-- A sign or none, and digits with at most one point among them. -/
structure Mantissa where
  sign : Sign
  front : List Char
  fraction : Option (List Char)
  digits_ne : front ++ fraction.getD [] ≠ []
  all_digits : (front ++ fraction.getD []).all Char.isDigit = true

namespace Mantissa

/-- The digits behind the point. -/
def behind (m : Mantissa) : List Char := m.fraction.getD []

/-- The digits and the point. -/
def body (m : Mantissa) : List Char := m.front ++ fractionChars m.fraction

/-- The characters of the mantissa. -/
def chars (m : Mantissa) : List Char := m.sign.chars ++ m.body

/-- The signed number that all the digits write together. -/
def unscaled (m : Mantissa) : Int := signed m.sign.isMinus (value (m.front ++ m.behind))

theorem digit_or_point (m : Mantissa) {c : Char} (h : c ∈ m.body) : c.isDigit = true ∨ c = '.' := by
  have hdigits := List.all_eq_true.mp m.all_digits
  unfold body at h
  cases hfraction : m.fraction with
  | none => simp_all [fractionChars]
  | some digits =>
    simp only [hfraction, fractionChars, List.mem_append, List.mem_cons] at h
    simp only [hfraction, Option.getD_some, List.mem_append] at hdigits
    rcases h with h | rfl | h
    · exact .inl (hdigits c (.inl h))
    · exact .inr rfl
    · exact .inl (hdigits c (.inr h))

theorem no_exponent_mark (m : Mantissa) : ∀ c ∈ m.chars, ¬ (c = 'e' ∨ c = 'E') := by
  intro c hc
  rcases List.mem_append.mp hc with hsign | hbody
  · cases hs : m.sign <;> simp_all [Sign.chars]
  · rcases m.digit_or_point hbody with hdigit | rfl
    · exact (plain_of_isDigit hdigit).1
    · decide

theorem dropSign_chars (m : Mantissa) : dropSign m.chars = (m.sign.isMinus, m.body) := by
  apply Whole.dropSign_chars
  · intro hmem
    rcases m.digit_or_point hmem with h | h <;> cases h
  · intro hmem
    rcases m.digit_or_point hmem with h | h <;> cases h

theorem cut_body (m : Mantissa) :
    (Text.cut '.' m.body).getD (m.body, []) = (m.front, m.behind) := by
  have hpoint : '.' ∉ m.front := by
    intro hmem
    have hdigit := List.all_eq_true.mp m.all_digits '.' (List.mem_append_left _ hmem)
    cases hdigit
  unfold body behind
  cases m.fraction with
  | none =>
    rw [fractionChars, List.append_nil, Text.cut_eq_none_iff.mpr hpoint]
    rfl
  | some digits =>
    rw [fractionChars, Text.cut_eq_some_iff.mpr ⟨rfl, hpoint⟩]
    rfl

/-- A mantissa is read as its digits, whatever the end of the text makes of the point. -/
theorem read_append (m : Mantissa) (hending : Ending ending exponent) :
    read (m.chars ++ ending) =
      shiftOf exponent >>= fun shift => ofScale m.unscaled (m.behind.length - shift) := by
  have hempty : (m.front.isEmpty && m.behind.isEmpty) = false := by
    have hne := m.digits_ne
    rw [← Bool.not_eq_true, Bool.and_eq_true, List.isEmpty_iff, List.isEmpty_iff]
    rintro ⟨hfront, hbehind⟩
    exact hne (List.append_eq_nil_iff.mpr ⟨hfront, hbehind⟩)
  have hdigits : (m.front ++ m.behind).all Char.isDigit = true := m.all_digits
  unfold read
  simp only [cutExponent_append m.no_exponent_mark hending, m.dropSign_chars, m.cut_body, hempty,
    hdigits]
  cases exponent <;> rfl

end Mantissa

/-- What a text is cut into at the point is put together again. -/
theorem exists_fraction (body : List Char) :
    ∃ front fraction, front ++ fractionChars fraction = body ∧
      (Text.cut '.' body).getD (body, []) = (front, fraction.getD []) := by
  rcases hcut : Text.cut '.' body with _ | ⟨front, behind⟩
  · exact ⟨body, none, List.append_nil body, rfl⟩
  · obtain ⟨rfl, _⟩ := Text.cut_eq_some_iff.mp hcut
    exact ⟨front, some behind, rfl, rfl⟩

/-- What is read begins with a mantissa. -/
theorem exists_mantissa (h : read cs = .ok d) :
    ∃ (m : Mantissa) (ending : List Char) (exponent : Option (List Char)),
      Ending ending exponent ∧ m.chars ++ ending = cs := by
  obtain ⟨ending, hending, htext⟩ := exists_ending cs
  obtain ⟨sign, _, hsign⟩ := exists_sign (cutExponent cs).1
  obtain ⟨front, fraction, hbody, hparts⟩ := exists_fraction (dropSign (cutExponent cs).1).2
  unfold read at h
  simp only [Outcome.check_bind_eq_ok, hparts] at h
  obtain ⟨hne, hdigits, _⟩ := h
  rw [Bool.and_eq_true, List.isEmpty_iff, List.isEmpty_iff, ← List.append_eq_nil_iff] at hne
  rw [Bool.not_eq_true, Bool.not_eq_false'] at hdigits
  refine ⟨⟨sign, front, fraction, hne, hdigits⟩, ending, _, hending, ?_⟩
  unfold Mantissa.chars Mantissa.body
  rw [hbody, hsign, htext]

/-! ## Exponents -/

/-- A letter and the power of ten by which the point is shifted. -/
structure Exponent where
  mark : Char
  power : Whole.Numeral
  is_mark : mark = 'e' ∨ mark = 'E'

/-- The exponent of a power in the letter that decimals are written with. -/
def Exponent.capital (power : Whole.Numeral) : Exponent := ⟨'E', power, .inr rfl⟩

theorem readExponent_of_no_plus {body : List Char} (h : ∀ rest, body ≠ '+' :: rest) :
    readExponent body = (readBits 64 body).mapError fun _ => .badExponent := by
  unfold readExponent
  split
  · exact absurd rfl (h _)
  · exact absurd rfl (h _)
  · rfl

theorem readExponent_plus {body : List Char} (h : ∀ rest, body ≠ '+' :: rest) :
    readExponent ('+' :: body) = (readBits 64 body).mapError fun _ => .badExponent := by
  cases body with
  | nil => rfl
  | cons c rest =>
    unfold readExponent
    split
    · rename_i heq
      cases heq
      exact absurd rfl (h _)
    · rename_i heq
      cases heq
      rfl
    · rename_i hplus
      exact absurd rfl (hplus _)

theorem chars_ne_plus {w : Whole.Numeral} (hsign : w.sign ≠ .plus) (rest : List Char) :
    w.chars ≠ '+' :: rest := by
  have hplus := (no_sign_of_digits w.row_digits).2
  unfold Whole.Numeral.chars
  cases hs : w.sign with
  | none =>
    intro h
    apply hplus
    rw [show w.row = '+' :: rest from h]
    exact List.mem_cons_self
  | plus => exact absurd hs hsign
  | minus =>
    intro h
    cases h

theorem mapError_readBits (w : Whole.Numeral) :
    ((readBits 64 w.chars).mapError fun _ => Fault.badExponent) =
      if fits 64 w.value = true then .ok w.value else .error .badExponent := by
  rw [w.readBits_chars, apply_ite (Except.mapError _)]
  rfl

/-- An exponent is read at its value if this has 64 bits, and refused if not. -/
theorem readExponent_chars (w : Whole.Numeral) :
    readExponent w.chars =
      if fits 64 w.value = true then .ok w.value else .error .badExponent := by
  by_cases hplus : w.sign = .plus
  · -- The plus sign is taken off, and the digits are read without a sign.
    obtain ⟨sign, row, hne, hdigits⟩ := w
    obtain rfl : sign = .plus := hplus
    let unsigned : Whole.Numeral := ⟨.none, row, hne, hdigits⟩
    have hunsigned : unsigned.sign ≠ .plus := by
      intro h
      cases h
    exact (readExponent_plus (chars_ne_plus hunsigned)).trans (mapError_readBits unsigned)
  · rw [readExponent_of_no_plus (chars_ne_plus hplus), mapError_readBits]

/-- In front of a minus sign a plus sign makes no difference. -/
theorem readExponent_plus_minus {w : Whole.Numeral} (hminus : w.sign = .minus) :
    readExponent ('+' :: w.chars) = readExponent w.chars := by
  have hplus : w.sign ≠ .plus := by
    rw [hminus]
    intro h
    cases h
  rw [readExponent_plus (chars_ne_plus hplus), readExponent_of_no_plus (chars_ne_plus hplus)]

/-- What is read as an exponent is an integer, or one below zero with a plus sign in front. -/
theorem power_of_readExponent {body : List Char} {shift : Int}
    (h : readExponent body = .ok shift) :
    ∃ w : Whole.Numeral, body = w.chars ∨ w.sign = .minus ∧ body = '+' :: w.chars := by
  unfold readExponent at h
  split at h
  · cases h
  · rename_i body hplus
    obtain ⟨w, rfl, _⟩ := numeral_of_read (Outcome.mapError_eq_ok.mp h)
    obtain ⟨sign, row, hne, hdigits⟩ := w
    cases sign with
    | none => exact ⟨⟨.plus, row, hne, hdigits⟩, .inl rfl⟩
    | plus => exact absurd rfl (hplus row)
    | minus => exact ⟨_, .inr ⟨rfl, rfl⟩⟩
  · obtain ⟨w, rfl, _⟩ := numeral_of_read (Outcome.mapError_eq_ok.mp h)
    exact ⟨w, .inl rfl⟩

/-! ## Scales -/

theorem ofScale_of_fits {unscaled scale : Int} (hlow : -2 ^ 31 ≤ scale) (hhigh : scale < 2 ^ 31) :
    ∃ d, ofScale unscaled scale = .ok d ∧ d.unscaled = unscaled ∧ d.scale.toInt = scale := by
  unfold ofScale
  rw [if_pos (fits_iff.mpr ⟨hlow, hhigh⟩)]
  exact ⟨_, rfl, rfl, Int32.toInt_ofInt_of_le hlow hhigh⟩

theorem ofScale_eq_ok {unscaled scale : Int} :
    ofScale unscaled scale = .ok d ↔ d.unscaled = unscaled ∧ d.scale.toInt = scale := by
  refine ⟨?_, ?_⟩
  · intro h
    by_cases hfits : fits 32 scale = true
    · obtain ⟨hlow, hhigh⟩ := fits_iff.mp hfits
      obtain ⟨d', hd', hvalue⟩ := @ofScale_of_fits unscaled scale hlow hhigh
      rw [h] at hd'
      cases hd'
      exact hvalue
    · unfold ofScale at h
      rw [if_neg hfits] at h
      cases h
  · rintro ⟨rfl, rfl⟩
    unfold ofScale
    rw [if_pos (fits_int32 d.scale), Int32.ofInt_toInt]

/-! ## Numerals -/

/-- A decimal as it may be written: a mantissa, and an exponent or none. -/
structure Numeral where
  mantissa : Mantissa
  exponent : Option Exponent

namespace Numeral

/-- The letter and what stands after it, if there is an exponent. -/
def exponentChars (n : Numeral) : List Char :=
  match n.exponent with
  | none => []
  | some e => e.mark :: e.power.chars

/-- The characters of the numeral. -/
def chars (n : Numeral) : List Char := n.mantissa.chars ++ n.exponentChars

/-- How far the exponent shifts the point. -/
def shift (n : Numeral) : Int := (n.exponent.map fun e => e.power.value).getD 0

/-- The number that all digits of the mantissa write together. -/
def unscaled (n : Numeral) : Int := n.mantissa.unscaled

/-- The count of the digits behind the point, after the shift. -/
def scale (n : Numeral) : Int := n.mantissa.behind.length - n.shift

theorem endsWith (n : Numeral) :
    Ending n.exponentChars (n.exponent.map fun e => e.power.chars) := by
  unfold exponentChars
  cases n.exponent with
  | none => exact .none
  | some e => exact .some e.is_mark

/-- A numeral is read as what it writes, as long as its exponent has 64 bits. -/
theorem read_chars (n : Numeral) :
    read n.chars =
      if fits 64 n.shift = true then ofScale n.unscaled n.scale else .error .badExponent := by
  unfold chars
  rw [n.mantissa.read_append n.endsWith]
  unfold shift unscaled scale shift
  cases n.exponent with
  | none => rfl
  | some e =>
    simp only [Option.map_some, shiftOf, readExponent_chars, Option.getD_some]
    by_cases hfits : fits 64 e.power.value = true
    · rw [if_pos hfits, if_pos hfits]
      rfl
    · rw [if_neg hfits, if_neg hfits]
      rfl

/-- Numerals with the same characters write the same decimal. -/
theorem value_eq_of_chars_eq {n k : Numeral} (h : n.chars = k.chars) :
    n.unscaled = k.unscaled ∧ n.scale = k.scale := by
  have hcut := congrArg cutExponent h
  unfold chars at hcut
  rw [cutExponent_append n.mantissa.no_exponent_mark n.endsWith,
    cutExponent_append k.mantissa.no_exponent_mark k.endsWith, Prod.mk.injEq] at hcut
  obtain ⟨hmantissa, hexponent⟩ := hcut
  have hsign := congrArg dropSign hmantissa
  rw [Mantissa.dropSign_chars, Mantissa.dropSign_chars, Prod.mk.injEq] at hsign
  have hparts := n.mantissa.cut_body
  rw [hsign.2, Mantissa.cut_body, Prod.mk.injEq] at hparts
  have hshift : n.shift = k.shift := by
    unfold shift
    cases hn : n.exponent with
    | none =>
      cases hk : k.exponent with
      | none => rfl
      | some e => simp [hn, hk] at hexponent
    | some e =>
      cases hk : k.exponent with
      | none => simp [hn, hk] at hexponent
      | some e' =>
        simp only [hn, hk, Option.map_some, Option.some.injEq] at hexponent
        exact Whole.Numeral.value_eq_of_chars_eq hexponent
  unfold unscaled scale Mantissa.unscaled
  rw [hsign.1, hshift, hparts.1, hparts.2]
  exact ⟨rfl, rfl⟩

/-- The ways to write a numeral that are read: its own characters, and if its exponent has a minus
sign, also a plus sign in front of that. -/
inductive Spelling (n : Numeral) : List Char → Prop
  | plain : Spelling n n.chars
  | plusMinus {e : Exponent} : n.exponent = some e → e.power.sign = .minus →
      Spelling n (n.mantissa.chars ++ e.mark :: '+' :: e.power.chars)

/-- All ways to write a numeral are read alike. -/
theorem read_of_spelling {n : Numeral} (h : n.Spelling cs) : read cs = read n.chars := by
  cases h with
  | plain => rfl
  | plusMinus he hminus =>
    rename_i e
    have hending := n.endsWith
    rw [he] at hending
    unfold chars
    rw [n.mantissa.read_append (.some e.is_mark), n.mantissa.read_append hending]
    simp only [shiftOf, Option.map_some, readExponent_plus_minus hminus]

end Numeral

/-- What is read is a way to write a numeral. -/
theorem numeral_of_read (h : read cs = .ok d) : ∃ n : Numeral, n.Spelling cs := by
  obtain ⟨m, ending, exponent, hending, rfl⟩ := exists_mantissa h
  rw [m.read_append hending, Outcome.bind_eq_ok] at h
  obtain ⟨shift, hshift, _⟩ := h
  cases hending with
  | none => exact ⟨⟨m, none⟩, .plain⟩
  | some hmark =>
    rename_i mark body
    obtain ⟨power, rfl | ⟨hminus, rfl⟩⟩ := power_of_readExponent hshift
    · exact ⟨⟨m, some ⟨mark, power, hmark⟩⟩, .plain⟩
    · have hspelling : Numeral.Spelling ⟨m, some ⟨mark, power, hmark⟩⟩ _ := .plusMinus rfl hminus
      exact ⟨_, hspelling⟩

/-- A decimal is read from the ways to write its numerals, as long as the exponent has 64 bits, and
from no other text. -/
theorem read_eq_ok :
    read cs = .ok d ↔
      ∃ n : Numeral, n.Spelling cs ∧ fits 64 n.shift = true ∧
        d.unscaled = n.unscaled ∧ d.scale.toInt = n.scale := by
  refine ⟨?_, ?_⟩
  · intro h
    obtain ⟨n, hn⟩ := numeral_of_read h
    rw [Numeral.read_of_spelling hn, n.read_chars] at h
    by_cases hshift : fits 64 n.shift = true
    · rw [if_pos hshift] at h
      exact ⟨n, hn, hshift, ofScale_eq_ok.mp h⟩
    · rw [if_neg hshift] at h
      cases h
  · rintro ⟨n, hn, hshift, hvalue⟩
    rw [Numeral.read_of_spelling hn, n.read_chars, if_pos hshift]
    exact ofScale_eq_ok.mpr hvalue

theorem Numeral.power_of_cut {n : Numeral} {before body : List Char}
    (hcut : cutExponent n.chars = (before, some body)) : ∃ w : Whole.Numeral, w.chars = body := by
  rw [chars, cutExponent_append n.mantissa.no_exponent_mark n.endsWith] at hcut
  cases he : n.exponent with
  | none => simp [he] at hcut
  | some e =>
    simp only [he, Option.map_some, Prod.mk.injEq, Option.some.injEq] at hcut
    exact ⟨e.power, hcut.2⟩

/-- What stands after the letter of an exponent is an integer, but for the one plus sign. -/
theorem Numeral.Spelling.power_of_cut {n : Numeral} {before body : List Char} (h : n.Spelling cs)
    (hcut : cutExponent cs = (before, some body)) :
    ∃ w : Whole.Numeral, w.chars = body ∨ w.sign = .minus ∧ '+' :: w.chars = body := by
  cases h with
  | plain =>
    obtain ⟨w, hw⟩ := Numeral.power_of_cut hcut
    exact ⟨w, .inl hw⟩
  | plusMinus he hminus =>
    rename_i e
    rw [cutExponent_append n.mantissa.no_exponent_mark (.some e.is_mark)] at hcut
    simp only [Prod.mk.injEq, Option.some.injEq] at hcut
    exact ⟨e.power, .inr ⟨hminus, hcut.2⟩⟩

/-! ## The laws of the grammar -/

/-- Texts that are no way to write a numeral are not read. -/
theorem only_numerals_are_read (hform : ∀ n : Numeral, ¬ n.Spelling cs) :
    ∃ fault, read cs = .error fault := by
  cases hread : read cs with
  | error fault => exact ⟨fault, rfl⟩
  | ok d =>
    obtain ⟨n, hn, _⟩ := read_eq_ok.mp hread
    exact absurd hn (hform n)

/-- The exponent of `1e++2` has one plus sign too many. -/
theorem two_plus_signs_are_refused :
    (∀ n : Numeral, ¬ n.Spelling ['1', 'e', '+', '+', '2']) ∧
      ∃ fault, read ['1', 'e', '+', '+', '2'] = .error fault := by
  have hform : ∀ n : Numeral, ¬ n.Spelling ['1', 'e', '+', '+', '2'] := by
    intro n hn
    obtain ⟨w, h | ⟨hminus, h⟩⟩ := hn.power_of_cut rfl
    · have hdigits := w.digits_dropSign
      rw [h] at hdigits
      cases hdigits
    · rw [Whole.Numeral.chars, hminus] at h
      cases h
  exact ⟨hform, only_numerals_are_read hform⟩

/-- The two signs in the exponent of `1e+-2` are those of no numeral, and yet it is read. -/
theorem a_plus_before_a_minus_is_passed_over :
    (∀ n : Numeral, n.chars ≠ ['1', 'e', '+', '-', '2']) ∧
      read ['1', 'e', '+', '-', '2'] = .ok ⟨1, 2⟩ := by
  refine ⟨?_, rfl⟩
  intro n hn
  have hcut : cutExponent n.chars = (['1'], some ['+', '-', '2']) := by
    rw [hn]
    rfl
  obtain ⟨w, hw⟩ := Numeral.power_of_cut hcut
  have hdigits := w.digits_dropSign
  rw [hw] at hdigits
  cases hdigits

/-- Rows of digits are shorter: with addresses of 64 bits no memory has room for a text with so
many digits, a copy of them, and the number that they write. -/
def rowLimit : Nat := 2 ^ 63 - 2 ^ 31

/-- A numeral is read as the number that its digits write, with the scale that the digits behind
the point and the exponent give together, and it is refused if this scale has more than 32 bits.
The exponent alone may have any size. -/
theorem numerals_are_read_at_their_value (n : Numeral)
    (hsize : n.mantissa.behind.length < rowLimit) :
    (-2 ^ 31 ≤ n.scale ∧ n.scale < 2 ^ 31 →
      ∃ d, read n.chars = .ok d ∧ d.unscaled = n.unscaled ∧ d.scale.toInt = n.scale) ∧
    (¬ (-2 ^ 31 ≤ n.scale ∧ n.scale < 2 ^ 31) →
      read n.chars = .error (if fits 64 n.shift then .scaleOutOfRange else .badExponent)) := by
  have hscale : n.scale = n.mantissa.behind.length - n.shift := rfl
  unfold rowLimit at hsize
  rw [n.read_chars]
  refine ⟨?_, ?_⟩
  · rintro ⟨hlow, hhigh⟩
    -- The digits behind the point are too few to bring back an exponent beyond 64 bits.
    have hshift : fits 64 n.shift = true := fits_iff.mpr ⟨by omega, by omega⟩
    rw [if_pos hshift]
    exact ofScale_of_fits hlow hhigh
  · intro hbeyond
    have hrefused : ofScale n.unscaled n.scale = .error .scaleOutOfRange := by
      unfold ofScale
      rw [if_neg (fun h => hbeyond (fits_iff.mp h))]
    by_cases hshift : fits 64 n.shift = true
    · rw [if_pos hshift, if_pos hshift, hrefused]
    · rw [if_neg hshift, if_neg hshift]

/-- An exponent that has more than 32 bits itself. -/
def farNumeral : Numeral where
  mantissa := ⟨.minus, ['1'], some ['5', '0'], by decide, by decide⟩
  exponent := some (.capital ⟨.plus, "02147483650".toList, by decide, by decide⟩)

/-- Two digits behind the point bring the exponent of `-1.50E+02147483650` down to the greatest
one that a scale of 32 bits can state. -/
theorem a_far_exponent_is_brought_into_range :
    farNumeral.chars = "-1.50E+02147483650".toList ∧
      farNumeral.mantissa.behind.length < rowLimit ∧
      ∃ d, read farNumeral.chars = .ok d ∧ d.unscaled = -150 ∧ d.scale.toInt = -2 ^ 31 := by
  have hsize : farNumeral.mantissa.behind.length < rowLimit := by decide
  have hscale : -2 ^ 31 ≤ farNumeral.scale ∧ farNumeral.scale < 2 ^ 31 := by decide
  refine ⟨by decide, hsize, ?_⟩
  obtain ⟨d, hread, hunscaled, hscale⟩ :=
    (numerals_are_read_at_their_value farNumeral hsize).1 hscale
  refine ⟨d, hread, ?_, ?_⟩
  · rw [hunscaled]
    decide
  · rw [hscale]
    decide

end Decimal

end ManagementSchema
