-- Instants written and read back. Each field has a fixed width, so what is
-- read stops where the field was written to its end, and the fields say again
-- the day, the second and the millisecond of the instant. What is read is cut
-- to milliseconds, but for a leap second after the last second of the calendar.
import ManagementSchema.Proofs.Calendar
import ManagementSchema.Proofs.IntegerText
import ManagementSchema.Value.Build

namespace ManagementSchema

namespace Instant

open Whole

variable {width n : Nat} {rest : List Char}

/-! ## Fields of a fixed width -/

theorem length_padded (hwidth : 0 < width) (h : n < 10 ^ width) : (padded width n).length = width := by
  have hlength := length_digits_le hwidth h
  unfold padded
  rw [List.length_append, List.length_replicate]
  omega

theorem all_padded (width n : Nat) : (padded width n).all Char.isDigit = true := by
  unfold padded
  rw [List.all_append, all_digits, Bool.and_true, List.all_replicate]
  simp

theorem value_padded (width n : Nat) : value (padded width n) = n := by
  unfold padded
  rw [value_append, value_zeros, value_digits]
  omega

theorem exists_padded_cons (width n : Nat) :
    ∃ c more, padded width n = c :: more ∧ c.isDigit = true := by
  have hall := all_padded width n
  rcases h : padded width n with _ | ⟨c, more⟩
  · have hdigits : digits n = [] := by
      unfold padded at h
      exact (List.append_eq_nil_iff.mp h).2
    exact absurd hdigits (digits_ne_nil n)
  · rw [h, List.all_cons, Bool.and_eq_true] at hall
    exact ⟨c, more, rfl, hall.1⟩

/-- So many digits are taken as they were written. -/
theorem takeDigits_padded (hwidth : 0 < width) (h : n < 10 ^ width) (rest : List Char) :
    takeDigits width (padded width n ++ rest) = .ok (n, rest) := by
  have hlength := length_padded hwidth h
  have hfront : (padded width n ++ rest).take width = padded width n := List.take_left' hlength
  have hrest : (padded width n ++ rest).drop width = rest := List.drop_left' hlength
  unfold takeDigits
  simp only [hfront, hrest, hlength, all_padded, value_padded]
  rfl

/-- The next character is no digit, or there is none. -/
def NoDigitNext (rest : List Char) : Prop := ∀ c more, rest = c :: more → c.isDigit = false

theorem noDigitNext_nil : NoDigitNext [] := by
  rintro c more hcons
  cases hcons

theorem noDigitNext_cons {c : Char} (h : c.isDigit = false) (rest : List Char) :
    NoDigitNext (c :: rest) := by
  rintro _ _ hcons
  cases hcons
  exact h

theorem nanoOfDigits_padded (h : n < 1000) : nanoOfDigits (padded 3 n) = n * 1000000 := by
  have hlength : (padded 3 n).length = 3 := length_padded (by decide) h
  have htake : (padded 3 n ++ List.replicate 9 '0').take 9 =
      padded 3 n ++ List.replicate 6 '0' := by
    rw [List.take_append, hlength, List.take_of_length_le (by omega)]
    rfl
  unfold nanoOfDigits
  rw [htake, value_append, value_zeros, value_padded, List.length_replicate]
  omega

/-- A fraction of three digits is read as milliseconds. -/
theorem takeFraction_padded (h : n < 1000) (hrest : NoDigitNext rest) :
    takeFraction ('.' :: (padded 3 n ++ rest)) = .ok (n * 1000000, rest) := by
  have hall := List.all_eq_true.mp (all_padded 3 n)
  have hstop : rest.takeWhile Char.isDigit = [] ∧ rest.dropWhile Char.isDigit = rest := by
    cases rest with
    | nil => exact ⟨rfl, rfl⟩
    | cons c more => simp [hrest c more rfl]
  have htake : (padded 3 n ++ rest).takeWhile Char.isDigit = padded 3 n := by
    rw [List.takeWhile_append_of_pos hall, hstop.1, List.append_nil]
  have hdrop : (padded 3 n ++ rest).dropWhile Char.isDigit = rest := by
    rw [List.dropWhile_append_of_pos hall, hstop.2]
  obtain ⟨c, more, hcons, _⟩ := exists_padded_cons 3 n
  unfold takeFraction
  simp only [htake, hdrop, nanoOfDigits_padded h]
  simp [hcons]

/-! ## Numbers up to a mark -/

/-- A row of digits is read as one number, up to the most that are read or to another character. -/
theorem readNumber_digits {most : Nat} {ds : List Char} (hdigits : ds.all Char.isDigit = true)
    (hfits : Nat.ofDigitChars 10 ds n < 2 ^ 63)
    (hend : most = ds.length ∨ ds.length ≤ most ∧ NoDigitNext rest) :
    readNumber n most (ds ++ rest) = .ok (Nat.ofDigitChars 10 ds n, rest) := by
  induction ds generalizing n most with
  | nil =>
    rw [List.nil_append]
    rcases hend with rfl | ⟨_, hrest⟩
    · rfl
    · cases rest with
      | nil => cases most <;> rfl
      | cons c more =>
        cases most with
        | zero => rfl
        | succ fewer =>
          unfold readNumber
          rw [hrest c more rfl]
          rfl
  | cons c ds ih =>
    rw [List.all_cons, Bool.and_eq_true] at hdigits
    rw [Nat.ofDigitChars_cons] at hfits ⊢
    have hgrows := le_ofDigitChars ds (10 * n + (c.toNat - '0'.toNat))
    have hnext : fits 64 ((10 * n + digitValue c : Nat) : Int) = true := by
      rw [fits_iff]
      unfold digitValue
      omega
    rw [List.length_cons] at hend
    obtain ⟨fewer, rfl⟩ : ∃ fewer, most = fewer + 1 := ⟨most - 1, by omega⟩
    rw [List.cons_append]
    unfold readNumber
    simp only [hdigits.1, if_true, hnext]
    refine ih hdigits.2 hfits ?_
    rcases hend with hend | ⟨hend, hrest⟩
    · exact .inl (by omega)
    · exact .inr ⟨by omega, hrest⟩

theorem isBlankChar_of_isDigit {c : Char} (h : c.isDigit = true) : Text.isBlankChar c = false := by
  unfold Char.isDigit at h
  rw [Bool.and_eq_true, decide_eq_true_eq, decide_eq_true_eq] at h
  have hlow : 48 ≤ c.toNat := h.1
  have hhigh : c.toNat ≤ 57 := h.2
  unfold Text.isBlankChar
  simp only [Bool.or_eq_false_iff, Bool.and_eq_false_iff, decide_eq_false_iff_not, beq_eq_false_iff_ne]
  omega

/-- A field of two digits is read, when it is within its limits. -/
theorem takeField_padded {low high : Nat} (hlow : low ≤ n) (hhigh : n ≤ high) (h : n < 100)
    (rest : List Char) : takeField low high (padded 2 n ++ rest) = .ok (n, rest) := by
  obtain ⟨c, more, hcons, hc⟩ := exists_padded_cons 2 n
  have hread : readNumber 0 2 (padded 2 n ++ rest) = .ok (n, rest) := by
    have hvalue : Nat.ofDigitChars 10 (padded 2 n) 0 = n := value_padded 2 n
    have hlength := length_padded (by decide : 0 < 2) h
    rw [readNumber_digits (all_padded 2 n) (by omega) (.inl hlength.symm), hvalue]
  unfold takeField takeNumber
  rw [hcons, List.cons_append] at hread ⊢
  simp only [List.dropWhile_cons, isBlankChar_of_isDigit hc, Bool.false_eq_true, if_false, hc,
    if_true, hread]
  simp [hlow, hhigh]

/-- A signed year is read up to the hyphen after it. -/
theorem takeSignedYear_padded {sign : Char} {year : Int} (hsign : signed (sign = '-') n = year)
    (hfits : fits 32 year = true) (rest : List Char) :
    takeSignedYear (sign :: (padded 4 n ++ '-' :: rest)) = .ok (year, '-' :: rest) := by
  have hsmall : n < 2 ^ 63 := by
    rw [fits_iff] at hfits
    unfold signed at hsign
    split at hsign <;> omega
  have hstop : NoDigitNext ('-' :: rest) := noDigitNext_cons rfl rest
  have hvalue : Nat.ofDigitChars 10 (padded 4 n) 0 = n := value_padded 4 n
  have hlength : (padded 4 n).length ≤ (padded 4 n ++ '-' :: rest).length := by
    rw [List.length_append]
    omega
  have hread : readNumber 0 (padded 4 n ++ '-' :: rest).length (padded 4 n ++ '-' :: rest) =
      .ok (n, '-' :: rest) := by
    rw [readNumber_digits (all_padded 4 n) (by omega) (.inr ⟨hlength, hstop⟩), hvalue]
  obtain ⟨c, more, hcons, hc⟩ := exists_padded_cons 4 n
  unfold takeSignedYear takeNumber
  rw [hcons, List.cons_append] at hread ⊢
  simp only [hc, if_true, hread]
  simp [hsign, hfits]

/-! ## Both forms -/

/-- What follows the year: the fields from the month on, and an end. -/
def fieldChars (month day hour minute second milli : Nat) (tail : List Char) : List Char :=
  '-' :: (padded 2 month ++ '-' :: (padded 2 day ++ 'T' :: (padded 2 hour ++
    ':' :: (padded 2 minute ++ ':' :: (padded 2 second ++ '.' :: (padded 3 milli ++ tail))))))

theorem takeMark_cons {marks : List Char} {c : Char} (h : c ∈ marks) (rest : List Char) :
    takeMark marks (c :: rest) = .ok rest := by
  unfold takeMark
  exact if_pos h

theorem length_le_byteLength (cs : List Char) : cs.length ≤ byteLength cs := by
  induction cs with
  | nil => exact Nat.le_refl 0
  | cons c rest ih =>
    have hsize := c.utf8Size_pos
    unfold byteLength
    rw [List.length_cons]
    omega

/-- Fields within the limits that both forms have in common. -/
structure FieldsFit (month day hour minute second milli : Nat) : Prop where
  month : 1 ≤ month ∧ month ≤ 12
  day : 1 ≤ day ∧ day ≤ 31
  hour : hour ≤ 23
  minute : minute ≤ 59
  second : second ≤ 60
  milli : milli < 1000

variable {month day hour minute second milli : Nat} {date : CalendarDate}

theorem readTimestamp_fields {year : Nat} (hyear : year ≤ 9999)
    (h : FieldsFit month day hour minute second milli)
    (hdate : CalendarDate.ofYmd? year month day = some date) :
    readTimestamp (padded 4 year ++ fieldChars month day hour minute second milli ['Z']) =
      .ok (ofDateTime date hour minute second (milli * 1000000) 0) := by
  obtain ⟨⟨_, hmonth⟩, ⟨_, hday⟩, hhour, hminute, hsecond, hmilli⟩ := h
  have hlong : ¬ byteLength (padded 4 year ++ fieldChars month day hour minute second milli ['Z'])
      < 19 := by
    have h2 : ∀ n, n < 100 → (padded 2 n).length = 2 := fun n hn => length_padded (by decide) hn
    have hlength :
        (padded 4 year ++ fieldChars month day hour minute second milli ['Z']).length = 24 := by
      simp only [fieldChars, List.length_append, List.length_cons, List.length_nil,
        length_padded (by decide : 0 < 4) (by omega : year < 10 ^ 4), h2 month (by omega),
        h2 day (by omega), h2 hour (by omega), h2 minute (by omega), h2 second (by omega),
        length_padded (by decide : 0 < 3) (by omega : milli < 10 ^ 3)]
    have hbytes :=
      length_le_byteLength (padded 4 year ++ fieldChars month day hour minute second milli ['Z'])
    omega
  have hstop : NoDigitNext ['Z'] := noDigitNext_cons rfl []
  have htake : ∀ n rest, n < 100 → takeDigits 2 (padded 2 n ++ rest) = .ok (n, rest) :=
    fun n rest hn => takeDigits_padded (by decide) hn rest
  unfold readTimestamp
  rw [if_neg hlong]
  unfold fieldChars
  rw [takeDigits_padded (by decide) (by omega : year < 10 ^ 4)]
  simp only [Outcome.ok_bind, takeMark_cons (by decide : '-' ∈ ['-']),
    takeMark_cons (by decide : ':' ∈ [':']), takeMark_cons (by decide : 'T' ∈ ['T', 't', ' ']),
    htake month _ (by omega), htake day _ (by omega), htake hour _ (by omega),
    htake minute _ (by omega), htake second _ (by omega), takeFraction_padded hmilli hstop, hdate]
  rw [if_neg (by omega)]
  rfl

theorem takeSeparator_cons (mark : Char) (rest : List Char) :
    takeSeparator mark (mark :: rest) = .ok rest := if_pos rfl

theorem readSignedYear_fields {sign : Char} {year : Int} (hsign : signed (sign = '-') n = year)
    (hfits : fits 32 year = true) (h : FieldsFit month day hour minute second milli)
    (hdate : CalendarDate.ofYmd? year month day = some date) :
    readSignedYear (sign :: (padded 4 n ++ fieldChars month day hour minute second milli [])) =
      .ok (ofDateTime date hour minute second (milli * 1000000) 0) := by
  obtain ⟨⟨hmonth, hmonth'⟩, ⟨hday, hday'⟩, hhour, hminute, hsecond, hmilli⟩ := h
  unfold readSignedYear fieldChars
  rw [takeSignedYear_padded hsign hfits]
  simp only [Outcome.ok_bind, takeSeparator_cons, takeField_padded hmonth hmonth' (by omega),
    takeField_padded hday hday' (by omega), takeField_padded (Nat.zero_le hour) hhour (by omega),
    takeField_padded (Nat.zero_le minute) hminute (by omega),
    takeField_padded (Nat.zero_le second) hsecond (by omega), takeFraction_padded hmilli noDigitNext_nil, hdate]
  rfl

/-! ## Instants -/

/-- The instant stands within the years of the calendar, and has more than a second of nanoseconds
only in a leap second. -/
structure Sound (t : Instant) : Prop where
  firstYear : CalendarDate.firstYear ≤ t.date.year
  lastYear : t.date.year ≤ CalendarDate.lastYear
  nano : t.nano < 1000000000 ∨ t.nano < 2000000000 ∧ t.seconds % 60 = 59

/-- The instant without its parts of a millisecond, which the written form leaves out. -/
def wholeMillis (t : Instant) : Instant := { t with nano := t.nano / 1000000 * 1000000 }

theorem wholeMillis_eq_self {t : Instant} : t.wholeMillis = t ↔ t.nano % 1000000 = 0 := by
  obtain ⟨seconds, nano⟩ := t
  simp only [wholeMillis, Instant.mk.injEq, true_and]
  omega

theorem nano_wholeMillis (t : Instant) : t.wholeMillis.nano % 1000000 = 0 := Nat.mul_mod_left _ _

/-- What the written fields of a time of day say. -/
theorem ofDateTime_fields {t : Instant} (h : t.Sound) :
    ofDateTime t.date ((t.seconds % 86400).toNat / 3600) ((t.seconds % 86400).toNat / 60 % 60)
      ((t.seconds % 86400).toNat % 60 + t.nano / 1000000000)
      (t.nano % 1000000000 / 1000000 * 1000000) 0 = t.wholeMillis := by
  have hdays : t.date.toDays = t.seconds / 86400 := CalendarDate.toDays_ofDays _
  have hnano := h.nano
  obtain ⟨seconds, nano⟩ := t
  unfold ofDateTime wholeMillis
  rw [hdays]
  simp only at hnano ⊢
  by_cases hless : nano < 1000000000
  · have hplain : ¬ (seconds % 86400).toNat % 60 + nano / 1000000000 = 60 := by omega
    simp only [hplain, if_false, Instant.mk.injEq]
    omega
  · obtain ⟨hmost, hleap⟩ := hnano.resolve_left hless
    have hsixty : (seconds % 86400).toNat % 60 + nano / 1000000000 = 60 := by omega
    simp only [hsixty, if_true, Instant.mk.injEq]
    omega

theorem fieldsFit {t : Instant} (h : t.Sound) :
    FieldsFit t.date.month t.date.day ((t.seconds % 86400).toNat / 3600)
      ((t.seconds % 86400).toNat / 60 % 60)
      ((t.seconds % 86400).toNat % 60 + t.nano / 1000000000)
      (t.nano % 1000000000 / 1000000) := by
  have hvalid : t.date.Valid := CalendarDate.valid_ofDays _
  have hlong := CalendarDate.monthLength_le t.date.year t.date.month
  have hnano := h.nano
  refine ⟨hvalid.month, ⟨hvalid.day.1, Nat.le_trans hvalid.day.2 hlong⟩, ?_, ?_, ?_, ?_⟩
  all_goals omega

theorem chars_eq (t : Instant) :
    t.chars = yearChars t.date.year ++
      fieldChars t.date.month t.date.day ((t.seconds % 86400).toNat / 3600)
        ((t.seconds % 86400).toNat / 60 % 60)
        ((t.seconds % 86400).toNat % 60 + t.nano / 1000000000)
        (t.nano % 1000000000 / 1000000) ['Z'] := by
  simp [chars, fieldChars]

theorem fieldChars_append (tail : List Char) :
    fieldChars month day hour minute second milli tail =
      fieldChars month day hour minute second milli [] ++ tail := by
  simp [fieldChars]

/-- A digit in front calls for a timestamp. -/
theorem readNanos_unsigned {c : Char} {cs : List Char} (hc : c.isDigit = true) :
    readNanos (c :: cs) = readTimestamp (c :: cs) := by
  obtain ⟨hminus, hplus⟩ := not_sign_of_isDigit hc
  unfold readNanos
  simp [hminus, hplus]

/-- A sign in front and a `Z` at the end call for a signed year. -/
theorem readNanos_signed {sign : Char} (hsign : sign = '+' ∨ sign = '-') (cs : List Char) :
    readNanos (sign :: cs ++ ['Z']) = readSignedYear (sign :: cs) := by
  have hlast : (sign :: cs ++ ['Z']).getLast? = some 'Z' := List.getLast?_concat
  have hdrop : (sign :: cs ++ ['Z']).dropLast = sign :: cs := List.dropLast_concat
  unfold readNanos
  rw [hlast, hdrop]
  rcases hsign with rfl | rfl
  · rfl
  · rfl

/-- The written form says the instant to the millisecond. -/
theorem readNanos_chars {t : Instant} (h : t.Sound) : readNanos t.chars = .ok t.wholeMillis := by
  have hfields := ofDateTime_fields h
  have hfit := fieldsFit h
  have hdate : CalendarDate.ofYmd? t.date.year t.date.month t.date.day = some t.date :=
    CalendarDate.ofYmd?_eq_some_iff.mpr ⟨rfl, h.firstYear, h.lastYear, CalendarDate.valid_ofDays _⟩
  have hfirst := h.firstYear
  have hlast := h.lastYear
  unfold CalendarDate.firstYear at hfirst
  unfold CalendarDate.lastYear at hlast
  rw [chars_eq]
  unfold yearChars
  by_cases hplain : 0 ≤ t.date.year ∧ t.date.year ≤ 9999
  · rw [if_pos hplain]
    obtain ⟨c, more, hcons, hc⟩ := exists_padded_cons 4 t.date.year.toNat
    have hyear : ((t.date.year.toNat : Nat) : Int) = t.date.year := by omega
    rw [hcons, List.cons_append, readNanos_unsigned hc, ← List.cons_append, ← hcons]
    rw [readTimestamp_fields (by omega) hfit (by rw [hyear]; exact hdate), hfields]
  · rw [if_neg hplain]
    have hsign : (if t.date.year < 0 then '-' else '+') = '+' ∨
        (if t.date.year < 0 then '-' else '+') = '-' := by
      split <;> simp
    have hminus : (if t.date.year < 0 then '-' else '+') = '-' ↔ t.date.year < 0 := by
      split <;> simp [*]
    have hsigned : signed ((if t.date.year < 0 then '-' else '+') = '-') t.date.year.natAbs =
        t.date.year := by
      rw [decide_eq_decide.mpr hminus, signed_natAbs]
    have hfits : fits 32 t.date.year = true := by
      rw [fits_iff]
      omega
    rw [fieldChars_append, ← List.append_assoc, List.cons_append, readNanos_signed hsign,
      readSignedYear_fields hsigned hfits hfit hdate, hfields]

/-! ## Whole milliseconds -/

theorem compare_isLE {t u : Instant} : (t.compare u).isLE = true ↔
    t.seconds < u.seconds ∨ t.seconds = u.seconds ∧ t.nano ≤ u.nano := by
  unfold Instant.compare
  rcases Int.lt_trichotomy t.seconds u.seconds with h | h | h
  · rw [compare_lt_iff_lt.mpr h]
    simp [h]
  · rw [compare_eq_iff_eq.mpr h, Ordering.eq_then]
    simp [h, Std.isLE_compare]
  · rw [compare_gt_iff_gt.mpr h]
    refine ⟨?_, by omega⟩
    intro hle
    cases hle

/-- The calendar ends with the latest instant but for a leap second. -/
theorem Sound.seconds_bounds {t : Instant} (h : t.Sound) :
    earliest.seconds ≤ t.seconds ∧ t.seconds ≤ latest.seconds := by
  have hvalid : t.date.Valid := CalendarDate.valid_ofDays _
  have hdays : t.date.toDays = t.seconds / 86400 := CalendarDate.toDays_ofDays _
  have hbounds := hvalid.toDays_bounds h.firstYear h.lastYear
  simp only [earliest, latest, ofDateTime, Nat.reduceEqDiff, OfNat.zero_ne_ofNat, if_false]
  omega

/-- The instant is in a leap second after the last second of the calendar. -/
def AfterLatest (t : Instant) : Prop := t.seconds = latest.seconds ∧ 1000000000 ≤ t.nano

/-- Cutting an instant leaves it as it is or takes its parts of a millisecond away. -/
theorem truncated_eq_or (t : Instant) : t.truncated = t ∨ t.truncated = t.wholeMillis := by
  unfold truncated withNano?
  simp only
  split
  · exact .inr rfl
  · exact .inl rfl

theorem truncated_wholeMillis (t : Instant) : t.wholeMillis.truncated = t.wholeMillis := by
  rcases truncated_eq_or t.wholeMillis with h | h
  · exact h
  · rw [h, wholeMillis_eq_self.mpr t.nano_wholeMillis]

/-- Only in a leap second after the last second of the calendar an instant is not cut. -/
theorem truncated_of_not_afterLatest {t : Instant} (h : t.Sound) (hbefore : ¬ t.AfterLatest) :
    t.truncated = t.wholeMillis := by
  have hbounds := h.seconds_bounds
  have hnano := h.nano
  have hlatest : latest.nano = 999999999 := rfl
  have hearliest : earliest.nano = 0 := rfl
  have hmoved : t.withNano? (t.nano / 1000000 * 1000000) = some t.wholeMillis := by
    refine if_pos ⟨by omega, compare_isLE.mpr ?_, compare_isLE.mpr ?_⟩
    · simp only
      omega
    · unfold AfterLatest at hbefore
      simp only
      omega
  unfold truncated
  rw [hmoved, Option.getD_some]

theorem Sound.truncated {t : Instant} (h : t.Sound) : t.truncated.Sound := by
  rcases truncated_eq_or t with heq | heq
  · rw [heq]
    exact h
  · have hnano := h.nano
    rw [heq]
    refine ⟨h.firstYear, h.lastYear, ?_⟩
    simp only [wholeMillis]
    omega

/-- The written form of an instant is read to the millisecond. -/
theorem read_toString {t : Instant} (h : t.Sound) : read t.toString.toList = .ok t.wholeMillis := by
  unfold Instant.toString read
  rw [String.toList_ofList, readNanos_chars h]
  exact congrArg Except.ok t.truncated_wholeMillis

/-! ## Instants that are made or read -/

section Made

variable {cs : List Char} {t : Instant} {nano : Nat} {offset : Int}

/-- The instants that are counted in milliseconds are sound, and have no parts of one. -/
theorem sound_of_ofMillis? {millis : Int} (h : ofMillis? millis = some t) :
    t.Sound ∧ t.nano % 1000000 = 0 := by
  unfold ofMillis? at h
  simp only at h
  split at h
  · rename_i hyears
    cases h
    refine ⟨⟨hyears.1, hyears.2, .inl ?_⟩, Nat.mul_mod_left _ _⟩
    simp only
    omega
  · cases h

/-- A time of day is sound when its year is, and when the offset leaves a leap second the last
second of a minute. -/
theorem sound_ofDateTime (hnano : nano < 1000000000) (hoffset : offset % 60 = 0)
    (hyears : CalendarDate.firstYear ≤ (ofDateTime date hour minute second nano offset).date.year ∧
      (ofDateTime date hour minute second nano offset).date.year ≤ CalendarDate.lastYear) :
    (ofDateTime date hour minute second nano offset).Sound := by
  refine ⟨hyears.1, hyears.2, ?_⟩
  unfold ofDateTime
  by_cases hleap : second = 60
  · simp only [hleap, if_true]
    omega
  · simp only [hleap, if_false]
    omega

theorem takeDigits_lt {count : Nat} (h : takeDigits count cs = .ok (n, rest)) : n < 10 ^ count := by
  unfold takeDigits at h
  simp only at h
  split at h
  · rename_i hfront
    cases h
    have hless := value_lt hfront.2
    rw [hfront.1] at hless
    exact hless
  · cases h

theorem nanoOfDigits_lt (h : cs.all Char.isDigit = true) : nanoOfDigits cs < 1000000000 := by
  have hall : ((cs ++ List.replicate 9 '0').take 9).all Char.isDigit = true := by
    rw [List.all_eq_true] at h ⊢
    intro c hc
    rcases List.mem_append.mp (List.mem_of_mem_take hc) with hc | hc
    · exact h c hc
    · obtain rfl : c = '0' := List.eq_of_mem_replicate hc
      rfl
  have hlength : ((cs ++ List.replicate 9 '0').take 9).length = 9 := by simp
  have hless := value_lt hall
  rw [hlength] at hless
  exact hless

theorem takeFraction_lt (h : takeFraction cs = .ok (nano, rest)) : nano < 1000000000 := by
  unfold takeFraction at h
  split at h
  · simp only at h
    split at h
    · cases h
    · split at h
      · cases h
      · cases h
        exact nanoOfDigits_lt (List.all_takeWhile)
  · cases h
    decide

theorem takeOffsetSpan_whole {span : Int} (h : takeOffsetSpan cs = .ok (span, rest)) :
    span % 60 = 0 := by
  unfold takeOffsetSpan at h
  simp only [Outcome.bind_eq_ok, Outcome.check_bind_eq_ok, Outcome.pure_eq_ok, Prod.exists,
    Except.ok.injEq, Prod.mk.injEq] at h
  obtain ⟨hours, _, _, _, _, _, minutes, _, _, _, rfl, _⟩ := h
  omega

theorem takeOffset_whole (h : takeOffset cs = .ok (offset, rest)) : offset % 60 = 0 := by
  unfold takeOffset at h
  split at h
  · cases h
  · split at h
    · cases h
      rfl
    · split at h
      · exact takeOffsetSpan_whole h
      · split at h
        · obtain ⟨⟨span, more⟩, hspan, heq⟩ := Outcome.map_eq_ok.mp h
          cases heq
          have hwhole := takeOffsetSpan_whole hspan
          omega
        · cases h

/-- An offset leads at most a day out of the years of four digits. -/
theorem years_ofDateTime (hdate : date.Valid) (hyear : 0 ≤ date.year ∧ date.year ≤ 9999)
    (hhour : hour ≤ 23) (hminute : minute ≤ 59) (hsecond : second ≤ 60)
    (hoffset : offset.natAbs < 86400) :
    CalendarDate.firstYear ≤ (ofDateTime date hour minute second nano offset).date.year ∧
      (ofDateTime date hour minute second nano offset).date.year ≤ CalendarDate.lastYear := by
  have hdays := hdate.toDays_bounds hyear.1 hyear.2
  have hfirst : CalendarDate.toDays ⟨0, 1, 1⟩ = -719528 := by decide
  have hlast : CalendarDate.toDays ⟨9999, 12, 31⟩ = 2932896 := by decide
  unfold Instant.date ofDateTime
  apply CalendarDate.year_bounds
  · simp only
    split <;> omega
  · simp only
    split <;> omega

theorem sound_of_readTimestamp (h : readTimestamp cs = .ok t) : t.Sound := by
  unfold readTimestamp at h
  simp only [Outcome.check_bind_eq_ok, Outcome.bind_eq_ok, Prod.exists] at h
  obtain ⟨_, year, _, hyear, _, _, month, _, _, _, _, day, _, _, h⟩ := h
  split at h
  · rename_i date hdate
    simp only [Outcome.check_bind_eq_ok, Outcome.bind_eq_ok, Outcome.pure_eq_ok, Prod.exists,
      Except.ok.injEq] at h
    obtain ⟨_, _, hour, _, _, _, _, minute, _, _, _, _, second, _, _, nano, _, hfraction, hlimits,
      offset, _, hoffset, _, hday, rfl⟩ := h
    obtain ⟨rfl, _, _, hvalid⟩ := CalendarDate.ofYmd?_eq_some_iff.mp hdate
    have hyear : year < 10 ^ 4 := takeDigits_lt hyear
    have hfour : 0 ≤ (year : Int) ∧ (year : Int) ≤ 9999 := by omega
    exact sound_ofDateTime (takeFraction_lt hfraction) (takeOffset_whole hoffset)
      (years_ofDateTime hvalid hfour (by omega) (by omega) (by omega) (by omega))
  · cases h

/-- The date of a time of day in universal time. -/
theorem date_ofDateTime (hdate : date.Valid) (hhour : hour ≤ 23) (hminute : minute ≤ 59)
    (hsecond : second ≤ 60) : (ofDateTime date hour minute second nano 0).date = date := by
  have hdays : (ofDateTime date hour minute second nano 0).seconds / 86400 = date.toDays := by
    unfold ofDateTime
    simp only
    split <;> omega
  unfold Instant.date
  rw [hdays, CalendarDate.ofDays_toDays hdate]

theorem takeField_bounds {low high : Nat} (h : takeField low high cs = .ok (n, rest)) :
    low ≤ n ∧ n ≤ high := by
  unfold takeField at h
  simp only [Outcome.bind_eq_ok, Prod.exists] at h
  obtain ⟨m, more, _, h⟩ := h
  split at h
  · rename_i hlimits
    cases h
    exact hlimits
  · cases h

theorem sound_of_readSignedYear (h : readSignedYear cs = .ok t) : t.Sound := by
  unfold readSignedYear at h
  simp only [Outcome.check_bind_eq_ok, Outcome.bind_eq_ok, Prod.exists] at h
  obtain ⟨year, _, _, _, _, month, _, _, _, _, day, _, _, _, _, hour, _, hhour, _, _, minute, _,
    hminute, _, _, second, _, hsecond, nano, _, hfraction, _, h⟩ := h
  split at h
  · rename_i date hdate
    cases h
    obtain ⟨rfl, hfirst, hlast, hvalid⟩ := CalendarDate.ofYmd?_eq_some_iff.mp hdate
    have hsame : (ofDateTime ⟨year, month, day⟩ hour minute second nano 0).date =
        ⟨year, month, day⟩ :=
      date_ofDateTime hvalid (takeField_bounds hhour).2 (takeField_bounds hminute).2
        (takeField_bounds hsecond).2
    refine sound_ofDateTime (takeFraction_lt hfraction) rfl ?_
    rw [hsame]
    exact ⟨hfirst, hlast⟩
  · cases h

theorem sound_of_readNanos (h : readNanos cs = .ok t) : t.Sound := by
  unfold readNanos at h
  simp only at h
  split at h
  · exact sound_of_readSignedYear h
  · exact sound_of_readTimestamp h

/-- Whatever is read is an instant of the calendar, and has no parts of a millisecond unless it is in
a leap second after the last second of the calendar. -/
theorem sound_of_read (h : read cs = .ok t) :
    t.Sound ∧ (t.nano % 1000000 = 0 ∨ t.AfterLatest) := by
  obtain ⟨u, hread, rfl⟩ := Outcome.map_eq_ok.mp h
  have hsound := sound_of_readNanos hread
  refine ⟨hsound.truncated, ?_⟩
  by_cases hafter : u.AfterLatest
  · rcases truncated_eq_or u with heq | heq
    · rw [heq]
      exact .inr hafter
    · rw [heq]
      exact .inl u.nano_wholeMillis
  · rw [truncated_of_not_afterLatest hsound hafter]
    exact .inl u.nano_wholeMillis

end Made

end Instant

/-! ## Dates -/

namespace Value

variable {v : Value}

theorem ofMillis_eq_ok {millis : Int} : ofMillis millis = .ok v ↔
    ∃ t, Instant.ofMillis? millis = some t ∧ v = .scalar (.date t) := by
  unfold ofMillis
  rcases Instant.ofMillis? millis with _ | t
  · simp
  · simp [eq_comm]

theorem read_date_eq_ok {text : String} : read .date text = .ok v ↔
    ∃ t, Instant.read text.toList = .ok t ∧ v = .scalar (.date t) := by
  simp only [read, Kind.read, Kind.readReason, Outcome.map_eq_ok, Outcome.mapError_eq_ok]
  simp [eq_comm]

/-- Dates that are made are sound; those that are not cut to milliseconds were read from a text, and
are in a leap second after the last second of the calendar. -/
theorem date_of_made (h : (∃ millis, ofMillis millis = .ok v) ∨ ∃ text, read .date text = .ok v) :
    ∃ t : Instant, v = .scalar (.date t) ∧ t.Sound ∧
      (t.nano % 1000000 ≠ 0 → t.AfterLatest ∧ ∀ millis, ofMillis millis ≠ .ok v) := by
  have hmillis : ∀ millis, ofMillis millis = .ok v →
      ∃ t : Instant, v = .scalar (.date t) ∧ t.Sound ∧ t.nano % 1000000 = 0 := by
    intro millis hmake
    obtain ⟨t, hmillis, rfl⟩ := ofMillis_eq_ok.mp hmake
    exact ⟨t, rfl, Instant.sound_of_ofMillis? hmillis⟩
  rcases h with ⟨millis, hmake⟩ | ⟨text, hread⟩
  · obtain ⟨t, rfl, hsound, hwhole⟩ := hmillis millis hmake
    exact ⟨t, rfl, hsound, fun hparts => absurd hwhole hparts⟩
  · obtain ⟨t, hinstant, rfl⟩ := read_date_eq_ok.mp hread
    obtain ⟨hsound, hcut⟩ := Instant.sound_of_read hinstant
    refine ⟨t, rfl, hsound, fun hparts => ⟨hcut.resolve_left hparts, ?_⟩⟩
    intro millis hmake
    obtain ⟨u, hsame, _, hwhole⟩ := hmillis millis hmake
    cases hsame
    exact hparts hwhole

/-- A date is read again from its written form to the millisecond, whether it was counted in
milliseconds or read from a text: in the years with a sign as in those without, and in a leap second.
It is the same date unless it has parts of a millisecond; these are left only to a date that was
read in a leap second after the last second of the calendar. -/
theorem dates_are_read_back
    (h : (∃ millis, ofMillis millis = .ok v) ∨ ∃ text, read .date text = .ok v) :
    ∃ t : Instant, v = .scalar (.date t) ∧
      read .date v.toString = .ok (.scalar (.date t.wholeMillis)) ∧
      (read .date v.toString = .ok v ↔ t.nano % 1000000 = 0) ∧
      (t.nano % 1000000 ≠ 0 → t.AfterLatest ∧ ∀ millis, ofMillis millis ≠ .ok v) := by
  obtain ⟨t, rfl, hsound, hparts⟩ := date_of_made h
  have hread : read .date (scalar (.date t)).toString = .ok (.scalar (.date t.wholeMillis)) :=
    read_date_eq_ok.mpr ⟨_, Instant.read_toString hsound, rfl⟩
  refine ⟨t, rfl, hread, ?_, hparts⟩
  rw [hread, ← Instant.wholeMillis_eq_self]
  simp

/-- The offset brings the leap second into the next year, whose written form has a sign. -/
theorem a_leap_second_in_the_year_10000_is_read_back :
    ∃ v, read .date "9999-12-31T23:59:60.5-00:01" = .ok v ∧
      v.toString = "+10000-01-01T00:00:60.500Z" ∧
      read .date "+10000-01-01T00:00:60.500Z" = .ok v := by
  have hread : read .date "9999-12-31T23:59:60.5-00:01" =
      .ok (.scalar (.date ⟨253402300859, 1500000000⟩)) :=
    read_date_eq_ok.mpr ⟨⟨253402300859, 1500000000⟩, by decide +kernel, rfl⟩
  have hwritten : (scalar (.date ⟨253402300859, 1500000000⟩)).toString =
      "+10000-01-01T00:00:60.500Z" := by
    decide +kernel
  obtain ⟨t, heq, _, hsame, _⟩ := dates_are_read_back (.inr ⟨_, hread⟩)
  cases heq
  have hback := hsame.mpr rfl
  rw [hwritten] at hback
  exact ⟨_, hread, hwritten, hback⟩

/-- In a leap second after the last second of the calendar a text keeps its parts of a millisecond,
and the date is another one when it is read again from its written form. -/
theorem the_last_leap_second_is_read_back_as_another_date :
    ∃ v w, read .date "+262142-12-31T23:59:60.1239Z" = .ok v ∧
      v.toString = "+262142-12-31T23:59:60.123Z" ∧
      read .date "+262142-12-31T23:59:60.123Z" = .ok w ∧ v ≠ w := by
  refine ⟨.scalar (.date ⟨8210266876799, 1123900000⟩),
    .scalar (.date ⟨8210266876799, 1123000000⟩), ?_, ?_, ?_, ?_⟩
  · exact read_date_eq_ok.mpr ⟨_, by decide +kernel, rfl⟩
  · decide +kernel
  · exact read_date_eq_ok.mpr ⟨_, by decide +kernel, rfl⟩
  · simp

end Value

end ManagementSchema
