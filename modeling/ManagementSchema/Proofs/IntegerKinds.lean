-- The kinds of integers read one grammar. They differ in their range alone, so
-- an integer is read by every kind that has it: what a narrow kind reads a wide one
-- reads too, at the same value, and the kind of decimals reads it as a decimal with
-- nothing behind the point.
import ManagementSchema.Proofs.DecimalText
import ManagementSchema.Value.Scalar

namespace ManagementSchema

/-! ## Integers of any size -/

namespace Whole

variable {cs : List Char} {n : Int}

/-- A numeral of any size is read at its value. -/
theorem Numeral.readUnbounded_chars (w : Numeral) : readUnbounded w.chars = .ok w.value := by
  have hdigits := w.row_digits
  have hne := w.row_ne
  unfold readUnbounded
  rw [w.dropSign_chars]
  simp [hdigits, hne, Numeral.value]

theorem readUnbounded_eq_ok :
    readUnbounded cs = .ok n ↔ ∃ w : Numeral, w.chars = cs ∧ w.value = n := by
  refine ⟨?_, ?_⟩
  · intro h
    obtain ⟨sign, hminus, hchars⟩ := exists_sign cs
    unfold readUnbounded at h
    simp only at h
    split at h
    · cases h
    · rename_i hform
      cases h
      have hform : (dropSign cs).2 ≠ [] ∧ (dropSign cs).2.all Char.isDigit = true := by
        simpa using hform
      refine ⟨⟨sign, (dropSign cs).2, hform.1, hform.2⟩, hchars, ?_⟩
      unfold Numeral.value
      rw [hminus]
  · rintro ⟨w, rfl, rfl⟩
    exact w.readUnbounded_chars

/-- An integer is read in so many bits if it is a numeral and has no more bits. -/
theorem readBits_eq_ok {bits : Nat} :
    readBits bits cs = .ok n ↔ ∃ w : Numeral, w.chars = cs ∧ w.value = n ∧ fits bits n = true := by
  refine ⟨?_, ?_⟩
  · intro h
    obtain ⟨w, rfl, rfl⟩ := numeral_of_read h
    refine ⟨w, rfl, rfl, ?_⟩
    by_contra hfits
    rw [w.readBits_chars, if_neg hfits] at h
    cases h
  · rintro ⟨w, rfl, rfl, hfits⟩
    rw [w.readBits_chars, if_pos hfits]

theorem fits_mono {few many : Nat} (hle : few ≤ many) (h : fits few n = true) :
    fits many n = true := by
  obtain ⟨hlow, hhigh⟩ := fits_iff.mp h
  have hpow : (2 : Int) ^ (few - 1) ≤ 2 ^ (many - 1) :=
    pow_le_pow_right₀ (by decide) (Nat.sub_le_sub_right hle 1)
  exact fits_iff.mpr ⟨by omega, by omega⟩

/-- The written form of an integer is a numeral of it. -/
theorem exists_numeral (n : Int) : ∃ w : Numeral, w.chars = (toString n).toList ∧ w.value = n := by
  obtain ⟨sign, hchars, hminus⟩ : ∃ sign : Sign,
      sign.chars = (if n < 0 then ['-'] else []) ∧ sign.isMinus = decide (n < 0) := by
    by_cases hneg : n < 0
    · exact ⟨.minus, by simp [hneg, Sign.chars], by simp [hneg, Sign.isMinus]⟩
    · exact ⟨.none, by simp [hneg, Sign.chars], by simp [hneg, Sign.isMinus]⟩
  refine ⟨⟨sign, digits n.natAbs, digits_ne_nil _, all_digits _⟩, ?_, ?_⟩
  · rw [toList_toString]
    unfold Numeral.chars intChars
    rw [hchars]
  · unfold Numeral.value
    rw [hminus, value_digits, signed_natAbs]

end Whole

namespace Decimal

/-- An integer is a numeral of decimals as well, without a point and without an exponent. -/
theorem read_numeral (w : Whole.Numeral) : read w.chars = .ok ⟨w.value, 0⟩ := by
  let mantissa : Mantissa :=
    ⟨w.sign, w.row, none, by simpa using w.row_ne, by simpa using w.row_digits⟩
  let numeral : Numeral := ⟨mantissa, none⟩
  have hchars : numeral.chars = w.chars := by
    simp [Numeral.chars, Numeral.exponentChars, Mantissa.chars, Mantissa.body, fractionChars,
      numeral, mantissa, Whole.Numeral.chars]
  have hvalue : numeral.unscaled = w.value := by
    simp [Numeral.unscaled, Mantissa.unscaled, Mantissa.behind, numeral, mantissa,
      Whole.Numeral.value]
  have hshift : Whole.fits 64 numeral.shift = true := rfl
  rw [← hchars, numeral.read_chars, if_pos hshift, ofScale_eq_ok]
  exact ⟨hvalue.symm, rfl⟩

end Decimal

/-! ## Kinds -/

/-- The number of a value of a whole or decimal kind. -/
def Scalar.number? : Scalar → Option ℚ
  | .byte n => some n.toInt
  | .short n => some n.toInt
  | .integer n => some n.toInt
  | .long n => some n.toInt
  | .bigInteger n => some n
  | .bigDecimal d => some d.number
  | _ => none

namespace Kind

variable {kind : Kind} {s : String} {n : Int}

/-- The kind is one of integers or decimals and has the integer. -/
def Represents (n : Int) : Kind → Prop
  | byte => Whole.fits 8 n = true
  | short => Whole.fits 16 n = true
  | integer => Whole.fits 32 n = true
  | long => Whole.fits 64 n = true
  | bigInteger | bigDecimal => True
  | _ => False

/-! ## Kinds of integers -/

/-- The kinds of integers, the narrower ones first. -/
def integers : List Kind := [byte, short, integer, long, bigInteger]

/-- Both are kinds of integers, and the first one is narrower. -/
def Narrower (a b : Kind) : Prop := [a, b].Sublist integers

/-- The kind reads the text as a value that is the integer. -/
def ReadsInteger (kind : Kind) (s : String) (n : Int) : Prop :=
  ∃ v, kind.read s = .ok v ∧ v.number? = some (n : ℚ)

/-- How a kind of integers reads: by a reader that takes the numerals whose values the kind has, and
by what is made of the integers that are read. -/
structure IntegerReader (kind : Kind) (readWhole : List Char → Except Whole.Fault Int)
    (make : Int → Scalar) : Prop where
  reads : ∀ s, kind.readReason s = ((readWhole s.toList).mapError .whole).map make
  takes : ∀ cs n, readWhole cs = .ok n ↔
    ∃ w : Whole.Numeral, w.chars = cs ∧ w.value = n ∧ kind.Represents n
  number : ∀ n, kind.Represents n → (make n).number? = some (n : ℚ)

theorem exists_reader (h : kind ∈ integers) :
    ∃ readWhole make, kind.IntegerReader readWhole make := by
  cases kind
  case byte =>
    refine ⟨Whole.readBits 8, fun n => .byte (Int8.ofInt n), fun _ => rfl,
      fun _ _ => Whole.readBits_eq_ok, ?_⟩
    intro n hn
    obtain ⟨hlow, hhigh⟩ := Whole.fits_iff.mp hn
    simp only [Scalar.number?, Int8.toInt_ofInt_of_le hlow hhigh]
  case short =>
    refine ⟨Whole.readBits 16, fun n => .short (Int16.ofInt n), fun _ => rfl,
      fun _ _ => Whole.readBits_eq_ok, ?_⟩
    intro n hn
    obtain ⟨hlow, hhigh⟩ := Whole.fits_iff.mp hn
    simp only [Scalar.number?, Int16.toInt_ofInt_of_le hlow hhigh]
  case integer =>
    refine ⟨Whole.readBits 32, fun n => .integer (Int32.ofInt n), fun _ => rfl,
      fun _ _ => Whole.readBits_eq_ok, ?_⟩
    intro n hn
    obtain ⟨hlow, hhigh⟩ := Whole.fits_iff.mp hn
    simp only [Scalar.number?, Int32.toInt_ofInt_of_le hlow hhigh]
  case long =>
    refine ⟨Whole.readBits 64, fun n => .long (Int64.ofInt n), fun _ => rfl,
      fun _ _ => Whole.readBits_eq_ok, ?_⟩
    intro n hn
    obtain ⟨hlow, hhigh⟩ := Whole.fits_iff.mp hn
    simp only [Scalar.number?, Int64.toInt_ofInt_of_le hlow hhigh]
  case bigInteger =>
    refine ⟨Whole.readUnbounded, .bigInteger, fun _ => rfl, ?_, fun _ _ => rfl⟩
    intro cs n
    rw [Whole.readUnbounded_eq_ok]
    simp only [Represents, and_true]
  all_goals exact absurd h (by decide)

/-- An integer is read from its digits into any kind that has it. -/
theorem readReason_toString (h : kind.Represents n) :
    ∃ v, kind.readReason (toString n) = .ok v ∧ v.number? = some (n : ℚ) := by
  obtain ⟨w, hchars, hvalue⟩ := Whole.exists_numeral n
  by_cases hkind : kind ∈ integers
  · obtain ⟨readWhole, make, hreads, htakes, hnumber⟩ := exists_reader hkind
    have hread : readWhole (toString n).toList = .ok n := (htakes _ n).mpr ⟨w, hchars, hvalue, h⟩
    refine ⟨make n, ?_, hnumber n h⟩
    rw [hreads, hread]
    rfl
  · have hdecimal : kind = bigDecimal := by
      cases kind
      case bigDecimal => rfl
      all_goals simp_all [integers, Represents]
    have hread : Decimal.read (toString n).toList = .ok ⟨n, 0⟩ := by
      rw [← hchars, Decimal.read_numeral, hvalue]
    refine ⟨.bigDecimal ⟨n, 0⟩, ?_, ?_⟩
    · rw [hdecimal]
      unfold readReason
      simp only [hread]
      rfl
    · simp [Scalar.number?, Decimal.number]

/-- A kind of integers reads the numerals whose values it has, and no other text. -/
theorem readsInteger_iff (h : kind ∈ integers) : kind.ReadsInteger s n ↔
    ∃ w : Whole.Numeral, w.chars = s.toList ∧ w.value = n ∧ kind.Represents n := by
  obtain ⟨readWhole, make, hreads, htakes, hnumber⟩ := exists_reader h
  unfold ReadsInteger read
  simp only [hreads, Outcome.mapError_eq_ok, Outcome.map_eq_ok, ← htakes]
  refine ⟨?_, ?_⟩
  · rintro ⟨v, ⟨m, hread, rfl⟩, hn⟩
    obtain ⟨_, _, _, hm⟩ := (htakes _ _).mp hread
    rw [hnumber m hm, Option.some.injEq, Int.cast_inj] at hn
    rw [← hn]
    exact hread
  · intro hread
    obtain ⟨_, _, _, hn⟩ := (htakes _ _).mp hread
    exact ⟨make n, ⟨n, hread, rfl⟩, hnumber n hn⟩

theorem exists_readsInteger (h : kind ∈ integers) {v : Scalar} (hread : kind.read s = .ok v) :
    ∃ n, kind.ReadsInteger s n := by
  obtain ⟨readWhole, make, hreads, htakes, hnumber⟩ := exists_reader h
  unfold read at hread
  rw [Outcome.mapError_eq_ok, hreads, Outcome.map_eq_ok] at hread
  obtain ⟨n, hn, rfl⟩ := hread
  rw [Outcome.mapError_eq_ok, htakes] at hn
  exact ⟨n, (readsInteger_iff h).mpr hn⟩

/-! ## Narrower kinds -/

theorem Narrower.mem {a b : Kind} (h : Narrower a b) : a ∈ integers ∧ b ∈ integers := by
  refine ⟨h.subset ?_, h.subset ?_⟩
  · simp
  · simp

/-- Every integer of the first kind is one of the second. -/
def Within (a b : Kind) : Prop := ∀ n, a.Represents n → b.Represents n

theorem within_trans : IsTrans Kind Within := ⟨fun _ _ _ hab hbc n hn => hbc n (hab n hn)⟩

/-- A wider kind has all integers of a narrower one. -/
theorem Narrower.within {a b : Kind} (h : Narrower a b) : Within a b := by
  have htrans := within_trans
  have hchain : integers.IsChain Within := by
    refine .cons_cons ?_ (.cons_cons ?_ (.cons_cons ?_ (.cons_cons ?_ (.singleton _))))
    · exact fun n => Whole.fits_mono (show 8 ≤ 16 by decide)
    · exact fun n => Whole.fits_mono (show 16 ≤ 32 by decide)
    · exact fun n => Whole.fits_mono (show 32 ≤ 64 by decide)
    · exact fun n _ => trivial
  have hordered : integers.Pairwise Within := List.isChain_iff_pairwise.mp hchain
  exact List.pairwise_iff_forall_sublist.mp hordered h

/-! ## The law -/

/-- Of two kinds of integers the wider one reads what the narrower one does, at the same value, and
the narrower one reads what the wider one does as long as it has the value. The kind without limits
reads a sign or none and one or more digits, and nothing else; and what it reads is read as a
decimal of the same digits and the scale zero. -/
theorem integer_readers_agree (s : String) :
    (∀ a b n, Narrower a b → a.ReadsInteger s n → b.ReadsInteger s n) ∧
    (∀ a b n, Narrower a b → b.ReadsInteger s n → a.Represents n → a.ReadsInteger s n) ∧
    ((∃ v, bigInteger.read s = .ok v) ↔ ∃ w : Whole.Numeral, w.chars = s.toList) ∧
    ∀ n, bigInteger.ReadsInteger s n → bigDecimal.read s = .ok (.bigDecimal ⟨n, 0⟩) := by
  have hbig : ∀ n, bigInteger.ReadsInteger s n ↔
      ∃ w : Whole.Numeral, w.chars = s.toList ∧ w.value = n := by
    intro n
    rw [readsInteger_iff (by decide)]
    simp only [Represents, and_true]
  refine ⟨?_, ?_, ?_, ?_⟩
  · intro a b n hnarrower hread
    obtain ⟨ha, hb⟩ := hnarrower.mem
    obtain ⟨w, hchars, hvalue, hn⟩ := (readsInteger_iff ha).mp hread
    exact (readsInteger_iff hb).mpr ⟨w, hchars, hvalue, hnarrower.within n hn⟩
  · intro a b n hnarrower hread hn
    obtain ⟨ha, hb⟩ := hnarrower.mem
    obtain ⟨w, hchars, hvalue, _⟩ := (readsInteger_iff hb).mp hread
    exact (readsInteger_iff ha).mpr ⟨w, hchars, hvalue, hn⟩
  · refine ⟨?_, ?_⟩
    · rintro ⟨v, hread⟩
      obtain ⟨n, hn⟩ := exists_readsInteger (by decide) hread
      obtain ⟨w, hchars, _⟩ := (hbig n).mp hn
      exact ⟨w, hchars⟩
    · rintro ⟨w, hchars⟩
      obtain ⟨v, hread, _⟩ := (hbig w.value).mpr ⟨w, hchars, rfl⟩
      exact ⟨v, hread⟩
  · intro n hread
    obtain ⟨w, hchars, rfl⟩ := (hbig n).mp hread
    unfold read readReason
    simp only [← hchars, Decimal.read_numeral]
    rfl

/-- A long integer with a zero in front is a byte, so it is read as one, and as the same number by
the wider kinds and the kind of decimals. -/
theorem a_byte_with_a_zero_in_front_is_read_by_all_kinds :
    long.ReadsInteger "-042" (-42) ∧ byte.Represents (-42) ∧ byte.ReadsInteger "-042" (-42) ∧
      bigInteger.ReadsInteger "-042" (-42) ∧ (∃ w : Whole.Numeral, w.chars = "-042".toList) ∧
      bigDecimal.read "-042" = .ok (.bigDecimal ⟨-42, 0⟩) := by
  obtain ⟨hwider, hnarrower, hgrammar, hdecimal⟩ := integer_readers_agree "-042"
  have hlong : long.ReadsInteger "-042" (-42) :=
    ⟨.long (-42), by decide +kernel, by simp [Scalar.number?]⟩
  have hfits : byte.Represents (-42) := by
    unfold Represents
    decide
  have hbyte : byte.ReadsInteger "-042" (-42) :=
    hnarrower byte long (-42) (show [byte, long].Sublist integers by decide) hlong hfits
  have hbig : bigInteger.ReadsInteger "-042" (-42) :=
    hwider byte bigInteger (-42) (show [byte, bigInteger].Sublist integers by decide) hbyte
  have hread : ∃ v, bigInteger.read "-042" = .ok v := Exists.imp (fun _ h => h.1) hbig
  exact ⟨hlong, hfits, hbyte, hbig, hgrammar.mp hread, hdecimal (-42) hbig⟩

end Kind

end ManagementSchema
