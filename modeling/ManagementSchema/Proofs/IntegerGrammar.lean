-- The grammar of integers: at most one sign and at least one digit. The readers of
-- integers take no other texts, and they take each of these that has its value in
-- the range of the reader.
import ManagementSchema.Proofs.IntegerText

namespace ManagementSchema

namespace Whole

variable {cs ds : List Char} {low high : Int} {limit n : Nat} {beyond : Fault}

/-! ## Signs -/

/-- What may stand in front of digits. -/
inductive Sign where
  | none
  | plus
  | minus

/-- The sign as it is written. -/
def Sign.chars : Sign → List Char
  | none => []
  | plus => ['+']
  | minus => ['-']

/-- The sign is a minus. -/
def Sign.isMinus : Sign → Bool
  | minus => true
  | _ => false

/-- A sign in front of what holds no sign is taken off and told. -/
theorem dropSign_chars (sign : Sign) (hminus : '-' ∉ cs) (hplus : '+' ∉ cs) :
    dropSign (sign.chars ++ cs) = (sign.isMinus, cs) := by
  cases sign with
  | plus => rfl
  | minus => rfl
  | none =>
    show dropSign cs = (false, cs)
    unfold dropSign
    split
    · simp at hminus
    · simp at hplus
    · rfl

/-- What is taken off a text is a sign. -/
theorem exists_sign (cs : List Char) :
    ∃ sign : Sign, sign.isMinus = (dropSign cs).1 ∧ sign.chars ++ (dropSign cs).2 = cs := by
  unfold dropSign
  split
  · exact ⟨.minus, rfl, rfl⟩
  · exact ⟨.plus, rfl, rfl⟩
  · exact ⟨.none, rfl, rfl⟩

theorem no_sign_of_digits (hdigits : ds.all Char.isDigit = true) : '-' ∉ ds ∧ '+' ∉ ds := by
  rw [List.all_eq_true] at hdigits
  refine ⟨?_, ?_⟩
  · intro hmem
    exact absurd (hdigits '-' hmem) (by decide)
  · intro hmem
    exact absurd (hdigits '+' hmem) (by decide)

theorem exists_cons_of_digits (hne : ds ≠ []) (hdigits : ds.all Char.isDigit = true) :
    ∃ c rest, ds = c :: rest ∧ c.isDigit = true := by
  obtain ⟨c, rest, rfl⟩ := List.exists_cons_of_ne_nil hne
  rw [List.all_cons, Bool.and_eq_true] at hdigits
  exact ⟨c, rest, rfl, hdigits.1⟩

/-! ## Numerals -/

/-- An integer as it may be written: a sign or none, and at least one digit. -/
structure Numeral where
  sign : Sign
  row : List Char
  row_ne : row ≠ []
  row_digits : row.all Char.isDigit = true

namespace Numeral

/-- The characters of the numeral. -/
def chars (w : Numeral) : List Char := w.sign.chars ++ w.row

/-- The integer that the numeral writes. -/
def value (w : Numeral) : Int := signed w.sign.isMinus (Whole.value w.row)

theorem dropSign_chars (w : Numeral) : dropSign w.chars = (w.sign.isMinus, w.row) := by
  obtain ⟨hminus, hplus⟩ := no_sign_of_digits w.row_digits
  exact Whole.dropSign_chars w.sign hminus hplus

/-- Behind its sign a numeral has digits only. -/
theorem digits_dropSign (w : Numeral) : (dropSign w.chars).2.all Char.isDigit = true := by
  rw [dropSign_chars]
  exact w.row_digits

/-- The numeral of an integer that has a sign in any case. -/
def ofInt (e : Int) : Numeral where
  sign := if e < 0 then .minus else .plus
  row := digits e.natAbs
  row_ne := digits_ne_nil e.natAbs
  row_digits := all_digits e.natAbs

theorem chars_ofInt (e : Int) :
    (ofInt e).chars = (if e < 0 then '-' else '+') :: digits e.natAbs := by
  unfold chars ofInt
  by_cases hneg : e < 0
  · rw [if_pos hneg, if_pos hneg]
    rfl
  · rw [if_neg hneg, if_neg hneg]
    rfl

theorem value_ofInt (e : Int) : (ofInt e).value = e := by
  have hminus : (ofInt e).sign.isMinus = decide (e < 0) := by
    unfold ofInt
    by_cases hneg : e < 0
    · simp [hneg, Sign.isMinus]
    · simp [hneg, Sign.isMinus]
  unfold value
  rw [hminus, show (ofInt e).row = digits e.natAbs from rfl, value_digits, signed_natAbs]

/-- Numerals with the same characters write the same integer. -/
theorem value_eq_of_chars_eq {v w : Numeral} (h : v.chars = w.chars) : v.value = w.value := by
  have hparts := congrArg dropSign h
  rw [dropSign_chars, dropSign_chars, Prod.mk.injEq] at hparts
  unfold value
  rw [hparts.1, hparts.2]

end Numeral

/-! ## Reading in a range -/

/-- Digits are read to the first one that leads beyond the limit: it is an error wherever that is,
since the number only grows on the way. -/
theorem readDigits_eq_error (hdigits : ds.all Char.isDigit = true) (hn : n ≤ limit)
    (hbeyond : limit < Nat.ofDigitChars 10 ds n) :
    readDigits limit beyond n ds = .error beyond := by
  induction ds generalizing n with
  | nil =>
    rw [Nat.ofDigitChars_nil] at hbeyond
    omega
  | cons c rest ih =>
    rw [List.all_cons, Bool.and_eq_true] at hdigits
    rw [Nat.ofDigitChars_cons] at hbeyond
    unfold readDigits
    simp only [hdigits.1, if_true]
    by_cases hnext : 10 * n + digitValue c ≤ limit
    · rw [if_pos hnext]
      exact ih hdigits.2 hnext hbeyond
    · rw [if_neg hnext]

theorem readDigits_of_digits (hdigits : ds.all Char.isDigit = true) :
    readDigits limit beyond 0 ds = if value ds ≤ limit then .ok (value ds) else .error beyond := by
  by_cases hlimit : value ds ≤ limit
  · rw [if_pos hlimit]
    exact readDigits_eq hdigits hlimit
  · rw [if_neg hlimit]
    unfold value at hlimit
    exact readDigits_eq_error hdigits (Nat.zero_le limit) (by omega)

/-- What is read is the number of a row of digits. -/
theorem digits_of_readDigits {m : Nat} (h : readDigits limit beyond n ds = .ok m) :
    ds.all Char.isDigit = true ∧ m = Nat.ofDigitChars 10 ds n := by
  induction ds generalizing n with
  | nil =>
    cases h
    exact ⟨rfl, rfl⟩
  | cons c rest ih =>
    unfold readDigits at h
    split at h
    · rename_i hdigit
      simp only at h
      split at h
      · obtain ⟨hrest, hm⟩ := ih h
        rw [List.all_cons, hdigit, hrest, Nat.ofDigitChars_cons]
        exact ⟨rfl, hm⟩
      · cases h
    · cases h

/-- A numeral is read at its value if the value is in the range, and refused if it is not. -/
theorem Numeral.read_chars (w : Numeral) (hlow : low ≤ 0) (hhigh : 0 ≤ high) :
    read low high w.chars =
      if low ≤ w.value ∧ w.value ≤ high then .ok w.value
      else .error (if w.sign.isMinus then .tooSmall else .tooLarge) := by
  obtain ⟨sign, row, hne, hdigits⟩ := w
  obtain ⟨c, rest, hrow, hc⟩ := exists_cons_of_digits hne hdigits
  have hunsigned : read low high row =
      (readDigits high.natAbs .tooLarge 0 row).map Int.ofNat := by
    rw [hrow]
    exact read_unsigned hc
  have hplus : read low high ('+' :: row) =
      (readDigits high.natAbs .tooLarge 0 row).map Int.ofNat := by
    rw [hrow]
    rfl
  have hminus : read low high ('-' :: row) =
      (readDigits low.natAbs .tooSmall 0 row).map fun n : Nat => -(n : Int) := by
    rw [hrow, read_minus]
    cases readDigits low.natAbs .tooSmall 0 (c :: rest) <;> rfl
  rw [readDigits_of_digits hdigits, apply_ite (Except.map _)] at hunsigned hplus hminus
  unfold Numeral.chars Numeral.value signed
  -- Without a minus only the upper end of the range counts, with one only the lower end.
  cases sign with
  | none =>
    apply hunsigned.trans
    refine if_congr ?_ rfl rfl
    simp only [Sign.isMinus, Bool.false_eq_true, if_false]
    omega
  | plus =>
    apply hplus.trans
    refine if_congr ?_ rfl rfl
    simp only [Sign.isMinus, Bool.false_eq_true, if_false]
    omega
  | minus =>
    apply hminus.trans
    refine if_congr ?_ rfl rfl
    simp only [Sign.isMinus, if_true]
    omega

/-- What is read in a range is a numeral, at its value. -/
theorem numeral_of_read {m : Int} (h : read low high cs = .ok m) :
    ∃ w : Numeral, w.chars = cs ∧ w.value = m := by
  unfold read at h
  split at h
  · cases h
  · cases h
  · cases h
  · rename_i rest hne
    obtain ⟨k, hk, rfl⟩ := Outcome.map_eq_ok.mp h
    obtain ⟨n, hn, hcast⟩ := Outcome.bind_eq_ok.mp hk
    cases hcast
    obtain ⟨hdigits, rfl⟩ := digits_of_readDigits hn
    exact ⟨⟨.minus, rest, hne, hdigits⟩, rfl, rfl⟩
  · rename_i rest hne
    obtain ⟨n, hn, rfl⟩ := Outcome.map_eq_ok.mp h
    obtain ⟨hdigits, rfl⟩ := digits_of_readDigits hn
    exact ⟨⟨.plus, rest, hne, hdigits⟩, rfl, rfl⟩
  · rename_i hne _ _ _ _
    obtain ⟨n, hn, rfl⟩ := Outcome.map_eq_ok.mp h
    obtain ⟨hdigits, rfl⟩ := digits_of_readDigits hn
    exact ⟨⟨.none, cs, hne, hdigits⟩, rfl, rfl⟩

/-- A numeral of so many bits is read at its value. -/
theorem Numeral.readBits_chars (w : Numeral) (bits : Nat) :
    readBits bits w.chars =
      if fits bits w.value = true then .ok w.value
      else .error (if w.sign.isMinus then .tooSmall else .tooLarge) := by
  have hpow : 0 < Nat.pow 2 (bits - 1) := Nat.pow_pos (by decide)
  have hlow : least bits ≤ 0 := by
    unfold least
    omega
  have hhigh : 0 ≤ greatest bits := by
    unfold greatest
    omega
  unfold readBits fits
  rw [w.read_chars hlow hhigh]
  simp only [Bool.and_eq_true, decide_eq_true_eq]

end Whole

end ManagementSchema
