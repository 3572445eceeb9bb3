-- Integers written and read back. The digits of a number are read as that
-- number, and a minus in front of them makes it negative; the range of the
-- reader only has to have the number in it.
import Mathlib.Data.Nat.Digits.Defs
import ManagementSchema.Number.Whole
import ManagementSchema.Proofs.Outcome

namespace ManagementSchema

namespace Whole

variable {cs ds : List Char} {n : Nat}

/-! ## Digits -/

theorem value_digits (n : Nat) : value (digits n) = n := Nat.ofDigitChars_ten_toDigits

theorem isDigit_of_mem_digits {c : Char} (h : c ∈ digits n) : c.isDigit = true :=
  Nat.isDigit_of_mem_toDigits (by decide) (by decide) h

theorem all_digits (n : Nat) : (digits n).all Char.isDigit = true :=
  List.all_eq_true.mpr fun _ => isDigit_of_mem_digits

theorem digits_ne_nil (n : Nat) : digits n ≠ [] := Nat.toDigits_ne_nil

/-- A number has some first digit. -/
theorem exists_digits_cons (n : Nat) : ∃ c rest, digits n = c :: rest ∧ c.isDigit = true := by
  rcases h : digits n with _ | ⟨c, rest⟩
  · exact absurd h (digits_ne_nil n)
  · have hmem : c ∈ digits n := by rw [h]; exact List.mem_cons_self
    exact ⟨c, rest, rfl, isDigit_of_mem_digits hmem⟩

theorem length_digits_le {width : Nat} (hwidth : 0 < width) (h : n < 10 ^ width) :
    (digits n).length ≤ width :=
  (Nat.length_toDigits_le_iff (by decide) hwidth).mpr h

theorem value_append (cs ds : List Char) :
    value (cs ++ ds) = 10 ^ ds.length * value cs + value ds := by
  unfold value
  rw [Nat.ofDigitChars_eq_foldl, List.foldl_append, ← Nat.ofDigitChars_eq_foldl,
    ← Nat.ofDigitChars_eq_foldl, Nat.ofDigitChars_eq_ofDigitChars_zero]

theorem value_zeros (count : Nat) : value (List.replicate count '0') = 0 := by
  unfold value
  rw [Nat.ofDigitChars_replicate_zero]
  simp

theorem not_sign_of_isDigit {c : Char} (h : c.isDigit = true) : c ≠ '-' ∧ c ≠ '+' := by
  refine ⟨?_, ?_⟩
  · rintro rfl
    cases h
  · rintro rfl
    cases h

/-! ## Reading digits -/

theorem le_ofDigitChars (ds : List Char) (n : Nat) : n ≤ Nat.ofDigitChars 10 ds n := by
  induction ds generalizing n with
  | nil => exact Nat.le_refl n
  | cons c rest ih =>
    rw [Nat.ofDigitChars_cons]
    have hnext := ih (10 * n + (c.toNat - '0'.toNat))
    omega

theorem ofDigitChars_lt (hdigits : ds.all Char.isDigit = true) (n : Nat) :
    Nat.ofDigitChars 10 ds n < (n + 1) * 10 ^ ds.length := by
  induction ds generalizing n with
  | nil => simp
  | cons c rest ih =>
    rw [List.all_cons, Bool.and_eq_true] at hdigits
    have hdigit : c.toNat - '0'.toNat ≤ 9 := by
      have hc := hdigits.1
      unfold Char.isDigit at hc
      rw [Bool.and_eq_true, decide_eq_true_eq, decide_eq_true_eq] at hc
      have hhigh : c.toNat ≤ 57 := hc.2
      have hzero : '0'.toNat = 48 := rfl
      omega
    rw [Nat.ofDigitChars_cons, List.length_cons]
    calc Nat.ofDigitChars 10 rest (10 * n + (c.toNat - '0'.toNat))
        < (10 * n + (c.toNat - '0'.toNat) + 1) * 10 ^ rest.length := ih hdigits.2 _
      _ ≤ ((n + 1) * 10) * 10 ^ rest.length := Nat.mul_le_mul_right _ (by omega)
      _ = (n + 1) * 10 ^ (rest.length + 1) := by rw [Nat.pow_succ', Nat.mul_assoc]

/-- So many digits write less than that power of ten. -/
theorem value_lt (hdigits : cs.all Char.isDigit = true) : value cs < 10 ^ cs.length := by
  have hless := ofDigitChars_lt hdigits 0
  unfold value
  omega

/-- A number other than zero lies between the two powers of ten that its count of digits tells. -/
theorem digits_bounds (h : n ≠ 0) :
    10 ^ ((digits n).length - 1) ≤ n ∧ n < 10 ^ (digits n).length := by
  have hcount : 0 < (digits n).length := List.length_pos_iff.mpr (digits_ne_nil n)
  refine ⟨?_, ?_⟩
  · by_contra hless
    by_cases hone : (digits n).length = 1
    · rw [hone] at hless
      omega
    · have hshort : (digits n).length ≤ (digits n).length - 1 :=
        length_digits_le (by omega) (by omega)
      omega
  · have hvalue := value_lt (all_digits n)
    rw [value_digits] at hvalue
    exact hvalue

/-- Digits are read to their end when the whole number keeps to the limit: it only grows on the
way. -/
theorem readDigits_eq {limit : Nat} {beyond : Fault} (hdigits : ds.all Char.isDigit = true)
    (hlimit : Nat.ofDigitChars 10 ds n ≤ limit) :
    readDigits limit beyond n ds = .ok (Nat.ofDigitChars 10 ds n) := by
  induction ds generalizing n with
  | nil => rfl
  | cons c rest ih =>
    rw [List.all_cons, Bool.and_eq_true] at hdigits
    rw [Nat.ofDigitChars_cons] at hlimit ⊢
    have hnext : 10 * n + digitValue c ≤ limit :=
      Nat.le_trans (le_ofDigitChars rest _) hlimit
    unfold readDigits
    simp only [hdigits.1, if_true, hnext]
    exact ih hdigits.2 hlimit

theorem readDigits_digits {limit : Nat} {beyond : Fault} (h : n ≤ limit) :
    readDigits limit beyond 0 (digits n) = .ok n := by
  have hvalue : Nat.ofDigitChars 10 (digits n) 0 = n := value_digits n
  rw [readDigits_eq (all_digits n) (by rw [hvalue]; exact h), hvalue]

/-! ## Integers -/

/-- The written form of an integer. -/
def intChars (n : Int) : List Char := (if n < 0 then ['-'] else []) ++ digits n.natAbs

theorem toList_toString (n : Int) : (toString n).toList = intChars n := by
  unfold intChars
  rw [Int.toString_eq_repr]
  cases n with
  | ofNat m =>
    rw [if_neg (by simp)]
    simp [Int.repr, Nat.repr_eq_ofList_toDigits, digits]
  | negSucc m =>
    rw [if_pos (Int.negSucc_lt_zero m)]
    simp [Int.repr, Nat.repr_eq_ofList_toDigits, digits]

theorem read_unsigned {low high : Int} {c : Char} {rest : List Char} (hc : c.isDigit = true) :
    read low high (c :: rest) = (readDigits high.natAbs .tooLarge 0 (c :: rest)).map Int.ofNat := by
  obtain ⟨hminus, hplus⟩ := not_sign_of_isDigit hc
  unfold read
  split
  all_goals simp_all

theorem read_minus {low high : Int} {c : Char} {rest : List Char} :
    read low high ('-' :: c :: rest) =
      (readDigits low.natAbs .tooSmall 0 (c :: rest)).map fun n => -(n : Int) := rfl

/-- An integer of the range is read from its written form. -/
theorem read_intChars {low high n : Int} (hlow : low ≤ n) (hhigh : n ≤ high) :
    read low high (intChars n) = .ok n := by
  obtain ⟨c, rest, hcs, hc⟩ := exists_digits_cons n.natAbs
  unfold intChars
  by_cases hneg : n < 0
  · have hread : readDigits low.natAbs .tooSmall 0 (digits n.natAbs) = .ok n.natAbs :=
      readDigits_digits (by omega)
    have hvalue : -(n.natAbs : Int) = n := by omega
    rw [if_pos hneg, hcs, List.singleton_append, read_minus, ← hcs, hread]
    exact congrArg Except.ok hvalue
  · have hread : readDigits high.natAbs .tooLarge 0 (digits n.natAbs) = .ok n.natAbs :=
      readDigits_digits (by omega)
    have hvalue : (n.natAbs : Int) = n := by omega
    rw [if_neg hneg, List.nil_append, hcs, read_unsigned hc, ← hcs, hread]
    exact congrArg Except.ok hvalue

theorem readBits_intChars {bits : Nat} {n : Int} (h : fits bits n = true) :
    readBits bits (intChars n) = .ok n := by
  unfold fits at h
  rw [Bool.and_eq_true, decide_eq_true_eq, decide_eq_true_eq] at h
  exact read_intChars h.1 h.2

theorem fits_iff {bits : Nat} {n : Int} :
    fits bits n = true ↔ -2 ^ (bits - 1) ≤ n ∧ n < 2 ^ (bits - 1) := by
  have hpow : ((Nat.pow 2 (bits - 1) : Nat) : Int) = 2 ^ (bits - 1) := by
    rw [Nat.pow_eq, Int.natCast_pow]
    rfl
  unfold fits least greatest
  rw [hpow, Bool.and_eq_true, decide_eq_true_eq, decide_eq_true_eq]
  omega

theorem fits_int8 (n : Int8) : fits 8 n.toInt = true := fits_iff.mpr ⟨n.le_toInt, n.toInt_lt⟩

theorem fits_int16 (n : Int16) : fits 16 n.toInt = true := fits_iff.mpr ⟨n.le_toInt, n.toInt_lt⟩

theorem fits_int32 (n : Int32) : fits 32 n.toInt = true := fits_iff.mpr ⟨n.le_toInt, n.toInt_lt⟩

theorem fits_int64 (n : Int64) : fits 64 n.toInt = true := fits_iff.mpr ⟨n.le_toInt, n.toInt_lt⟩

/-! ## Signs -/

theorem dropSign_unsigned {c : Char} {rest : List Char} (hc : c.isDigit = true) :
    dropSign (c :: rest) = (false, c :: rest) := by
  obtain ⟨hminus, hplus⟩ := not_sign_of_isDigit hc
  unfold dropSign
  split
  all_goals simp_all

/-- A sign in front of digits is taken off and told. -/
theorem dropSign_intChars (negative : Bool) {c : Char} {rest : List Char} (hc : c.isDigit = true) :
    dropSign ((if negative then ['-'] else []) ++ c :: rest) = (negative, c :: rest) := by
  cases negative with
  | true => rfl
  | false => exact dropSign_unsigned hc

theorem signed_natAbs (n : Int) : signed (n < 0) n.natAbs = n := by
  unfold signed
  by_cases hneg : n < 0
  · simp only [hneg, decide_true, if_true]
    omega
  · simp only [hneg, decide_false, Bool.false_eq_true, if_false]
    omega

theorem natAbs_signed (negative : Bool) (n : Nat) : (signed negative n).natAbs = n := by
  unfold signed
  split <;> omega

/-! ## Any size -/

/-- An integer of any size is read from its written form. -/
theorem readUnbounded_intChars (n : Int) : readUnbounded (intChars n) = .ok n := by
  obtain ⟨c, rest, hcs, hc⟩ := exists_digits_cons n.natAbs
  have hall : (digits n.natAbs).all Char.isDigit = true := all_digits n.natAbs
  have hsign : dropSign (intChars n) = (decide (n < 0), digits n.natAbs) := by
    unfold intChars
    rw [hcs, ← dropSign_intChars (n < 0) hc]
    simp
  unfold readUnbounded
  rw [hsign]
  simp only [hall, value_digits, signed_natAbs]
  simp [digits_ne_nil]

/-- What is neither digit nor sign stands in no integer. -/
theorem readUnbounded_eq_error {c : Char} (hc : c ∈ cs)
    (hplain : c.isDigit = false ∧ c ≠ '-' ∧ c ≠ '+') : readUnbounded cs = .error .badDigit := by
  obtain ⟨hdigit, hminus, hplus⟩ := hplain
  have hbody : c ∈ (dropSign cs).2 := by
    unfold dropSign
    split
    all_goals simp_all
  have hall : (dropSign cs).2.all Char.isDigit = false := by
    rw [List.all_eq_false]
    exact ⟨c, hbody, by simp [hdigit]⟩
  unfold readUnbounded
  simp [hall]

end Whole

end ManagementSchema
