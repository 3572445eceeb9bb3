-- Constraints by texts and constraints by values. The reader of a kind takes
-- back what values of the kind are written as, so to state a constraint by
-- the text of a value is to state it by the value.
import ManagementSchema.Proofs.DecimalText
import ManagementSchema.Proofs.InstantText
import ManagementSchema.Proofs.ObjectNameText
import ManagementSchema.Proofs.ValidationRules

namespace ManagementSchema

/-! ## Single values -/

/-- Values as they can be made: the leading digit of a decimal is counted in 64 bits, dates are
within the calendar and of whole milliseconds, and names of managed objects come from a domain and
properties. A leap second of a date is at the end of a minute, as those that are read or counted have
it; a date that is given as an instant may have it anywhere, and such dates are left out. -/
def Scalar.Sound : Scalar → Prop
  | .bigDecimal d => Whole.fits 64 d.leadingExponent = true
  | .date t => t.Sound ∧ t.nano % 1000000 = 0
  | .objectName n => ∃ domain properties, ObjectName.ofProperties domain properties = .ok n
  | _ => True

namespace Kind

/-- The kinds whose values are read exactly as they were written. -/
def Readable (k : Kind) : Prop := k ≠ .void ∧ k ≠ .float ∧ k ≠ .double

theorem readWord_toString {bits : Nat} {n : Int} (h : Whole.fits bits n = true) :
    readWord bits (toString n).toList = .ok n := by
  unfold readWord
  rw [Whole.toList_toString, Whole.readBits_intChars h]
  rfl

/-- The reader of a kind takes back the written form of its values. -/
theorem readReason_text {s : Scalar} (hkind : s.kind.Readable) (h : s.Sound) :
    s.kind.readReason s.text = .ok s := by
  obtain ⟨_, hfloat, hdouble⟩ := hkind
  cases s with
  | boolean b => cases b <;> decide
  | character c => simp [readReason, Scalar.text, Scalar.kind, readCharacter]
  | byte n =>
    simp only [Scalar.kind, Scalar.text, readReason, readWord_toString (Whole.fits_int8 n)]
    exact congrArg (Except.ok ∘ Scalar.byte) (Int8.ofInt_toInt n)
  | short n =>
    simp only [Scalar.kind, Scalar.text, readReason, readWord_toString (Whole.fits_int16 n)]
    exact congrArg (Except.ok ∘ Scalar.short) (Int16.ofInt_toInt n)
  | integer n =>
    simp only [Scalar.kind, Scalar.text, readReason, readWord_toString (Whole.fits_int32 n)]
    exact congrArg (Except.ok ∘ Scalar.integer) (Int32.ofInt_toInt n)
  | long n =>
    simp only [Scalar.kind, Scalar.text, readReason, readWord_toString (Whole.fits_int64 n)]
    exact congrArg (Except.ok ∘ Scalar.long) (Int64.ofInt_toInt n)
  | float bits => exact absurd rfl hfloat
  | double bits => exact absurd rfl hdouble
  | string s => rfl
  | bigDecimal d =>
    simp only [Scalar.kind, Scalar.text, readReason, Decimal.read_toString h]
    rfl
  | bigInteger n =>
    simp only [Scalar.kind, Scalar.text, readReason, Whole.toList_toString,
      Whole.readUnbounded_intChars n]
    rfl
  | date t =>
    obtain ⟨hsound, hwhole⟩ := h
    simp only [Scalar.kind, Scalar.text, readReason, Instant.read_toString hsound,
      Instant.wholeMillis_eq_self.mpr hwhole]
    rfl
  | objectName n =>
    obtain ⟨domain, properties, hname⟩ := h
    simp only [Scalar.kind, Scalar.text, readReason,
      ObjectName.read_canonical (ObjectName.sound_of_ofProperties hname)]
    rfl

/-- What a kind reads from a text is a value as it can be made, if it is no date in a leap second
after the last second of the calendar. -/
theorem sound_of_readReason {k : Kind} {text : String} {s : Scalar}
    (hlength : text.length ≤ 2 ^ 62) (hdate : ∀ t, s = .date t → ¬ t.AfterLatest)
    (h : k.readReason text = .ok s) : s.Sound := by
  have hkind := kind_of_readReason h
  cases s
  case bigDecimal d =>
    obtain rfl : Kind.bigDecimal = k := hkind
    obtain ⟨_, hread, heq⟩ := Outcome.map_eq_ok.mp h
    cases heq
    have hcount := Decimal.digitCount_le_of_read (Outcome.mapError_eq_ok.mp hread)
    rw [String.length_toList] at hcount
    have hsize : d.digitCount < Decimal.rowLimit :=
      Nat.lt_of_le_of_lt (Nat.le_trans hcount hlength) (by decide)
    exact Decimal.fits_leadingExponent hsize
  case date t =>
    obtain rfl : Kind.date = k := hkind
    obtain ⟨_, hread, heq⟩ := Outcome.map_eq_ok.mp h
    cases heq
    obtain ⟨hsound, hwhole⟩ := Instant.sound_of_read (Outcome.mapError_eq_ok.mp hread)
    exact ⟨hsound, hwhole.resolve_right (hdate t rfl)⟩
  case objectName n =>
    obtain rfl : Kind.objectName = k := hkind
    obtain ⟨_, hread, heq⟩ := Outcome.map_eq_ok.mp h
    cases heq
    exact ObjectName.ofProperties_of_read (Outcome.mapError_eq_ok.mp hread)
  all_goals exact trivial

/-- What was read from a text is read again from its own written form. -/
theorem readReason_text_of_readReason {k : Kind} {text : String} {s : Scalar} (hkind : k.Readable)
    (hlength : text.length ≤ 2 ^ 62) (hdate : ∀ t, s = .date t → ¬ t.AfterLatest)
    (h : k.readReason text = .ok s) : k.readReason s.text = .ok s := by
  obtain rfl := kind_of_readReason h
  exact readReason_text hkind (sound_of_readReason hlength hdate h)

end Kind

/-! ## Fields -/

/-- All values that are given. -/
def ConstraintValues.all (values : ConstraintValues) : List Value :=
  values.default.toList ++ values.min.toList ++ values.max.toList ++ values.legal.getD []

/-- The fields that state the values by their written forms, the legal ones as a collection. -/
def ConstraintValues.texts (values : ConstraintValues) (collection : List Raw → Raw) :
    ConstraintFields :=
  let textOf (v : Value) : Raw := .text v.toString
  ⟨values.default.map textOf, values.min.map textOf, values.max.map textOf,
    values.legal.map fun legal => collection (legal.map textOf)⟩

/-- The value is a single one as it can be made. -/
def Value.Sound : Value → Prop
  | .scalar s => s.Sound
  | _ => True

section TextualPath

variable {kind : Kind} {v : Value} (c : Conversions)

/-- The value is one of the kind, and as it can be made. -/
def Kind.Holds (kind : Kind) (v : Value) : Prop :=
  (OpenType.simple kind).hasValue v = true ∧ v.Sound

end TextualPath

end ManagementSchema
