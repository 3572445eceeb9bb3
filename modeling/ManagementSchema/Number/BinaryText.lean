-- Binary numbers as text: a reader that rounds correctly, and the plain
-- written form, which never uses an exponent.

import ManagementSchema.Number.Shortest
import ManagementSchema.Number.Whole
import ManagementSchema.Text.Cut

namespace ManagementSchema.BinaryFormat

/-- Why a text is not a binary number. -/
inductive Fault where
  | empty
  | invalid
  deriving DecidableEq, Repr

/-- The wording of a fault. -/
def Fault.message : Fault → String
  | .empty => "cannot parse float from empty string"
  | .invalid => "invalid float literal"

/-! ## Reading -/

/-- Reads the part after the `e`: a sign and at least one digit. -/
def readExponent (cs : List Char) : Option Int :=
  let (negative, digits) := Whole.dropSign cs
  if digits.isEmpty || !digits.all Char.isDigit then none
  else some (Whole.signed negative (Whole.value digits))

/-- Reads digits with one point among them, at least one digit in all, and an exponent. -/
def readUnsigned (cs : List Char) : Option (Nat × Int) := do
  let mantissa := cs.takeWhile fun c => c ≠ 'e' && c ≠ 'E'
  let shift ← match cs.drop mantissa.length with
    | [] => some 0
    | _ :: body => readExponent body
  let (front, behind) := (Text.cut '.' mantissa).getD (mantissa, [])
  if (front ++ behind).isEmpty || !(front ++ behind).all Char.isDigit then none
  else some (Whole.value (front ++ behind), shift - behind.length)

/-- Reads a number of the format: a sign, then a name of infinity, the name of the number that
is none, or a decimal, which is rounded to the nearest number. -/
def read (f : BinaryFormat) (cs : List Char) : Except Fault Nat :=
  if cs.isEmpty then .error .empty else
  let (negative, body) := Whole.dropSign cs
  let name := String.ofList (body.map Char.toLower)
  if name = "inf" ∨ name = "infinity" then .ok (f.withSign negative f.infinity)
  else if name = "nan" then .ok (f.withSign negative f.quietNaN)
  else match readUnsigned body with
    | some (coefficient, exponent) => .ok (f.withSign negative (f.ofDecimal coefficient exponent))
    | none => .error .invalid

/-! ## Writing -/

/-- The plain form of a pattern: the shortest digits that read back, without an exponent. The
number that is none has no sign. -/
def plainChars (f : BinaryFormat) (bits : Nat) : List Char :=
  let sign := if f.isNegative bits then ['-'] else []
  match f.magnitude (f.unsigned bits) with
  | .notANumber => ['N', 'a', 'N']
  | .infinite => sign ++ ['i', 'n', 'f']
  | .finite m q => sign ++ (DigitRow.shortest f .larger (f.unsigned bits) m q).plain

/-- The plain form of a pattern as a text. -/
def plainText (f : BinaryFormat) (bits : Nat) : String := String.ofList (f.plainChars bits)

end ManagementSchema.BinaryFormat
