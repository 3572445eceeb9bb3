-- Decimal numbers with a scale: an integer of any size and the count of its
-- digits that stand behind the point. `2.0` and `2.00` are different decimals
-- with the same number.

import ManagementSchema.Number.Whole
import ManagementSchema.Text.Cut

namespace ManagementSchema

/-- The number `unscaled * 10 ^ (-scale)`. -/
structure Decimal where
  unscaled : Int
  scale : Int32
  deriving DecidableEq, Repr

namespace Decimal

/-- How many digits the unscaled value has. -/
def digitCount (d : Decimal) : Nat := (Whole.digits d.unscaled.natAbs).length

/-- The power of ten that the leading digit counts. -/
def leadingExponent (d : Decimal) : Int := d.digitCount - 1 - d.scale.toInt

/-! ## Order -/

/-- How many digits more than `b` the decimal `a` has behind the point. -/
def scaleGap (a b : Decimal) : Int := a.scale.toInt - b.scale.toInt

section Compare

variable {m : Type → Type} [Monad m] (power : Nat → m Nat)

/-- Compares the sizes of two decimals other than zero, with powers of ten that it asks for. The
leading digits decide if they count different powers of ten; if not, the shorter one is brought to
the scale of the longer one. -/
def compareSizeBy (a b : Decimal) : m Ordering :=
  match compare a.leadingExponent b.leadingExponent with
  | .eq =>
    let gap := scaleGap a b
    if 0 ≤ gap then
      return compare a.unscaled.natAbs (b.unscaled.natAbs * (← power gap.toNat))
    else
      return compare (a.unscaled.natAbs * (← power (-gap).toNat)) b.unscaled.natAbs
  | unequal => return unequal

/-- Compares two decimals as numbers, with powers of ten that it asks for. -/
def compareNumericBy (a b : Decimal) : m Ordering :=
  match compare a.unscaled.sign b.unscaled.sign with
  | .eq =>
    if a.unscaled = 0 then return .eq
    else if a.unscaled < 0 then return (← compareSizeBy power a b).swap
    else compareSizeBy power a b
  | unequal => return unequal

end Compare

/-- A power of ten. -/
def powerOfTen (exponent : Nat) : Id Nat := pure (Nat.pow 10 exponent)

/-- Compares two decimals as numbers, whatever their scales. -/
def compareNumeric (a b : Decimal) : Ordering := (compareNumericBy powerOfTen a b).run

/-! ## Written form -/

/-- The least leading exponent that is still written without an exponent. -/
def leastPlainExponent : Int := -6

/-- The digits with a point before the last `scale` of them, filled up with zeros. -/
def pointed (digits : List Char) (scale : Nat) : List Char :=
  if scale < digits.length then
    digits.take (digits.length - scale) ++ '.' :: digits.drop (digits.length - scale)
  else '0' :: '.' :: List.replicate (scale - digits.length) '0' ++ digits

/-- The digits with a point after the first one, if more follow. -/
def pointedAfterFirst : List Char → List Char
  | c :: d :: rest => c :: '.' :: d :: rest
  | digits => digits

/-- An exponent, with a sign in any case; zero is left out. -/
def exponentText (e : Int) : List Char :=
  if e = 0 then []
  else if 0 < e then 'E' :: '+' :: Whole.digits e.natAbs
  else 'E' :: '-' :: Whole.digits e.natAbs

/-- The decimal in its one written form, as characters. -/
def chars (d : Decimal) : List Char :=
  let digits := Whole.digits d.unscaled.natAbs
  let sign := if d.unscaled < 0 then ['-'] else []
  if d.scale.toInt = 0 then sign ++ digits
  else if 0 < d.scale.toInt ∧ leastPlainExponent ≤ d.leadingExponent then
    sign ++ pointed digits d.scale.toInt.toNat
  else sign ++ pointedAfterFirst digits ++ exponentText d.leadingExponent

/-- The decimal in its one written form: plain while the scale is not negative and the leading
digit not too far behind the point, else with an exponent. -/
protected def toString (d : Decimal) : String := String.ofList d.chars

/-! ## Reading -/

/-- Why a text is not a decimal. -/
inductive Fault where
  | noDigits
  | badDigit
  | badExponent
  | scaleOutOfRange
  deriving DecidableEq, Repr

/-- The wording of a fault. -/
def Fault.message : Fault → String
  | .noDigits => "no digits"
  | .badDigit => "invalid digit"
  | .badExponent => "malformed exponent"
  | .scaleOutOfRange => "scale out of range"

/-- What stands before the first `e` or `E`, and what stands after it if there is one. -/
def cutExponent : List Char → List Char × Option (List Char)
  | [] => ([], none)
  | c :: rest =>
    if c = 'e' ∨ c = 'E' then ([], some rest)
    else
      let (before, after) := cutExponent rest
      (c :: before, after)

/-- Reads the part after the `e`: one plus sign may stand in front of an integer that has its
own sign. -/
def readExponent : List Char → Except Fault Int
  | '+' :: '+' :: _ => .error .badExponent
  | '+' :: body => (Whole.readBits 64 body).mapError fun _ => .badExponent
  | body => (Whole.readBits 64 body).mapError fun _ => .badExponent

/-- The decimal with the scale, if it has 32 bits. -/
def ofScale (unscaled scale : Int) : Except Fault Decimal :=
  if Whole.fits 32 scale then .ok ⟨unscaled, Int32.ofInt scale⟩
  else .error .scaleOutOfRange

/-- Reads a decimal: a sign, digits with one point among them, an exponent; all but one digit
may be missing. -/
def read (cs : List Char) : Except Fault Decimal := do
  let (mantissa, exponent) := cutExponent cs
  let (negative, body) := Whole.dropSign mantissa
  let (front, behind) := (Text.cut '.' body).getD (body, [])
  if front.isEmpty && behind.isEmpty then throw .noDigits
  if !(front ++ behind).all Char.isDigit then throw .badDigit
  let shift ← match exponent with
    | some body => readExponent body
    | none => pure 0
  ofScale (Whole.signed negative (Whole.value (front ++ behind))) (behind.length - shift)

end Decimal

end ManagementSchema
