-- Numbers of a JSON text. A literal without point and exponent stays an
-- integer if it has at most 64 bits; every other one becomes a binary number.
-- That conversion keeps the leading digits that fit 64 bits and scales them
-- once by a power of ten, so its last bit may differ from the nearest number.

import ManagementSchema.Number.BinaryText

namespace ManagementSchema.Json

/-- A number: an integer, or a binary number of 64 bits given by its pattern. -/
inductive Number where
  | whole (n : Int)
  | real (bits : UInt64)
  deriving DecidableEq, Repr

/-- A number literal taken apart. -/
structure Literal where
  negative : Bool
  whole : List Char
  fraction : Option (List Char)
  exponent : Option (Bool × List Char)
  deriving DecidableEq, Repr

namespace Literal

/-- Digits, at least one. -/
def readDigits (cs : List Char) : Option (List Char) :=
  if cs.isEmpty || !cs.all Char.isDigit then none else some cs

/-- Digits without a leading zero, or a zero alone. -/
def readWhole (cs : List Char) : Option (List Char) :=
  if cs.head? = some '0' ∧ cs ≠ ['0'] then none else readDigits cs

/-- The exponent, after its letter. -/
def readExponent (cs : List Char) : Option (Bool × List Char) :=
  let (negative, digits) := Whole.dropSign cs
  (readDigits digits).map fun digits => (negative, digits)

/-- The parts of a literal. -/
def read (cs : List Char) : Option Literal := do
  let negative := cs.head? = some '-'
  let body := if negative then cs.drop 1 else cs
  let mantissa := body.takeWhile fun c => c ≠ 'e' && c ≠ 'E'
  let exponent ← match body.drop mantissa.length with
    | [] => some none
    | _ :: rest => (readExponent rest).map some
  match Text.cut '.' mantissa with
  | none => return ⟨negative, ← readWhole mantissa, none, exponent⟩
  | some (whole, fraction) =>
    return ⟨negative, ← readWhole whole, some (← readDigits fraction), exponent⟩

/-- Takes digits into `n` as long as it has at most 64 bits, and counts them. -/
def accumulate (n : Nat) : List Char → Nat × Nat
  | [] => (n, 0)
  | c :: rest =>
    let next := 10 * n + Whole.digitValue c
    if next < Nat.pow 2 64 then
      let (sum, count) := accumulate next rest
      (sum, count + 1)
    else (n, 0)

end Literal

namespace Number

/-- The format of numbers that are not integers. -/
def format : BinaryFormat := .double

/-- Divides by a power of ten, by the largest one in range as often as that is needed. -/
def scaleDown (bits exponent : Nat) : Nat :=
  if exponent ≤ 308 then format.quotient bits (format.ofDecimal 1 exponent)
  else if bits = 0 then 0
  else scaleDown (format.quotient bits (format.ofDecimal 1 308)) (exponent - 308)
termination_by exponent

/-- The number `significand * 10 ^ exponent`, unless it is too large. -/
def scale? (significand : Nat) (exponent : Int) : Option Nat :=
  let bits := format.ofRatio significand 1
  if exponent < 0 then some (scaleDown bits exponent.natAbs)
  else if exponent ≤ 308 then
    let scaled := format.times bits (format.ofDecimal 1 exponent)
    if scaled < format.infinity then some scaled else none
  else if bits = 0 then some 0
  else none

/-- The binary number of a literal with a point, an exponent or too many digits. -/
def real? (l : Literal) (significand : Nat) (dropped : Nat) : Option Number := do
  let (significand, count) := Literal.accumulate significand (l.fraction.getD [])
  let shift : Int := dropped - count
  let bits ← match l.exponent with
    | none => scale? significand shift
    | some (negative, digits) =>
      let exponent := Whole.value digits
      if exponent < Nat.pow 2 31 then scale? significand (shift + Whole.signed negative exponent)
      else if significand = 0 ∨ negative then some 0
      else none
  return .real (UInt64.ofNat (format.withSign l.negative bits))

/-- The number that a literal stands for, unless it is too large. -/
def ofLiteral? (l : Literal) : Option Number :=
  let (significand, count) := Literal.accumulate 0 l.whole
  let dropped := l.whole.length - count
  if l.fraction.isNone ∧ l.exponent.isNone ∧ dropped = 0 then
    if !l.negative then some (.whole significand)
    else if 0 < significand ∧ significand ≤ Nat.pow 2 63 then
      some (.whole (-(significand : Int)))
    else some (.real (UInt64.ofNat (format.withSign true (format.ofRatio significand 1))))
  else real? l significand dropped

/-- Reads a whole text as a number. -/
def read? (cs : List Char) : Option Number := (Literal.read cs).bind ofLiteral?

/-! ## Written form -/

/-- The least power of ten of a leading digit that is written without an exponent. -/
def leastPlain : Int := -5

/-- The power of ten of a leading digit from which on an exponent is written. -/
def firstScientific : Int := 16

/-- A row of digits as a number that is visibly no integer. -/
def rowChars (r : DigitRow) : List Char :=
  let digits := r.digits
  let leading : Int := r.exponent + digits.length - 1
  if leastPlain ≤ leading ∧ leading < firstScientific then
    if r.exponent < 0 then r.plain else r.plain ++ ['.', '0']
  else
    Decimal.pointedAfterFirst digits ++ 'e' :: (if leading < 0 then '-' else '+') ::
      Whole.digits leading.natAbs

/-- The text of a number: integers by their digits, binary numbers by the shortest digits that
read back. A pattern that is no number has the text of null. -/
def text : Number → String
  | whole n => toString n
  | real bits =>
    let bits := bits.toNat
    match format.magnitude (format.unsigned bits) with
    | .finite m q =>
      let row := DigitRow.shortest format .evenDigit (format.unsigned bits) m q
      String.ofList ((if format.isNegative bits then ['-'] else []) ++ rowChars row)
    | _ => "null"

end Number

end ManagementSchema.Json
