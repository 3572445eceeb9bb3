-- The shortest decimal that reads back as a given binary number, and of the
-- shortest ones the nearest.

import ManagementSchema.Number.Binary
import ManagementSchema.Number.Decimal

namespace ManagementSchema

/-- The decimal `coefficient * 10 ^ exponent` as a row of digits. -/
structure DigitRow where
  coefficient : Nat
  exponent : Int
  deriving DecidableEq, Repr

/-- Which of two decimals at the same distance is taken. -/
inductive TieRule where
  | evenDigit
  | larger
  deriving DecidableEq, Repr

namespace DigitRow

/-- The digits of the row. -/
def digits (r : DigitRow) : List Char := Nat.toDigits 10 r.coefficient

/-- The row without the zeros at its end; at most `fuel` of them are taken off. -/
def stripZeros : Nat → DigitRow → DigitRow
  | 0, r => r
  | fuel + 1, r =>
    if r.coefficient ≠ 0 ∧ r.coefficient % 10 = 0 then
      stripZeros fuel ⟨r.coefficient / 10, r.exponent + 1⟩
    else r

/-- The power of ten of the leading digit of the ratio `num / den`, neither of them zero. -/
def leadingExponent (num den : Nat) : Int :=
  if den ≤ num then (Nat.toDigits 10 (num / den)).length - 1
  else -((Nat.toDigits 10 ((den + num - 1) / num - 1)).length : Int)

/-- The ratio `num / den` in units of `10 ^ e`, as a ratio. -/
def inUnits (num den : Nat) (e : Int) : Nat × Nat :=
  if 0 ≤ e then (num, den * Nat.pow 10 e.toNat) else (num * Nat.pow 10 (-e).toNat, den)

/-- The row of `count` digits that is nearest to `num / den` among the two neighbours that read
back as `bits`, if one does. -/
def withDigits (f : BinaryFormat) (tie : TieRule) (bits num den count : Nat) : Option DigitRow :=
  let e := leadingExponent num den - count + 1
  let (n, d) := inUnits num den e
  let low := n / d
  let twice := 2 * (n % d)
  let lowReads := f.ofDecimal low e = bits
  let highReads := f.ofDecimal (low + 1) e = bits
  let preferHigh := d < twice ∨ (d = twice ∧ (tie = .larger ∨ low % 2 = 1))
  if lowReads ∧ highReads then some ⟨if preferHigh then low + 1 else low, e⟩
  else if lowReads then some ⟨low, e⟩
  else if highReads then some ⟨low + 1, e⟩
  else none

/-- All digits of the number `m * 2 ^ q`. -/
def exact (m : Nat) (q : Int) : DigitRow :=
  if 0 ≤ q then ⟨m * Nat.pow 2 q.toNat, 0⟩ else ⟨m * Nat.pow 5 (-q).toNat, q⟩

/-- The shortest row that reads back as the unsigned pattern `bits` of the number `m * 2 ^ q`.
Seventeen digits are enough for the formats in use; a wider one would get all its digits. -/
def shortest (f : BinaryFormat) (tie : TieRule) (bits m : Nat) (q : Int) : DigitRow :=
  let (num, den) := BinaryFormat.ratio m q
  let row :=
    if m = 0 then ⟨0, 0⟩
    else ((List.range 17).findSome? fun k => withDigits f tie bits num den (k + 1)).getD (exact m q)
  row.stripZeros row.digits.length

/-- The row without an exponent: digits, and a point where some of them count fractions. -/
def plain (r : DigitRow) : List Char :=
  if 0 ≤ r.exponent then
    if r.coefficient = 0 then ['0'] else r.digits ++ List.replicate r.exponent.toNat '0'
  else Decimal.pointed r.digits (-r.exponent).toNat

end DigitRow

end ManagementSchema
