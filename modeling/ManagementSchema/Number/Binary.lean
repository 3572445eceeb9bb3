-- Binary floating-point numbers as bit patterns: a sign, an exponent field and
-- a fraction field. Every step is exact arithmetic on natural numbers, so a
-- result is the nearest number of the format by definition.

namespace ManagementSchema

/-- The widths of the two fields of a binary format. -/
structure BinaryFormat where
  fractionBits : Nat
  exponentBits : Nat
  deriving DecidableEq, Repr

/-- The format of 32 bits. -/
def BinaryFormat.single : BinaryFormat := ⟨23, 8⟩

/-- The format of 64 bits. -/
def BinaryFormat.double : BinaryFormat := ⟨52, 11⟩

/-- What a bit pattern without its sign stands for; `finite m q` is the number `m * 2 ^ q`. -/
inductive Magnitude where
  | finite (m : Nat) (q : Int)
  | infinite
  | notANumber
  deriving DecidableEq, Repr

namespace BinaryFormat

/-- The power of two that the last fraction bit of the smallest numbers counts. -/
def leastExponent (f : BinaryFormat) : Int :=
  2 - (Nat.pow 2 (f.exponentBits - 1) : Nat) - f.fractionBits

/-- The weight of the sign bit. -/
def signWeight (f : BinaryFormat) : Nat := Nat.pow 2 (f.fractionBits + f.exponentBits)

/-- The pattern of infinity. -/
def infinity (f : BinaryFormat) : Nat := (Nat.pow 2 f.exponentBits - 1) * Nat.pow 2 f.fractionBits

/-- The pattern of the number that is none, with the first fraction bit set. -/
def quietNaN (f : BinaryFormat) : Nat := f.infinity + Nat.pow 2 (f.fractionBits - 1)

/-- The sign bit of a pattern is set. -/
def isNegative (f : BinaryFormat) (bits : Nat) : Bool := f.signWeight ≤ bits

/-- The pattern without its sign bit. -/
def unsigned (f : BinaryFormat) (bits : Nat) : Nat := bits % f.signWeight

/-- The pattern with the given sign. -/
def withSign (f : BinaryFormat) (negative : Bool) (bits : Nat) : Nat :=
  if negative then bits + f.signWeight else bits

/-- What a pattern without sign stands for. -/
def magnitude (f : BinaryFormat) (bits : Nat) : Magnitude :=
  let field := bits / Nat.pow 2 f.fractionBits
  let fraction := bits % Nat.pow 2 f.fractionBits
  if f.infinity = bits then .infinite
  else if f.infinity < bits then .notANumber
  else if field = 0 then .finite fraction f.leastExponent
  else .finite (Nat.pow 2 f.fractionBits + fraction) (f.leastExponent + field - 1)

/-! ## Rounding -/

/-- The integer nearest to `num / den`; a half goes to the even neighbour. -/
def roundHalfEven (num den : Nat) : Nat :=
  let quotient := num / den
  let twice := 2 * (num % den)
  if twice < den then quotient
  else if den < twice then quotient + 1
  else quotient + quotient % 2

/-- The ratio `num / den` in units of `2 ^ q`, as a ratio. -/
def inUnits (num den : Nat) (q : Int) : Nat × Nat :=
  if 0 ≤ q then (num, den * Nat.pow 2 q.toNat) else (num * Nat.pow 2 (-q).toNat, den)

/-- The unit in which the ratio has as many bits as the format keeps, or the least unit there
is. -/
def unitExponent (f : BinaryFormat) (num den : Nat) : Int :=
  let guess := max f.leastExponent ((num.log2 : Int) - den.log2 - 1 - f.fractionBits)
  let (n, d) := inUnits num den guess
  if n / d < Nat.pow 2 (f.fractionBits + 1) then guess else guess + 1

/-- The pattern of the number nearest to `num / den`. The fields overlap as they should: a
fraction that rounds up to the next power of two carries into the exponent. -/
def ofRatio (f : BinaryFormat) (num den : Nat) : Nat :=
  if num = 0 then 0 else
  let q := f.unitExponent num den
  let (n, d) := inUnits num den q
  min f.infinity ((q - f.leastExponent).toNat * Nat.pow 2 f.fractionBits + roundHalfEven n d)

/-- The ratio of a finite number. -/
def ratio (m : Nat) (q : Int) : Nat × Nat :=
  if 0 ≤ q then (m * Nat.pow 2 q.toNat, 1) else (m, Nat.pow 2 (-q).toNat)

/-- The product of two unsigned finite patterns, rounded. -/
def times (f : BinaryFormat) (a b : Nat) : Nat :=
  match f.magnitude a, f.magnitude b with
  | .finite m q, .finite n r =>
    let (num, den) := ratio (m * n) (q + r)
    f.ofRatio num den
  | _, _ => f.infinity

/-- The quotient of two unsigned finite patterns, rounded; the second is not zero. -/
def quotient (f : BinaryFormat) (a b : Nat) : Nat :=
  match f.magnitude a, f.magnitude b with
  | .finite m q, .finite n r =>
    let (num, den) := ratio 1 (q - r)
    f.ofRatio (m * num) (n * den)
  | _, _ => f.infinity

/-- A power of ten beyond which every number is infinite and below whose inverse every number
is zero. -/
def reach (f : BinaryFormat) : Nat := Nat.pow 2 f.exponentBits + f.fractionBits

/-- The pattern of the number nearest to `coefficient * 10 ^ exponent`. -/
def ofDecimal (f : BinaryFormat) (coefficient : Nat) (exponent : Int) : Nat :=
  let leading : Int := (Nat.toDigits 10 coefficient).length + exponent
  if coefficient = 0 then 0
  else if f.reach < leading then f.infinity
  else if leading < -(f.reach : Int) then 0
  else if 0 ≤ exponent then f.ofRatio (coefficient * Nat.pow 10 exponent.toNat) 1
  else f.ofRatio coefficient (Nat.pow 10 (-exponent).toNat)

/-- The place of a pattern in the total order of all patterns: the negative ones backwards, then
the others. -/
def place (f : BinaryFormat) (bits : Nat) : Int :=
  if f.isNegative bits then -(f.unsigned bits : Int) - 1 else bits

end BinaryFormat

end ManagementSchema
