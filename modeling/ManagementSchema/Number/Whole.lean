-- Integers in decimal notation: one optional sign and at least one ASCII
-- digit, read against the limits of a range.

namespace ManagementSchema.Whole

/-- Why a text is not an integer of the range. -/
inductive Fault where
  | empty
  | badDigit
  | tooLarge
  | tooSmall
  deriving DecidableEq, Repr

/-- The wording of a fault. -/
def Fault.message : Fault → String
  | .empty => "cannot parse integer from empty string"
  | .badDigit => "invalid digit found in string"
  | .tooLarge => "number too large to fit in target type"
  | .tooSmall => "number too small to fit in target type"

/-- The value of an ASCII digit. -/
def digitValue (c : Char) : Nat := c.toNat - '0'.toNat

/-- The number that a non-empty row of digits writes. -/
def value (digits : List Char) : Nat := Nat.ofDigitChars 10 digits 0

/-- The digits of a number, without leading zeros. -/
def digits (n : Nat) : List Char := Nat.toDigits 10 n

/-- Reads on from `n`, stopping at the first character that is no digit and at the first digit
that leads beyond `limit`. -/
def readDigits (limit : Nat) (beyond : Fault) (n : Nat) : List Char → Except Fault Nat
  | [] => .ok n
  | c :: rest =>
    if c.isDigit then
      let next := 10 * n + digitValue c
      if next ≤ limit then readDigits limit beyond next rest else .error beyond
    else .error .badDigit

/-- Reads an integer between `low` and `high`, where `low ≤ 0 ≤ high`. -/
def read (low high : Int) : List Char → Except Fault Int
  | [] => .error .empty
  | ['+'] | ['-'] => .error .badDigit
  | '-' :: rest => (readDigits low.natAbs .tooSmall 0 rest).map fun n => -(n : Int)
  | '+' :: rest => (readDigits high.natAbs .tooLarge 0 rest).map Int.ofNat
  | rest => (readDigits high.natAbs .tooLarge 0 rest).map Int.ofNat

/-- The characters after an optional sign, and whether it was a minus. -/
def dropSign : List Char → Bool × List Char
  | '-' :: rest => (true, rest)
  | '+' :: rest => (false, rest)
  | rest => (false, rest)

/-- The least integer of so many bits, one of which is the sign. -/
def least (bits : Nat) : Int := -(Nat.pow 2 (bits - 1) : Nat)

/-- The greatest integer of so many bits, one of which is the sign. -/
def greatest (bits : Nat) : Int := (Nat.pow 2 (bits - 1) : Nat) - 1

/-- The integer has so many bits, one of which is the sign. -/
def fits (bits : Nat) (n : Int) : Bool := least bits ≤ n && n ≤ greatest bits

/-- Reads an integer of so many bits. -/
def readBits (bits : Nat) (cs : List Char) : Except Fault Int :=
  read (least bits) (greatest bits) cs

/-- The natural number with a sign. -/
def signed (negative : Bool) (n : Nat) : Int := if negative then -(n : Int) else n

/-! ## Hexadecimal digits -/

/-- The value of a hexadecimal digit. -/
def hexDigit? (c : Char) : Option Nat :=
  if c.isDigit then some (digitValue c)
  else if 'a' ≤ c ∧ c ≤ 'f' then some (c.toNat - 'a'.toNat + 10)
  else if 'A' ≤ c ∧ c ≤ 'F' then some (c.toNat - 'A'.toNat + 10)
  else none

/-- The number that hexadecimal digits write. -/
def hexNumber? (digits : List Char) : Option Nat :=
  digits.foldlM (fun n c => (hexDigit? c).map (16 * n + ·)) 0

/-! ## Any size -/

/-- Reads an integer of any size. -/
def readUnbounded (cs : List Char) : Except Fault Int :=
  let (negative, body) := dropSign cs
  if body.isEmpty || !body.all Char.isDigit then .error .badDigit
  else .ok (signed negative (value body))

end ManagementSchema.Whole
