-- What a YAML scalar stands for. A plain one may be null, a boolean or a
-- number; a tag of the standard asks for one of them.

import ManagementSchema.Json.Value
import ManagementSchema.Yaml.Node

namespace ManagementSchema.Yaml.Scalar

/-! ## Words -/

/-- The words for null. -/
def isNull (text : String) : Bool := text ∈ ["null", "Null", "NULL", "~"]

/-- The words for the two booleans. -/
def bool? (text : String) : Option Bool :=
  if text ∈ ["true", "True", "TRUE"] then some true
  else if text ∈ ["false", "False", "FALSE"] then some false
  else none

/-! ## Numbers -/

/-- A row of digits behind a leading zero. Such a text is no number. -/
def isPadded (cs : List Char) : Bool :=
  let body := (Whole.dropSign cs).2
  1 < body.length && body.head? = some '0' && body.all Char.isDigit

/-- The number that digits of a base write, at least one of them. -/
def readBase (base : Nat) (digits : List Char) : Option Nat := do
  if digits.isEmpty then none
  digits.foldlM (fun n c => do
    let digit ← Whole.hexDigit? c
    if digit < base then some (base * n + digit) else none) 0

/-- The integer of a text: a sign, and digits of a base that may be marked. -/
def whole? (cs : List Char) : Option Int :=
  let (negative, body) := Whole.dropSign cs
  let magnitude? := match body with
    | '0' :: 'x' :: digits => readBase 16 digits
    | '0' :: 'o' :: digits => readBase 8 digits
    | '0' :: 'b' :: digits => readBase 2 digits
    | digits => if isPadded digits then none else readBase 10 digits
  magnitude?.map (Whole.signed negative)

/-- The integers of so many bits, with a sign if they are negative. -/
def fits (bits : Nat) (n : Int) : Bool := Whole.least bits ≤ n && n < (Nat.pow 2 bits : Nat)

/-- The words for the numbers that are not finite. -/
def isUnbounded (text : String) : Bool :=
  text ∈ [".inf", ".Inf", ".INF", "+.inf", "+.Inf", "+.INF", "-.inf", "-.Inf", "-.INF", ".nan",
    ".NaN", ".NAN"]

/-- The binary number of a text, if it is finite. -/
def finite? (cs : List Char) : Option Json :=
  match Json.Number.format.read cs with
  | .ok bits =>
    if Json.Number.format.unsigned bits < Json.Number.format.infinity then
      some (.number (.real (UInt64.ofNat bits)))
    else none
  | .error _ => none

/-- The binary number of a text. Those that are not finite become null. -/
def real? (text : String) : Option Json :=
  if isUnbounded text then some .null else finite? text.toList

/-! ## Values -/

/-- The value of an integer; it needs at most 64 bits. -/
def wholeValue (n : Int) : Option Json := if fits 64 n then some (.number (.whole n)) else none

/-- The value of a plain scalar without a tag. An integer with more than 64 and at most 128 bits
has none. -/
def plainValue (text : String) : Option Json :=
  if text.isEmpty || isNull text then some .null
  else match bool? text, (whole? text.toList).filter (fits 128) with
    | some b, _ => some (.bool b)
    | none, some n => wholeValue n
    | none, none =>
      if isPadded text.toList then some (.string text)
      else some ((real? text).getD (.string text))

/-- The value of a scalar with a tag. -/
def taggedValue (tag text : String) : Option Json :=
  if tag = "tag:yaml.org,2002:null" then if isNull text then some .null else none
  else if tag = "tag:yaml.org,2002:bool" then (bool? text).map .bool
  else if tag = "tag:yaml.org,2002:int" then (whole? text.toList).bind wholeValue
  else if tag = "tag:yaml.org,2002:float" then real? text
  else some (.string text)

/-- The value of a scalar. One in quotation marks or in lines of its own is a string, and so is one
whose tag says nothing known; a local tag that is no text is none. -/
def value (tag : Option Tag) (text : String) (isPlain : Bool) : Option Json :=
  match tag with
  | some (.name tag) => taggedValue tag text
  | some (.noText false) => some (.string text)
  | some (.noText true) | none => if isPlain then plainValue text else some (.string text)

end ManagementSchema.Yaml.Scalar
