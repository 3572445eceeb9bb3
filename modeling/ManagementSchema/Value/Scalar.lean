-- Single values: their kinds, their written forms, their order, and the one
-- reader that each kind has.

import ManagementSchema.Error
import ManagementSchema.Kind

namespace ManagementSchema

/-- A single value. Binary numbers are bit patterns, so two of them are equal exactly when all
their bits are. -/
inductive Scalar where
  | boolean (b : Bool)
  | character (c : Char)
  | byte (n : Int8)
  | short (n : Int16)
  | integer (n : Int32)
  | long (n : Int64)
  | float (bits : UInt32)
  | double (bits : UInt64)
  | string (s : String)
  | bigDecimal (d : Decimal)
  | bigInteger (n : Int)
  | date (t : Instant)
  | objectName (n : ObjectName)
  deriving DecidableEq

namespace Scalar

/-- The kind of a value. -/
def kind : Scalar → Kind
  | boolean _ => .boolean
  | character _ => .character
  | byte _ => .byte
  | short _ => .short
  | integer _ => .integer
  | long _ => .long
  | float _ => .float
  | double _ => .double
  | string _ => .string
  | bigDecimal _ => .bigDecimal
  | bigInteger _ => .bigInteger
  | date _ => .date
  | objectName _ => .objectName

/-- The written form, which the reader of the kind takes back. -/
def text : Scalar → String
  | boolean b => if b then "true" else "false"
  | character c => String.singleton c
  | byte n => toString n.toInt
  | short n => toString n.toInt
  | integer n => toString n.toInt
  | long n => toString n.toInt
  | float bits => BinaryFormat.single.plainText bits.toNat
  | double bits => BinaryFormat.double.plainText bits.toNat
  | string s => s
  | bigDecimal d => d.toString
  | bigInteger n => toString n
  | date t => t.toString
  | objectName n => n.canonical

/-- The form inside messages and larger values: texts and characters are quoted. -/
def render : Scalar → String
  | string s => Text.quoted s
  | character c => Text.quotedChar c
  | other => other.text

/-- The natural order, which only values of one kind have. Binary numbers go by their place among
all bit patterns, decimals by their number. -/
protected def compare : Scalar → Scalar → Option Ordering
  | boolean a, boolean b => some (Ord.compare a b)
  | character a, character b => some (Ord.compare a.toNat b.toNat)
  | byte a, byte b => some (Ord.compare a.toInt b.toInt)
  | short a, short b => some (Ord.compare a.toInt b.toInt)
  | integer a, integer b => some (Ord.compare a.toInt b.toInt)
  | long a, long b => some (Ord.compare a.toInt b.toInt)
  | float a, float b =>
    some (Ord.compare (BinaryFormat.single.place a.toNat) (BinaryFormat.single.place b.toNat))
  | double a, double b =>
    some (Ord.compare (BinaryFormat.double.place a.toNat) (BinaryFormat.double.place b.toNat))
  | string a, string b => some (Ord.compare a b)
  | bigDecimal a, bigDecimal b => some (a.compareNumeric b)
  | bigInteger a, bigInteger b => some (Ord.compare a b)
  | date a, date b => some (a.compare b)
  | objectName a, objectName b => some (a.compare b)
  | _, _ => none

end Scalar

/-! ## Readers -/

namespace Kind

/-- Reads `true` or `false`, in any letter case. -/
def readBoolean (cs : List Char) : Except Reason Scalar :=
  let name := String.ofList (cs.map Char.toLower)
  if name = "true" then .ok (.boolean true)
  else if name = "false" then .ok (.boolean false)
  else .error .notTrueOrFalse

/-- Reads a text of one character. -/
def readCharacter : List Char → Except Reason Scalar
  | [c] => .ok (.character c)
  | _ => .error .notOneCharacter

/-- Reads an integer of `bits` bits. -/
def readWord (bits : Nat) (cs : List Char) : Except Reason Int :=
  (Whole.readBits bits cs).mapError .whole

/-- Reads a number of a binary format. -/
def readBinary (f : BinaryFormat) (cs : List Char) : Except Reason Nat :=
  (f.read cs).mapError .binary

/-- Reads a text as a value of the kind, or says why it is none. -/
def readReason (k : Kind) (s : String) : Except Reason Scalar :=
  let cs := s.toList
  match k with
  | void => .error .noValues
  | boolean => readBoolean cs
  | character => readCharacter cs
  | byte => (readWord 8 cs).map fun n => .byte (Int8.ofInt n)
  | short => (readWord 16 cs).map fun n => .short (Int16.ofInt n)
  | integer => (readWord 32 cs).map fun n => .integer (Int32.ofInt n)
  | long => (readWord 64 cs).map fun n => .long (Int64.ofInt n)
  | float => (readBinary .single cs).map fun bits => .float (UInt32.ofNat bits)
  | double => (readBinary .double cs).map fun bits => .double (UInt64.ofNat bits)
  | string => .ok (.string s)
  | bigDecimal => ((Decimal.read cs).mapError .decimal).map .bigDecimal
  | bigInteger => ((Whole.readUnbounded cs).mapError .whole).map .bigInteger
  | date => ((Instant.read cs).mapError .instant).map .date
  | objectName => ((ObjectName.read s).mapError .objectName).map .objectName

/-- What a message shows of a refused text: the text in quotation marks, unless the fault lies
in a part of it. -/
def refusedInput (s : String) : Reason → String
  | .objectName fault => fault.input
  | _ => Text.quoted s

/-- The one reader of the kind. -/
def read (k : Kind) (s : String) : Except Refusal Scalar :=
  (k.readReason s).mapError fun reason => ⟨k.className, refusedInput s reason, reason⟩

end Kind

end ManagementSchema
