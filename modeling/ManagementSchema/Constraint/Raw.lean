-- Constraint values as they are given, before anything is known of their
-- type: a text, a finished value, or a collection of such.

import ManagementSchema.Json.Value
import ManagementSchema.Value.Basic

namespace ManagementSchema

/-! ## Fields -/

/-- The four constraints that a description may state. -/
inductive ConstraintField where
  | defaultValue
  | minValue
  | maxValue
  | legalValues
  deriving DecidableEq, Repr

namespace ConstraintField

/-- All fields, in the order in which they are read. -/
def all : List ConstraintField := [defaultValue, minValue, maxValue, legalValues]

/-- The name of a field in a descriptor. -/
def name : ConstraintField → String
  | defaultValue => "defaultValue"
  | minValue => "minValue"
  | maxValue => "maxValue"
  | legalValues => "legalValues"

/-- The field with a name. -/
def ofName? (s : String) : Option ConstraintField := all.find? fun field => field.name = s

end ConstraintField

/-! ## Raw values -/

/-- A constraint value as it is given. -/
inductive Raw where
  | text (s : String)
  | native (v : Value)
  | sequence (items : List Raw)
  | set (items : List Raw)

namespace Raw

/-- What the value is, in words. -/
def shape : Raw → String
  | text _ => "text"
  | native _ => "native value"
  | sequence _ => "sequence"
  | set _ => "set"

/-- The value is a collection. -/
def isCollection : Raw → Bool
  | sequence _ | set _ => true
  | text _ | native _ => false

mutual

/-- The form inside messages. -/
protected def toString : Raw → String
  | .text s => Text.quoted s
  | .native v => v.render
  | .sequence items => "[" ++ Text.join ", " (toStrings items) ++ "]"
  | .set items => "\x7b" ++ Text.join ", " (toStrings items) ++ "\x7d"
termination_by structural r => r

/-- Each item. -/
def toStrings : List Raw → List String
  | [] => []
  | item :: rest => item.toString :: toStrings rest
termination_by structural items => items

end

mutual

/-- The raw values are equal: same shape, equal parts in the same places. -/
def same : Raw → Raw → Bool
  | .text a, .text b => a = b
  | .native a, .native b => a.same b
  | .sequence a, .sequence b => sameItems a b
  | .set a, .set b => sameItems a b
  | _, _ => false
termination_by structural r => r

/-- As many items, equal in their places. -/
def sameItems : List Raw → List Raw → Bool
  | [], [] => true
  | a :: as, b :: bs => a.same b && sameItems as bs
  | _, _ => false
termination_by structural items => items

end

/-! ## From JSON -/

/-- Why a JSON value or a raw value does not do for a constraint. -/
inductive Fault where
  | nullElement
  | objectValue
  | notACollection (shape : String)
  deriving DecidableEq, Repr

/-- The wording of a fault. -/
def Fault.message : Fault → String
  | .nullElement => "null element in array"
  | .objectValue => "objects are not constraint values"
  | .notACollection shape => "expected an array or a set, got " ++ shape

mutual

/-- A JSON value as a raw value: null is no value, strings and numbers are texts, arrays are
sequences of values. -/
def ofJson : Json → Except Fault (Option Raw)
  | .null => .ok none
  | .bool b => .ok (some (.native (.scalar (.boolean b))))
  | .number n => .ok (some (.text n.text))
  | .string s => .ok (some (.text s))
  | .array items => (ofJsonItems items).map fun raws => some (.sequence raws)
  | .object _ => .error .objectValue
termination_by structural j => j

/-- The items of an array, none of which may be null. -/
def ofJsonItems : List Json → Except Fault (List Raw)
  | [] => .ok []
  | item :: rest =>
    match ofJson item with
    | .error fault => .error fault
    | .ok none => .error .nullElement
    | .ok (some raw) => (ofJsonItems rest).map (raw :: ·)
termination_by structural items => items

end

end Raw

end ManagementSchema
