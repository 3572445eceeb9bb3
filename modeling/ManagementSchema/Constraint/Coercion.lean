-- How raw values become values of a type: texts by the reader of a kind or by
-- a registered conversion, and everything checked against the type at the end.

import ManagementSchema.Constraint.Descriptor
import ManagementSchema.Value.Build

namespace ManagementSchema

/-! ## Registered conversions -/

/-- A way from a text to a value. -/
abbrev TextFunction : Type := String → Except DataError Value

/-- The two ways that may be registered for a type; the first one is preferred. -/
structure TextConversion where
  valueOf : Option TextFunction := none
  fromText : Option TextFunction := none

/-- The way that is taken. -/
def TextConversion.function? (c : TextConversion) : Option TextFunction :=
  c.valueOf.or c.fromText

/-- Conversions by type; no two of the types are equal. -/
structure Conversions where
  entries : List (OpenType × TextConversion) := []

namespace Conversions

/-- Nothing registered. -/
def empty : Conversions := {}

/-- The number of types with a conversion. -/
def size (c : Conversions) : Nat := c.entries.length

/-- The conversion registered for a type equal to this one. -/
def find? (c : Conversions) (type : OpenType) : Option TextConversion :=
  (c.entries.find? fun (other, _) => other.same type).map Prod.snd

/-- Changes the entry of a type, or makes one. -/
def updateEntries (type : OpenType) (change : TextConversion → TextConversion) :
    List (OpenType × TextConversion) → List (OpenType × TextConversion)
  | [] => [(type, change {})]
  | (other, conversion) :: rest =>
    if other.same type then (other, change conversion) :: rest
    else (other, conversion) :: updateEntries type change rest

/-- Registers the preferred way. -/
def withValueOf (c : Conversions) (type : OpenType) (f : TextFunction) : Conversions :=
  ⟨updateEntries type (fun conversion => { conversion with valueOf := some f }) c.entries⟩

/-- Registers the other way. -/
def withFromText (c : Conversions) (type : OpenType) (f : TextFunction) : Conversions :=
  ⟨updateEntries type (fun conversion => { conversion with fromText := some f }) c.entries⟩

/-! ## Single values -/

/-- What a conversion says about a text that it refuses; an error of another sort becomes the
reason. -/
def refusalOf (type : OpenType) (text : String) : DataError → Refusal
  | .refused refusal => refusal
  | other => ⟨type.className, Text.quoted text, .stated other.message⟩

/-- A text as a value. -/
def ofText (c : Conversions) (type : OpenType) (text : String) : Except Refusal Value :=
  match type with
  | .simple kind => Value.read kind text
  | type =>
    match (c.find? type).bind TextConversion.function? with
    | some f => (f text).mapError (refusalOf type text)
    | none => .error ⟨type.className, Text.quoted text, .nonConvertible⟩

/-- A raw value as a value that is not yet checked against the type. -/
def ofRaw (c : Conversions) (type : OpenType) (raw : Raw) : Except Refusal Value :=
  match raw with
  | .native v => .ok v
  | .text s => c.ofText type s
  | .sequence _ | .set _ => .error ⟨type.className, raw.toString, .notSingle raw.shape⟩

/-- A raw value as a value of the type. -/
def coerce (c : Conversions) (type : OpenType) (raw : Raw) : Except Refusal Value := do
  let v ← c.ofRaw type raw
  if type.hasValue v then return v
  else throw ⟨type.className, raw.toString, .notAValue v.kindLabel type.name⟩

/-! ## Legal values -/

/-- The values without those that are equal to one before. -/
def distinct : (seen : List Value) → List Value → List Value
  | _, [] => []
  | seen, v :: rest =>
    if seen.any (·.same v) then distinct seen rest else v :: distinct (v :: seen) rest

/-- The elements of an array as raw values, none of which may be null. -/
def elementRaws (type : OpenType) (index : Nat) : List (Option Value) → Except Refusal (List Raw)
  | [] => .ok []
  | some v :: rest => (elementRaws type (index + 1) rest).map (.native v :: ·)
  | none :: _ =>
    .error ⟨type.className, "legalValues[" ++ toString index ++ "]", .nullLegalValue⟩

/-- The raw values that a collection holds. -/
def collectionRaws (type : OpenType) : Raw → Except ConstraintError (List Raw)
  | .sequence items | .set items => .ok items
  | .native (.array a) => (elementRaws type 0 a.elements).mapError .refused
  | other => .error (.malformed .legalValues (.notACollection other.shape))

/-- A collection as a list of different values of the type. -/
def coerceLegal (c : Conversions) (type : OpenType) (raw : Raw) :
    Except ConstraintError (List Value) := do
  let raws ← collectionRaws type raw
  let values ← (raws.mapM (c.coerce type)).mapError .refused
  return distinct [] values

end Conversions

end ManagementSchema
