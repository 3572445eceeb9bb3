-- Descriptors: raw values under names. Only four of the names are
-- constraints; the others are kept and not looked at.

import ManagementSchema.Constraint.Error

namespace ManagementSchema

/-- Raw values under names. -/
abbrev Descriptor : Type := Dictionary Raw

/-- The four constraints of a descriptor, as far as they are stated. -/
structure ConstraintFields where
  default : Option Raw := none
  min : Option Raw := none
  max : Option Raw := none
  legal : Option Raw := none

namespace ConstraintFields

/-- The raw value of a field. -/
def get? (fields : ConstraintFields) : ConstraintField → Option Raw
  | .defaultValue => fields.default
  | .minValue => fields.min
  | .maxValue => fields.max
  | .legalValues => fields.legal

end ConstraintFields

namespace Descriptor

/-- The raw value of a constraint. -/
def field? (d : Descriptor) (field : ConstraintField) : Option Raw := d.get? field.name

/-- The four constraints. -/
def constraintFields (d : Descriptor) : ConstraintFields :=
  ⟨d.field? .defaultValue, d.field? .minValue, d.field? .maxValue, d.field? .legalValues⟩

/-- The descriptor with a raw value under a name, if there is one. -/
def put (name : String) (raw : Option Raw) (d : Descriptor) : Descriptor :=
  match raw with
  | some raw => d.insert name raw
  | none => d

/-- Both descriptors have the same names with equal values. -/
def same (d e : Descriptor) : Bool :=
  d.keys = e.keys && Raw.sameItems (d.entries.map Prod.snd) (e.entries.map Prod.snd)

/-- A JSON member as a raw value. Under a name that is no constraint, null is no value and all
else but strings is kept as its text. -/
def rawOfMember (name : String) (value : Json) : Except ConstraintError (Option Raw) :=
  match ConstraintField.ofName? name, value with
  | some field, value => (Raw.ofJson value).mapError (.malformed field)
  | none, .null => .ok none
  | none, .string s => .ok (some (.text s))
  | none, other => .ok (some (.text other.sorted.compact))

/-- Adds JSON members one after the other. -/
def addMembers (d : Descriptor) : List (String × Json) → Except ConstraintError Descriptor
  | [] => .ok d
  | (name, value) :: rest => do
    match ← rawOfMember name value with
    | some raw => addMembers (d.insert name raw) rest
    | none => addMembers d rest

/-- The descriptor of a JSON object: the last member of each name counts, and the members are
read in the order of their names. -/
def ofJson (members : List (String × Json)) : Except ConstraintError Descriptor :=
  addMembers .empty (Dictionary.ofList members).entries

/-! ## Edits -/

/-- A change of a descriptor: it is stated anew, or one field is set or removed. -/
inductive Edit where
  | restate (fields : List (String × Raw))
  | set (name : String) (raw : Raw)
  | remove (name : String)

namespace Edit

/-- The descriptor after an edit. -/
def apply (d : Descriptor) : Edit → Descriptor
  | restate fields => Dictionary.ofList fields
  | set name raw => d.insert name raw
  | remove name => d.erase name

/-- The raw value that an edit of one field replaces or takes away. -/
def replaced? (d : Descriptor) : Edit → Option Raw
  | restate _ => none
  | set name _ | remove name => d.get? name

end Edit

/-- The descriptor that edits make of an empty one, one after the other. -/
def ofEdits (edits : List Edit) : Descriptor := edits.foldl Edit.apply .empty

end Descriptor

end ManagementSchema
