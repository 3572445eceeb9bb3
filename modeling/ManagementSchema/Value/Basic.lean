-- Values of every type: single values, arrays, records and tables. A value
-- other than a single one carries its type.

import ManagementSchema.OpenType.Compare
import ManagementSchema.Value.Scalar

namespace ManagementSchema

mutual

/-- A value of managed data. -/
inductive Value where
  | scalar (scalar : Scalar)
  | array (array : ArrayValue)
  | record (record : Record)
  | table (table : Table)

/-- An array; an absent element is null. -/
structure ArrayValue where
  type : ArrayType
  elements : List (Option Value)

/-- A record: a value or null under each item name, in the order of the declaration. -/
structure Record where
  type : CompositeType
  fields : List (String × Option Value)

/-- A table: rows under their keys. -/
structure Table where
  type : TabularType
  rows : List (List (Option Value) × Record)

end

/-- The part of a row by which a table finds it. -/
abbrev Key : Type := List (Option Value)

/-! ## Types of values -/

namespace Value

/-- The kind of a single value. -/
def kind? : Value → Option Kind
  | scalar s => some s.kind
  | _ => none

/-- What the value is, as messages say it. -/
def kindLabel : Value → String
  | scalar s => s.kind.className
  | array a => a.type.className
  | record r => "CompositeData<" ++ r.type.name ++ ">"
  | table t => "TabularData<" ++ t.type.name ++ ">"

/-- The natural order, which only single values of one kind have. -/
protected def compare : Value → Value → Option Ordering
  | scalar a, scalar b => a.compare b
  | _, _ => none

end Value

/-- The value is one of the type. Only the type that the value carries is looked at. -/
def OpenType.hasValue : OpenType → Value → Bool
  | .simple kind, .scalar s => kind = s.kind
  | .array type, .array a => type.accepts a.type
  | .composite type, .record r => type.accepts r.type
  | .tabular type, .table t => type.accepts t.type
  | _, _ => false

/-! ## Written form -/

/-- A pair of key and value as a record shows it. -/
def Record.entryText (name value : String) : String := name ++ "=" ++ value

/-- The written rows of a table between its braces, in alphabetical order. -/
def Table.bracedRows (rows : List String) : String :=
  "\x7b" ++ Text.join ", " (rows.mergeSort fun a b => a ≤ b) ++ "\x7d"

mutual

/-- The form inside messages and larger values. -/
def Value.render : Value → String
  | .scalar s => s.render
  | .array a => a.toString
  | .record r => r.toString
  | .table t => t.toString
termination_by structural v => v

/-- The elements in brackets. -/
protected def ArrayValue.toString : ArrayValue → String
  | ⟨_, elements⟩ => "[" ++ Text.join ", " (Value.renderAll elements) ++ "]"
termination_by structural a => a

/-- The name of the type and the fields in the order of the declaration. -/
protected def Record.toString : Record → String
  | ⟨type, fields⟩ =>
    "CompositeData(compositeType=" ++ type.name ++ ",contents=\x7b" ++
      Text.join ", " (Value.renderFields fields) ++ "\x7d)"
termination_by structural r => r

/-- The name of the type and the rows with their keys. -/
protected def Table.toString : Table → String
  | ⟨type, rows⟩ =>
    "TabularData(tabularType=" ++ type.name ++ ",contents=" ++
      Table.bracedRows (Value.renderRows rows) ++ ")"
termination_by structural t => t

/-- A value, or the word for its absence. -/
def Value.renderCell : Option Value → String
  | some v => v.render
  | none => "null"
termination_by structural c => c

/-- Each cell in turn. -/
def Value.renderAll : List (Option Value) → List String
  | [] => []
  | cell :: rest => Value.renderCell cell :: Value.renderAll rest
termination_by structural cells => cells

/-- Each field in turn. -/
def Value.renderFields : List (String × Option Value) → List String
  | [] => []
  | (name, cell) :: rest =>
    Record.entryText name (Value.renderCell cell) :: Value.renderFields rest
termination_by structural fields => fields

/-- Each row in turn, behind its key. -/
def Value.renderRows : List (List (Option Value) × Record) → List String
  | [] => []
  | (key, row) :: rest =>
    Record.entryText ("(" ++ Text.join ", " (Value.renderAll key) ++ ")") row.toString ::
      Value.renderRows rest
termination_by structural rows => rows

end

/-- The key in parentheses. -/
def Key.toText (key : Key) : String := "(" ++ Text.join ", " (Value.renderAll key) ++ ")"

/-- The written form of a value: as inside messages, but a text or a character stands alone and
is not quoted. -/
protected def Value.toString : Value → String
  | .scalar s => s.text
  | other => other.render

/-! ## Equality -/

mutual

/-- The values are equal. -/
def Value.same : Value → Value → Bool
  | .scalar a, .scalar b => a = b
  | .array a, .array b => a.same b
  | .record a, .record b => a.same b
  | .table a, .table b => a.same b
  | _, _ => false
termination_by structural v => v

/-- Equal types and equal elements in the same places. -/
def ArrayValue.same : ArrayValue → ArrayValue → Bool
  | ⟨type, elements⟩, other => type.same other.type && Value.sameCells elements other.elements
termination_by structural a => a

/-- Equal types and equal fields under each name. -/
def Record.same : Record → Record → Bool
  | ⟨type, fields⟩, other => type.same other.type && Value.sameFields fields other.fields
termination_by structural r => r

/-- Equal types, and as many rows, which agree by key. -/
def Table.same : Table → Table → Bool
  | ⟨type, rows⟩, other =>
    type.same other.type && rows.length = other.rows.length && Value.sameRows rows other.rows
termination_by structural t => t

/-- Both null, or equal. -/
def Value.sameCell : Option Value → Option Value → Bool
  | none, none => true
  | some a, some b => a.same b
  | _, _ => false
termination_by structural c => c

/-- As many cells, equal in their places. -/
def Value.sameCells : List (Option Value) → List (Option Value) → Bool
  | [], [] => true
  | a :: as, b :: bs => Value.sameCell a b && Value.sameCells as bs
  | _, _ => false
termination_by structural cells => cells

/-- Each field is equal to the one of its name among the others. -/
def Value.sameFields : List (String × Option Value) → List (String × Option Value) → Bool
  | [], _ => true
  | (name, cell) :: rest, others =>
    (match Dictionary.find? name others with
      | some other => Value.sameCell cell other
      | none => false) &&
      Value.sameFields rest others
termination_by structural fields => fields

/-- Each row is among the others, under an equal key. -/
def Value.sameRows :
    List (List (Option Value) × Record) → List (List (Option Value) × Record) → Bool
  | [], _ => true
  | (key, row) :: rest, others =>
    (others.any fun (otherKey, other) => Value.sameCells key otherKey && row.same other) &&
      Value.sameRows rest others
termination_by structural rows => rows

end

/-- The keys are equal. -/
def Key.same (a b : Key) : Bool := Value.sameCells a b

end ManagementSchema
