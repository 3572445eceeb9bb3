-- What a manifest file holds before it has the shape of a manifest. JSON and
-- YAML files become the same kind of tree; only in YAML it is known how a
-- scalar is spelled, and nothing at all may stand for an empty collection.

import ManagementSchema.Json.Reader
import ManagementSchema.Manifest.Basic
import ManagementSchema.Yaml.Scalar

namespace ManagementSchema

/-- How a scalar is spelled in YAML. A plain one has no quotation marks and no lines of its own. -/
structure Spelling where
  text : String
  isPlain : Bool
  deriving DecidableEq, Repr

/-- A part of a file. A scalar that has no value may stand where only its text counts. -/
inductive Document where
  | scalar (value : Option Json) (spelling : Option Spelling)
  | list (items : List Document)
  | map (entries : List (Document × Document))
  | tagged (tag : String) (content : Document)

namespace Document

/-! ## From files -/

/-- A string. -/
def ofString (s : String) : Document := .scalar (some (.string s)) none

mutual

/-- The document of a JSON value. -/
def ofJson : Json → Document
  | .null => .scalar (some .null) none
  | .bool b => .scalar (some (.bool b)) none
  | .number n => .scalar (some (.number n)) none
  | .string s => ofString s
  | .array items => .list (ofJsonItems items)
  | .object members => .map (ofJsonMembers members)
termination_by structural j => j

/-- The document of each item. -/
def ofJsonItems : List Json → List Document
  | [] => []
  | item :: rest => ofJson item :: ofJsonItems rest
termination_by structural items => items

/-- The documents of each name and value. -/
def ofJsonMembers : List (String × Json) → List (Document × Document)
  | [] => []
  | (name, value) :: rest => (ofString name, ofJson value) :: ofJsonMembers rest
termination_by structural members => members

end

/-- The document under a tag, if that is a local one. -/
def underTag (tag : Option Yaml.Tag) (content : Document) : Document :=
  match tag.bind Yaml.Tag.localName? with
  | some name => .tagged name content
  | none => content

mutual

/-- The document of a YAML node. -/
def ofNode : Yaml.Node → Document
  | .scalar tag text isPlain =>
    underTag tag (.scalar (Yaml.Scalar.value tag text isPlain) (some ⟨text, isPlain⟩))
  | .sequence tag items => underTag tag (.list (ofNodeItems items))
  | .mapping tag entries => underTag tag (.map (ofNodeEntries entries))
termination_by structural node => node

/-- The document of each item. -/
def ofNodeItems : List Yaml.Node → List Document
  | [] => []
  | item :: rest => ofNode item :: ofNodeItems rest
termination_by structural items => items

/-- The documents of each key and value. -/
def ofNodeEntries : List (Yaml.Node × Yaml.Node) → List (Document × Document)
  | [] => []
  | (key, value) :: rest => (ofNode key, ofNode value) :: ofNodeEntries rest
termination_by structural entries => entries

end

/-! ## Parts -/

/-- The document without the tags around it. -/
def content : Document → Document
  | .tagged _ document => document.content
  | other => other

/-- The string that the value of a scalar is. -/
def string? : Document → Option String
  | .scalar (some (.string s)) _ => some s
  | _ => none

/-- The text of a scalar: in YAML its spelling, whatever its value. -/
def text? (d : Document) : Option String :=
  match d.content with
  | .scalar _ (some spelling) => some spelling.text
  | other => other.string?

/-- A scalar with nothing written, whatever its value. -/
def isNothing : Document → Bool
  | .scalar _ (some spelling) => spelling = ⟨"", true⟩
  | _ => false

/-- The items of a list. -/
def items? (d : Document) : Option (List Document) :=
  match d.content with
  | .list items => some items
  | other => if other.isNothing then some [] else none

/-- The entries of a map. -/
def entries? (d : Document) : Option (List (Document × Document)) :=
  match d.content with
  | .map entries => some entries
  | other => if other.isNothing then some [] else none

/-! ## As JSON -/

mutual

/-- The JSON value of a document. Keys are texts, and the last entry of each name counts. -/
def toJson? : Document → Option Json
  | .scalar value _ => value
  | .list items => (toJsonItems? items).map .array
  | .map entries => (toJsonMembers? entries).map fun members =>
    .object (Dictionary.ofList members).entries
  | .tagged .. => none
termination_by structural document => document

/-- The JSON value of each item. -/
def toJsonItems? : List Document → Option (List Json)
  | [] => some []
  | item :: rest => do
    let value ← toJson? item
    return value :: (← toJsonItems? rest)
termination_by structural items => items

/-- The JSON member of each entry. -/
def toJsonMembers? : List (Document × Document) → Option (List (String × Json))
  | [] => some []
  | (key, value) :: rest => do
    let name ← key.text?
    let value ← toJson? value
    return (name, value) :: (← toJsonMembers? rest)
termination_by structural entries => entries

end

end Document

end ManagementSchema
