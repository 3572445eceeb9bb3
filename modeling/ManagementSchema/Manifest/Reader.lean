-- Reading a manifest. A record is written as a map with the names of its
-- fields or, where the format has it, as a list of their values in order;
-- unknown, repeated and missing fields are refused.

import ManagementSchema.Manifest.Document

namespace ManagementSchema

/-! ## Records -/

/-- How records and their texts are read. In JSON, and in type definitions, which are known by one
of their fields, a text has to be a string and a record may be a list. Anywhere else in YAML the
text of a number or a word will do, and nothing at all may stand for a record. -/
inductive RecordRule where
  | anyScalar
  | stringsOnly
  deriving DecidableEq

namespace RecordRule

/-- The text of a document. -/
def text? (rule : RecordRule) (d : Document) : Option String :=
  match rule with
  | anyScalar => d.text?
  | stringsOnly => d.string?

/-- The place of the field that a key names. Where only strings are texts, a number without a minus
sign counts the fields. -/
def fieldPlace? (rule : RecordRule) (names : List String) (key : Document) : Option Nat :=
  match rule, key with
  | stringsOnly, .scalar (some (.number (.whole n))) spelling =>
    let isNegative := spelling.any fun spelling => spelling.text.toList.head? = some '-'
    if !isNegative ∧ 0 ≤ n ∧ n < names.length then some n.toNat else none
  | _, _ => do names.idxOf? (← rule.text? key)

/-- The fields of a record in order, given by their names. -/
def namedFields? (rule : RecordRule) (names : List String)
    (entries : List (Document × Document)) : Option (List (Option Document)) := do
  let placed ← entries.mapM fun (key, value) => do
    return (← rule.fieldPlace? names key, value)
  if (placed.map Prod.fst).Nodup then
    return (List.range names.length).map fun place => placed.lookup place
  else none

/-- The fields of a record in order, as far as they are given. -/
def fields? (rule : RecordRule) (names : List String) (d : Document) :
    Option (List (Option Document)) := do
  match rule, d with
  | anyScalar, d => rule.namedFields? names (← d.entries?)
  | stringsOnly, .map entries => rule.namedFields? names entries
  | stringsOnly, .list items =>
    if items.length ≤ names.length then
      return items.map some ++ List.replicate (names.length - items.length) none
    else none
  | stringsOnly, _ => none

end RecordRule

/-! ## Definitions -/

/-- Reads an item of a composite definition. -/
def ItemDefinition.ofDocument? (d : Document) : Option ItemDefinition := do
  match ← RecordRule.stringsOnly.fields? ["name", "description", "type"] d with
  | [some name, some description, some type] =>
    return ⟨← name.string?, ← description.string?, ← type.string?⟩
  | _ => none

namespace TypeDefinition

/-- Reads the fields of a type definition of a kind. -/
def ofFields? (kind : String) (d : Document) : Option TypeDefinition := do
  if kind = "composite" then
    match ← RecordRule.stringsOnly.fields? ["description", "items"] d with
    | [some description, some (.list items)] =>
      return .composite (← description.string?) (← items.mapM ItemDefinition.ofDocument?)
    | _ => none
  else if kind = "tabular" then
    match ← RecordRule.stringsOnly.fields? ["description", "row", "index"] d with
    | [some description, some row, some (.list index)] =>
      return .tabular (← description.string?) (← row.string?) (← index.mapM Document.string?)
    | _ => none
  else none

/-- Reads a type definition: its kind is one of the fields of a map, or the first item of a
list. -/
def ofDocument? : Document → Option TypeDefinition
  | .list (kind :: rest) => do ofFields? (← kind.text?) (.list rest)
  | .map entries => do
    let (kinds, others) := entries.partition fun (key, _) => key.string? = some "kind"
    match kinds with
    | [(_, kind)] => ofFields? (← kind.text?) (.map others)
    | _ => none
  | _ => none

end TypeDefinition

namespace Access

/-- The access with a name. -/
def ofName? (name : String) : Option Access :=
  if name = "read_only" then some .readOnly
  else if name = "read_write" then some .readWrite
  else if name = "write_only" then some .writeOnly
  else if name = "getter" then some .getter
  else none

/-- Reads an access: its name alone, as a tag, or as the only key of a map in JSON. Nothing may
stand beside the name but a plain word for null. -/
def ofDocument? : Document → Option Access
  | .scalar value spelling => do ofName? (← (Document.scalar value spelling).text?)
  | .map [(key, .scalar (some .null) none)] => do ofName? (← key.text?)
  | .tagged name (.scalar _ (some ⟨text, true⟩)) =>
    if text.isEmpty || Yaml.Scalar.isNull text then ofName? name else none
  | _ => none

end Access

/-- Reads the members of a descriptor. -/
def Descriptor.membersOf? (d : Document) : Option (List (String × Json)) := do
  return (Dictionary.ofList (← Document.toJsonMembers? (← d.entries?))).entries

/-- Reads an attribute. -/
def AttributeDefinition.ofDocument? (rule : RecordRule) (d : Document) :
    Option AttributeDefinition := do
  match ← rule.fields? ["name", "description", "type", "access", "descriptor"] d with
  | [some name, some description, some type, access, descriptor] =>
    let access ← (access.map Access.ofDocument?).getD (some .readOnly)
    let descriptor ← (descriptor.map Descriptor.membersOf?).getD (some [])
    return ⟨← name.text?, ← description.text?, ← type.text?, access, descriptor⟩
  | _ => none

/-- Reads a parameter. -/
def ParameterDefinition.ofDocument? (rule : RecordRule) (d : Document) :
    Option ParameterDefinition := do
  match ← rule.fields? ["name", "description", "type", "descriptor"] d with
  | [some name, some description, some type, descriptor] =>
    let descriptor ← (descriptor.map Descriptor.membersOf?).getD (some [])
    return ⟨← name.text?, ← description.text?, ← type.text?, descriptor⟩
  | _ => none

/-! ## Manifests -/

/-- The formats of manifest files. -/
inductive FileFormat where
  | json
  | yaml
  deriving DecidableEq, Repr

namespace FileFormat

/-- The name of a format. -/
def label : FileFormat → String
  | json => "JSON"
  | yaml => "YAML"

/-- The format of the files with an extension. -/
def ofExtension (extension : String) : FileFormat :=
  if String.ofList (extension.toList.map Char.toLower) = "json" then json else yaml

/-- How records are read outside type definitions. -/
def rule : FileFormat → RecordRule
  | json => .stringsOnly
  | yaml => .anyScalar

/-- Reads a text of the format. -/
def read? (format : FileFormat) (text : String) : Option Document :=
  match format with
  | json => (Json.read? text).map Document.ofJson
  | yaml => (Yaml.Node.ofText? text).map Document.ofNode

end FileFormat

namespace Manifest

/-- Reads the named types; of two with one name the last counts. -/
def typesOf? (d : Document) : Option (Dictionary TypeDefinition) := do
  let types ← (← d.entries?).mapM fun (key, value) => do
    return (← key.text?, ← TypeDefinition.ofDocument? value)
  return Dictionary.ofList types

/-- Reads a manifest. -/
def ofDocument? (rule : RecordRule) (d : Document) : Option Manifest := do
  match ← rule.fields? ["types", "attributes", "parameters"] d with
  | [types, attributes, parameters] =>
    let attributes ← (attributes.map Document.items?).getD (some [])
    let parameters ← (parameters.map Document.items?).getD (some [])
    return {
      types := ← (types.map typesOf?).getD (some .empty)
      attributes := ← attributes.mapM (AttributeDefinition.ofDocument? rule)
      parameters := ← parameters.mapM (ParameterDefinition.ofDocument? rule) }
  | _ => none

/-- Reads the text of a manifest file. -/
def read? (format : FileFormat) (text : String) : Option Manifest := do
  ofDocument? format.rule (← format.read? text)

/-- What is said about a text that is no manifest. -/
def refusal (format : FileFormat) : String := "parsing manifest " ++ format.label

end Manifest

end ManagementSchema
