-- What a check finds in a manifest: one entry for each definition, and two
-- ways to write it down.

import ManagementSchema.Manifest.Resolve

namespace ManagementSchema

/-- What an entry is about. -/
inductive EntryKind where
  | namedType
  | managedAttribute
  | operationParameter
  deriving DecidableEq, Repr

/-- The name of a kind of entry. -/
def EntryKind.label : EntryKind → String
  | namedType => "type"
  | managedAttribute => "attribute"
  | operationParameter => "parameter"

/-- The error of an entry, by the name of its kind and its wording. -/
structure EntryFailure where
  kind : String
  message : String
  deriving DecidableEq, Repr

/-- What was found about one definition. -/
structure Entry where
  kind : EntryKind
  name : String
  openType : Option String := none
  constraints : Option Constraints := none
  failure : Option EntryFailure := none

/-- What was found about all definitions. -/
structure Report where
  entries : List Entry

/-! ## Checks -/

namespace Entry

/-- An entry for a reference that gives no type. -/
def ofResolveError (kind : EntryKind) (name : String) (error : ResolveError) : Entry :=
  { kind, name, failure := some ⟨"malformed_type", error.message⟩ }

/-- An entry for a definition with a type, by the constraints that were made for it. -/
def ofConstraints (kind : EntryKind) (name : String) (type : OpenType) :
    Except ConstraintError Constraints → Entry
  | .ok constraints => { kind, name, openType := some type.name, constraints := some constraints }
  | .error error =>
    { kind, name, openType := some type.name, failure := some ⟨error.kind, error.message⟩ }

/-- The entry of a named type. -/
def ofType (m : Manifest) (name : String) : Entry :=
  match m.resolve name with
  | .ok type => { kind := .namedType, name, openType := some type.name }
  | .error error => ofResolveError .namedType name error

/-- The entry of an attribute, checked with the conversions. -/
def ofAttribute (m : Manifest) (c : Conversions) (a : AttributeDefinition) : Entry :=
  match m.resolve a.type with
  | .error error => ofResolveError .managedAttribute a.name error
  | .ok type => ofConstraints .managedAttribute a.name type do
    let descriptor ← Descriptor.ofJson a.descriptor
    let info ← AttributeInfo.ofDescriptor a.name a.description a.access type descriptor c
    return info.constraints

/-- The entry of a parameter, checked with the conversions. -/
def ofParameter (m : Manifest) (c : Conversions) (p : ParameterDefinition) : Entry :=
  match m.resolve p.type with
  | .error error => ofResolveError .operationParameter p.name error
  | .ok type => ofConstraints .operationParameter p.name type do
    let descriptor ← Descriptor.ofJson p.descriptor
    let info ← ParameterInfo.ofDescriptor p.name p.description type descriptor c
    return info.constraints

end Entry

/-- Checks all definitions with the conversions: the types in the order of their names, then
attributes and parameters as they stand. -/
def Manifest.check (m : Manifest) (c : Conversions) : Report :=
  ⟨m.types.keys.map (Entry.ofType m) ++ m.attributes.map (Entry.ofAttribute m c) ++
    m.parameters.map (Entry.ofParameter m c)⟩

namespace Report

/-- How many definitions have an error. -/
def failures (r : Report) : Nat := r.entries.countP fun entry => entry.failure.isSome

/-- No definition has an error. -/
def isOk (r : Report) : Bool := r.failures = 0

end Report

/-! ## Written as text -/

namespace Entry

/-- A constraint on a line of its own. -/
def constraintLine (label : String) (text : Option String) : String :=
  match text with
  | some text => "    " ++ label ++ text ++ "\n"
  | none => ""

/-- The constraints, one a line. -/
def constraintLines (c : Constraints) : String :=
  constraintLine "defaultValue: " (c.default.map Value.toString) ++
    constraintLine "minValue:     " (c.min.map Value.toString) ++
    constraintLine "maxValue:     " (c.max.map Value.toString) ++
    constraintLine "legalValues:  " (c.legal.map fun values =>
      "[" ++ Text.join ", " (values.map Value.toString) ++ "]")

/-- The lines of an entry. -/
def text (entry : Entry) : String :=
  let subject := "  " ++ entry.kind.label ++ " " ++ entry.name ++ ": "
  match entry.failure with
  | some failure =>
    subject ++ "INVALID [" ++ failure.kind ++ "]\n    - " ++ failure.message ++ "\n"
  | none =>
    subject ++ "OK (" ++ entry.openType.getD "?" ++ ")\n" ++
      (entry.constraints.map constraintLines).getD ""

end Entry

/-- The report as text: the entries and a line of numbers. -/
def Report.text (r : Report) : String :=
  String.join (r.entries.map Entry.text) ++ "\n" ++ toString r.entries.length ++
    " definitions, " ++ toString r.failures ++ " invalid\n"

/-! ## Written as JSON -/

namespace Entry

/-- A member that is left out if it has no value. -/
def optionalMember (name : String) (value : Option Json) : List (String × Json) :=
  match value with
  | some value => [(name, value)]
  | none => []

/-- The constraints that are there, as texts. -/
def constraintsJson (c : Constraints) : Json :=
  let textOf (v : Value) : Json := .string v.toString
  .object (optionalMember "defaultValue" (c.default.map textOf) ++
    optionalMember "minValue" (c.min.map textOf) ++
    optionalMember "maxValue" (c.max.map textOf) ++
    optionalMember "legalValues" (c.legal.map fun values => .array (values.map textOf)))

/-- The error. -/
def failureJson (failure : EntryFailure) : Json :=
  .object [("kind", .string failure.kind), ("message", .string failure.message)]

/-- The entry as an object. -/
def toJson (entry : Entry) : Json :=
  .object ([("kind", .string entry.kind.label), ("name", .string entry.name)] ++
    optionalMember "open_type" (entry.openType.map .string) ++
    optionalMember "constraints" (entry.constraints.map constraintsJson) ++
    optionalMember "error" (entry.failure.map failureJson))

end Entry

/-- The report as an object. -/
def Report.toJson (r : Report) : Json :=
  .object [("entries", .array (r.entries.map Entry.toJson)),
    ("failures", .number (.whole r.failures))]

end ManagementSchema
