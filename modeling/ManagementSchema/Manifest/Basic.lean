-- Manifests: named types, and the attributes and parameters that use them.

import ManagementSchema.Constraint.Info

namespace ManagementSchema

/-- An item of a composite definition; its type is named by a reference. -/
structure ItemDefinition where
  name : String
  description : String
  type : String
  deriving DecidableEq, Repr

/-- The definition of a named type. -/
inductive TypeDefinition where
  | composite (description : String) (items : List ItemDefinition)
  | tabular (description row : String) (index : List String)
  deriving DecidableEq, Repr

/-- An attribute, with the members of its descriptor in the order of their names. -/
structure AttributeDefinition where
  name : String
  description : String
  type : String
  access : Access := .readOnly
  descriptor : List (String × Json) := []

/-- A parameter of an operation. -/
structure ParameterDefinition where
  name : String
  description : String
  type : String
  descriptor : List (String × Json) := []

/-- What a manifest file holds. -/
structure Manifest where
  types : Dictionary TypeDefinition := .empty
  attributes : List AttributeDefinition := []
  parameters : List ParameterDefinition := []

end ManagementSchema
