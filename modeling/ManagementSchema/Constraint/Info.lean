-- Descriptions of attributes and of operation parameters: a name, some words
-- and constraints, and for attributes the access that clients have.

import ManagementSchema.Constraint.Validation

namespace ManagementSchema

/-! ## Exported descriptors -/

/-- The descriptor that states a type and its constraints. -/
def Constraints.toDescriptor (c : Constraints) : Descriptor :=
  ((Dictionary.empty.insert "openType" (.text c.type.name)).insert "originalType"
      (.text c.type.className))
    |> Descriptor.put ConstraintField.defaultValue.name (c.default.map .native)
    |> Descriptor.put ConstraintField.minValue.name (c.min.map .native)
    |> Descriptor.put ConstraintField.maxValue.name (c.max.map .native)
    |> Descriptor.put ConstraintField.legalValues.name
        (c.legal.map fun values => .set (values.map .native))

/-- A text that may not be blank. -/
def requireText (what text : String) : Except ConstraintError Unit :=
  if Text.isBlank text then .error (.invalidInfo (.blank what)) else .ok ()

/-! ## Parameters -/

/-- A parameter of an operation. -/
structure ParameterInfo where
  name : String
  description : String
  constraints : Constraints

namespace ParameterInfo

/-- Name and description are not blank. -/
def check (name description : String) : Except ConstraintError Unit := do
  requireText "parameter name" name
  requireText "parameter description" description

/-- The parameter with constraints that are already checked. -/
def build (name description : String) (constraints : Constraints) :
    Except ConstraintError ParameterInfo := do
  check name description
  return ⟨name, description, constraints⟩

/-- The parameter without constraints. -/
def unconstrained (name description : String) (type : OpenType) :
    Except ConstraintError ParameterInfo :=
  build name description (.unconstrained type)

/-- The parameter with the constraints of a descriptor. -/
def ofDescriptor (name description : String) (type : OpenType) (descriptor : Descriptor)
    (conversions : Conversions) : Except ConstraintError ParameterInfo := do
  check name description
  build name description (← Constraints.validate conversions type descriptor.constraintFields)

/-- The parameter with constraints given as values. -/
def ofValues (name description : String) (type : OpenType) (values : ConstraintValues)
    (conversions : Conversions) : Except ConstraintError ParameterInfo := do
  check name description
  build name description (← Constraints.validateValues conversions type values)

/-- The value may be passed for the parameter. -/
def permits (info : ParameterInfo) (v : Value) : Bool := info.constraints.permits v

/-- The descriptor of the parameter. -/
def toDescriptor (info : ParameterInfo) : Descriptor := info.constraints.toDescriptor

/-- Same name and equal constraints; descriptions may differ. -/
def same (a b : ParameterInfo) : Bool := a.name = b.name && a.constraints.same b.constraints

/-- The parameter in words. -/
protected def toString (info : ParameterInfo) : String :=
  "parameter " ++ info.name ++ ": " ++ info.constraints.type.name ++ " (" ++
    info.constraints.toString ++ ")"

end ParameterInfo

/-! ## Attributes -/

/-- What clients may do with an attribute. -/
structure Access where
  readable : Bool
  writable : Bool
  isGetter : Bool
  deriving DecidableEq, Repr

namespace Access

/-- Reading only. -/
def readOnly : Access := ⟨true, false, false⟩

/-- Reading and writing. -/
def readWrite : Access := ⟨true, true, false⟩

/-- Writing only. -/
def writeOnly : Access := ⟨false, true, false⟩

/-- Reading only, by a question that is answered with yes or no. -/
def getter : Access := ⟨true, false, true⟩

/-- A question must be readable and of the boolean type. -/
def check (access : Access) (type : OpenType) : Except ConstraintError Unit :=
  if !access.isGetter then .ok ()
  else if !access.readable then .error (.invalidInfo .unreadableGetter)
  else if type.kind? ≠ some .boolean then .error (.invalidInfo (.getterType type.name))
  else .ok ()

/-- The access in words. -/
def label (access : Access) : String :=
  match access.readable, access.writable with
  | true, true => "read-write"
  | true, false => "read-only"
  | false, true => "write-only"
  | false, false => "no access"

end Access

/-- An attribute of a managed object. -/
structure AttributeInfo where
  name : String
  description : String
  access : Access
  constraints : Constraints

namespace AttributeInfo

/-- Name and description are not blank, and the access fits the type. -/
def check (name description : String) (access : Access) (type : OpenType) :
    Except ConstraintError Unit := do
  requireText "attribute name" name
  requireText "attribute description" description
  access.check type

/-- The attribute with constraints that are already checked. -/
def build (name description : String) (access : Access) (constraints : Constraints) :
    Except ConstraintError AttributeInfo := do
  check name description access constraints.type
  return ⟨name, description, access, constraints⟩

/-- The attribute without constraints. -/
def unconstrained (name description : String) (access : Access) (type : OpenType) :
    Except ConstraintError AttributeInfo :=
  build name description access (.unconstrained type)

/-- The attribute with the constraints of a descriptor. -/
def ofDescriptor (name description : String) (access : Access) (type : OpenType)
    (descriptor : Descriptor) (conversions : Conversions) :
    Except ConstraintError AttributeInfo := do
  check name description access type
  build name description access
    (← Constraints.validate conversions type descriptor.constraintFields)

/-- The attribute with constraints given as values. -/
def ofValues (name description : String) (access : Access) (type : OpenType)
    (values : ConstraintValues) (conversions : Conversions) :
    Except ConstraintError AttributeInfo := do
  check name description access type
  build name description access (← Constraints.validateValues conversions type values)

/-- The value may be given to the attribute. -/
def permits (info : AttributeInfo) (v : Value) : Bool := info.constraints.permits v

/-- The descriptor of the attribute. -/
def toDescriptor (info : AttributeInfo) : Descriptor := info.constraints.toDescriptor

/-- Same name and access and equal constraints; descriptions may differ. -/
def same (a b : AttributeInfo) : Bool :=
  a.name = b.name && a.access = b.access && a.constraints.same b.constraints

/-- The attribute in words. -/
protected def toString (info : AttributeInfo) : String :=
  "attribute " ++ info.name ++ ": " ++ info.constraints.type.name ++ " [" ++ info.access.label ++
    "] (" ++ info.constraints.toString ++ ")"

end AttributeInfo

end ManagementSchema
