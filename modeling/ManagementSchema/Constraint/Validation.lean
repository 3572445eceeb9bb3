-- Constraints that are known to fit a type and each other, and the check that
-- makes them from raw values.

import ManagementSchema.Constraint.Coercion

namespace ManagementSchema

/-- Constraints on the values of a type. -/
structure Constraints where
  type : OpenType
  default : Option Value := none
  min : Option Value := none
  max : Option Value := none
  legal : Option (List Value) := none

namespace Constraints

/-- No constraint at all. -/
def unconstrained (type : OpenType) : Constraints := { type }

/-- Nothing is constrained. -/
def isEmpty (c : Constraints) : Bool :=
  c.default.isNone && c.min.isNone && c.max.isNone && c.legal.isNone

/-! ## Permitted values -/

/-- The value is at least the lower bound, if there is one. -/
def isAbove (v : Value) : Option Value → Bool
  | none => true
  | some min => v.compare min = some .gt || v.compare min = some .eq

/-- The value is at most the upper bound, if there is one. -/
def isBelow (v : Value) : Option Value → Bool
  | none => true
  | some max => v.compare max = some .lt || v.compare max = some .eq

/-- The value is between the bounds. -/
def inRange (v : Value) (min max : Option Value) : Bool := isAbove v min && isBelow v max

/-- The value is one of the legal values, if there are any. -/
def isLegal (v : Value) : Option (List Value) → Bool
  | none => true
  | some values => values.any (·.same v)

/-- The value is of the type, legal and in range. -/
def permits (c : Constraints) (v : Value) : Bool :=
  c.type.hasValue v && isLegal v c.legal && inRange v c.min c.max

/-! ## Written form -/

/-- One constraint in words, if it is there. -/
def part (field : ConstraintField) (text : Option String) : List String :=
  match text with
  | some text => [field.name ++ "=" ++ text]
  | none => []

/-- The legal values in braces. -/
def legalText (values : List Value) : String :=
  "\x7b" ++ Text.join ", " (values.map Value.render) ++ "\x7d"

/-- The constraints in words. -/
protected def toString (c : Constraints) : String :=
  let parts :=
    part .defaultValue (c.default.map Value.render) ++ part .minValue (c.min.map Value.render) ++
      part .maxValue (c.max.map Value.render) ++ part .legalValues (c.legal.map legalText)
  if parts.isEmpty then "unconstrained" else Text.join ", " parts

/-! ## Equality -/

/-- Both are absent, or both are there and equal in their places. -/
def sameLegal : Option (List Value) → Option (List Value) → Bool
  | none, none => true
  | some a, some b => Value.sameCells (a.map some) (b.map some)
  | _, _ => false

/-- The constraints are equal. -/
def same (a b : Constraints) : Bool :=
  a.type.same b.type && Value.sameCell a.default b.default && Value.sameCell a.min b.min &&
    Value.sameCell a.max b.max && sameLegal a.legal b.legal

/-! ## Checks -/

/-- The bounds that are there. -/
def rangeFields : Option Value → Option Value → Option RangeFields
  | some _, some _ => some .both
  | some _, none => some .min
  | none, some _ => some .max
  | none, none => none

/-- Legal values and bounds exclude each other. -/
def checkConflict (c : Constraints) : Except ConstraintError Unit :=
  match c.legal, rangeFields c.min c.max with
  | some _, some fields => .error (.conflict fields)
  | _, _ => .ok ()

/-- Bounds need an order. -/
def checkOrder (c : Constraints) : Except ConstraintError Unit :=
  if c.type.isOrdered then .ok ()
  else if c.min.isSome then .error (.unsupported .minValue c.type.name)
  else if c.max.isSome then .error (.unsupported .maxValue c.type.name)
  else .ok ()

/-- The lower bound is not above the upper one. -/
def checkRange (c : Constraints) : Except ConstraintError Unit :=
  match c.min, c.max with
  | some min, some max =>
    if min.compare max = some .gt then .error (.emptyRange min.render max.render) else .ok ()
  | _, _ => .ok ()

/-- The default is legal and in range. -/
def checkDefault (c : Constraints) : Except ConstraintError Unit :=
  match c.default with
  | none => .ok ()
  | some default =>
    if !isLegal default c.legal then .error (.defaultNotLegal default.render)
    else if !inRange default c.min c.max then
      .error (.defaultOutOfRange default.render (c.min.map Value.render) (c.max.map Value.render))
    else .ok ()

/-- The constraints fit each other. -/
def check (c : Constraints) : Except ConstraintError Unit := do
  checkConflict c
  checkOrder c
  checkRange c
  checkDefault c

/-- A raw value as a value of the type, if it is there. -/
def coerceField (conversions : Conversions) (type : OpenType) :
    Option Raw → Except ConstraintError (Option Value)
  | none => .ok none
  | some raw => ((conversions.coerce type raw).mapError .refused).map some

/-- A collection of legal values, if it is there and not empty. -/
def coerceLegalField (conversions : Conversions) (type : OpenType) :
    Option Raw → Except ConstraintError (Option (List Value))
  | none => .ok none
  | some raw =>
    (conversions.coerceLegal type raw).map fun values =>
      if values.isEmpty then none else some values

/-- The constraints that raw fields state about a type, if they fit it and each other. -/
def validate (conversions : Conversions) (type : OpenType) (fields : ConstraintFields) :
    Except ConstraintError Constraints := do
  let default ← coerceField conversions type fields.default
  let min ← coerceField conversions type fields.min
  let max ← coerceField conversions type fields.max
  let legal ← coerceLegalField conversions type fields.legal
  let constraints : Constraints := { type, default, min, max, legal }
  check constraints
  return constraints

end Constraints

/-! ## Finished values -/

/-- Constraints given as values. -/
structure ConstraintValues where
  default : Option Value := none
  min : Option Value := none
  max : Option Value := none
  legal : Option (List Value) := none

/-- The values as raw fields; the legal ones are a set. -/
def ConstraintValues.toFields (values : ConstraintValues) : ConstraintFields :=
  ⟨values.default.map .native, values.min.map .native, values.max.map .native,
    values.legal.map fun legal => .set (legal.map .native)⟩

/-- The constraints that values state about a type. -/
def Constraints.validateValues (conversions : Conversions) (type : OpenType)
    (values : ConstraintValues) : Except ConstraintError Constraints :=
  validate conversions type values.toFields

end ManagementSchema
