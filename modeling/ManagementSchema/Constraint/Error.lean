-- What can go wrong when constraints are read and checked, as causes with
-- their wording.

import ManagementSchema.Constraint.Raw

namespace ManagementSchema

/-- The bounds that stand beside legal values. -/
inductive RangeFields where
  | min
  | max
  | both
  deriving DecidableEq, Repr

/-- The names of the bounds. -/
def RangeFields.text : RangeFields → String
  | min => "minValue"
  | max => "maxValue"
  | both => "minValue and maxValue"

/-- What may not be blank in the description of a feature, and which access it may have. -/
inductive InfoFault where
  | blank (what : String)
  | unreadableGetter
  | getterType (type : String)
  deriving DecidableEq, Repr

/-- The wording of a fault. -/
def InfoFault.message : InfoFault → String
  | blank what => what ++ " must not be blank"
  | unreadableGetter => "an is-getter attribute must be readable"
  | getterType type => "an is-getter attribute must be java.lang.Boolean, not " ++ type

/-- What goes wrong with constraints. -/
inductive ConstraintError where
  | refused (refusal : Refusal)
  | malformed (field : ConstraintField) (fault : Raw.Fault)
  | conflict (fields : RangeFields)
  | emptyRange (min max : String)
  | unsupported (field : ConstraintField) (type : String)
  | defaultNotLegal (default : String)
  | defaultOutOfRange (default : String) (min max : Option String)
  | invalidInfo (fault : InfoFault)
  deriving DecidableEq, Repr

namespace ConstraintError

/-- The name of the kind of error, as reports use it. -/
def kind : ConstraintError → String
  | refused _ => "value_conversion"
  | malformed .. => "malformed_constraint"
  | conflict _ => "constraint_conflict"
  | emptyRange .. => "constraint_range"
  | unsupported .. => "unsupported_constraint"
  | defaultNotLegal _ => "default_value_not_legal"
  | defaultOutOfRange .. => "default_value_out_of_range"
  | invalidInfo _ => "invalid_info"

/-- A bound as messages show it. -/
def boundText (bound : Option String) : String := bound.getD "unbounded"

/-- The wording of an error. -/
def message : ConstraintError → String
  | refused refusal => refusal.message
  | malformed field fault => "malformed " ++ field.name ++ ": " ++ fault.message
  | conflict fields => "legalValues cannot be combined with " ++ fields.text
  | emptyRange min max => "minValue " ++ min ++ " is greater than maxValue " ++ max
  | unsupported field type =>
    field.name ++ " is not supported for " ++ type ++ ": values have no natural order"
  | defaultNotLegal default => "defaultValue " ++ default ++ " is not one of the legalValues"
  | defaultOutOfRange default min max =>
    "defaultValue " ++ default ++ " is outside the range [" ++ boundText min ++ ", " ++
      boundText max ++ "]"
  | invalidInfo fault => "invalid info: " ++ fault.message

end ConstraintError

end ManagementSchema
