-- What can go wrong when types and values are built, as causes with their
-- wording.

import ManagementSchema.Number.BinaryText
import ManagementSchema.Number.Decimal
import ManagementSchema.ObjectName
import ManagementSchema.Text.Quoted
import ManagementSchema.Time.Text

namespace ManagementSchema

/-! ## Refused values -/

/-- Why something is not a value of a type. -/
inductive Reason where
  | noValues
  | notTrueOrFalse
  | notOneCharacter
  | whole (fault : Whole.Fault)
  | binary (fault : BinaryFormat.Fault)
  | decimal (fault : Decimal.Fault)
  | instant (fault : Instant.Fault)
  | objectName (fault : ObjectName.Fault)
  | millisOutOfRange
  | nullInPrimitiveArray
  | wrongElement (actual expected : String)
  | notAnItem (type : String)
  | wrongItem (expected actual : String)
  | repeatedItem
  | missingItem
  | nonConvertible
  | notSingle (shape : String)
  | notAValue (actual expected : String)
  | nullLegalValue
  | stated (text : String)
  deriving DecidableEq, Repr

/-- The wording of a reason. -/
def Reason.message : Reason → String
  | noValues => "java.lang.Void has no values"
  | notTrueOrFalse => "expected \"true\" or \"false\""
  | notOneCharacter => "expected exactly one character"
  | whole fault => fault.message
  | binary fault => fault.message
  | decimal fault => fault.message
  | instant fault => fault.message
  | objectName fault => fault.message
  | millisOutOfRange => "epoch millis out of range"
  | nullInPrimitiveArray => "null element in a primitive array"
  | wrongElement actual expected => "element is " ++ actual ++ ", expected " ++ expected
  | notAnItem type => "not an item of composite type " ++ type
  | wrongItem expected actual => "expected " ++ expected ++ ", got " ++ actual
  | repeatedItem => "item given more than once"
  | missingItem => "missing item"
  | nonConvertible => "non-convertible type: no text conversion is registered"
  | notSingle shape => "a " ++ shape ++ " is not a single value"
  | notAValue actual expected => actual ++ " is not a value of " ++ expected
  | nullLegalValue => "null is not a legal value"
  | stated text => text

/-- Something that could not become a value: the type it was meant for, what it was, and why
not. -/
structure Refusal where
  target : String
  input : String
  reason : Reason
  deriving DecidableEq, Repr

/-- The wording of a refusal. -/
def Refusal.message (r : Refusal) : String :=
  "cannot convert " ++ r.input ++ " to " ++ r.target ++ ": " ++ r.reason.message

/-! ## Types and tables -/

/-- The rule that a type definition breaks. -/
inductive TypeFault where
  | unknownKind
  | zeroDimension
  | noPrimitiveForm
  | blankTypeName
  | blankDescription
  | noItems
  | blankItemName (index : Nat)
  | blankItemDescription (item : String)
  | duplicateItem (item : String)
  | noIndex
  | unknownIndex (name rowType : String)
  | duplicateIndex (name : String)
  deriving DecidableEq, Repr

/-- The wording of a type fault. -/
def TypeFault.message : TypeFault → String
  | unknownKind => "unknown simple type"
  | zeroDimension => "array dimension must be at least 1"
  | noPrimitiveForm => "simple type has no primitive array form"
  | blankTypeName => "type name must not be blank"
  | blankDescription => "description must not be blank"
  | noItems => "a composite type needs at least one item"
  | blankItemName index => "item #" ++ toString index ++ " has a blank name"
  | blankItemDescription item => "item " ++ Text.quoted item ++ " has a blank description"
  | duplicateItem item => "duplicate item name " ++ Text.quoted item
  | noIndex => "at least one index name is required"
  | unknownIndex name rowType =>
    "index name " ++ Text.quoted name ++ " is not an item of row type " ++ rowType
  | duplicateIndex name => "duplicate index name " ++ Text.quoted name

/-- Why a key does not fit what it is looked up in. -/
inductive KeyFault where
  | notAnItem (key type : String)
  | wrongLength (key : String) (length : Nat) (type : String) (expected : Nat)
  | wrongComponent (index : Nat) (key actual expected : String)
  | stated (text : String)
  deriving DecidableEq, Repr

/-- The wording of a key fault. -/
def KeyFault.message : KeyFault → String
  | notAnItem key type => Text.quoted key ++ " is not an item of composite type " ++ type
  | wrongLength key length type expected =>
    "key " ++ key ++ " has " ++ toString length ++ " components, index of " ++ type ++ " has " ++
      toString expected
  | wrongComponent index key actual expected =>
    "component " ++ toString index ++ " of key " ++ key ++ " is " ++ actual ++ ", expected " ++
      expected
  | stated text => text

/-- What goes wrong with types, values and tables. -/
inductive DataError where
  | malformedType (type : String) (fault : TypeFault)
  | refused (refusal : Refusal)
  | invalidKey (fault : KeyFault)
  | keyExists (key : String)
  | wrongRowType (expected actual : String)
  deriving DecidableEq, Repr

/-- The wording of an error. -/
def DataError.message : DataError → String
  | malformedType type fault => "malformed type '" ++ type ++ "': " ++ fault.message
  | refused refusal => refusal.message
  | invalidKey fault => "invalid key: " ++ fault.message
  | keyExists key => "key already exists: " ++ key
  | wrongRowType expected actual =>
    "invalid open type: expected " ++ expected ++ ", got " ++ actual

end ManagementSchema
