-- The fourteen kinds of single values.

namespace ManagementSchema

/-- A kind of single value. -/
inductive Kind where
  | void
  | boolean
  | character
  | byte
  | short
  | integer
  | long
  | float
  | double
  | string
  | bigDecimal
  | bigInteger
  | date
  | objectName
  deriving DecidableEq, Repr

namespace Kind

/-- All kinds, in their usual order. -/
def all : List Kind :=
  [void, boolean, character, byte, short, integer, long, float, double, string, bigDecimal,
    bigInteger, date, objectName]

theorem mem_all (k : Kind) : k ∈ all := by cases k <;> decide

/-- The short name, as manifests use it. -/
def name : Kind → String
  | void => "void"
  | boolean => "boolean"
  | character => "character"
  | byte => "byte"
  | short => "short"
  | integer => "integer"
  | long => "long"
  | float => "float"
  | double => "double"
  | string => "string"
  | bigDecimal => "big_decimal"
  | bigInteger => "big_integer"
  | date => "date"
  | objectName => "object_name"

/-- The class name by which clients know the kind. -/
def className : Kind → String
  | void => "java.lang.Void"
  | boolean => "java.lang.Boolean"
  | character => "java.lang.Character"
  | byte => "java.lang.Byte"
  | short => "java.lang.Short"
  | integer => "java.lang.Integer"
  | long => "java.lang.Long"
  | float => "java.lang.Float"
  | double => "java.lang.Double"
  | string => "java.lang.String"
  | bigDecimal => "java.math.BigDecimal"
  | bigInteger => "java.math.BigInteger"
  | date => "java.util.Date"
  | objectName => "javax.management.ObjectName"

/-- Every kind with values has a natural order. -/
def isOrdered (k : Kind) : Bool := k ≠ void

/-- The name of the unboxed form, for the kinds that have one, and its letter in the class names
of arrays. -/
def primitive? : Kind → Option (String × Char)
  | boolean => some ("boolean", 'Z')
  | character => some ("char", 'C')
  | byte => some ("byte", 'B')
  | short => some ("short", 'S')
  | integer => some ("int", 'I')
  | long => some ("long", 'J')
  | float => some ("float", 'F')
  | double => some ("double", 'D')
  | void | string | bigDecimal | bigInteger | date | objectName => none

/-- The name of the unboxed form. -/
def primitiveName? (k : Kind) : Option String := k.primitive?.map Prod.fst

/-- The letter of the unboxed form. -/
def primitiveCode? (k : Kind) : Option Char := k.primitive?.map Prod.snd

/-- The kind with a short name or a class name. -/
def ofName? (s : String) : Option Kind := all.find? fun k => k.name = s || k.className = s

/-- The kind with the name of an unboxed form. -/
def ofPrimitiveName? (s : String) : Option Kind := all.find? fun k => k.primitiveName? = some s

end Kind

end ManagementSchema
