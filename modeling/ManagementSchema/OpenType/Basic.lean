-- Types that describe themselves: single values, arrays, composites with named
-- items, and tables of composite rows.

import ManagementSchema.Error
import ManagementSchema.Kind
import ManagementSchema.Text.Blank

namespace ManagementSchema

mutual

/-- A type of managed data. -/
inductive OpenType where
  | simple (kind : Kind)
  | array (type : ArrayType)
  | composite (type : CompositeType)
  | tabular (type : TabularType)

/-- Nested arrays of some depth. The element type of a type made by `ArrayType.build` is no array
itself. -/
structure ArrayType where
  dimension : Nat
  element : OpenType
  isPrimitive : Bool

/-- A named part of a composite type. -/
structure Item where
  name : String
  description : String
  type : OpenType

/-- A type of records, with its items in the order of their declaration. -/
structure CompositeType where
  name : String
  description : String
  items : List Item

/-- A type of tables: what its rows are, and which items make up the key of a row. -/
structure TabularType where
  name : String
  description : String
  row : CompositeType
  index : List String

end

/-! ## Names -/

mutual

/-- The class name by which clients know the type. -/
def OpenType.className : OpenType → String
  | .simple kind => kind.className
  | .array type => type.className
  | .composite _ => "javax.management.openmbean.CompositeData"
  | .tabular _ => "javax.management.openmbean.TabularData"
termination_by structural t => t

/-- The class name of an array: one bracket for each dimension, then the letter of an unboxed
kind or the class name of the element. -/
def ArrayType.className : ArrayType → String
  | ⟨dimension, element, isPrimitive⟩ =>
    let code? := match isPrimitive, element with
      | true, .simple kind => kind.primitiveCode?
      | _, _ => none
    String.ofList (List.replicate dimension '[') ++
      match code? with
      | some code => String.singleton code
      | none => "L" ++ element.className ++ ";"
termination_by structural t => t

end

namespace OpenType

/-- The name that the type was given, or its class name if it has none. -/
def name : OpenType → String
  | simple kind => kind.className
  | array type => type.className
  | composite type => type.name
  | tabular type => type.name

/-- The kind of a type of single values. -/
def kind? : OpenType → Option Kind
  | simple kind => some kind
  | _ => none

/-- The type is an array type. -/
def isArray : OpenType → Bool
  | array _ => true
  | _ => false

/-- The values of the type have a natural order. -/
def isOrdered : OpenType → Bool
  | simple kind => kind.isOrdered
  | _ => false

end OpenType

/-- What the array is an array of, in words. -/
def ArrayType.description (type : ArrayType) : String :=
  let element := match type.isPrimitive, type.element with
    | true, .simple kind => kind.primitiveName?.getD kind.className
    | _, element => element.className
  toString type.dimension ++ "-dimension array of " ++ element

/-- What the type is for, in words. -/
def OpenType.description : OpenType → String
  | simple kind => kind.className
  | array type => type.description
  | composite type => type.description
  | tabular type => type.description

/-! ## Items -/

namespace CompositeType

/-- The names of the items. -/
def itemNames (type : CompositeType) : List String := type.items.map Item.name

/-- The item of a name. -/
def item? (type : CompositeType) (name : String) : Option Item :=
  type.items.find? fun item => item.name = name

/-- The type of the item of a name. -/
def itemType? (type : CompositeType) (name : String) : Option OpenType :=
  (type.item? name).map Item.type

/-- There is an item of this name. -/
def hasItem (type : CompositeType) (name : String) : Bool := (type.item? name).isSome

end CompositeType

/-- The types of the items that make up a key, in the order of the key. -/
def TabularType.indexTypes (type : TabularType) : List OpenType :=
  type.index.filterMap type.row.itemType?

/-! ## Written form -/

mutual

/-- The type written out in full. -/
protected def OpenType.toString : OpenType → String
  | .simple kind => "SimpleType(name=" ++ kind.className ++ ")"
  | .array type => type.toString
  | .composite type => type.toString
  | .tabular type => type.toString
termination_by structural t => t

/-- The array type written out. -/
protected def ArrayType.toString : ArrayType → String
  | ⟨dimension, element, isPrimitive⟩ =>
    "ArrayType(name=" ++ ArrayType.className ⟨dimension, element, isPrimitive⟩ ++
      ",dimension=" ++ toString dimension ++ ",elementType=" ++ element.toString ++
      ",primitiveArray=" ++ (if isPrimitive then "true" else "false") ++ ")"
termination_by structural t => t

/-- The composite type written out, with its items in order. -/
protected def CompositeType.toString : CompositeType → String
  | ⟨name, _, items⟩ =>
    "CompositeType(name=" ++ name ++ ",items=(" ++ Text.join "," (Item.toStrings items) ++ "))"
termination_by structural t => t

/-- The tabular type written out. -/
protected def TabularType.toString : TabularType → String
  | ⟨name, _, row, index⟩ =>
    "TabularType(name=" ++ name ++ ",rowType=" ++ row.toString ++ ",indexNames=(" ++
      Text.join "," index ++ "))"
termination_by structural t => t

/-- Each item written out. -/
def Item.toStrings : List Item → List String
  | [] => []
  | ⟨name, _, type⟩ :: rest =>
    ("(itemName=" ++ name ++ ",itemType=" ++ type.toString ++ ")") :: Item.toStrings rest
termination_by structural t => t

end

end ManagementSchema
