-- The constructors that check what they are given.

import ManagementSchema.OpenType.Basic

namespace ManagementSchema

/-! ## Single values -/

/-- The kind with a short name or a class name, as a type. -/
def OpenType.ofKindName (name : String) : Except DataError OpenType :=
  match Kind.ofName? name with
  | some kind => .ok (.simple kind)
  | none => .error (.malformedType name .unknownKind)

/-! ## Arrays -/

namespace ArrayType

/-- Arrays of a depth over an element type. Over arrays the depths add up, so that the element
type is never an array. Depths have no bound here; counted in a word of 64 bits, the sum is the same
as long as it is below `2 ^ 64`. -/
def build (dimension : Nat) (element : OpenType) : Except DataError ArrayType :=
  if dimension = 0 then .error (.malformedType element.name .zeroDimension)
  else match element with
    | .array inner => .ok ⟨dimension + inner.dimension, inner.element, inner.isPrimitive⟩
    | element => .ok ⟨dimension, element, false⟩

/-- Arrays of depth one over the unboxed form of a kind. -/
def buildPrimitive (kind : Kind) : Except DataError ArrayType :=
  if kind.primitive?.isSome then .ok ⟨1, .simple kind, true⟩
  else .error (.malformedType kind.className .noPrimitiveForm)

/-- The type of the entries of an array: one dimension less. -/
def component (type : ArrayType) : OpenType :=
  if type.dimension = 1 then type.element
  else .array ⟨type.dimension - 1, type.element, type.isPrimitive⟩

end ArrayType

/-! ## Composites and tables -/

namespace CompositeType

/-- Checks the items one after the other, the first of them being number `index`; `seen` are the
names before. -/
def checkItems (index : Nat) (seen : List String) : List Item → Except TypeFault Unit
  | [] => .ok ()
  | item :: rest =>
    if Text.isBlank item.name then .error (.blankItemName index)
    else if Text.isBlank item.description then .error (.blankItemDescription item.name)
    else if item.name ∈ seen then .error (.duplicateItem item.name)
    else checkItems (index + 1) (item.name :: seen) rest

/-- The rules for a composite type: nothing is blank, there is an item, and no two items share a
name. -/
def check (name description : String) (items : List Item) : Except TypeFault Unit :=
  if Text.isBlank name then .error .blankTypeName
  else if Text.isBlank description then .error .blankDescription
  else if items.isEmpty then .error .noItems
  else checkItems 0 [] items

/-- The composite type, if it keeps the rules. -/
def build (name description : String) (items : List Item) : Except DataError CompositeType :=
  match check name description items with
  | .ok () => .ok ⟨name, description, items⟩
  | .error fault => .error (.malformedType name fault)

end CompositeType

namespace TabularType

/-- Checks the index names one after the other; `seen` are those before. -/
def checkIndex (row : CompositeType) (seen : List String) : List String → Except TypeFault Unit
  | [] => .ok ()
  | name :: rest =>
    if !row.hasItem name then .error (.unknownIndex name row.name)
    else if name ∈ seen then .error (.duplicateIndex name)
    else checkIndex row (name :: seen) rest

/-- The rules for a tabular type: nothing is blank, and the index names are different items of
the row type, at least one. -/
def check (name description : String) (row : CompositeType) (index : List String) :
    Except TypeFault Unit :=
  if Text.isBlank name then .error .blankTypeName
  else if Text.isBlank description then .error .blankDescription
  else if index.isEmpty then .error .noIndex
  else checkIndex row [] index

/-- The tabular type, if it keeps the rules. -/
def build (name description : String) (row : CompositeType) (index : List String) :
    Except DataError TabularType :=
  match check name description row index with
  | .ok () => .ok ⟨name, description, row, index⟩
  | .error fault => .error (.malformedType name fault)

end TabularType

end ManagementSchema
