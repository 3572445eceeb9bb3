-- When two types are equal, and when the values of one may stand for values
-- of the other. Descriptions and the order of items play no part in either.

import ManagementSchema.OpenType.Build

namespace ManagementSchema

mutual

/-- Values of the second type may stand where the first is asked for. -/
def OpenType.accepts : OpenType → OpenType → Bool
  | .simple a, .simple b => a = b
  | .array a, .array b => a.accepts b
  | .composite a, .composite b => a.accepts b
  | .tabular a, .tabular b => a.accepts b
  | _, _ => false
termination_by structural t => t

/-- Arrays of the same depth and form whose elements are accepted. -/
def ArrayType.accepts : ArrayType → ArrayType → Bool
  | ⟨dimension, element, isPrimitive⟩, other =>
    dimension = other.dimension && isPrimitive = other.isPrimitive &&
      element.accepts other.element
termination_by structural t => t

/-- Composites of the same name that have every item, and perhaps more. -/
def CompositeType.accepts : CompositeType → CompositeType → Bool
  | ⟨name, _, items⟩, other => name = other.name && Item.allAccept items other
termination_by structural t => t

/-- Tables of the same name with the same key and accepted rows. -/
def TabularType.accepts : TabularType → TabularType → Bool
  | ⟨name, _, row, index⟩, other =>
    name = other.name && index = other.index && row.accepts other.row
termination_by structural t => t

/-- Each item accepts the item of its name in the other type. -/
def Item.allAccept : List Item → CompositeType → Bool
  | [], _ => true
  | ⟨name, _, type⟩ :: rest, other =>
    (match other.itemType? name with
      | some otherType => type.accepts otherType
      | none => false) &&
      Item.allAccept rest other
termination_by structural t => t

end

mutual

/-- The types are equal. -/
def OpenType.same : OpenType → OpenType → Bool
  | .simple a, .simple b => a = b
  | .array a, .array b => a.same b
  | .composite a, .composite b => a.same b
  | .tabular a, .tabular b => a.same b
  | _, _ => false
termination_by structural t => t

/-- Same depth, same form, same elements. -/
def ArrayType.same : ArrayType → ArrayType → Bool
  | ⟨dimension, element, isPrimitive⟩, other =>
    dimension = other.dimension && element.same other.element && isPrimitive = other.isPrimitive
termination_by structural t => t

/-- Same name, and as many items, which agree by name. -/
def CompositeType.same : CompositeType → CompositeType → Bool
  | ⟨name, _, items⟩, other =>
    name = other.name && items.length = other.items.length && Item.allSame items other
termination_by structural t => t

/-- Same name, same rows, same key. -/
def TabularType.same : TabularType → TabularType → Bool
  | ⟨name, _, row, index⟩, other =>
    name = other.name && row.same other.row && index = other.index
termination_by structural t => t

/-- Each item has the type of the item of its name in the other type. -/
def Item.allSame : List Item → CompositeType → Bool
  | [], _ => true
  | ⟨name, _, type⟩ :: rest, other =>
    (match other.itemType? name with
      | some otherType => type.same otherType
      | none => false) &&
      Item.allSame rest other
termination_by structural t => t

end

end ManagementSchema
