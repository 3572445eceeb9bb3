-- The constructors that check what they are given: arrays, and records with
-- their items in any order.

import ManagementSchema.Value.Basic

namespace ManagementSchema

/-! ## Single values -/

/-- A text as a value of a kind. -/
def Value.read (kind : Kind) (text : String) : Except Refusal Value :=
  (kind.read text).map .scalar

/-- The date so many milliseconds after the start of 1970. -/
def Value.ofMillis (millis : Int) : Except Refusal Value :=
  match Instant.ofMillis? millis with
  | some t => .ok (.scalar (.date t))
  | none => .error ⟨Kind.date.className, toString millis, .millisOutOfRange⟩

/-- The object name with a domain and properties. -/
def Value.ofProperties (domain : String) (properties : List (String × String)) :
    Except Refusal Value :=
  match ObjectName.ofProperties domain properties with
  | .ok n => .ok (.scalar (.objectName n))
  | .error fault => .error ⟨Kind.objectName.className, fault.input, .objectName fault⟩

/-! ## Arrays -/

namespace ArrayValue

/-- Why an element may not stand in an array of the type. -/
def elementFault? (type : ArrayType) : Option Value → Option Reason
  | none => if type.isPrimitive ∧ type.dimension = 1 then some .nullInPrimitiveArray else none
  | some v =>
    if type.component.hasValue v then none
    else some (.wrongElement v.kindLabel type.component.name)

/-- Checks the elements one after the other, the first of them being number `index`. -/
def checkElements (type : ArrayType) (index : Nat) : List (Option Value) → Except Refusal Unit
  | [] => .ok ()
  | element :: rest =>
    match elementFault? type element with
    | some reason => .error ⟨type.className, "element [" ++ toString index ++ "]", reason⟩
    | none => checkElements type (index + 1) rest

/-- The array, if each element is null or a value of the component type. The innermost arrays of
an unboxed kind have no null. -/
def build (type : ArrayType) (elements : List (Option Value)) : Except DataError ArrayValue :=
  match checkElements type 0 elements with
  | .ok () => .ok ⟨type, elements⟩
  | .error refusal => .error (.refused refusal)

end ArrayValue

/-! ## Records -/

namespace Record

/-- What a message shows of an item. -/
def itemText (name : String) : String := "item " ++ Text.quoted name

/-- Adds given items to those found so far. -/
def collect (type : CompositeType) : List (String × Option Value) →
    List (String × Option Value) → Except Refusal (List (String × Option Value))
  | found, [] => .ok found
  | found, (name, cell) :: rest => do
    let some itemType := type.itemType? name
      | throw ⟨type.name, itemText name, .notAnItem type.name⟩
    if let some v := cell then
      if !itemType.hasValue v then
        throw ⟨type.name, itemText name ++ " = " ++ v.render,
          .wrongItem itemType.name v.kindLabel⟩
    if (Dictionary.find? name found).isSome then
      throw ⟨type.name, itemText name, .repeatedItem⟩
    collect type (found ++ [(name, cell)]) rest

/-- The found cells under the item names, in the order of the declaration; the first name without
a cell is the error. -/
def arrange (type : CompositeType) (found : List (String × Option Value)) :
    List String → Except Refusal (List (String × Option Value))
  | [] => .ok []
  | name :: rest =>
    match Dictionary.find? name found with
    | some cell => (arrange type found rest).map ((name, cell) :: ·)
    | none => .error ⟨type.name, itemText name, .missingItem⟩

/-- The record with the given items, which may come in any order, but each exactly once. -/
def build (type : CompositeType) (given : List (String × Option Value)) :
    Except DataError Record :=
  match (do arrange type (← collect type [] given) type.itemNames) with
  | .ok fields => .ok ⟨type, fields⟩
  | .error refusal => .error (.refused refusal)

/-- The cell under an item name. -/
def get (r : Record) (name : String) : Except DataError (Option Value) :=
  match Dictionary.find? name r.fields with
  | some cell => .ok cell
  | none => .error (.invalidKey (.notAnItem name r.type.name))

/-- The cells under several item names. -/
def getAll (r : Record) (names : List String) : Except DataError (List (Option Value)) :=
  names.mapM r.get

/-- There is an item of this name. -/
def hasKey (r : Record) (name : String) : Bool := (Dictionary.find? name r.fields).isSome

/-- Some item has this value. -/
def hasValue (r : Record) (v : Value) : Bool :=
  r.fields.any fun (_, cell) => Value.sameCell cell (some v)

/-- The cells in the order of the declaration. -/
def values (r : Record) : List (Option Value) := r.fields.map Prod.snd

end Record

end ManagementSchema
