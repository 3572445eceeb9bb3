-- Tables as stores: rows are put in under the key that their items make up,
-- and found, counted and removed by it.

import ManagementSchema.Value.Build

namespace ManagementSchema

/-! ## Keys -/

/-- The key of a row under a tabular type. -/
def TabularType.keyOf (type : TabularType) (row : Record) : Except DataError Key :=
  if type.row.accepts row.type then row.getAll type.index
  else .error (.wrongRowType type.row.name row.type.name)

/-- Checks the parts of a key against the types of its items, the first being number `index`. -/
def Key.checkParts (key : Key) (index : Nat) : List OpenType → Key → Except KeyFault Unit
  | type :: types, some v :: cells =>
    if type.hasValue v then checkParts key (index + 1) types cells
    else .error (.wrongComponent index key.toText v.kindLabel type.name)
  | _ :: types, none :: cells => checkParts key (index + 1) types cells
  | _, _ => .ok ()

/-- A key fits the index if it has as many parts, each of them null or of its item's type. -/
def TabularType.checkKey (type : TabularType) (key : Key) : Except KeyFault Unit :=
  if key.length = type.indexTypes.length then key.checkParts 0 type.indexTypes key
  else .error (.wrongLength key.toText key.length type.name type.indexTypes.length)

namespace Table

/-- The table without rows. -/
def empty (type : TabularType) : Table := ⟨type, []⟩

/-- The number of rows. -/
def size (t : Table) : Nat := t.rows.length

/-- The row under an equal key. -/
def find? (t : Table) (key : Key) : Option Record :=
  (t.rows.find? fun (stored, _) => key.same stored).map Prod.snd

/-! ## Rows in -/

/-- The table with one row more. Its key must be new. -/
def put (t : Table) (row : Record) : Except DataError Table := do
  let key ← t.type.keyOf row
  if (t.find? key).isSome then throw (.keyExists key.toText)
  return ⟨t.type, t.rows ++ [(key, row)]⟩

/-- The rows of a batch under their keys, which must be new and different; `staged` are the rows
of the batch before. -/
def stage (t : Table) (staged : List (Key × Record)) :
    List Record → Except DataError (List (Key × Record))
  | [] => .ok staged
  | row :: rest => do
    let key ← t.type.keyOf row
    if (t.find? key).isSome || (staged.any fun (other, _) => key.same other) then
      throw (.keyExists key.toText)
    stage t (staged ++ [(key, row)]) rest

/-- The table with all rows of a batch, or none of them. -/
def putAll (t : Table) (batch : List Record) : Except DataError Table :=
  (stage t [] batch).map fun staged => ⟨t.type, t.rows ++ staged⟩

/-! ## Look-up and removal -/

/-- The row under a key, if the key fits. -/
def get (t : Table) (key : Key) : Except DataError (Option Record) :=
  match t.type.checkKey key with
  | .ok () => .ok (t.find? key)
  | .error fault => .error (.invalidKey fault)

/-- There is a row under a key, if the key fits. -/
def hasKey (t : Table) (key : Key) : Except DataError Bool :=
  (t.get key).map Option.isSome

/-- Some row is equal to this one. -/
def hasRow (t : Table) (row : Record) : Bool := t.rows.any fun (_, stored) => stored.same row

/-- The table without the row under a key, and that row. -/
def remove (t : Table) (key : Key) : Except DataError (Option Record × Table) :=
  (t.get key).map fun row =>
    (row, ⟨t.type, t.rows.eraseP fun (stored, _) => key.same stored⟩)

/-- The table without its rows. -/
def clear (t : Table) : Table := empty t.type

end Table

end ManagementSchema
