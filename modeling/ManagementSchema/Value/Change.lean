-- Tables that are changed in place, one step after the other. A step may
-- fail, and the steps after it go on with the table as it then is.

import ManagementSchema.Value.Table

namespace ManagementSchema

/-! ## Work in place -/

namespace Table

/-- Work on a table in place. What is written before an error stays written. -/
abbrev InPlace (α : Type) : Type := ExceptT DataError (StateM Table) α

namespace InPlace

variable {α β : Type} {t : Table}

/-- What the work gives on a table, and the table after it. -/
def on (work : InPlace α) (t : Table) : Except DataError α × Table := (work.run.run t).run

@[simp] theorem on_pure (a : α) : (pure a : InPlace α).on t = (.ok a, t) := rfl

@[simp] theorem on_get : (MonadState.get : InPlace Table).on t = (.ok t, t) := rfl

@[simp] theorem on_liftM (x : Except DataError α) : (liftM x : InPlace α).on t = (x, t) := rfl

theorem on_bind (work : InPlace α) (next : α → InPlace β) :
    (work >>= next).on t =
      match work.on t with
      | (.ok a, t') => (next a).on t'
      | (.error e, t') => (.error e, t') := by
  unfold on
  rw [ExceptT.run_bind, StateT.run_bind]
  rcases (StateT.run (ExceptT.run work) t) with ⟨_ | _, _⟩
  · rfl
  · rfl

end InPlace

/-- Writes a row under a key. -/
def write (key : Key) (row : Record) : InPlace Unit :=
  modify fun t => ⟨t.type, t.rows ++ [(key, row)]⟩

/-- Strikes the row under a key. -/
def erase (key : Key) : InPlace Unit :=
  modify fun t => ⟨t.type, t.rows.eraseP fun (stored, _) => key.same stored⟩

@[simp] theorem on_write {t : Table} {key : Key} {row : Record} :
    (write key row).on t = (.ok (), ⟨t.type, t.rows ++ [(key, row)]⟩) := rfl

end Table

/-! ## Changes -/

/-- A change of a table. -/
inductive Change where
  | put (row : Record)
  | putAll (batch : List Record)
  | remove (key : Key)
  | clear

namespace Change

/-- Makes the change and gives the row that was removed, if there was one. All rows of a batch
are looked at before the first of them is written. -/
def make : Change → Table.InPlace (Option Record)
  | put row => do
    let t ← get
    let key ← t.type.keyOf row
    if (t.find? key).isSome then throw (.keyExists key.toText)
    Table.write key row
    return none
  | putAll batch => do
    let t ← get
    let staged ← t.stage [] batch
    for (key, row) in staged do
      Table.write key row
    return none
  | remove key => do
    let t ← get
    let row ← t.get key
    Table.erase key
    return row
  | clear => do
    modify Table.clear
    return none

/-- The answer to a change, and the table after it. -/
def step (t : Table) (change : Change) : Except DataError (Option Record) × Table :=
  change.make.on t

end Change

/-- The table after changes, some of which may have failed. -/
def Table.after (t : Table) (changes : List Change) : Table :=
  changes.foldl (fun t change => (change.step t).2) t

end ManagementSchema
