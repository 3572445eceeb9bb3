-- From type references to types. A reference is the name of a kind, the name
-- of a definition, or either followed by brackets, one pair for each array
-- dimension. Definitions may refer to each other, but not to themselves: the
-- names of those that are being entered are kept, and none is entered twice.

import ManagementSchema.Manifest.Basic

namespace ManagementSchema

/-! ## Errors -/

/-- Why a reference gives no type. That a name is too deep would say that the depth of a search was
used up before it came to an end; what a manifest resolves never fails for it. -/
inductive ResolveError where
  | emptyReference
  | unknownType (name : String)
  | selfReference (name : String)
  | tooDeep (name : String)
  | rowNotComposite (name type : String)
  | data (error : DataError)
  | inItem (item type : String) (cause : ResolveError)
  deriving DecidableEq, Repr

/-- The wording of an error, the outermost definition first. -/
def ResolveError.message : ResolveError → String
  | emptyReference => "empty type reference"
  | unknownType name => "unknown type '" ++ name ++ "'"
  | selfReference name => "type '" ++ name ++ "' refers to itself"
  | tooDeep name => "type '" ++ name ++ "' is too deep inside of other types"
  | rowNotComposite name type =>
    "row type of '" ++ name ++ "' must be a composite type, not " ++ type
  | data error => error.message
  | inItem item type cause => "item '" ++ item ++ "' of '" ++ type ++ "': " ++ cause.message

/-! ## Work under a guard -/

/-- Work that looks for a type. Its guard holds the names of the definitions that are being
entered, and stays as it is when the work fails. -/
abbrev Resolver (α : Type) : Type := ExceptT ResolveError (StateM (List String)) α

namespace Resolver

variable {α β : Type} {guard : List String}

/-- What the work gives under a guard, and the guard after it. -/
def on (work : Resolver α) (guard : List String) : Except ResolveError α × List String :=
  (work.run.run guard).run

/-- A step that does not look at the guard. -/
def ofExcept (x : Except ResolveError α) : Resolver α := liftM x

/-- What a constructor gives. -/
def ofData (x : Except DataError α) : Resolver α := ofExcept (x.mapError .data)

/-- The work with more said about its error. -/
def explain (more : ResolveError → ResolveError) (work : Resolver α) : Resolver α :=
  ExceptT.adapt more work

/-- Work inside of a definition: its name is put into the guard, and taken out again whether the
work fails or not. -/
def inside (name : String) (work : Resolver α) : Resolver α := do
  modify (name :: ·)
  let outcome ← ExceptT.lift work.run
  modify (·.erase name)
  ofExcept outcome

@[simp] theorem on_pure (a : α) : (pure a : Resolver α).on guard = (.ok a, guard) := rfl

@[simp] theorem on_throw (e : ResolveError) :
    (throw e : Resolver α).on guard = (.error e, guard) := rfl

@[simp] theorem on_get : (MonadState.get : Resolver (List String)).on guard = (.ok guard, guard) :=
  rfl

@[simp] theorem on_ofExcept (x : Except ResolveError α) : (ofExcept x).on guard = (x, guard) := rfl

@[simp] theorem on_ofData (x : Except DataError α) :
    (ofData x).on guard = (x.mapError .data, guard) := rfl

@[simp] theorem on_explain (more : ResolveError → ResolveError) (work : Resolver α) :
    (explain more work).on guard = ((work.on guard).1.mapError more, (work.on guard).2) := rfl

theorem on_bind (work : Resolver α) (next : α → Resolver β) :
    (work >>= next).on guard =
      match work.on guard with
      | (.ok a, guard') => (next a).on guard'
      | (.error e, guard') => (.error e, guard') := by
  unfold on
  rw [ExceptT.run_bind, StateT.run_bind]
  rcases StateT.run (ExceptT.run work) guard with ⟨_ | _, _⟩
  · rfl
  · rfl

@[simp] theorem on_inside (name : String) (work : Resolver α) :
    (inside name work).on guard =
      ((work.on (name :: guard)).1, (work.on (name :: guard)).2.erase name) := rfl

end Resolver

namespace Reference

/-! ## Written references -/

/-- Takes pairs of brackets off the end of a reversed reference and counts them. -/
def dropBrackets : List Char → Nat × List Char
  | ']' :: '[' :: rest =>
    let (count, base) := dropBrackets rest
    (count + 1, base)
  | base => (0, base)

/-- The array dimensions of a reference, and the name before its brackets. -/
def parts (reference : String) : Nat × String :=
  let (count, base) := dropBrackets (Text.trim reference).toList.reverse
  (count, String.ofList base.reverse)

/-- The type of a reference, given what names without brackets stand for. The names of unboxed
kinds stand for themselves only in front of brackets. -/
def resolve (ofName : String → Resolver OpenType) (reference : String) : Resolver OpenType := do
  let (dimension, base) := parts reference
  if base.isEmpty then throw .emptyReference
  if dimension = 0 then ofName base
  else match Kind.ofPrimitiveName? base with
    | some kind =>
      let row ← Resolver.ofData (ArrayType.buildPrimitive kind)
      if dimension = 1 then return .array row
      else return .array (← Resolver.ofData (ArrayType.build (dimension - 1) (.array row)))
    | none => return .array (← Resolver.ofData (ArrayType.build dimension (← ofName base)))

end Reference

/-! ## Definitions -/

namespace TypeDefinition

/-- The items of a definition, given what references stand for. -/
def resolveItems (ofReference : String → Resolver OpenType) (owner : String) :
    List ItemDefinition → Resolver (List Item)
  | [] => return []
  | item :: rest => do
    let type ← (ofReference item.type).explain (.inItem item.name owner)
    return ⟨item.name, item.description, type⟩ :: (← resolveItems ofReference owner rest)

/-- The type that a definition makes under a name, given what references stand for. -/
def resolve (ofReference : String → Resolver OpenType) (name : String) :
    TypeDefinition → Resolver OpenType
  | composite description items => do
    let items ← resolveItems ofReference name items
    return .composite (← Resolver.ofData (CompositeType.build name description items))
  | tabular description row index => do
    match ← ofReference row with
    | .composite rowType =>
      return .tabular (← Resolver.ofData (TabularType.build name description rowType index))
    | other => throw (.rowNotComposite name other.name)

end TypeDefinition

namespace Manifest

/-- The type of a name without brackets, entering at most `depth` definitions inside of each other.
A manifest has no longer chain of them than it has names. -/
def resolveName (types : Dictionary TypeDefinition) (depth : Nat) (name : String) :
    Resolver OpenType :=
  match Kind.ofName? name with
  | some kind => return .simple kind
  | none =>
    match types.get? name with
    | none => throw (.unknownType name)
    | some definition => do
      if name ∈ (← get) then throw (.selfReference name)
      else match depth with
        | 0 => throw (.tooDeep name)
        | depth + 1 =>
          Resolver.inside name
            (definition.resolve (Reference.resolve (resolveName types depth)) name)

/-- The type of a reference, entering at most `depth` definitions inside of each other. -/
def resolveReference (types : Dictionary TypeDefinition) (depth : Nat) (reference : String) :
    Resolver OpenType :=
  Reference.resolve (resolveName types depth) reference

/-- The type of a reference. -/
def resolve (m : Manifest) (reference : String) : Except ResolveError OpenType :=
  ((resolveReference m.types m.types.size reference).on []).1

end Manifest

end ManagementSchema
