-- What a reference says: how many dimensions its brackets add, and which name
-- stands before them. When the types of names are known, so is the type of a
-- reference, and when the types of its references are known, so is the type
-- of a definition. All of this work gives the guard back as it was.
import ManagementSchema.Manifest.Resolve
import ManagementSchema.Proofs.Outcome

namespace ManagementSchema

/-! ## Where errors come from -/

namespace ResolveError

/-- The error without the items that it was met in. -/
def origin : ResolveError → ResolveError
  | inItem _ _ cause => cause.origin
  | e => e

/-- The error comes of looking up a name, and not of what was made of the types of names. -/
def OfName : ResolveError → Prop
  | unknownType _ => True
  | selfReference _ => True
  | tooDeep _ => True
  | _ => False

theorem OfName.selfReference (name : String) : OfName (.selfReference name) := trivial

theorem OfName.tooDeep (name : String) : OfName (.tooDeep name) := trivial

theorem not_ofName_of_data {α β : Type} {x : Except DataError α} {f : α → β} {e : ResolveError}
    (h : (do return f (← x.mapError data)) = .error e) : ¬ e.origin.OfName := by
  cases x with
  | error fault =>
    cases h
    exact id
  | ok a => cases h

end ResolveError

/-! ## Work that gives the guard back -/

namespace Resolver

open Outcome

variable {α β : Type} {work : Resolver α} {guard : List String}

/-- What the work gives under a guard. -/
def outcome (work : Resolver α) (guard : List String) : Except ResolveError α := (work.on guard).1

/-- Whether it fails or not, the work leaves the guard as it was. -/
def Restores (work : Resolver α) : Prop := ∀ guard, (work.on guard).2 = guard

theorem Restores.on_eq (h : work.Restores) (guard : List String) :
    work.on guard = (work.outcome guard, guard) := Prod.ext rfl (h guard)

theorem restores_pure (a : α) : (pure a : Resolver α).Restores := fun _ => rfl

theorem restores_throw (e : ResolveError) : (throw e : Resolver α).Restores := fun _ => rfl

theorem restores_get : (MonadState.get : Resolver (List String)).Restores := fun _ => rfl

theorem restores_ofData (x : Except DataError α) : (ofData x).Restores := fun _ => rfl

theorem Restores.explain (h : work.Restores) (more : ResolveError → ResolveError) :
    (work.explain more).Restores := h

theorem Restores.bind {next : α → Resolver β} (h : work.Restores)
    (hnext : ∀ a, (next a).Restores) : (work >>= next).Restores := by
  intro guard
  rw [on_bind, h.on_eq]
  rcases work.outcome guard with e | a
  · rfl
  · exact hnext a guard

/-- The name that work inside of a definition put into the guard is its first one again when the
work ends, so it is the one that is taken out. -/
theorem Restores.inside (h : work.Restores) (name : String) : (inside name work).Restores := by
  intro guard
  rw [on_inside, h (name :: guard)]
  simp

@[simp] theorem outcome_pure (a : α) : (pure a : Resolver α).outcome guard = .ok a := rfl

@[simp] theorem outcome_throw (e : ResolveError) :
    (throw e : Resolver α).outcome guard = .error e := rfl

@[simp] theorem outcome_get :
    (MonadState.get : Resolver (List String)).outcome guard = .ok guard := rfl

@[simp] theorem outcome_ofData (x : Except DataError α) :
    (ofData x).outcome guard = x.mapError .data := rfl

@[simp] theorem outcome_explain (more : ResolveError → ResolveError) (work : Resolver α) :
    (work.explain more).outcome guard = (work.outcome guard).mapError more := rfl

@[simp] theorem outcome_inside (name : String) (work : Resolver α) :
    (work.inside name).outcome guard = work.outcome (name :: guard) := rfl

theorem outcome_bind (h : work.Restores) (next : α → Resolver β) :
    (work >>= next).outcome guard = work.outcome guard >>= fun a => (next a).outcome guard := by
  unfold outcome
  rw [on_bind, h.on_eq]
  rcases work.outcome guard with e | a
  · rfl
  · rfl

/-- The work is given up for a cause, in whatever items this was met. -/
def FailsBy (work : Resolver α) (guard : List String) (cause : ResolveError) : Prop :=
  ∃ e, work.outcome guard = .error e ∧ e.origin = cause

theorem not_failsBy_of_ok {a : α} {cause : ResolveError} (h : work.outcome guard = .ok a) :
    ¬ work.FailsBy guard cause := by
  rintro ⟨e, herror, _⟩
  rw [h] at herror
  cases herror

theorem failsBy_iff_of_error {e cause : ResolveError} (h : work.outcome guard = .error e) :
    work.FailsBy guard cause ↔ e.origin = cause := by
  unfold FailsBy
  rw [h]
  simp

end Resolver

/-! ## Brackets -/

namespace Reference

/-- Pairs of brackets. -/
def brackets (dimension : Nat) : List Char := (List.replicate dimension ['[', ']']).flatten

/-- The reference is a name with brackets behind it, as many as there are. -/
def Written (reference : String) (dimension : Nat) (name : String) : Prop :=
  (Text.trim reference).toList = name.toList ++ brackets dimension ∧ ¬ ['[', ']'] <:+ name.toList

theorem reverse_brackets_succ (dimension : Nat) :
    (brackets (dimension + 1)).reverse = ']' :: '[' :: (brackets dimension).reverse := by
  unfold brackets
  rw [List.replicate_succ', List.flatten_append]
  simp

/-- Taking brackets off loses nothing, and takes all of them. -/
theorem dropBrackets_eq_iff {cs base : List Char} {dimension : Nat} :
    dropBrackets cs = (dimension, base) ↔
      cs = (brackets dimension).reverse ++ base ∧ ¬ [']', '['] <+: base := by
  induction cs using dropBrackets.induct generalizing dimension with
  | case1 rest count taken htaken ih =>
    rw [dropBrackets, htaken]
    cases dimension with
    | zero =>
      simp only [Prod.mk.injEq, Nat.add_one_ne_zero, false_and, false_iff, not_and, not_not]
      rintro rfl
      exact ⟨rest, rfl⟩
    | succ dimension =>
      rw [htaken] at ih
      rw [reverse_brackets_succ]
      simpa using @ih dimension
  | case2 cs hother =>
    have hfirst : ¬ [']', '['] <+: cs := by
      rintro ⟨rest, rfl⟩
      exact hother rest rfl
    rw [dropBrackets.eq_2 cs hother]
    cases dimension with
    | zero =>
      simp only [Prod.mk.injEq, true_and, brackets, List.replicate_zero, List.flatten_nil,
        List.reverse_nil, List.nil_append]
      refine ⟨?_, fun h => h.1⟩
      rintro rfl
      exact ⟨rfl, hfirst⟩
    | succ dimension =>
      rw [reverse_brackets_succ]
      simp only [Prod.mk.injEq, Nat.zero_ne_add_one, false_and, List.cons_append, false_iff,
        not_and]
      rintro rfl
      exact absurd ⟨_, rfl⟩ hfirst

theorem parts_eq_iff {reference name : String} {dimension : Nat} :
    parts reference = (dimension, name) ↔ Written reference dimension name := by
  unfold parts Written
  have hsame : dropBrackets (Text.trim reference).toList.reverse = (dimension, name.toList.reverse) ↔
      (Text.trim reference).toList = name.toList ++ brackets dimension ∧
        ¬ ['[', ']'] <:+ name.toList := by
    rw [dropBrackets_eq_iff, ← List.reverse_append, List.reverse_inj, ← List.reverse_suffix]
    simp
  rw [← hsame]
  rcases dropBrackets (Text.trim reference).toList.reverse with ⟨count, base⟩
  simp only [Prod.mk.injEq, and_congr_right_iff]
  intro _
  rw [← String.toList_inj, String.toList_ofList]
  exact List.reverse_eq_iff

/-- A reference is written in one way. -/
theorem Written.unique {reference name name' : String} {dimension dimension' : Nat}
    (h : Written reference dimension name) (h' : Written reference dimension' name') :
    dimension = dimension' ∧ name = name' := by
  rw [← parts_eq_iff] at h h'
  exact Prod.mk.inj (h.symm.trans h')

theorem exists_written (reference : String) :
    ∃ dimension name, Written reference dimension name :=
  ⟨_, _, parts_eq_iff.mp rfl⟩

/-! ## The type of a reference -/

/-- The reference asks for the type of a name, and adds dimensions to it. In front of brackets the
names of unboxed kinds are not asked for. -/
def Calls (reference : String) (dimension : Nat) (name : String) : Prop :=
  Written reference dimension name ∧ name ≠ "" ∧
    (dimension = 0 ∨ Kind.ofPrimitiveName? name = none)

theorem Calls.unique {reference name name' : String} {dimension dimension' : Nat}
    (h : Calls reference dimension name) (h' : Calls reference dimension' name') :
    dimension = dimension' ∧ name = name' := h.1.unique h'.1

/-- The type of arrays of some depth over an element type, which is the element type itself when
there is no dimension to add. -/
inductive Over : Nat → OpenType → OpenType → Prop
  | plain (element : OpenType) : Over 0 element element
  | array {dimension : Nat} {element : OpenType} {type : ArrayType} :
      ArrayType.build (dimension + 1) element = .ok type →
      Over (dimension + 1) element (.array type)

/-- Every type can be given more dimensions. -/
theorem exists_build_succ (dimension : Nat) (element : OpenType) :
    ∃ type, ArrayType.build (dimension + 1) element = .ok type := by
  unfold ArrayType.build
  cases element <;> simp

theorem over_succ_iff {dimension : Nat} {element type : OpenType} :
    Over (dimension + 1) element type ↔
      ∃ array, ArrayType.build (dimension + 1) element = .ok array ∧ type = .array array := by
  refine ⟨?_, ?_⟩
  · rintro (_ | h)
    exact ⟨_, h, rfl⟩
  · rintro ⟨array, h, rfl⟩
    exact .array h

theorem over_zero_iff {element type : OpenType} : Over 0 element type ↔ type = element := by
  refine ⟨?_, ?_⟩
  · rintro (_ | _)
    rfl
  · rintro rfl
    exact .plain type

theorem ofPrimitiveName?_empty : Kind.ofPrimitiveName? "" = none := by decide

theorem isSome_primitive_of_name {name : String} {kind : Kind}
    (h : Kind.ofPrimitiveName? name = some kind) : kind.primitive?.isSome = true := by
  have hname := List.find?_some h
  simp only [Kind.primitiveName?, decide_eq_true_eq, Option.map_eq_some_iff] at hname
  obtain ⟨primitive, hprimitive, _⟩ := hname
  rw [hprimitive]
  rfl

section Resolve

variable {ofName ofName' : String → Resolver OpenType} {reference name : String}
  {dimension : Nat} {guard : List String}

theorem resolve_of_written (h : Written reference dimension name) :
    resolve ofName reference =
      if name.isEmpty then throw .emptyReference
      else if dimension = 0 then ofName name
      else match Kind.ofPrimitiveName? name with
        | some kind => do
          let row ← Resolver.ofData (ArrayType.buildPrimitive kind)
          if dimension = 1 then return .array row
          else return .array (← Resolver.ofData (ArrayType.build (dimension - 1) (.array row)))
        | none => do
          let element ← ofName name
          return .array (← Resolver.ofData (ArrayType.build dimension element)) := by
  unfold resolve
  rw [parts_eq_iff.mpr h]
  rfl

/-- An empty reference is refused, whatever brackets it has. -/
theorem outcome_resolve_empty (h : Written reference dimension "") :
    (resolve ofName reference).outcome guard = .error .emptyReference := by
  rw [resolve_of_written h]
  rfl

/-- The name of an unboxed kind in front of brackets stands for arrays of that kind. -/
theorem outcome_resolve_unboxed {kind : Kind} (h : Written reference (dimension + 1) name)
    (hkind : Kind.ofPrimitiveName? name = some kind) :
    (resolve ofName reference).outcome guard = .ok (.array ⟨dimension + 1, .simple kind, true⟩) := by
  have hne : name.isEmpty = false := by
    rw [String.isEmpty_eq_false_iff]
    rintro rfl
    rw [ofPrimitiveName?_empty] at hkind
    cases hkind
  have hrow : ArrayType.buildPrimitive kind = .ok ⟨1, .simple kind, true⟩ := by
    unfold ArrayType.buildPrimitive
    rw [if_pos (isSome_primitive_of_name hkind)]
  rw [resolve_of_written h, hkind, hne]
  simp only [hrow, Bool.false_eq_true, if_false, Nat.add_one_ne_zero]
  cases dimension with
  | zero => rfl
  | succ dimension => rfl

theorem outcome_resolve_calls (hname : ∀ name, (ofName name).Restores)
    (h : Calls reference dimension name) :
    (resolve ofName reference).outcome guard =
      if dimension = 0 then (ofName name).outcome guard
      else do
        let element ← (ofName name).outcome guard
        return .array (← (ArrayType.build dimension element).mapError .data) := by
  obtain ⟨hwritten, hne, hkind⟩ := h
  rw [← String.isEmpty_eq_false_iff] at hne
  rw [resolve_of_written hwritten, hne]
  by_cases hzero : dimension = 0
  · simp [hzero]
  · have hnone := hkind.resolve_left hzero
    simp only [hzero, hnone, Bool.false_eq_true, if_false]
    rw [Resolver.outcome_bind (hname name)]
    simp only [Resolver.outcome_bind (Resolver.restores_ofData _), Resolver.outcome_ofData,
      Resolver.outcome_pure, Outcome.pure_eq_ok]

theorem resolve_eq_ok_of_calls (hname : ∀ name, (ofName name).Restores)
    (h : Calls reference dimension name) {type : OpenType} :
    (resolve ofName reference).outcome guard = .ok type ↔
      ∃ element, (ofName name).outcome guard = .ok element ∧ Over dimension element type := by
  rw [outcome_resolve_calls hname h]
  cases dimension with
  | zero => simp [over_zero_iff]
  | succ dimension =>
    simp only [Nat.add_one_ne_zero, if_false, Outcome.bind_eq_ok, Outcome.mapError_eq_ok,
      Outcome.pure_eq_ok, Except.ok.injEq, over_succ_iff, eq_comm (a := type)]

/-- A reference to a name fails as the name does. -/
theorem resolve_eq_error_of_calls (hname : ∀ name, (ofName name).Restores)
    (h : Calls reference dimension name) {e : ResolveError} :
    (resolve ofName reference).outcome guard = .error e ↔
      (ofName name).outcome guard = .error e := by
  rw [outcome_resolve_calls hname h]
  cases dimension with
  | zero => simp
  | succ dimension =>
    rw [if_neg (Nat.succ_ne_zero dimension), Outcome.bind_eq_error]
    refine ⟨?_, .inl⟩
    rintro (herror | ⟨element, _, herror⟩)
    · exact herror
    · obtain ⟨type, htype⟩ := exists_build_succ dimension element
      rw [htype] at herror
      cases herror

/-- A reference is empty, or the name of an unboxed kind with brackets, or it calls a name. -/
theorem empty_or_unboxed_or_calls (reference : String) :
    (∃ dimension, Written reference dimension "") ∨
      (∃ dimension name kind, Written reference (dimension + 1) name ∧
        Kind.ofPrimitiveName? name = some kind) ∨
      ∃ dimension name, Calls reference dimension name := by
  obtain ⟨dimension, name, h⟩ := exists_written reference
  by_cases hempty : name = ""
  · subst hempty
    exact .inl ⟨dimension, h⟩
  · rcases hkind : Kind.ofPrimitiveName? name with _ | kind
    · exact .inr (.inr ⟨dimension, name, h, hempty, .inr hkind⟩)
    · cases dimension with
      | zero => exact .inr (.inr ⟨0, name, h, hempty, .inl rfl⟩)
      | succ dimension => exact .inr (.inl ⟨dimension, name, kind, h, hkind⟩)

/-- A reference is given up for a cause that comes of names when the name that it calls is. -/
theorem failsBy_resolve (hname : ∀ name, (ofName name).Restores) {cause : ResolveError}
    (hcause : cause.OfName) :
    (resolve ofName reference).FailsBy guard cause ↔
      ∃ dimension name, Calls reference dimension name ∧ (ofName name).FailsBy guard cause := by
  refine ⟨?_, ?_⟩
  · rintro ⟨e, herror, horigin⟩
    rcases empty_or_unboxed_or_calls reference with
      ⟨dimension, hwritten⟩ | ⟨dimension, name, kind, hwritten, hkind⟩ | ⟨dimension, name, hcalls⟩
    · rw [outcome_resolve_empty hwritten] at herror
      cases herror
      cases horigin
      cases hcause
    · rw [outcome_resolve_unboxed hwritten hkind] at herror
      cases herror
    · exact ⟨dimension, name, hcalls, e, (resolve_eq_error_of_calls hname hcalls).mp herror, horigin⟩
  · rintro ⟨dimension, name, hcalls, e, herror, horigin⟩
    exact ⟨e, (resolve_eq_error_of_calls hname hcalls).mpr herror, horigin⟩

theorem restores_resolve (hname : ∀ name, (ofName name).Restores) (reference : String) :
    (resolve ofName reference).Restores := by
  obtain ⟨dimension, name, h⟩ := exists_written reference
  rw [resolve_of_written h]
  split
  · exact Resolver.restores_throw _
  · split
    · exact hname name
    · split
      · refine (Resolver.restores_ofData _).bind fun row => ?_
        split
        · exact Resolver.restores_pure _
        · exact (Resolver.restores_ofData _).bind fun _ => Resolver.restores_pure _
      · refine (hname name).bind fun element => ?_
        exact (Resolver.restores_ofData _).bind fun _ => Resolver.restores_pure _

/-- What a reference gives hangs on the names alone. -/
theorem outcome_resolve_congr (hname : ∀ name, (ofName name).Restores)
    (hname' : ∀ name, (ofName' name).Restores)
    (h : ∀ name, (ofName name).outcome guard = (ofName' name).outcome guard) (reference : String) :
    (resolve ofName reference).outcome guard = (resolve ofName' reference).outcome guard := by
  rcases empty_or_unboxed_or_calls reference with
    ⟨dimension, hwritten⟩ | ⟨dimension, name, kind, hwritten, hkind⟩ | ⟨dimension, name, hcalls⟩
  · rw [outcome_resolve_empty hwritten, outcome_resolve_empty hwritten]
  · rw [outcome_resolve_unboxed hwritten hkind, outcome_resolve_unboxed hwritten hkind]
  · rw [outcome_resolve_calls hname hcalls, outcome_resolve_calls hname' hcalls, h name]

end Resolve

end Reference

/-! ## The type of a definition -/

/-- The item of a definition, when the types of references are known. -/
def ItemDefinition.typed (typeOf : String → OpenType) (item : ItemDefinition) : Item :=
  ⟨item.name, item.description, typeOf item.type⟩

namespace TypeDefinition

/-- The references of a definition, in the order in which they are looked up. -/
def references : TypeDefinition → List String
  | composite _ items => items.map ItemDefinition.type
  | tabular _ row _ => [row]

/-- The definition makes the type under a name, when the types of its references are known: its
constructor takes them, and the rows of a table are composite. -/
def Makes (typeOf : String → OpenType) (name : String) (type : OpenType) : TypeDefinition → Prop
  | composite description items =>
    ∃ made, CompositeType.build name description (items.map (·.typed typeOf)) = .ok made ∧
      type = .composite made
  | tabular description row index =>
    ∃ rowType made, typeOf row = .composite rowType ∧
      TabularType.build name description rowType index = .ok made ∧ type = .tabular made

variable {ofReference ofReference' : String → Resolver OpenType} {owner name : String}
  {guard : List String}

theorem restores_resolveItems (href : ∀ r, (ofReference r).Restores) (items : List ItemDefinition) :
    (resolveItems ofReference owner items).Restores := by
  induction items with
  | nil => exact Resolver.restores_pure _
  | cons item rest ih =>
    unfold resolveItems
    refine ((href item.type).explain _).bind fun type => ?_
    exact ih.bind fun _ => Resolver.restores_pure _

theorem restores_resolve (href : ∀ r, (ofReference r).Restores) (definition : TypeDefinition) :
    (definition.resolve ofReference name).Restores := by
  cases definition with
  | composite description items =>
    unfold resolve
    refine (restores_resolveItems href items).bind fun items => ?_
    exact (Resolver.restores_ofData _).bind fun _ => Resolver.restores_pure _
  | tabular description row index =>
    unfold resolve
    refine (href row).bind fun rowType => ?_
    split
    · exact (Resolver.restores_ofData _).bind fun _ => Resolver.restores_pure _
    · exact Resolver.restores_throw _

theorem outcome_resolveItems (href : ∀ r, (ofReference r).Restores) (items : List ItemDefinition) :
    (resolveItems ofReference owner items).outcome guard =
      items.mapM fun item => do
        let type ← ((ofReference item.type).outcome guard).mapError (.inItem item.name owner)
        return ⟨item.name, item.description, type⟩ := by
  induction items with
  | nil => rfl
  | cons item rest ih =>
    have hrest : (resolveItems ofReference owner rest).Restores := restores_resolveItems href rest
    unfold resolveItems
    rw [Resolver.outcome_bind ((href item.type).explain _), List.mapM_cons, ← ih]
    simp only [Resolver.outcome_bind hrest, Resolver.outcome_explain, Resolver.outcome_pure]
    rcases (ofReference item.type).outcome guard with e | type
    · rfl
    · rfl

theorem outcome_resolve_composite (href : ∀ r, (ofReference r).Restores) (description : String)
    (items : List ItemDefinition) :
    ((composite description items).resolve ofReference name).outcome guard = do
      let items ← (resolveItems ofReference name items).outcome guard
      return .composite (← (CompositeType.build name description items).mapError .data) := by
  unfold resolve
  rw [Resolver.outcome_bind (restores_resolveItems href items)]
  simp only [Resolver.outcome_bind (Resolver.restores_ofData _), Resolver.outcome_ofData,
    Resolver.outcome_pure, Outcome.pure_eq_ok]

theorem outcome_resolve_tabular (href : ∀ r, (ofReference r).Restores) (description row : String)
    (index : List String) :
    ((tabular description row index).resolve ofReference name).outcome guard = (do
      match ← (ofReference row).outcome guard with
      | .composite rowType =>
        return .tabular (← (TabularType.build name description rowType index).mapError .data)
      | other => throw (.rowNotComposite name other.name)) := by
  unfold resolve
  rw [Resolver.outcome_bind (href row)]
  rcases (ofReference row).outcome guard with e | type
  · rfl
  · cases type with
    | composite rowType =>
      simp only [Outcome.ok_bind, Resolver.outcome_bind (Resolver.restores_ofData _),
        Resolver.outcome_ofData, Resolver.outcome_pure, Outcome.pure_eq_ok]
    | simple kind => rfl
    | array type => rfl
    | tabular type => rfl

/-- What a definition gives hangs on its references alone. -/
theorem outcome_resolve_congr (href : ∀ r, (ofReference r).Restores)
    (href' : ∀ r, (ofReference' r).Restores)
    (h : ∀ r, (ofReference r).outcome guard = (ofReference' r).outcome guard)
    (definition : TypeDefinition) :
    (definition.resolve ofReference name).outcome guard =
      (definition.resolve ofReference' name).outcome guard := by
  cases definition with
  | composite description items =>
    rw [outcome_resolve_composite href, outcome_resolve_composite href']
    simp only [outcome_resolveItems href, outcome_resolveItems href', h]
  | tabular description row index =>
    rw [outcome_resolve_tabular href, outcome_resolve_tabular href', h]

/-- The types of the references that have one. -/
def typeUnder (ofReference : String → Resolver OpenType) (guard : List String)
    (reference : String) : OpenType :=
  match (ofReference reference).outcome guard with
  | .ok type => type
  | .error _ => .simple .void

theorem typeUnder_eq {reference : String} {type : OpenType}
    (h : (ofReference reference).outcome guard = .ok type) :
    typeUnder ofReference guard reference = type := by
  unfold typeUnder
  rw [h]

theorem resolveItems_eq_ok (href : ∀ r, (ofReference r).Restores) {items : List ItemDefinition}
    {found : List Item} :
    (resolveItems ofReference owner items).outcome guard = .ok found ↔
      ∃ typeOf : String → OpenType,
        (∀ item ∈ items, (ofReference item.type).outcome guard = .ok (typeOf item.type)) ∧
          items.map (·.typed typeOf) = found := by
  rw [outcome_resolveItems href, Outcome.mapM_eq_ok]
  refine ⟨?_, ?_⟩
  · intro h
    refine ⟨typeUnder ofReference guard, ?_⟩
    induction h with
    | nil => simp
    | cons hitem hrest ih =>
      obtain ⟨type, htype, hmade⟩ := Outcome.bind_eq_ok.mp hitem
      rw [Outcome.mapError_eq_ok] at htype
      cases hmade
      have heq := typeUnder_eq htype
      rw [List.forall_mem_cons, List.map_cons, ih.2, ItemDefinition.typed, heq]
      exact ⟨⟨htype, ih.1⟩, rfl⟩
  · rintro ⟨typeOf, htypes, rfl⟩
    rw [List.forall₂_map_right_iff, List.forall₂_same]
    intro item hmem
    rw [htypes item hmem]
    rfl

/-- A definition gives a type when all of its references do and it makes that type of theirs. -/
theorem resolve_eq_ok (href : ∀ r, (ofReference r).Restores) {definition : TypeDefinition}
    {type : OpenType} :
    (definition.resolve ofReference name).outcome guard = .ok type ↔
      ∃ typeOf : String → OpenType,
        (∀ r ∈ definition.references, (ofReference r).outcome guard = .ok (typeOf r)) ∧
          definition.Makes typeOf name type := by
  cases definition with
  | composite description items =>
    rw [outcome_resolve_composite href]
    simp only [Outcome.bind_eq_ok, Outcome.mapError_eq_ok, resolveItems_eq_ok href, references,
      List.forall_mem_map, Makes, Outcome.pure_eq_ok, Except.ok.injEq, eq_comm (a := type)]
    refine ⟨?_, ?_⟩
    · rintro ⟨_, ⟨typeOf, htypes, rfl⟩, made, hmade, htype⟩
      exact ⟨typeOf, htypes, made, hmade, htype⟩
    · rintro ⟨typeOf, htypes, made, hmade, htype⟩
      exact ⟨_, ⟨typeOf, htypes, rfl⟩, made, hmade, htype⟩
  | tabular description row index =>
    rw [outcome_resolve_tabular href, Outcome.bind_eq_ok]
    simp only [references, List.forall_mem_singleton, Makes]
    refine ⟨?_, ?_⟩
    · rintro ⟨rowType, hrow, hmade⟩
      refine ⟨fun _ => rowType, hrow, ?_⟩
      cases rowType with
      | composite rowType =>
        simp only [Outcome.bind_eq_ok, Outcome.mapError_eq_ok, Outcome.pure_eq_ok] at hmade
        obtain ⟨made, hmade, htype⟩ := hmade
        exact ⟨rowType, made, rfl, hmade, (Except.ok.inj htype).symm⟩
      | simple kind => cases hmade
      | array type => cases hmade
      | tabular type => cases hmade
    · rintro ⟨typeOf, hrow, rowType, made, hcomposite, hmade, rfl⟩
      refine ⟨_, hrow, ?_⟩
      rw [hcomposite]
      simp only [hmade]
      rfl

theorem failsBy_resolveItems_cons (href : ∀ r, (ofReference r).Restores) {item : ItemDefinition}
    {rest : List ItemDefinition} {cause : ResolveError} :
    (resolveItems ofReference owner (item :: rest)).FailsBy guard cause ↔
      (ofReference item.type).FailsBy guard cause ∨
        (∃ type, (ofReference item.type).outcome guard = .ok type) ∧
          (resolveItems ofReference owner rest).FailsBy guard cause := by
  unfold Resolver.FailsBy
  rw [outcome_resolveItems href, outcome_resolveItems href, List.mapM_cons]
  rcases (ofReference item.type).outcome guard with e | type
  · simp [Except.mapError, ResolveError.origin]
  · simp [Except.mapError, Outcome.bind_eq_error]

theorem failsBy_resolveItems (href : ∀ r, (ofReference r).Restores) {items : List ItemDefinition}
    {cause : ResolveError} :
    (resolveItems ofReference owner items).FailsBy guard cause ↔
      ∃ before r after, items.map ItemDefinition.type = before ++ r :: after ∧
        (∀ earlier ∈ before, ∃ type, (ofReference earlier).outcome guard = .ok type) ∧
          (ofReference r).FailsBy guard cause := by
  induction items with
  | nil =>
    refine ⟨?_, ?_⟩
    · rintro ⟨e, herror, _⟩
      cases herror
    · rintro ⟨before, r, after, hsplit, _⟩
      simp at hsplit
  | cons item rest ih =>
    rw [failsBy_resolveItems_cons href, ih, List.map_cons]
    refine ⟨?_, ?_⟩
    · rintro (hfails | ⟨hok, before, r, after, hsplit, hbefore, hfails⟩)
      · exact ⟨[], item.type, _, rfl, by simp, hfails⟩
      · refine ⟨item.type :: before, r, after, by rw [hsplit]; rfl, ?_, hfails⟩
        exact List.forall_mem_cons.mpr ⟨hok, hbefore⟩
    · rintro ⟨_ | ⟨first, before⟩, r, after, hsplit, hbefore, hfails⟩
      · obtain ⟨rfl, _⟩ := List.cons.inj hsplit
        exact .inl hfails
      · obtain ⟨rfl, hrest⟩ := List.cons.inj hsplit
        rw [List.forall_mem_cons] at hbefore
        exact .inr ⟨hbefore.1, before, r, after, hrest, hbefore.2, hfails⟩

/-- A definition is given up for a cause that comes of names when the first of its references that
gives no type is. -/
theorem failsBy_resolve (href : ∀ r, (ofReference r).Restores) {definition : TypeDefinition}
    {cause : ResolveError} (hcause : cause.OfName) :
    (definition.resolve ofReference name).FailsBy guard cause ↔
      ∃ before r after, definition.references = before ++ r :: after ∧
        (∀ earlier ∈ before, ∃ type, (ofReference earlier).outcome guard = .ok type) ∧
          (ofReference r).FailsBy guard cause := by
  cases definition with
  | composite description items =>
    unfold references
    rw [← @failsBy_resolveItems ofReference name guard href items cause]
    unfold Resolver.FailsBy
    rw [outcome_resolve_composite href]
    rcases (resolveItems ofReference name items).outcome guard with e | found
    · simp
    · refine ⟨?_, by simp⟩
      rintro ⟨e, herror, rfl⟩
      exact absurd hcause (ResolveError.not_ofName_of_data herror)
  | tabular description row index =>
    have hone : ((tabular description row index).resolve ofReference name).FailsBy guard cause ↔
        (ofReference row).FailsBy guard cause := by
      unfold Resolver.FailsBy
      rw [outcome_resolve_tabular href]
      rcases (ofReference row).outcome guard with e | rowType
      · simp
      · refine ⟨?_, by simp⟩
        rintro ⟨e, herror, rfl⟩
        cases rowType with
        | composite rowType => exact absurd hcause (ResolveError.not_ofName_of_data herror)
        | _ =>
          cases herror
          cases hcause
    rw [hone]
    refine ⟨?_, ?_⟩
    · intro hfails
      exact ⟨[], row, [], rfl, by simp, hfails⟩
    · rintro ⟨before, r, after, hsplit, _, hfails⟩
      obtain ⟨_, rfl, _⟩ : before = [] ∧ r = row ∧ after = [] := by
        simpa [references, List.singleton_eq_append_iff] using hsplit
      exact hfails

end TypeDefinition

end ManagementSchema
