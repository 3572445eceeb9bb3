-- What the entries of a report say about named types. The entry looks its name
-- up as a reference, so it is about the definition of that name only when the
-- name, taken as a reference, asks for that definition.
import ManagementSchema.Manifest.Report
import ManagementSchema.Proofs.Resolution

namespace ManagementSchema

/-! ## The entries of a report -/

namespace Entry

theorem kind_ofType (m : Manifest) (name : String) : (ofType m name).kind = .namedType := by
  unfold ofType
  split <;> rfl

theorem name_ofType (m : Manifest) (name : String) : (ofType m name).name = name := by
  unfold ofType
  split <;> rfl

theorem kind_ofConstraints (kind : EntryKind) (name : String) (type : OpenType)
    (x : Except ConstraintError Constraints) : (ofConstraints kind name type x).kind = kind := by
  cases x <;> rfl

theorem kind_ofAttribute (m : Manifest) (c : Conversions) (a : AttributeDefinition) :
    (ofAttribute m c a).kind = .managedAttribute := by
  unfold ofAttribute
  split
  · rfl
  · exact kind_ofConstraints _ _ _ _

theorem kind_ofParameter (m : Manifest) (c : Conversions) (p : ParameterDefinition) :
    (ofParameter m c p).kind = .operationParameter := by
  unfold ofParameter
  split
  · rfl
  · exact kind_ofConstraints _ _ _ _

/-- An entry of a named type is free of error when the name, as a reference, gives a type. -/
theorem failure_ofType {m : Manifest} {name : String} :
    (ofType m name).failure = none ↔ ∃ type, m.resolve name = .ok type := by
  unfold ofType
  rcases m.resolve name with e | type
  · simp [ofResolveError]
  · simp

theorem openType_ofType {m : Manifest} {name : String} {type : OpenType}
    (h : m.resolve name = .ok type) : (ofType m name).openType = some type.name := by
  unfold ofType
  rw [h]

end Entry

namespace Manifest

open Relation

variable {m : Manifest} {c : Conversions} {name : String} {definition : TypeDefinition}
  {type : OpenType}

/-- The entries for a named type: there is one for each name. -/
def entriesOf (m : Manifest) (c : Conversions) (name : String) : List Entry :=
  (m.check c).entries.filter fun entry => entry.kind = .namedType ∧ entry.name = name

theorem entriesOf_eq (h : name ∈ m.types.keys) : m.entriesOf c name = [Entry.ofType m name] := by
  have hnames : (fun entry : Entry => decide (entry.kind = .namedType ∧ entry.name = name)) ∘
      Entry.ofType m = fun key => key == name := by
    funext key
    rw [Bool.eq_iff_iff]
    simp [Entry.kind_ofType, Entry.name_ofType]
  have hone : m.types.keys.count name = 1 := List.count_eq_one_of_mem m.types.nodup_keys h
  unfold entriesOf check
  rw [List.filter_append, List.filter_append, List.filter_map, List.filter_map, List.filter_map,
    hnames, List.filter_beq, hone]
  simp [Function.comp_def, Entry.kind_ofAttribute, Entry.kind_ofParameter]

/-! ## Names that ask for their own definition -/

/-- The name, taken as a reference, asks for the definition of that name: it is not empty, has no
white space around it and no brackets at its end, and is not the name of a kind. -/
def Plain (name : String) : Prop := Reference.Calls name 0 name ∧ Kind.ofName? name = none

theorem derives_plain_iff (hplain : Plain name) (hget : m.types.get? name = some definition) :
    Derives m.types name type ↔ Builds m.types name definition type := by
  rw [derives_iff]
  refine ⟨?_, ?_⟩
  · rintro (⟨_, _, _, hwritten, _⟩ | ⟨_, _, _, hcalls, hname, hover⟩)
    · cases (hwritten.unique hplain.1.1).1
    · obtain ⟨rfl, rfl⟩ := hcalls.unique hplain.1
      rw [Reference.over_zero_iff] at hover
      rcases hname with ⟨_, hkind, _⟩ | ⟨_, _, hget', hbuilds⟩
      · rw [hplain.2] at hkind
        cases hkind
      · rw [hget] at hget'
        cases hget'
        rw [hover]
        exact hbuilds
  · intro hbuilds
    exact .inr ⟨0, name, type, hplain.1, .inr ⟨hplain.2, definition, hget, hbuilds⟩, .plain type⟩

theorem name_of_makes {typeOf : String → OpenType} (h : definition.Makes typeOf name type) :
    type.name = name := by
  cases definition with
  | composite description items =>
    obtain ⟨made, hmade, rfl⟩ := h
    exact congrArg CompositeType.name (CompositeType.build_eq_ok.mp hmade).1
  | tabular description row index =>
    obtain ⟨rowType, made, _, hmade, rfl⟩ := h
    exact congrArg TabularType.name (TabularType.build_eq_ok.mp hmade).1

/-- A definition that can be built uses no reference that leads back to it. -/
theorem not_leads_of_builds (hget : m.types.get? name = some definition)
    (h : Builds m.types name definition type) :
    ∀ r ∈ definition.references, ¬ Leads m.types r name := by
  obtain ⟨typeOf, hrefs, _⟩ := h
  rintro r hr ⟨first, hfirst, hreach⟩
  have hacc := (hrefs r hr).acc_of_leads ⟨first, hfirst, hreach⟩
  exact not_uses_self hacc (TransGen.head' ⟨definition, hget, r, hr, hfirst⟩ hreach)

theorem failure_ofType_iff_derives :
    (Entry.ofType m name).failure = none ↔ ∃ type, Derives m.types name type := by
  rw [Entry.failure_ofType]
  exact exists_congr fun type => resolve_eq_ok_iff m name type

/-- A definition under a plain name can be built just when its references give types without
leading back to it, and its constructor takes these. -/
theorem exists_derives_plain_iff (hplain : Plain name) (hget : m.types.get? name = some definition) :
    (∃ type, Derives m.types name type) ↔ ∃ typeOf type,
      (∀ r ∈ definition.references, m.resolve r = .ok (typeOf r) ∧ ¬ Leads m.types r name) ∧
        definition.Makes typeOf name type := by
  refine ⟨?_, ?_⟩
  · rintro ⟨type, htype⟩
    rw [derives_plain_iff hplain hget] at htype
    have hfree := not_leads_of_builds hget htype
    obtain ⟨typeOf, hrefs, hmakes⟩ := htype
    refine ⟨typeOf, type, ?_, hmakes⟩
    intro r hr
    exact ⟨(resolve_eq_ok_iff m r _).mpr (hrefs r hr), hfree r hr⟩
  · rintro ⟨typeOf, type, hrefs, hmakes⟩
    refine ⟨type, ?_⟩
    rw [derives_plain_iff hplain hget]
    exact ⟨typeOf, fun r hr => (resolve_eq_ok_iff m r _).mp (hrefs r hr).1, hmakes⟩

theorem openType_of_plain (hplain : Plain name) (hget : m.types.get? name = some definition)
    (h : (Entry.ofType m name).failure = none) : (Entry.ofType m name).openType = some name := by
  obtain ⟨type, htype⟩ := Entry.failure_ofType.mp h
  rw [Entry.openType_ofType htype]
  rw [resolve_eq_ok_iff, derives_plain_iff hplain hget] at htype
  obtain ⟨typeOf, _, hmakes⟩ := htype
  rw [name_of_makes hmakes]

/-- Whatever conversions there are, there is one entry for a definition, and it is free of error when
the name of the definition has a type as a reference. Under a plain name this is just when the
definition can be built: its references give types without leading back to it, and its constructor
takes them; and then the entry reports the name as its type. -/
theorem plain_definitions_are_checked (c : Conversions)
    (hget : m.types.get? name = some definition) :
    ∃ entry, m.entriesOf c name = [entry] ∧
      (entry.failure = none ↔ ∃ type, Derives m.types name type) ∧
      (Plain name →
        (entry.failure = none ↔ ∃ typeOf type,
          (∀ r ∈ definition.references,
            m.resolve r = .ok (typeOf r) ∧ ¬ Leads m.types r name) ∧
          definition.Makes typeOf name type) ∧
        (entry.failure = none → entry.openType = some name)) := by
  refine ⟨Entry.ofType m name, entriesOf_eq (Dictionary.mem_keys_of_get? hget),
    failure_ofType_iff_derives, ?_⟩
  intro hplain
  refine ⟨?_, openType_of_plain hplain hget⟩
  rw [failure_ofType_iff_derives, exists_derives_plain_iff hplain hget]

/-- One table, whose rows are of a type that is not defined. -/
def danglingTable (name : String) : Manifest :=
  { types := .ofList [(name, .tabular "rows" "Row" ["x"])] }

/-- Under a plain name the table is reported. -/
theorem a_dangling_table_is_reported :
    Plain "Table" ∧ ∃ entry, (danglingTable "Table").entriesOf .empty "Table" = [entry] ∧
      entry.failure ≠ none := by
  have hwritten : Reference.Written "Table" 0 "Table" := Reference.parts_eq_iff.mp (by decide)
  have hplain : Plain "Table" := ⟨⟨hwritten, by decide, .inl rfl⟩, by decide⟩
  have hget : (danglingTable "Table").types.get? "Table" = some (.tabular "rows" "Row" ["x"]) := rfl
  refine ⟨hplain, ?_⟩
  obtain ⟨entry, hentry, _, hchecked⟩ := plain_definitions_are_checked .empty hget
  refine ⟨entry, hentry, ?_⟩
  rw [ne_eq, (hchecked hplain).1]
  rintro ⟨typeOf, _, hrefs, _⟩
  cases (hrefs "Row" (by decide)).1

/-- Under the name of a kind the same table is not looked at: its entry is free of error and
reports the kind, but the table can not be built. -/
theorem a_definition_under_the_name_of_a_kind_is_passed_over :
    ∃ definition entry, (danglingTable "integer").types.get? "integer" = some definition ∧
      (danglingTable "integer").entriesOf .empty "integer" = [entry] ∧
      entry.failure = none ∧ entry.openType = some "java.lang.Integer" ∧
      ¬ ∃ typeOf type, (∀ r ∈ definition.references,
          (danglingTable "integer").resolve r = .ok (typeOf r)) ∧
        definition.Makes typeOf "integer" type := by
  refine ⟨_, Entry.ofType (danglingTable "integer") "integer", rfl, entriesOf_eq ?_, rfl, rfl, ?_⟩
  · decide
  · rintro ⟨typeOf, _, hrefs, _⟩
    cases hrefs "Row" (by decide)

end Manifest

end ManagementSchema
