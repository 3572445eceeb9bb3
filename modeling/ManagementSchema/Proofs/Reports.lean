-- What a report says as a whole: there is one entry for each definition, in
-- order, and an entry hangs on its own definition and on the named types
-- alone. So the number of failures, and with it the exit code, leaves none out.
import ManagementSchema.CommandLine
import ManagementSchema.Proofs.TypeEntries

namespace ManagementSchema

/-! ## Entries of attributes and parameters -/

namespace Entry

variable {m m' : Manifest} {c : Conversions} {a : AttributeDefinition} {p : ParameterDefinition}

theorem name_ofConstraints (kind : EntryKind) (name : String) (type : OpenType)
    (x : Except ConstraintError Constraints) : (ofConstraints kind name type x).name = name := by
  cases x <;> rfl

theorem name_ofAttribute (m : Manifest) (c : Conversions) (a : AttributeDefinition) :
    (ofAttribute m c a).name = a.name := by
  unfold ofAttribute
  split
  · rfl
  · exact name_ofConstraints _ _ _ _

theorem name_ofParameter (m : Manifest) (c : Conversions) (p : ParameterDefinition) :
    (ofParameter m c p).name = p.name := by
  unfold ofParameter
  split
  · rfl
  · exact name_ofConstraints _ _ _ _

theorem failure_ofConstraints {kind : EntryKind} {name : String} {type : OpenType}
    {x : Except ConstraintError Constraints} :
    (ofConstraints kind name type x).failure = none ↔ ∃ constraints, x = .ok constraints := by
  cases x <;> simp [ofConstraints]

/-- A definition with a type is free of error when its descriptor and its info can be made. -/
theorem failure_ofInfo {α : Type} {kind : EntryKind} {name : String} {type : OpenType}
    {members : List (String × Json)} {make : Descriptor → Except ConstraintError α}
    {constraintsOf : α → Constraints} :
    (ofConstraints kind name type do
      let descriptor ← Descriptor.ofJson members
      let info ← make descriptor
      return constraintsOf info).failure = none ↔
    ∃ descriptor info, Descriptor.ofJson members = .ok descriptor ∧ make descriptor = .ok info := by
  simp only [failure_ofConstraints, Outcome.bind_eq_ok, Outcome.pure_eq_ok]
  refine ⟨?_, ?_⟩
  · rintro ⟨_, descriptor, hdescriptor, info, hinfo, _⟩
    exact ⟨descriptor, info, hdescriptor, hinfo⟩
  · rintro ⟨descriptor, info, hdescriptor, hinfo⟩
    exact ⟨_, descriptor, hdescriptor, info, hinfo, rfl⟩

/-- An attribute is free of error when its reference gives a type, its members make a descriptor,
and this makes an info. -/
theorem failure_ofAttribute : (ofAttribute m c a).failure = none ↔
    ∃ type descriptor info, m.resolve a.type = .ok type ∧
      Descriptor.ofJson a.descriptor = .ok descriptor ∧
      AttributeInfo.ofDescriptor a.name a.description a.access type descriptor c =
        .ok info := by
  unfold ofAttribute
  rcases m.resolve a.type with e | type
  · simp [ofResolveError]
  · refine failure_ofInfo.trans ?_
    simp

/-- A parameter is free of error when its reference gives a type, its members make a descriptor,
and this makes an info. -/
theorem failure_ofParameter : (ofParameter m c p).failure = none ↔
    ∃ type descriptor info, m.resolve p.type = .ok type ∧
      Descriptor.ofJson p.descriptor = .ok descriptor ∧
      ParameterInfo.ofDescriptor p.name p.description type descriptor c = .ok info := by
  unfold ofParameter
  rcases m.resolve p.type with e | type
  · simp [ofResolveError]
  · refine failure_ofInfo.trans ?_
    simp

/-! ## Named types are all that an entry looks at -/

theorem resolve_congr (h : m.types = m'.types) : m.resolve = m'.resolve := by
  funext reference
  unfold Manifest.resolve
  rw [h]

theorem ofType_congr (h : m.types = m'.types) : ofType m = ofType m' := by
  funext name
  unfold ofType
  rw [resolve_congr h]

theorem ofAttribute_congr (h : m.types = m'.types) : ofAttribute m c = ofAttribute m' c := by
  funext a
  unfold ofAttribute
  rw [resolve_congr h]

theorem ofParameter_congr (h : m.types = m'.types) : ofParameter m c = ofParameter m' c := by
  funext p
  unfold ofParameter
  rw [resolve_congr h]

end Entry

namespace Manifest

variable {m m' : Manifest} {c : Conversions}

/-! ## Definitions alone -/

/-- The manifest with its types alone. -/
def onlyTypes (m : Manifest) : Manifest := { types := m.types }

/-- The manifest with its types and one attribute. -/
def onlyAttribute (m : Manifest) (a : AttributeDefinition) : Manifest :=
  { types := m.types, attributes := [a] }

/-- The manifest with its types and one parameter. -/
def onlyParameter (m : Manifest) (p : ParameterDefinition) : Manifest :=
  { types := m.types, parameters := [p] }

/-- The entry is about the attribute, it is the one that the attribute has alone with the types, and
it is free of error when the attribute can be made. -/
structure AttributeEntry (m : Manifest) (c : Conversions) (a : AttributeDefinition)
    (entry : Entry) : Prop where
  kind : entry.kind = .managedAttribute
  name : entry.name = a.name
  alone : ((m.onlyAttribute a).check c).entries = (m.onlyTypes.check c).entries ++ [entry]
  failure : entry.failure = none ↔ ∃ type descriptor info, m.resolve a.type = .ok type ∧
    Descriptor.ofJson a.descriptor = .ok descriptor ∧
    AttributeInfo.ofDescriptor a.name a.description a.access type descriptor c = .ok info

/-- The entry is about the parameter, it is the one that the parameter has alone with the types, and
it is free of error when the parameter can be made. -/
structure ParameterEntry (m : Manifest) (c : Conversions) (p : ParameterDefinition)
    (entry : Entry) : Prop where
  kind : entry.kind = .operationParameter
  name : entry.name = p.name
  alone : ((m.onlyParameter p).check c).entries = (m.onlyTypes.check c).entries ++ [entry]
  failure : entry.failure = none ↔ ∃ type descriptor info, m.resolve p.type = .ok type ∧
    Descriptor.ofJson p.descriptor = .ok descriptor ∧
    ParameterInfo.ofDescriptor p.name p.description type descriptor c = .ok info

theorem entries_onlyTypes (m : Manifest) (c : Conversions) :
    (m.onlyTypes.check c).entries = m.types.keys.map (Entry.ofType m) := by
  have htypes : Entry.ofType m.onlyTypes = Entry.ofType m := Entry.ofType_congr rfl
  unfold check
  rw [htypes]
  simp [onlyTypes]

theorem attributeEntry (m : Manifest) (c : Conversions) (a : AttributeDefinition) :
    m.AttributeEntry c a (Entry.ofAttribute m c a) := by
  refine ⟨Entry.kind_ofAttribute m c a, Entry.name_ofAttribute m c a, ?_,
    Entry.failure_ofAttribute⟩
  have htypes : Entry.ofType (m.onlyAttribute a) = Entry.ofType m := Entry.ofType_congr rfl
  have hown : Entry.ofAttribute (m.onlyAttribute a) c = Entry.ofAttribute m c :=
    Entry.ofAttribute_congr rfl
  rw [entries_onlyTypes]
  unfold check
  rw [htypes, hown]
  simp [onlyAttribute]

theorem parameterEntry (m : Manifest) (c : Conversions) (p : ParameterDefinition) :
    m.ParameterEntry c p (Entry.ofParameter m c p) := by
  refine ⟨Entry.kind_ofParameter m c p, Entry.name_ofParameter m c p, ?_,
    Entry.failure_ofParameter⟩
  have htypes : Entry.ofType (m.onlyParameter p) = Entry.ofType m := Entry.ofType_congr rfl
  have hown : Entry.ofParameter (m.onlyParameter p) c = Entry.ofParameter m c :=
    Entry.ofParameter_congr rfl
  rw [entries_onlyTypes]
  unfold check
  rw [htypes, hown]
  simp [onlyParameter]

/-! ## Places in the report -/

theorem entry_of_type {i : Nat} {name : String} (h : m.types.keys[i]? = some name) :
    (m.check c).entries[i]? = some (Entry.ofType m name) := by
  have hlength := (List.getElem?_eq_some_iff.mp h).1
  unfold check
  rw [List.append_assoc, List.getElem?_append_left (by simpa using hlength), List.getElem?_map, h]
  rfl

theorem entry_of_attribute {i : Nat} {a : AttributeDefinition} (h : m.attributes[i]? = some a) :
    (m.check c).entries[m.types.size + i]? = some (Entry.ofAttribute m c a) := by
  have hlength := (List.getElem?_eq_some_iff.mp h).1
  have htypes : (m.types.keys.map (Entry.ofType m)).length = m.types.size := by
    simp [Dictionary.keys, Dictionary.size]
  unfold check
  rw [List.append_assoc, List.getElem?_append_right (by omega), htypes,
    List.getElem?_append_left (by simp; omega), Nat.add_sub_cancel_left, List.getElem?_map, h]
  rfl

theorem entry_of_parameter {i : Nat} {p : ParameterDefinition} (h : m.parameters[i]? = some p) :
    (m.check c).entries[m.types.size + m.attributes.length + i]? =
      some (Entry.ofParameter m c p) := by
  have hbefore : (m.types.keys.map (Entry.ofType m) ++
      m.attributes.map (Entry.ofAttribute m c)).length = m.types.size + m.attributes.length := by
    simp [Dictionary.keys, Dictionary.size]
  unfold check
  rw [List.getElem?_append_right (by omega), hbefore, Nat.add_sub_cancel_left, List.getElem?_map, h]
  rfl

/-- Each definition that both manifests have has the same entry in both reports, in whatever place
it stands. -/
structure SharesEntries (m m' : Manifest) (c : Conversions) : Prop where
  types : ∀ i < m.types.size, (m.check c).entries[i]? = (m'.check c).entries[i]?
  attributes : ∀ i j a, m.attributes[i]? = some a → m'.attributes[j]? = some a →
    (m.check c).entries[m.types.size + i]? = (m'.check c).entries[m'.types.size + j]?
  parameters : ∀ i j p, m.parameters[i]? = some p → m'.parameters[j]? = some p →
    (m.check c).entries[m.types.size + m.attributes.length + i]? =
      (m'.check c).entries[m'.types.size + m'.attributes.length + j]?

theorem sharesEntries (h : m.types = m'.types) : m.SharesEntries m' c := by
  refine ⟨?_, ?_, ?_⟩
  · intro i hi
    have hlength : i < m.types.keys.length := by
      simpa [Dictionary.keys, Dictionary.size] using hi
    have hkey := List.getElem?_eq_getElem hlength
    have hkey' : m'.types.keys[i]? = some m.types.keys[i] := by rw [← h, hkey]
    rw [entry_of_type hkey, entry_of_type hkey', Entry.ofType_congr h]
  · intro i j a hi hj
    rw [entry_of_attribute hi, entry_of_attribute hj, Entry.ofAttribute_congr h]
  · intro i j p hi hj
    rw [entry_of_parameter hi, entry_of_parameter hj, Entry.ofParameter_congr h]

/-! ## The law -/

/-- Whatever conversions there are, a report has one entry for each definition: the types in the order
of their names, then the attributes and the parameters as they stand. The entry of an attribute or a
parameter is the one that it has alone with the types, and is free of error when the definition can be
made; so reports of manifests with the same types agree in the entries of all that the manifests share.
The failures are the entries with an error; and in either form the check, which has no conversions,
exits with zero when there are none. -/
theorem reports_are_complete_and_entries_stand_alone (m : Manifest) (c : Conversions) :
    (∃ types attributes parameters, (m.check c).entries = types ++ attributes ++ parameters ∧
      types.map (fun entry => (entry.kind, entry.name)) =
        m.types.keys.map (fun name => (EntryKind.namedType, name)) ∧
      m.types.keys.Pairwise (· < ·) ∧
      List.Forall₂ (m.AttributeEntry c) m.attributes attributes ∧
      List.Forall₂ (m.ParameterEntry c) m.parameters parameters) ∧
    (∀ m' : Manifest, m.types = m'.types → m.SharesEntries m' c) ∧
    (m.check c).failures =
      ((m.check c).entries.filter fun entry => entry.failure ≠ none).length ∧
    ∀ contentOf path format, CommandLine.load contentOf path = .ok m →
      ((CommandLine.Command.check path format).run contentOf).exit =
        if (m.check .empty).failures = 0 then 0 else 1 := by
  refine ⟨⟨_, _, _, rfl, ?_, ?_, ?_, ?_⟩, ?_, ?_, ?_⟩
  · simp [Entry.kind_ofType, Entry.name_ofType, Function.comp_def]
  · exact List.pairwise_map.mpr m.types.sorted
  · rw [List.forall₂_map_right_iff, List.forall₂_same]
    exact fun a _ => m.attributeEntry c a
  · rw [List.forall₂_map_right_iff, List.forall₂_same]
    exact fun p _ => m.parameterEntry c p
  · exact fun m' h => sharesEntries h
  · unfold Report.failures
    rw [List.countP_eq_length_filter]
    congr 2
    funext entry
    cases entry.failure <;> rfl
  · intro contentOf path format hload
    simp only [CommandLine.Command.run, hload, Report.isOk, decide_eq_true_eq]

/-- The level of something, with a type that is given by a reference. -/
def level (type : String) : AttributeDefinition :=
  { name := "level", description := "a level", type,
    descriptor := [("minValue", .number (.whole 0))] }

/-- A file with a level whose type is not defined. -/
def levelFile (_ : String) : Option String :=
  some "[\x7b\x7d, [[\"level\", \"a level\", \"Nope\"]]]"

/-- An attribute without a type stands before one that is fine, and its failure is counted; the
other one has the entry that it has alone. The check of a file with such an attribute fails. -/
theorem a_broken_neighbour_is_counted_and_changes_nothing :
    (Manifest.check { attributes := [level "Nope", level "integer"] } .empty).entries[1]? =
      (Manifest.check { attributes := [level "integer"] } .empty).entries[0]? ∧
    (Manifest.check { attributes := [level "Nope", level "integer"] } .empty).failures = 1 ∧
    ((CommandLine.Command.check "manifest.json" .json).run levelFile).exit = 1 := by
  obtain ⟨_, hshares, hfailures, _⟩ := reports_are_complete_and_entries_stand_alone
    { attributes := [level "Nope", level "integer"] } .empty
  refine ⟨?_, ?_, ?_⟩
  · exact (hshares { attributes := [level "integer"] } rfl).attributes 1 0 _ rfl rfl
  · exact hfailures.trans rfl
  · have hcount : (CommandLine.load levelFile "manifest.json").toOption.map
        (fun m => (m.check .empty).failures) = some 1 := by
      decide +kernel
    rcases hload : CommandLine.load levelFile "manifest.json" with e | m
    · rw [hload] at hcount
      cases hcount
    · rw [hload] at hcount
      have hfailure : (m.check .empty).failures = 1 := Option.some.inj hcount
      obtain ⟨_, _, _, hexit⟩ := reports_are_complete_and_entries_stand_alone m .empty
      rw [hexit levelFile "manifest.json" .json hload, hfailure]
      rfl

end Manifest

end ManagementSchema
