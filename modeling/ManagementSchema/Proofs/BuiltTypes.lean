-- The types that the constructors build. What a constructor checks once
-- holds of every part of such a type: no two items of a composite share a
-- name, so a type is equal to itself.
import ManagementSchema.OpenType.Compare

namespace ManagementSchema

/-! ## Induction -/

/-- What holds of every kind, and of a type when it holds of the parts, holds of every type. The
parts of a table are its rows, as a composite. -/
@[elab_as_elim, induction_eliminator]
theorem OpenType.induct {motive : OpenType → Prop}
    (simple : ∀ kind, motive (.simple kind))
    (array : ∀ type : ArrayType, motive type.element → motive (.array type))
    (composite : ∀ type : CompositeType, (∀ item ∈ type.items, motive item.type) →
      motive (.composite type))
    (tabular : ∀ type : TabularType, motive (.composite type.row) → motive (.tabular type)) :
    ∀ type, motive type
  | .simple kind => simple kind
  | .array ⟨_, element, _⟩ => array _ (OpenType.induct simple array composite tabular element)
  | .composite ⟨_, _, items⟩ =>
    composite _ fun item _ => OpenType.induct simple array composite tabular item.type
  | .tabular ⟨_, _, row, _⟩ =>
    tabular _ (OpenType.induct simple array composite tabular (.composite row))
termination_by type => sizeOf type
decreasing_by
  · simp only [OpenType.array.sizeOf_spec, ArrayType.mk.sizeOf_spec]
    omega
  · have h := List.sizeOf_lt_of_mem ‹item ∈ _›
    cases item
    simp only [OpenType.composite.sizeOf_spec, CompositeType.mk.sizeOf_spec,
      Item.mk.sizeOf_spec] at h ⊢
    omega
  · simp only [OpenType.composite.sizeOf_spec, OpenType.tabular.sizeOf_spec,
      TabularType.mk.sizeOf_spec]
    omega

/-! ## Built types -/

/-- The type comes from the constructors that check what they are given. -/
inductive OpenType.Built : OpenType → Prop
  | simple (kind : Kind) : Built (.simple kind)
  | array {dimension : Nat} {element : OpenType} {type : ArrayType} :
      Built element → ArrayType.build dimension element = .ok type → Built (.array type)
  | primitive {kind : Kind} {type : ArrayType} :
      ArrayType.buildPrimitive kind = .ok type → Built (.array type)
  | composite {name description : String} {items : List Item} {type : CompositeType} :
      (∀ item ∈ items, Built item.type) → CompositeType.build name description items = .ok type →
      Built (.composite type)
  | tabular {name description : String} {row : CompositeType} {index : List String}
      {type : TabularType} :
      Built (.composite row) → TabularType.build name description row index = .ok type →
      Built (.tabular type)

/-! ## What the constructors ask for -/

/-- The dimensions are counted, the element type is no array, and only kinds with an unboxed form
are unboxed. -/
structure ArrayType.Normal (type : ArrayType) : Prop where
  positive : 1 ≤ type.dimension
  innermost : type.element.isArray = false
  unboxed : type.isPrimitive = true →
    ∃ kind : Kind, type.element = .simple kind ∧ kind.primitive?.isSome = true

/-- Nothing is blank, there is an item, and no two items share a name. -/
structure CompositeType.WellFormed (type : CompositeType) : Prop where
  named : Text.isBlank type.name = false
  described : Text.isBlank type.description = false
  inhabited : type.items ≠ []
  items : ∀ item ∈ type.items,
    Text.isBlank item.name = false ∧ Text.isBlank item.description = false
  nodup : type.itemNames.Nodup

/-- Nothing is blank, and the key is made of different items of the rows, at least one. -/
structure TabularType.WellFormed (type : TabularType) : Prop where
  named : Text.isBlank type.name = false
  described : Text.isBlank type.description = false
  inhabited : type.index ≠ []
  items : ∀ name ∈ type.index, type.row.hasItem name = true
  nodup : type.index.Nodup

theorem OpenType.isArray_cases (type : OpenType) :
    (∃ inner, type = .array inner) ∨ type.isArray = false := by
  cases type with
  | array inner => exact .inl ⟨inner, rfl⟩
  | simple kind => exact .inr rfl
  | composite type => exact .inr rfl
  | tabular type => exact .inr rfl

theorem ArrayType.build_array {dimension : Nat} (h : 1 ≤ dimension) (inner : ArrayType) :
    ArrayType.build dimension (.array inner) =
      .ok ⟨dimension + inner.dimension, inner.element, inner.isPrimitive⟩ := by
  unfold build
  rw [if_neg (by omega)]

theorem ArrayType.build_plain {dimension : Nat} {element : OpenType} (h : 1 ≤ dimension)
    (hplain : element.isArray = false) :
    ArrayType.build dimension element = .ok ⟨dimension, element, false⟩ := by
  unfold build
  rw [if_neg (by omega)]
  cases element with
  | array inner => cases hplain
  | simple kind => rfl
  | composite type => rfl
  | tabular type => rfl

/-- An array over an array takes over its element and form, an array over any other type has that
type as its element. -/
theorem ArrayType.build_eq_ok {dimension : Nat} {element : OpenType} {type : ArrayType} :
    ArrayType.build dimension element = .ok type ↔ 1 ≤ dimension ∧
      ((∃ inner, element = .array inner ∧
        type = ⟨dimension + inner.dimension, inner.element, inner.isPrimitive⟩) ∨
      element.isArray = false ∧ type = ⟨dimension, element, false⟩) := by
  refine ⟨?_, ?_⟩
  · intro h
    rcases Nat.eq_zero_or_pos dimension with rfl | hdimension
    · cases h
    · rcases element.isArray_cases with ⟨inner, rfl⟩ | hplain
      · rw [build_array hdimension] at h
        cases h
        exact ⟨hdimension, .inl ⟨inner, rfl, rfl⟩⟩
      · rw [build_plain hdimension hplain] at h
        cases h
        exact ⟨hdimension, .inr ⟨hplain, rfl⟩⟩
  · rintro ⟨hdimension, ⟨inner, rfl, rfl⟩ | ⟨hplain, rfl⟩⟩
    · exact build_array hdimension inner
    · exact build_plain hdimension hplain

theorem ArrayType.normal_of_build {dimension : Nat} {element : OpenType} {type : ArrayType}
    (hinner : ∀ inner, element = .array inner → inner.Normal)
    (h : ArrayType.build dimension element = .ok type) : type.Normal := by
  obtain ⟨hdimension, ⟨inner, helement, rfl⟩ | ⟨hplain, rfl⟩⟩ := build_eq_ok.mp h
  · obtain ⟨_, hinnermost, hunboxed⟩ := hinner inner helement
    exact ⟨Nat.le_add_right_of_le hdimension, hinnermost, hunboxed⟩
  · exact ⟨hdimension, hplain, by simp⟩

theorem ArrayType.buildPrimitive_eq_ok {kind : Kind} {type : ArrayType} :
    ArrayType.buildPrimitive kind = .ok type ↔
      kind.primitive?.isSome = true ∧ type = ⟨1, .simple kind, true⟩ := by
  unfold buildPrimitive
  split
  · rename_i hkind
    simp [hkind, eq_comm]
  · rename_i hkind
    simp [hkind]

theorem ArrayType.normal_of_buildPrimitive {kind : Kind} {type : ArrayType}
    (h : ArrayType.buildPrimitive kind = .ok type) : type.Normal := by
  obtain ⟨hkind, rfl⟩ := buildPrimitive_eq_ok.mp h
  exact ⟨Nat.le_refl 1, rfl, fun _ => ⟨kind, rfl, hkind⟩⟩

theorem CompositeType.checkItems_eq_ok {index : Nat} {seen : List String} {items : List Item} :
    checkItems index seen items = .ok () ↔
      (∀ item ∈ items, Text.isBlank item.name = false ∧ Text.isBlank item.description = false) ∧
      (items.map Item.name).Nodup ∧ ∀ item ∈ items, item.name ∉ seen := by
  induction items generalizing index seen with
  | nil => simp [checkItems]
  | cons item rest ih =>
    -- The names after an item are new if they are not its own and not seen before it.
    have hlater : (∀ other ∈ rest, other.name ∉ item.name :: seen) ↔
        item.name ∉ rest.map Item.name ∧ ∀ other ∈ rest, other.name ∉ seen := by
      simp only [List.mem_cons, not_or, List.mem_map]
      grind
    rw [checkItems]
    by_cases hname : Text.isBlank item.name = true
    · simp [hname]
    · by_cases hdescription : Text.isBlank item.description = true
      · simp [hname, hdescription]
      · by_cases hseen : item.name ∈ seen
        · simp [hname, hdescription, hseen]
        · rw [if_neg hname, if_neg hdescription, if_neg hseen, ih, hlater]
          simp only [Bool.not_eq_true] at hname hdescription
          simp only [List.forall_mem_cons, List.map_cons, List.nodup_cons, hname, hdescription,
            hseen]
          grind

theorem CompositeType.build_eq_ok {name description : String} {items : List Item}
    {type : CompositeType} : CompositeType.build name description items = .ok type ↔
      type = ⟨name, description, items⟩ ∧ type.WellFormed := by
  have hcheck : check name description items = .ok () ↔
      CompositeType.WellFormed ⟨name, description, items⟩ := by
    unfold check
    refine ⟨?_, ?_⟩
    · intro h
      split at h
      · cases h
      · rename_i hname
        split at h
        · cases h
        · rename_i hdescription
          split at h
          · cases h
          · rename_i hitems
            obtain ⟨hblank, hnodup, _⟩ := checkItems_eq_ok.mp h
            exact ⟨by simpa using hname, by simpa using hdescription, by simpa using hitems,
              hblank, hnodup⟩
    · rintro ⟨hname, hdescription, hinhabited, hblank, hnodup⟩
      rw [if_neg (by simp [hname]), if_neg (by simp [hdescription]),
        if_neg (by simpa using hinhabited)]
      exact checkItems_eq_ok.mpr ⟨hblank, hnodup, by simp⟩
  unfold build
  refine ⟨?_, ?_⟩
  · intro h
    split at h
    · cases h
      exact ⟨rfl, hcheck.mp ‹_›⟩
    · cases h
  · rintro ⟨rfl, hwell⟩
    rw [hcheck.mpr hwell]

theorem TabularType.checkIndex_eq_ok {row : CompositeType} {seen index : List String} :
    checkIndex row seen index = .ok () ↔
      (∀ name ∈ index, row.hasItem name = true) ∧ index.Nodup ∧ ∀ name ∈ index, name ∉ seen := by
  induction index generalizing seen with
  | nil => simp [checkIndex]
  | cons name rest ih =>
    have hlater : (∀ other ∈ rest, other ∉ name :: seen) ↔
        name ∉ rest ∧ ∀ other ∈ rest, other ∉ seen := by
      simp only [List.mem_cons, not_or]
      grind
    rw [checkIndex]
    by_cases hitem : row.hasItem name = true
    · by_cases hseen : name ∈ seen
      · simp [hitem, hseen]
      · rw [if_neg (by simp [hitem]), if_neg hseen, ih, hlater]
        simp only [List.forall_mem_cons, List.nodup_cons, hitem, hseen]
        grind
    · rw [if_pos (by simpa using hitem)]
      simp [hitem]

theorem TabularType.build_eq_ok {name description : String} {row : CompositeType}
    {index : List String} {type : TabularType} :
    TabularType.build name description row index = .ok type ↔
      type = ⟨name, description, row, index⟩ ∧ type.WellFormed := by
  have hcheck : check name description row index = .ok () ↔
      TabularType.WellFormed ⟨name, description, row, index⟩ := by
    unfold check
    refine ⟨?_, ?_⟩
    · intro h
      split at h
      · cases h
      · rename_i hname
        split at h
        · cases h
        · rename_i hdescription
          split at h
          · cases h
          · rename_i hindex
            obtain ⟨hitems, hnodup, _⟩ := checkIndex_eq_ok.mp h
            exact ⟨by simpa using hname, by simpa using hdescription, by simpa using hindex,
              hitems, hnodup⟩
    · rintro ⟨hname, hdescription, hinhabited, hitems, hnodup⟩
      rw [if_neg (by simp [hname]), if_neg (by simp [hdescription]),
        if_neg (by simpa using hinhabited)]
      exact checkIndex_eq_ok.mpr ⟨hitems, hnodup, by simp⟩
  unfold build
  refine ⟨?_, ?_⟩
  · intro h
    split at h
    · cases h
      exact ⟨rfl, hcheck.mp ‹_›⟩
    · cases h
  · rintro ⟨rfl, hwell⟩
    rw [hcheck.mpr hwell]

/-! ## Built types by their form -/

namespace OpenType

theorem Built.normal {type : ArrayType} (h : (OpenType.array type).Built) :
    type.Normal ∧ type.element.Built := by
  generalize ht : OpenType.array type = t at h
  induction h generalizing type with
  | simple kind => cases ht
  | @array dimension element built helement hbuild ih =>
    cases ht
    refine ⟨ArrayType.normal_of_build (fun inner hinner => (ih hinner.symm).1) hbuild, ?_⟩
    obtain ⟨_, ⟨inner, hinner, rfl⟩ | ⟨_, rfl⟩⟩ := ArrayType.build_eq_ok.mp hbuild
    · exact (ih hinner.symm).2
    · exact helement
  | @primitive kind built hbuild =>
    cases ht
    refine ⟨ArrayType.normal_of_buildPrimitive hbuild, ?_⟩
    obtain ⟨_, rfl⟩ := ArrayType.buildPrimitive_eq_ok.mp hbuild
    exact .simple kind
  | composite _ _ => cases ht
  | tabular _ _ _ => cases ht

/-- Unboxed arrays of several dimensions are built around those of one. -/
theorem built_array_iff {type : ArrayType} :
    (OpenType.array type).Built ↔ type.Normal ∧ type.element.Built := by
  refine ⟨Built.normal, ?_⟩
  obtain ⟨dimension, element, isPrimitive⟩ := type
  rintro ⟨⟨hpositive, hinnermost, hunboxed⟩, helement⟩
  simp only at hpositive hinnermost hunboxed helement
  cases isPrimitive with
  | false =>
    exact .array helement (ArrayType.build_plain hpositive hinnermost)
  | true =>
    obtain ⟨kind, rfl, hkind⟩ := hunboxed rfl
    have hline := ArrayType.buildPrimitive_eq_ok.mpr ⟨hkind, rfl⟩
    by_cases hone : dimension = 1
    · rw [hone]
      exact .primitive hline
    · have hbuild := ArrayType.build_array (show 1 ≤ dimension - 1 by omega)
        ⟨1, .simple kind, true⟩
      rw [Nat.sub_add_cancel hpositive] at hbuild
      exact .array (.primitive hline) hbuild

theorem built_composite_iff {type : CompositeType} :
    (OpenType.composite type).Built ↔ type.WellFormed ∧ ∀ item ∈ type.items, item.type.Built := by
  refine ⟨?_, ?_⟩
  · intro h
    cases h with
    | composite hitems hbuild =>
      obtain ⟨rfl, hwell⟩ := CompositeType.build_eq_ok.mp hbuild
      exact ⟨hwell, hitems⟩
  · rintro ⟨hwell, hitems⟩
    obtain ⟨name, description, items⟩ := type
    exact .composite hitems (CompositeType.build_eq_ok.mpr ⟨rfl, hwell⟩)

theorem built_tabular_iff {type : TabularType} :
    (OpenType.tabular type).Built ↔ type.WellFormed ∧ (OpenType.composite type.row).Built := by
  refine ⟨?_, ?_⟩
  · intro h
    cases h with
    | tabular hrow hbuild =>
      obtain ⟨rfl, hwell⟩ := TabularType.build_eq_ok.mp hbuild
      exact ⟨hwell, hrow⟩
  · rintro ⟨hwell, hrow⟩
    obtain ⟨name, description, row, index⟩ := type
    exact .tabular hrow (TabularType.build_eq_ok.mpr ⟨rfl, hwell⟩)

namespace Built

theorem nodup_itemNames {type : CompositeType} (h : (OpenType.composite type).Built) :
    type.itemNames.Nodup :=
  (built_composite_iff.mp h).1.nodup

theorem item {type : CompositeType} (h : (OpenType.composite type).Built) :
    ∀ item ∈ type.items, item.type.Built :=
  (built_composite_iff.mp h).2

theorem wellFormed {type : TabularType} (h : (OpenType.tabular type).Built) : type.WellFormed :=
  (built_tabular_iff.mp h).1

theorem row {type : TabularType} (h : (OpenType.tabular type).Built) :
    (OpenType.composite type.row).Built :=
  (built_tabular_iff.mp h).2

theorem element {type : ArrayType} (h : (OpenType.array type).Built) : type.element.Built :=
  h.normal.2

end Built

end OpenType

/-! ## Items by name -/

namespace CompositeType

/-- Among items with different names, each is found by its name. -/
theorem itemType?_of_mem {type : CompositeType} (h : type.itemNames.Nodup)
    {item : Item} (hitem : item ∈ type.items) :
    type.itemType? item.name = some item.type := by
  obtain ⟨name, description, items⟩ := type
  simp only [itemNames, itemType?, item?] at h hitem ⊢
  induction items with
  | nil => cases hitem
  | cons first rest ih =>
    simp only [List.map_cons, List.nodup_cons] at h
    rw [List.find?_cons]
    rcases List.mem_cons.mp hitem with rfl | hrest
    · simp
    · have hne : first.name ≠ item.name := fun heq =>
        h.1 (heq ▸ List.mem_map_of_mem hrest)
      simp only [hne, decide_false]
      exact ih h.2 hrest

theorem mem_of_itemType? {type : CompositeType} {name : String} {itemType : OpenType}
    (h : type.itemType? name = some itemType) :
    ∃ item ∈ type.items, item.name = name ∧ item.type = itemType := by
  obtain ⟨item, hitem, rfl⟩ := Option.map_eq_some_iff.mp h
  refine ⟨item, List.mem_of_find?_eq_some hitem, ?_, rfl⟩
  simpa using List.find?_some hitem

theorem hasItem_iff {type : CompositeType} {name : String} :
    type.hasItem name = true ↔ name ∈ type.itemNames := by
  simp [hasItem, item?, itemNames]

theorem exists_itemType? {type : CompositeType} {name : String} (h : type.hasItem name = true) :
    ∃ itemType, type.itemType? name = some itemType := by
  obtain ⟨item, hitem⟩ := Option.isSome_iff_exists.mp h
  exact ⟨item.type, by rw [itemType?, hitem]; rfl⟩

theorem name_mem_of_itemType? {type : CompositeType} {name : String} {itemType : OpenType}
    (h : type.itemType? name = some itemType) : name ∈ type.itemNames := by
  obtain ⟨item, hitem, rfl, _⟩ := mem_of_itemType? h
  exact List.mem_map_of_mem hitem

end CompositeType

/-! ## Equality -/

/-- Every item has the type of the item of its name in the other composite. -/
theorem Item.allSame_iff {items : List Item} {other : CompositeType} :
    allSame items other = true ↔
      ∀ item ∈ items, ∃ type, other.itemType? item.name = some type ∧
        item.type.same type = true := by
  induction items with
  | nil => simp [allSame]
  | cons item rest ih =>
    obtain ⟨name, description, type⟩ := item
    rw [allSame]
    rcases h : other.itemType? name with _ | otherType <;> simp [h, ih]

theorem OpenType.same_self {type : OpenType} (h : type.Built) : type.same type = true := by
  induction type with
  | simple kind => simp [OpenType.same]
  | array type ih =>
    obtain ⟨dimension, element, isPrimitive⟩ := type
    simp only [OpenType.same, ArrayType.same, decide_true, Bool.and_true, Bool.true_and]
    exact ih h.element
  | composite type ih =>
    obtain ⟨name, description, items⟩ := type
    simp only [OpenType.same, CompositeType.same, decide_true, Bool.true_and]
    rw [Item.allSame_iff]
    intro item hitem
    exact ⟨item.type, CompositeType.itemType?_of_mem h.nodup_itemNames hitem,
      ih item hitem (h.item item hitem)⟩
  | tabular type ih =>
    obtain ⟨name, description, row, index⟩ := type
    simp only [OpenType.same, TabularType.same, decide_true, Bool.and_true, Bool.true_and]
    exact ih h.row

end ManagementSchema
