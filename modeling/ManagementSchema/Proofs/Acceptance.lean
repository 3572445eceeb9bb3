-- When one type accepts another, and when two types are equal: equality is
-- acceptance in both directions. Neither looks at the order of items or at
-- descriptions, wherever in a type they stand.
import ManagementSchema.Proofs.BuiltTypes
import Mathlib.Data.List.Perm.Subperm
import Mathlib.Logic.Relation

namespace ManagementSchema

theorem Item.allAccept_iff {items : List Item} {other : CompositeType} :
    allAccept items other = true ↔
      ∀ item ∈ items, ∃ type, other.itemType? item.name = some type ∧
        item.type.accepts type = true := by
  induction items with
  | nil => simp [allAccept]
  | cons item rest ih =>
    obtain ⟨name, description, type⟩ := item
    rw [allAccept]
    rcases h : other.itemType? name with _ | otherType <;> simp [h, ih]

namespace OpenType

/-! ## Acceptance and equality by the form of the types -/

variable {a b c : OpenType}

theorem accepts_simple_iff {kind : Kind} : (simple kind).accepts b = true ↔ b = simple kind := by
  cases b <;> simp [accepts, eq_comm]

theorem accepts_array_iff {type : ArrayType} : (array type).accepts b = true ↔
    ∃ other, b = array other ∧ type.dimension = other.dimension ∧
      type.isPrimitive = other.isPrimitive ∧ type.element.accepts other.element = true := by
  obtain ⟨dimension, element, isPrimitive⟩ := type
  cases b <;> simp [accepts, ArrayType.accepts, and_assoc]

theorem accepts_composite_iff {type : CompositeType} : (composite type).accepts b = true ↔
    ∃ other, b = composite other ∧ type.name = other.name ∧
      ∀ item ∈ type.items, ∃ itemType, other.itemType? item.name = some itemType ∧
        item.type.accepts itemType = true := by
  obtain ⟨name, description, items⟩ := type
  cases b <;> simp [accepts, CompositeType.accepts, Item.allAccept_iff]

theorem accepts_tabular_iff {type : TabularType} : (tabular type).accepts b = true ↔
    ∃ other, b = tabular other ∧ type.name = other.name ∧ type.index = other.index ∧
      (composite type.row).accepts (composite other.row) = true := by
  obtain ⟨name, description, row, index⟩ := type
  cases b <;> simp [accepts, TabularType.accepts, and_assoc]

theorem same_simple_iff {kind : Kind} : (simple kind).same b = true ↔ b = simple kind := by
  cases b <;> simp [same, eq_comm]

theorem same_array_iff {type : ArrayType} : (array type).same b = true ↔
    ∃ other, b = array other ∧ type.dimension = other.dimension ∧
      type.element.same other.element = true ∧ type.isPrimitive = other.isPrimitive := by
  obtain ⟨dimension, element, isPrimitive⟩ := type
  cases b <;> simp [same, ArrayType.same, and_assoc]

theorem same_composite_iff {type : CompositeType} : (composite type).same b = true ↔
    ∃ other, b = composite other ∧ type.name = other.name ∧
      type.items.length = other.items.length ∧
      ∀ item ∈ type.items, ∃ itemType, other.itemType? item.name = some itemType ∧
        item.type.same itemType = true := by
  obtain ⟨name, description, items⟩ := type
  cases b <;> simp [same, CompositeType.same, Item.allSame_iff, and_assoc]

theorem same_tabular_iff {type : TabularType} : (tabular type).same b = true ↔
    ∃ other, b = tabular other ∧ type.name = other.name ∧
      (composite type.row).same (composite other.row) = true ∧ type.index = other.index := by
  obtain ⟨name, description, row, index⟩ := type
  cases b <;> simp [same, TabularType.same, and_assoc]

/-! ## Acceptance is transitive -/

/-- What is accepted may be more than is asked for, and more again. -/
theorem accepts_trans (hab : a.accepts b = true) (hbc : b.accepts c = true) :
    a.accepts c = true := by
  induction a generalizing b c with
  | simple kind =>
    rw [accepts_simple_iff] at hab
    rwa [← hab]
  | array a ih =>
    obtain ⟨b, rfl, hdimension, hprimitive, helement⟩ := accepts_array_iff.mp hab
    obtain ⟨c, rfl, hdimension', hprimitive', helement'⟩ := accepts_array_iff.mp hbc
    exact accepts_array_iff.mpr ⟨c, rfl, hdimension.trans hdimension',
      hprimitive.trans hprimitive', ih helement helement'⟩
  | composite a ih =>
    obtain ⟨b, rfl, hname, hitems⟩ := accepts_composite_iff.mp hab
    obtain ⟨c, rfl, hname', hitems'⟩ := accepts_composite_iff.mp hbc
    refine accepts_composite_iff.mpr ⟨c, rfl, hname.trans hname', fun item hitem => ?_⟩
    obtain ⟨middle, hmiddle, haccepts⟩ := hitems item hitem
    obtain ⟨other, hother, hsame, rfl⟩ := CompositeType.mem_of_itemType? hmiddle
    obtain ⟨last, hlast, haccepts'⟩ := hitems' other hother
    exact ⟨last, hsame ▸ hlast, ih item hitem haccepts haccepts'⟩
  | tabular a ih =>
    obtain ⟨b, rfl, hname, hindex, hrow⟩ := accepts_tabular_iff.mp hab
    obtain ⟨c, rfl, hname', hindex', hrow'⟩ := accepts_tabular_iff.mp hbc
    exact accepts_tabular_iff.mpr ⟨c, rfl, hname.trans hname', hindex.trans hindex',
      ih hrow hrow'⟩

/-! ## Equality is acceptance both ways -/

/-- If all names of a composite are found in another one with as many items, then all names of
the other one are found in it. -/
theorem itemNames_subset_of_length {a b : CompositeType} (ha : a.itemNames.Nodup)
    (hab : a.itemNames ⊆ b.itemNames) (hlength : a.items.length = b.items.length) :
    b.itemNames ⊆ a.itemNames := by
  have hle : b.itemNames.length ≤ a.itemNames.length := by simp [CompositeType.itemNames, hlength]
  exact ((List.subperm_of_subset ha hab).perm_of_length_le hle).symm.subset

theorem itemNames_subset_of_found {a b : CompositeType}
    (h : ∀ item ∈ a.items, ∃ itemType, b.itemType? item.name = some itemType) :
    a.itemNames ⊆ b.itemNames := by
  intro name hname
  obtain ⟨item, hitem, rfl⟩ := List.mem_map.mp hname
  obtain ⟨itemType, hfound⟩ := h item hitem
  exact CompositeType.name_mem_of_itemType? hfound

theorem itemNames_subset_of_accepts {a b : CompositeType}
    (h : (composite a).accepts (composite b) = true) : a.itemNames ⊆ b.itemNames := by
  obtain ⟨_, ⟨⟩, _, hitems⟩ := accepts_composite_iff.mp h
  exact itemNames_subset_of_found fun item hitem => (hitems item hitem).imp fun _ h => h.1

/-- For the types of the items, equality is acceptance both ways. -/
def AlikeItems (a : CompositeType) : Prop :=
  ∀ item ∈ a.items, ∀ {b : OpenType}, item.type.Built → b.Built →
    (item.type.same b = true ↔ item.type.accepts b = true ∧ b.accepts item.type = true)

theorem accepts_of_same_composite {a b : CompositeType} (ha : (composite a).Built)
    (hb : (composite b).Built) (ih : AlikeItems a)
    (h : (composite a).same (composite b) = true) :
    (composite a).accepts (composite b) = true ∧ (composite b).accepts (composite a) = true := by
  obtain ⟨_, ⟨⟩, hname, hlength, hitems⟩ := same_composite_iff.mp h
  have hnames : b.itemNames ⊆ a.itemNames :=
    itemNames_subset_of_length ha.nodup_itemNames
      (itemNames_subset_of_found fun item hitem => (hitems item hitem).imp fun _ h => h.1) hlength
  refine ⟨accepts_composite_iff.mpr ⟨b, rfl, hname, ?_⟩,
    accepts_composite_iff.mpr ⟨a, rfl, hname.symm, ?_⟩⟩
  · intro item hitem
    obtain ⟨itemType, hfound, hsame⟩ := hitems item hitem
    obtain ⟨other, hother, _, rfl⟩ := CompositeType.mem_of_itemType? hfound
    have hboth := (ih item hitem (ha.item item hitem) (hb.item other hother)).mp hsame
    exact ⟨other.type, hfound, hboth.1⟩
  · intro other hother
    obtain ⟨item, hitem, heq⟩ := List.mem_map.mp (hnames (List.mem_map_of_mem hother))
    obtain ⟨itemType, hfound, hsame⟩ := hitems item hitem
    rw [heq, CompositeType.itemType?_of_mem hb.nodup_itemNames hother] at hfound
    cases hfound
    have hboth := (ih item hitem (ha.item item hitem) (hb.item other hother)).mp hsame
    exact ⟨item.type, heq ▸ CompositeType.itemType?_of_mem ha.nodup_itemNames hitem, hboth.2⟩

/-- Composites that accept each other have the same names. -/
theorem itemNames_perm_of_accepts {a b : CompositeType} (ha : (composite a).Built)
    (hb : (composite b).Built) (hab : (composite a).accepts (composite b) = true)
    (hba : (composite b).accepts (composite a) = true) : a.itemNames.Perm b.itemNames := by
  apply (List.perm_ext_iff_of_nodup ha.nodup_itemNames hb.nodup_itemNames).mpr
  intro name
  exact ⟨fun h => itemNames_subset_of_accepts hab h, fun h => itemNames_subset_of_accepts hba h⟩

theorem same_composite_of_accepts {a b : CompositeType} (ha : (composite a).Built)
    (hb : (composite b).Built) (ih : AlikeItems a)
    (hab : (composite a).accepts (composite b) = true)
    (hba : (composite b).accepts (composite a) = true) :
    (composite a).same (composite b) = true := by
  obtain ⟨_, ⟨⟩, hname, hitems⟩ := accepts_composite_iff.mp hab
  obtain ⟨_, ⟨⟩, _, hitems'⟩ := accepts_composite_iff.mp hba
  have hperm := itemNames_perm_of_accepts ha hb hab hba
  have hlength : a.items.length = b.items.length := by
    simpa [CompositeType.itemNames] using hperm.length_eq
  refine same_composite_iff.mpr ⟨b, rfl, hname, hlength, ?_⟩
  intro item hitem
  obtain ⟨itemType, hfound, haccepts⟩ := hitems item hitem
  obtain ⟨other, hother, heq, rfl⟩ := CompositeType.mem_of_itemType? hfound
  obtain ⟨back, hback, haccepts'⟩ := hitems' other hother
  rw [heq, CompositeType.itemType?_of_mem ha.nodup_itemNames hitem] at hback
  cases hback
  have hboth := ih item hitem (ha.item item hitem) (hb.item other hother)
  exact ⟨other.type, hfound, hboth.mpr ⟨haccepts, haccepts'⟩⟩

/-- Equality counts the items and looks at those of one side, acceptance both ways looks at those
of both sides: as no name stands twice, that comes to the same. -/
theorem same_iff_accepts (ha : a.Built) (hb : b.Built) :
    a.same b = true ↔ a.accepts b = true ∧ b.accepts a = true := by
  induction a generalizing b with
  | simple kind =>
    rw [same_simple_iff, accepts_simple_iff]
    refine ⟨?_, fun h => h.1⟩
    rintro rfl
    exact ⟨rfl, accepts_simple_iff.mpr rfl⟩
  | array a ih =>
    rw [same_array_iff]
    refine ⟨?_, ?_⟩
    · rintro ⟨b, rfl, hdimension, helement, hprimitive⟩
      have hboth := (ih ha.element hb.element).mp helement
      exact ⟨accepts_array_iff.mpr ⟨b, rfl, hdimension, hprimitive, hboth.1⟩,
        accepts_array_iff.mpr ⟨a, rfl, hdimension.symm, hprimitive.symm, hboth.2⟩⟩
    · rintro ⟨hab, hba⟩
      obtain ⟨b, rfl, hdimension, hprimitive, helement⟩ := accepts_array_iff.mp hab
      obtain ⟨_, ⟨⟩, _, _, helement'⟩ := accepts_array_iff.mp hba
      exact ⟨b, rfl, hdimension, (ih ha.element hb.element).mpr ⟨helement, helement'⟩, hprimitive⟩
  | composite a ih =>
    refine ⟨?_, ?_⟩
    · intro h
      obtain ⟨b, rfl, _⟩ := same_composite_iff.mp h
      exact accepts_of_same_composite ha hb ih h
    · rintro ⟨hab, hba⟩
      obtain ⟨b, rfl, _⟩ := accepts_composite_iff.mp hab
      exact same_composite_of_accepts ha hb ih hab hba
  | tabular a ih =>
    rw [same_tabular_iff]
    refine ⟨?_, ?_⟩
    · rintro ⟨b, rfl, hname, hrow, hindex⟩
      have hboth := (ih ha.row hb.row).mp hrow
      exact ⟨accepts_tabular_iff.mpr ⟨b, rfl, hname, hindex, hboth.1⟩,
        accepts_tabular_iff.mpr ⟨a, rfl, hname.symm, hindex.symm, hboth.2⟩⟩
    · rintro ⟨hab, hba⟩
      obtain ⟨b, rfl, hname, hindex, hrow⟩ := accepts_tabular_iff.mp hab
      obtain ⟨_, ⟨⟩, _, _, hrow'⟩ := accepts_tabular_iff.mp hba
      exact ⟨b, rfl, hname, (ih ha.row hb.row).mpr ⟨hrow, hrow'⟩, hindex⟩

theorem accepts_self (h : a.Built) : a.accepts a = true :=
  ((same_iff_accepts h h).mp (same_self h)).1

theorem same_symm (ha : a.Built) (hb : b.Built) (h : a.same b = true) : b.same a = true :=
  (same_iff_accepts hb ha).mpr ((same_iff_accepts ha hb).mp h).symm

theorem same_trans (ha : a.Built) (hb : b.Built) (hc : c.Built) (hab : a.same b = true)
    (hbc : b.same c = true) : a.same c = true := by
  obtain ⟨hab, hba⟩ := (same_iff_accepts ha hb).mp hab
  obtain ⟨hbc, hcb⟩ := (same_iff_accepts hb hc).mp hbc
  exact (same_iff_accepts ha hc).mpr ⟨accepts_trans hab hbc, accepts_trans hcb hba⟩

/-! ## Other ways to declare a type -/

/-- The types differ in one place, at any depth: in the order of the items of one composite, or in
one description. -/
inductive Redeclared : OpenType → OpenType → Prop
  | order {name description : String} {items items' : List Item} : items.Perm items' →
      Redeclared (.composite ⟨name, description, items⟩) (.composite ⟨name, description, items'⟩)
  | compositeDescription {name old new : String} {items : List Item} :
      Text.isBlank new = false →
      Redeclared (.composite ⟨name, old, items⟩) (.composite ⟨name, new, items⟩)
  | itemDescription {name description itemName old new : String} {type : OpenType}
      {before after : List Item} : Text.isBlank new = false →
      Redeclared (.composite ⟨name, description, before ++ ⟨itemName, old, type⟩ :: after⟩)
        (.composite ⟨name, description, before ++ ⟨itemName, new, type⟩ :: after⟩)
  | tabularDescription {name old new : String} {row : CompositeType} {index : List String} :
      Text.isBlank new = false →
      Redeclared (.tabular ⟨name, old, row, index⟩) (.tabular ⟨name, new, row, index⟩)
  | inElement {dimension : Nat} {element element' : OpenType} {isPrimitive : Bool} :
      Redeclared element element' →
      Redeclared (.array ⟨dimension, element, isPrimitive⟩)
        (.array ⟨dimension, element', isPrimitive⟩)
  | inItem {name description itemName itemDescription : String} {type type' : OpenType}
      {before after : List Item} : Redeclared type type' →
      Redeclared
        (.composite ⟨name, description, before ++ ⟨itemName, itemDescription, type⟩ :: after⟩)
        (.composite ⟨name, description, before ++ ⟨itemName, itemDescription, type'⟩ :: after⟩)
  | inRow {name description : String} {row row' : CompositeType} {index : List String} :
      Redeclared (.composite row) (.composite row') →
      Redeclared (.tabular ⟨name, description, row, index⟩)
        (.tabular ⟨name, description, row', index⟩)

theorem same_composite_of_items {a b : CompositeType} (hb : b.itemNames.Nodup)
    (hname : a.name = b.name) (hlength : a.items.length = b.items.length)
    (h : ∀ item ∈ a.items, ∃ other ∈ b.items,
      other.name = item.name ∧ item.type.same other.type = true) :
    (composite a).same (composite b) = true := by
  refine same_composite_iff.mpr ⟨b, rfl, hname, hlength, fun item hitem => ?_⟩
  obtain ⟨other, hother, heq, hsame⟩ := h item hitem
  exact ⟨other.type, heq ▸ CompositeType.itemType?_of_mem hb hother, hsame⟩

/-- An item may stand in the place of one with its name and an equal type. -/
theorem same_of_replacedItem {name description : String} {before after : List Item}
    {item item' : Item} (h : (composite ⟨name, description, before ++ item :: after⟩).Built)
    (hname : item'.name = item.name) (hdescription : Text.isBlank item'.description = false)
    (htype : item'.type.Built) (hsame : item.type.same item'.type = true) :
    (composite ⟨name, description, before ++ item' :: after⟩).Built ∧
      (composite ⟨name, description, before ++ item :: after⟩).same
        (composite ⟨name, description, before ++ item' :: after⟩) = true := by
  obtain ⟨⟨hnamed, hdescribed, _, hitems, hnodup⟩, hbuilt⟩ := built_composite_iff.mp h
  have hself : ∀ other ∈ before ++ item :: after, other.type.same other.type = true :=
    fun other hother => same_self (hbuilt other hother)
  have hnodup' : ((before ++ item' :: after).map Item.name).Nodup := by
    simpa [CompositeType.itemNames, hname] using hnodup
  simp only [List.mem_append, List.mem_cons] at hself hitems hbuilt
  refine ⟨built_composite_iff.mpr ⟨⟨hnamed, hdescribed, by simp, ?_, hnodup'⟩, ?_⟩,
    same_composite_of_items hnodup' rfl (by simp) ?_⟩
  · simp only [List.mem_append, List.mem_cons]
    grind
  · simp only [List.mem_append, List.mem_cons]
    grind
  · simp only [List.mem_append, List.mem_cons]
    grind

theorem isArray_of_same (h : a.same b = true) : b.isArray = a.isArray := by
  cases a with
  | simple kind => rw [same_simple_iff.mp h]
  | array type =>
    obtain ⟨_, rfl, _⟩ := same_array_iff.mp h
    rfl
  | composite type =>
    obtain ⟨_, rfl, _⟩ := same_composite_iff.mp h
    rfl
  | tabular type =>
    obtain ⟨_, rfl, _⟩ := same_tabular_iff.mp h
    rfl

/-- One such change leaves a built type built, and equal to what it was. -/
theorem Redeclared.same (h : Redeclared a b) (ha : a.Built) : b.Built ∧ a.same b = true := by
  induction h with
  | order hperm =>
    obtain ⟨⟨hnamed, hdescribed, hinhabited, hitems, hnodup⟩, hbuilt⟩ := built_composite_iff.mp ha
    have hnodup' := (hperm.map Item.name).nodup_iff.mp hnodup
    refine ⟨built_composite_iff.mpr ⟨⟨hnamed, hdescribed, ?_, ?_, hnodup'⟩, ?_⟩,
      same_composite_of_items hnodup' rfl hperm.length_eq ?_⟩
    · rintro rfl
      exact hinhabited hperm.eq_nil
    · exact fun item hitem => hitems item (hperm.mem_iff.mpr hitem)
    · exact fun item hitem => hbuilt item (hperm.mem_iff.mpr hitem)
    · exact fun item hitem => ⟨item, hperm.mem_iff.mp hitem, rfl, same_self (hbuilt item hitem)⟩
  | compositeDescription hnew =>
    obtain ⟨⟨hnamed, _, hinhabited, hitems, hnodup⟩, hbuilt⟩ := built_composite_iff.mp ha
    exact ⟨built_composite_iff.mpr ⟨⟨hnamed, hnew, hinhabited, hitems, hnodup⟩, hbuilt⟩,
      same_composite_of_items hnodup rfl rfl
        fun item hitem => ⟨item, hitem, rfl, same_self (hbuilt item hitem)⟩⟩
  | itemDescription hnew =>
    have htype := ha.item _ (List.mem_append_right _ List.mem_cons_self)
    exact same_of_replacedItem ha rfl hnew htype (same_self htype)
  | tabularDescription hnew =>
    obtain ⟨⟨hnamed, _, hinhabited, hitems, hnodup⟩, hrow⟩ := built_tabular_iff.mp ha
    exact ⟨built_tabular_iff.mpr ⟨⟨hnamed, hnew, hinhabited, hitems, hnodup⟩, hrow⟩,
      same_tabular_iff.mpr ⟨_, rfl, rfl, same_self hrow, rfl⟩⟩
  | inElement _ ih =>
    obtain ⟨⟨hpositive, hinnermost, hunboxed⟩, helement⟩ := built_array_iff.mp ha
    obtain ⟨hbuilt, hsame⟩ := ih helement
    refine ⟨built_array_iff.mpr ⟨⟨hpositive, ?_, fun hprimitive => ?_⟩, hbuilt⟩,
      same_array_iff.mpr ⟨_, rfl, rfl, hsame, rfl⟩⟩
    · exact (isArray_of_same hsame).trans hinnermost
    · obtain ⟨kind, rfl, hkind⟩ := hunboxed hprimitive
      exact ⟨kind, same_simple_iff.mp hsame, hkind⟩
  | @inItem _ _ name description type _ before after _ ih =>
    have hmem : (⟨name, description, type⟩ : Item) ∈ before ++ ⟨name, description, type⟩ :: after :=
      List.mem_append_right _ List.mem_cons_self
    obtain ⟨htype, hsame⟩ := ih (ha.item _ hmem)
    exact same_of_replacedItem ha rfl ((built_composite_iff.mp ha).1.items _ hmem).2 htype hsame
  | inRow _ ih =>
    obtain ⟨⟨hnamed, hdescribed, hinhabited, hitems, hnodup⟩, hrow⟩ := built_tabular_iff.mp ha
    obtain ⟨hbuilt, hsame⟩ := ih hrow
    -- The items of the key are still there, as equal rows have the same items.
    have hnames := itemNames_subset_of_accepts ((same_iff_accepts hrow hbuilt).mp hsame).1
    refine ⟨built_tabular_iff.mpr ⟨⟨hnamed, hdescribed, hinhabited, fun name hname => ?_, hnodup⟩,
      hbuilt⟩, same_tabular_iff.mpr ⟨_, rfl, rfl, hsame, rfl⟩⟩
    exact CompositeType.hasItem_iff.mpr (hnames (CompositeType.hasItem_iff.mp (hitems name hname)))

theorem same_of_redeclared (h : Relation.ReflTransGen Redeclared a b) (ha : a.Built) :
    b.Built ∧ a.same b = true := by
  induction h with
  | refl => exact ⟨ha, same_self ha⟩
  | tail _ hstep ih =>
    obtain ⟨hmiddle, hsame⟩ := ih
    obtain ⟨hbuilt, hsame'⟩ := hstep.same hmiddle
    exact ⟨hbuilt, same_trans ha hmiddle hbuilt hsame hsame'⟩

/-! ## Points -/

/-- Points, with an integer under the name of each coordinate. -/
def points (names : List String) : CompositeType :=
  ⟨"Point", "A point", names.map fun name => ⟨name, "A coordinate", .simple .integer⟩⟩

theorem built_points {names : List String} (hne : names ≠ []) (hnodup : names.Nodup)
    (hblank : ∀ name ∈ names, Text.isBlank name = false) : (composite (points names)).Built := by
  have hname : Text.isBlank "Point" = false := by decide
  have hdescription : Text.isBlank "A point" = false := by decide
  have hcoordinate : Text.isBlank "A coordinate" = false := by decide
  refine built_composite_iff.mpr ⟨⟨hname, hdescription, ?_, ?_, ?_⟩, ?_⟩
  · simpa [points] using hne
  · intro item hitem
    obtain ⟨name, hmem, rfl⟩ := List.mem_map.mp hitem
    exact ⟨hblank name hmem, hcoordinate⟩
  · simpa [points, CompositeType.itemNames, Function.comp_def] using hnodup
  · intro item hitem
    obtain ⟨name, _, rfl⟩ := List.mem_map.mp hitem
    exact .simple .integer

/-! ## The laws -/

/-- Acceptance of built types is reflexive and transitive, and equality is acceptance both ways.
So equality is an equivalence, any number of changes to the order of items and to descriptions
leaves a type equal to itself, and tables with another key are never equal. -/
theorem equality_is_acceptance_both_ways :
    (∀ a : OpenType, a.Built → a.accepts a = true) ∧
    (∀ a b c : OpenType, a.accepts b = true → b.accepts c = true → a.accepts c = true) ∧
    (∀ a b : OpenType, a.Built → b.Built →
      (a.same b = true ↔ a.accepts b = true ∧ b.accepts a = true)) ∧
    Equivalence (fun a b : {type : OpenType // type.Built} => a.1.same b.1 = true) ∧
    (∀ a b : OpenType, a.Built → Relation.ReflTransGen Redeclared a b →
      b.Built ∧ a.same b = true) ∧
    ∀ a b : TabularType, a.index ≠ b.index → (tabular a).same (tabular b) = false := by
  refine ⟨fun _ => accepts_self, fun _ _ _ => accepts_trans, fun _ _ => same_iff_accepts,
    ⟨?_, ?_, ?_⟩, fun _ _ ha h => same_of_redeclared h ha, fun a b hindex => ?_⟩
  · exact fun a => same_self a.2
  · exact fun {a b} => same_symm a.2 b.2
  · exact fun {a b c} => same_trans a.2 b.2 c.2
  · rw [← Bool.not_eq_true, same_tabular_iff]
    rintro ⟨_, ⟨⟩, _, _, heq⟩
    exact hindex heq

/-- Points are the same inside of an array, too, with their coordinates turned round. -/
example : (array ⟨2, composite (points ["x", "y"]), false⟩).same
    (array ⟨2, composite (points ["y", "x"]), false⟩) = true := by decide

end OpenType

end ManagementSchema
