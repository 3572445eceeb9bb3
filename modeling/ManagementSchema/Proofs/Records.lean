-- Records and the entries they are made of. A record takes one entry for each
-- item, in any order, and keeps just these: what was given is what is found,
-- and the items stand in the order in which the type declares them.
import ManagementSchema.Proofs.EqualTypes

namespace ManagementSchema

variable {type other : CompositeType} {given others : List (String × Option Value)}

/-! ## Entries that fit a type -/

/-- With a name of the type, an entry fits unless its value is of another type than the item. -/
theorem CompositeType.fits_iff_of_mem {name : String} {cell : Option Value}
    (h : name ∈ type.itemNames) : type.Fits (name, cell) ↔
      ∀ v itemType, cell = some v → type.itemType? name = some itemType →
        itemType.hasValue v = true := by
  obtain ⟨itemType, hitem⟩ := exists_itemType? (hasItem_iff.mpr h)
  refine ⟨?_, ?_⟩
  · intro ⟨found, hfound, hfits⟩ v _ hv hother
    cases hfound.symm.trans hother
    exact hfits v hv
  · intro hfits
    exact ⟨itemType, hitem, fun v hv => hfits v itemType hv hitem⟩

/-- What fits a type fits an equal one. -/
theorem CompositeType.fits_of_same {entry : String × Option Value}
    (htype : (OpenType.composite type).Built) (hother : (OpenType.composite other).Built)
    (hsame : (OpenType.composite type).same (.composite other) = true) (h : type.Fits entry) :
    other.Fits entry := by
  obtain ⟨itemType, hitem, hfits⟩ := h
  obtain ⟨item, hmem, hname, rfl⟩ := mem_of_itemType? hitem
  obtain ⟨_, ⟨⟩, _, _, hitems⟩ := OpenType.same_composite_iff.mp hsame
  obtain ⟨otherType, hfound, hsameItem⟩ := hitems item hmem
  obtain ⟨otherItem, hotherMem, _, rfl⟩ := mem_of_itemType? hfound
  refine ⟨otherItem.type, hname ▸ hfound, ?_⟩
  intro v hv
  rw [← OpenType.hasValue_eq_of_same (htype.item item hmem) (hother.item otherItem hotherMem)
    hsameItem v]
  exact hfits v hv

namespace Record

variable {r : Record} {names : List String} {name : String} {cell : Option Value}

/-! ## Entries in the order of the items -/

/-- Entries can be arranged if each name is among theirs. -/
theorem exists_arranged (h : names ⊆ given.map Prod.fst) :
    ∃ fields, Arranged given names fields := by
  induction names with
  | nil => exact ⟨[], .nil⟩
  | cons name rest ih =>
    rw [List.cons_subset] at h
    obtain ⟨fields, hfields⟩ := ih h.2
    rcases hfind : Dictionary.find? name given with _ | cell
    · obtain ⟨entry, hentry, hname⟩ := List.mem_map.mp h.1
      exact absurd hname (Dictionary.find?_eq_none_iff.mp hfind entry hentry)
    · exact ⟨(name, cell) :: fields, .cons ⟨rfl, hfind⟩ hfields⟩

/-- The entries of different names may come in another order. -/
theorem Arranged.perm {fields : List (String × Option Value)} (h : Arranged given names fields)
    (hperm : given.Perm others) (hnodup : (given.map Prod.fst).Nodup) :
    Arranged others names fields := by
  apply List.Forall₂.imp ?_ h
  intro name field hfield
  have hnodup' : (others.map Prod.fst).Nodup := (hperm.map Prod.fst).nodup_iff.mp hnodup
  refine ⟨hfield.1, ?_⟩
  rw [Dictionary.find?_eq_some_iff hnodup', ← hperm.mem_iff, ← Dictionary.find?_eq_some_iff hnodup]
  exact hfield.2

/-! ## What a record is built from -/

/-- A record is built just from entries that fit, with the names of the items. -/
theorem exists_build_iff (htype : (OpenType.composite type).Built) :
    (∃ r, build type given = .ok r) ↔
      (given.map Prod.fst).Perm type.itemNames ∧ ∀ entry ∈ given, type.Fits entry := by
  refine ⟨?_, ?_⟩
  · intro ⟨r, hr⟩
    obtain ⟨_, hfits, hnodup, harranged⟩ := build_eq_ok.mp hr
    refine ⟨(List.perm_ext_iff_of_nodup hnodup htype.nodup_itemNames).mpr ?_, hfits⟩
    intro name
    refine ⟨?_, ?_⟩
    · intro hname
      obtain ⟨entry, hentry, rfl⟩ := List.mem_map.mp hname
      obtain ⟨itemType, hitem, _⟩ := hfits entry hentry
      exact CompositeType.name_mem_of_itemType? hitem
    · rw [← fieldNames_of_build hr]
      intro hname
      obtain ⟨field, hfield, rfl⟩ := List.mem_map.mp hname
      exact List.mem_map_of_mem (harranged.mem field hfield)
  · intro ⟨hperm, hfits⟩
    obtain ⟨fields, hfields⟩ := exists_arranged hperm.symm.subset
    have hnodup := hperm.nodup_iff.mpr htype.nodup_itemNames
    exact ⟨⟨type, fields⟩, build_eq_ok.mpr ⟨rfl, hfits, hnodup, hfields⟩⟩

/-- The record does not tell in which order its entries were given. -/
theorem build_perm (hperm : given.Perm others) (h : build type given = .ok r) :
    build type others = .ok r := by
  obtain ⟨htype, hfits, hnodup, harranged⟩ := build_eq_ok.mp h
  refine build_eq_ok.mpr ⟨htype, ?_, ?_, harranged.perm hperm hnodup⟩
  · intro entry hentry
    exact hfits entry (hperm.mem_iff.mpr hentry)
  · exact (hperm.map Prod.fst).nodup_iff.mp hnodup

theorem nodup_fieldNames (htype : (OpenType.composite type).Built)
    (h : build type given = .ok r) : (r.fields.map Prod.fst).Nodup := by
  rw [fieldNames_of_build h]
  exact htype.nodup_itemNames

/-- The fields are the given entries. -/
theorem fields_perm (htype : (OpenType.composite type).Built) (h : build type given = .ok r) :
    r.fields.Perm given := by
  have hnames := ((exists_build_iff htype).mp ⟨r, h⟩).1
  obtain ⟨_, _, _, harranged⟩ := build_eq_ok.mp h
  have hfields : r.fields.Nodup := List.Nodup.of_map Prod.fst (nodup_fieldNames htype h)
  have hlength : given.length ≤ r.fields.length := by
    have hnamed := hnames.length_eq
    rw [← fieldNames_of_build h, List.length_map, List.length_map] at hnamed
    exact hnamed.le
  exact (List.subperm_of_subset hfields harranged.mem).perm_of_length_le hlength

/-! ## What is found in a record -/

theorem hasKey_iff (h : build type given = .ok r) :
    r.hasKey name = true ↔ name ∈ type.itemNames := by
  rw [← fieldNames_of_build h, List.mem_map, hasKey, Option.isSome_iff_ne_none, ne_eq,
    Dictionary.find?_eq_none_iff]
  simp

theorem get_of_not_mem (h : build type given = .ok r) (hname : name ∉ type.itemNames) :
    r.get name = .error (.invalidKey (.notAnItem name type.name)) := by
  have hnone : Dictionary.find? name r.fields = none := by
    simpa [hasKey] using mt (hasKey_iff h).mp hname
  rw [get, hnone, (build_eq_ok.mp h).1]

section

variable (htype : (OpenType.composite type).Built) (h : build type given = .ok r)

include htype h

theorem get_eq_ok_iff_mem : r.get name = .ok cell ↔ (name, cell) ∈ given := by
  rw [get_eq_ok, Dictionary.find?_eq_some_iff (nodup_fieldNames htype h),
    (fields_perm htype h).mem_iff]

/-- The cells are those under the names of the items, one after the other. -/
theorem getAll_itemNames : r.getAll type.itemNames = .ok r.values := by
  rw [getAll, Outcome.mapM_eq_ok, ← fieldNames_of_build h, values, List.forall₂_map_left_iff,
    List.forall₂_map_right_iff, List.forall₂_same]
  intro field hfield
  rw [get_eq_ok]
  exact Dictionary.find?_of_mem (nodup_fieldNames htype h) hfield

/-- From the same entries, an equal type builds an equal record. -/
theorem exists_same_build (hother : (OpenType.composite other).Built)
    (hsame : (OpenType.composite type).same (.composite other) = true)
    (hgiven : ∀ name v, (name, some v) ∈ given → v.Built) :
    ∃ r', build other given = .ok r' ∧ (Value.record r).same (.record r') = true := by
  obtain ⟨hnames, hfits⟩ := (exists_build_iff htype).mp ⟨r, h⟩
  obtain ⟨haccepts, haccepts'⟩ := (OpenType.same_iff_accepts htype hother).mp hsame
  have hperm := OpenType.itemNames_perm_of_accepts htype hother haccepts haccepts'
  obtain ⟨r', hr'⟩ := (exists_build_iff hother).mpr ⟨hnames.trans hperm, fun entry hentry =>
    CompositeType.fits_of_same htype hother hsame (hfits entry hentry)⟩
  refine ⟨r', hr', Value.same_record_iff.mpr ⟨r', rfl, ?_, ?_⟩⟩
  · rw [(build_eq_ok.mp h).1, (build_eq_ok.mp hr').1]
    exact hsame
  · intro ⟨name, cell⟩ hfield
    have hmem : (name, cell) ∈ given := (fields_perm htype h).mem_iff.mp hfield
    refine ⟨cell, get_eq_ok.mp ((get_eq_ok_iff_mem hother hr').mpr hmem), Value.sameCell_self ?_⟩
    intro v hv
    exact Value.same_self (hgiven name v (hv ▸ hmem))

end

/-! ## The law -/

/-- A record is built just from one entry for each item of its type, null or a value of the type of
the item. It has what was given under the names of the items, in the order in which these are
declared, and nothing under other names. In another order the entries build the same record, and
with an equal type an equal one. -/
theorem records_keep_just_what_they_are_given {type : CompositeType}
    {given : List (String × Option Value)} (htype : (OpenType.composite type).Built) :
    ((∃ r, build type given = .ok r) ↔ (given.map Prod.fst).Perm type.itemNames ∧
      ∀ name v itemType, (name, some v) ∈ given → type.itemType? name = some itemType →
        itemType.hasValue v = true) ∧
    ∀ r, build type given = .ok r → r.type = type ∧
      (∀ name cell, r.get name = .ok cell ↔ (name, cell) ∈ given) ∧
      (∀ name, name ∉ type.itemNames →
        r.get name = .error (.invalidKey (.notAnItem name type.name))) ∧
      (∀ name, r.hasKey name = true ↔ name ∈ type.itemNames) ∧
      r.fields.map Prod.fst = type.itemNames ∧ r.fields.Perm given ∧
      r.getAll type.itemNames = .ok r.values ∧
      ∀ others, given.Perm others → build type others = .ok r ∧
        ∀ other, (OpenType.composite other).Built →
          (OpenType.composite type).same (.composite other) = true →
          (∀ name v, (name, some v) ∈ given → v.Built) →
          ∃ r', build other others = .ok r' ∧ (Value.record r).same (.record r') = true := by
  refine ⟨?_, ?_⟩
  · rw [exists_build_iff htype]
    apply and_congr_right
    intro hperm
    have hnamed : ∀ name cell, (name, cell) ∈ given → name ∈ type.itemNames :=
      fun name cell hmem => hperm.subset (List.mem_map_of_mem hmem)
    refine ⟨?_, ?_⟩
    · intro hfits name v itemType hmem hitem
      exact (CompositeType.fits_iff_of_mem (hnamed name _ hmem)).mp (hfits _ hmem) v itemType rfl
        hitem
    · intro hvalues ⟨name, cell⟩ hmem
      rw [CompositeType.fits_iff_of_mem (hnamed name cell hmem)]
      intro v itemType hv hitem
      exact hvalues name v itemType (hv ▸ hmem) hitem
  · intro r h
    refine ⟨(build_eq_ok.mp h).1, fun name cell => get_eq_ok_iff_mem htype h,
      fun name => get_of_not_mem h, fun name => hasKey_iff h, fieldNames_of_build h,
      fields_perm htype h, getAll_itemNames htype h, ?_⟩
    intro others hperm
    have hothers := build_perm hperm h
    refine ⟨hothers, ?_⟩
    intro other hother hsame hgiven
    apply exists_same_build htype hothers hother hsame
    intro name v hmem
    exact hgiven name v (hperm.mem_iff.mpr hmem)

/-- A point may be given from its last coordinate, one of which is null, and its type may be
declared that way too. -/
theorem a_point_is_given_from_its_last_coordinate :
    ∃ r, build (OpenType.points ["x", "y"])
        [("y", none), ("x", some (.scalar (.integer 1)))] = .ok r ∧
      r.get "y" = .ok none ∧ r.values = [some (.scalar (.integer 1)), none] ∧
      ∃ r', build (OpenType.points ["y", "x"])
          [("x", some (.scalar (.integer 1))), ("y", none)] = .ok r' ∧
        r'.values = [none, some (.scalar (.integer 1))] ∧
        (Value.record r).same (.record r') = true := by
  have htype : (OpenType.composite (OpenType.points ["x", "y"])).Built :=
    OpenType.built_points (by decide) (by decide) (by decide)
  have hother : (OpenType.composite (OpenType.points ["y", "x"])).Built :=
    OpenType.built_points (by decide) (by decide) (by decide)
  obtain ⟨_, hbuilt⟩ := @records_keep_just_what_they_are_given _
    [("y", none), ("x", some (.scalar (.integer 1)))] htype
  have hgiven : ∀ name v, (name, some v) ∈
      [("y", none), ("x", some (Value.scalar (.integer 1)))] → v.Built := by
    intro name v hmem
    simp only [List.mem_cons, Prod.mk.injEq, reduceCtorEq, and_false, Option.some.injEq,
      List.not_mem_nil, or_false, false_or] at hmem
    rw [hmem.2]
    exact .scalar trivial
  obtain ⟨_, hget, _, _, _, _, _, horder⟩ := hbuilt _ rfl
  refine ⟨_, rfl, (hget "y" none).mpr (by simp), rfl, ?_⟩
  obtain ⟨_, hequal⟩ := horder _ (List.Perm.swap _ _ [])
  obtain ⟨r', hr', hsame⟩ := hequal _ hother (by decide) hgiven
  cases hr'
  exact ⟨_, rfl, rfl, hsame⟩

end Record

end ManagementSchema
