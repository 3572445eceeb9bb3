-- Keys of rows, and look-up by them. Any row that a table takes has a key,
-- the key passes the check of keys, and equal rows have equal keys. In a
-- built table one row at most answers to a key.
import ManagementSchema.Proofs.Equality
import ManagementSchema.Proofs.ValueSets

namespace ManagementSchema

namespace TabularType

variable {type : TabularType} {row stored : Record} {key : Key}

/-! ## The check of keys -/

/-- The cell may stand under the name in a key. -/
def Takes (type : TabularType) (name : String) (cell : Option Value) : Prop :=
  ∀ itemType v, type.row.itemType? name = some itemType → cell = some v →
    itemType.hasValue v = true

/-- The key has another number of parts than the index, or a part that is not null and not of the
type of its item. -/
def Misfits (type : TabularType) (key : Key) : Prop :=
  key.length ≠ type.index.length ∨
  ∃ (i : Nat) (name : String) (itemType : OpenType) (v : Value), type.index[i]? = some name ∧
    type.row.itemType? name = some itemType ∧ key[i]? = some (some v) ∧
    itemType.hasValue v = false

theorem not_misfits_iff : ¬ type.Misfits key ↔ List.Forall₂ type.Takes type.index key := by
  rw [List.forall₂_iff_get]
  unfold Misfits Takes
  refine ⟨?_, ?_⟩
  · intro h
    simp only [not_or, not_exists, not_and, ne_eq, not_not, Bool.not_eq_false] at h
    obtain ⟨hlength, hparts⟩ := h
    refine ⟨hlength.symm, ?_⟩
    intro i hi hi' itemType v hitem hcell
    have hpart := hparts i _ itemType v (List.getElem?_eq_getElem hi) hitem
    simp only [List.get_eq_getElem] at hcell
    simpa using hpart (by rw [List.getElem?_eq_getElem hi', hcell])
  · rintro ⟨hlength, hparts⟩ (hother | ⟨i, name, itemType, v, hname, hitem, hcell, hv⟩)
    · exact hother hlength.symm
    · obtain ⟨hi, rfl⟩ := List.getElem?_eq_some_iff.mp hname
      obtain ⟨hi', hcell⟩ := List.getElem?_eq_some_iff.mp hcell
      have hvalue := hparts i hi hi' itemType v hitem hcell
      simp [hv] at hvalue

theorem checkParts_eq_ok {cells : Key} {i : Nat} {types : List OpenType}
    (hlength : cells.length = types.length) : key.checkParts i types cells = .ok () ↔
      List.Forall₂ (fun itemType cell => ∀ v, cell = some v → itemType.hasValue v = true)
        types cells := by
  induction types generalizing i cells with
  | nil =>
    obtain rfl := List.length_eq_zero_iff.mp hlength
    simp [Key.checkParts]
  | cons itemType types ih =>
    cases cells with
    | nil => simp at hlength
    | cons cell cells =>
      simp only [List.length_cons, Nat.add_right_cancel_iff] at hlength
      cases cell with
      -- Null passes for any type, but counts as a part.
      | none => simp [Key.checkParts, ih hlength]
      | some v =>
        unfold Key.checkParts
        by_cases hv : itemType.hasValue v = true
        · simp [hv, ih hlength]
        · simp [hv]

/-- The names of the index are items of the rows, so each part of a key has its type. -/
theorem forall₂_indexTypes {names : List String} {cells : Key}
    (h : ∀ name ∈ names, type.row.hasItem name = true) :
    List.Forall₂ (fun itemType cell => ∀ v, cell = some v → itemType.hasValue v = true)
        (names.filterMap type.row.itemType?) cells ↔ List.Forall₂ type.Takes names cells := by
  induction names generalizing cells with
  | nil => simp
  | cons name rest ih =>
    rw [List.forall_mem_cons] at h
    obtain ⟨itemType, hitem⟩ := CompositeType.exists_itemType? h.1
    rw [List.filterMap_cons_some hitem]
    cases cells with
    | nil => simp
    | cons cell cells =>
      have htakes : type.Takes name cell ↔ ∀ v, cell = some v → itemType.hasValue v = true := by
        unfold Takes
        simp only [hitem, Option.some.injEq]
        grind
      rw [List.forall₂_cons, List.forall₂_cons, htakes, ih h.2]

theorem checkKey_eq_ok (h : type.WellFormed) :
    type.checkKey key = .ok () ↔ ¬ type.Misfits key := by
  rw [not_misfits_iff, ← forall₂_indexTypes h.items]
  unfold checkKey
  by_cases hlength : key.length = type.indexTypes.length
  · rw [if_pos hlength]
    exact checkParts_eq_ok hlength
  · rw [if_neg hlength]
    have hparts : ¬ List.Forall₂ (fun itemType cell => ∀ v, cell = some v →
        itemType.hasValue v = true) type.indexTypes key :=
      fun hparts => hlength hparts.length_eq.symm
    unfold indexTypes at hparts
    simp [hparts]

/-! ## The key of a row -/

/-- The key of a row passes the check of keys. -/
theorem fits_of_keyOf (hrow : (Value.record row).Built) (h : type.keyOf row = .ok key) :
    ¬ type.Misfits key := by
  obtain ⟨_, ⟨⟩, _, hitems⟩ := OpenType.accepts_composite_iff.mp (accepts_of_keyOf h)
  obtain ⟨_, hcells⟩ := keyOf_eq_ok.mp h
  rw [not_misfits_iff]
  refine hcells.imp ?_
  intro name cell hfind itemType v hitem hcell
  obtain ⟨item, hmem, rfl, rfl⟩ := CompositeType.mem_of_itemType? hitem
  obtain ⟨rowItem, hrowItem, haccepts⟩ := hitems item hmem
  obtain ⟨found, hget, hvalue⟩ := hrow.get hrowItem
  rw [Record.get_eq_ok, hfind] at hget
  cases hget
  exact OpenType.hasValue_of_accepts haccepts (hvalue v hcell)

/-- Every row that the table takes has a key, as its type has all items of the index. -/
theorem exists_key (htype : (OpenType.tabular type).Built) (hrow : (Value.record row).Built)
    (h : (OpenType.composite type.row).accepts (.composite row.type) = true) :
    ∃ key, type.keyOf row = .ok key := by
  have hnames := OpenType.itemNames_subset_of_accepts h
  have hindex := htype.wellFormed.items
  refine ⟨type.index.map fun name => (Dictionary.find? name row.fields).getD none, ?_⟩
  rw [keyOf_eq_ok, List.forall₂_map_right_iff, List.forall₂_same]
  refine ⟨by simpa [OpenType.accepts] using h, ?_⟩
  intro name hname
  have hmem : name ∈ row.fields.map Prod.fst := by
    rw [hrow.fieldNames]
    exact hnames (CompositeType.hasItem_iff.mp (hindex name hname))
  obtain ⟨⟨_, cell⟩, hfield, rfl⟩ := List.mem_map.mp hmem
  simp [Dictionary.find?_of_mem hrow.nodup_fields hfield]

/-- Equal rows have equal keys. -/
theorem same_keyOf {storedKey : Key} (hsame : (Value.record stored).same (.record row) = true)
    (hstored : type.keyOf stored = .ok storedKey) (hrow : type.keyOf row = .ok key) :
    storedKey.same key = true := by
  obtain ⟨_, ⟨⟩, _, hfields⟩ := Value.same_record_iff.mp hsame
  have hcells := (keyOf_eq_ok.mp hstored).2
  have hcells' := (keyOf_eq_ok.mp hrow).2
  unfold Key.same
  clear hstored hrow
  generalize type.index = names at hcells hcells'
  induction hcells generalizing key with
  | nil =>
    cases hcells'
    rfl
  | @cons name cell _ _ hfind _ ih =>
    obtain ⟨cell', _, hfind', hrest, rfl⟩ := List.forall₂_cons_left_iff.mp hcells'
    obtain ⟨found, hfound, hcell⟩ := hfields (name, cell) (Dictionary.mem_of_find? hfind)
    rw [hfind'] at hfound
    cases hfound
    simp [Value.sameCells, hcell, ih hrest]

end TabularType

/-! ## Look-up -/

namespace Table

variable {t : Table} {row : Record} {key : Key}

theorem get_eq (h : t.type.WellFormed) (hkey : ¬ t.type.Misfits key) :
    t.get key = .ok (t.find? key) := by
  unfold get
  rw [(TabularType.checkKey_eq_ok h).mpr hkey]

theorem get_of_misfits (h : t.type.WellFormed) (hkey : t.type.Misfits key) :
    ∃ fault, t.get key = .error (.invalidKey fault) := by
  unfold get
  rcases hcheck : t.type.checkKey key with fault | ⟨⟩
  · exact ⟨fault, rfl⟩
  · exact absurd hkey ((TabularType.checkKey_eq_ok h).mp hcheck)

theorem mem_of_find? (h : t.find? key = some row) :
    ∃ entry ∈ t.rows, key.same entry.1 = true ∧ entry.2 = row := by
  obtain ⟨entry, hentry, rfl⟩ := Option.map_eq_some_iff.mp h
  have hsame := List.find?_some hentry
  exact ⟨entry, List.mem_of_find?_eq_some hentry, hsame, rfl⟩

/-- A row is found by any key equal to its own: of two rows found by one key, the later one would
be under a key that was not new. -/
theorem find?_of_same (ht : (Value.table t).Built) (hkey : ∀ v, some v ∈ key → v.Built)
    {entry : Key × Record} (hentry : entry ∈ t.rows) (h : key.same entry.1 = true) :
    t.find? key = some entry.2 := by
  have hcells := ht.keyCells
  have hnew := ht.newKeys
  unfold find?
  generalize t.rows = rows at hentry hcells hnew
  induction rows with
  | nil => cases hentry
  | cons first rest ih =>
    rw [List.pairwise_cons] at hnew
    rw [List.forall_mem_cons] at hcells
    rw [List.find?_cons]
    rcases List.mem_cons.mp hentry with rfl | hrest
    · simp [h]
    · have hother : key.same first.1 = false := by
        have hback : Key.same entry.1 key = true := Key.same_symm hkey (hcells.2 entry hrest) h
        have hdiffer := hnew.1 entry hrest
        rw [← Bool.not_eq_true] at hdiffer ⊢
        intro hfirst
        apply hdiffer
        exact Key.same_trans (hcells.2 entry hrest) hkey hcells.1 hback hfirst
      simp only [hother]
      exact ih hrest hcells.2 hnew.2

/-- The table has a row just if it finds an equal one under the key of the row. -/
theorem hasRow_iff (ht : (Value.table t).Built) (hrow : (Value.record row).Built) :
    t.hasRow row = true ↔ ∃ key stored, t.type.keyOf row = .ok key ∧
      t.get key = .ok (some stored) ∧ stored.same row = true := by
  have hwell := ht.rows.1.wellFormed
  have hany : t.hasRow row = true ↔ ∃ entry ∈ t.rows, entry.2.same row = true := by
    simp [hasRow]
  rw [hany]
  refine ⟨?_, ?_⟩
  · rintro ⟨entry, hentry, hsame⟩
    obtain ⟨hstored, hstoredKey⟩ := ht.rows.2 entry hentry
    have hvalues : (Value.record entry.2).same (.record row) = true := by
      rwa [Value.same]
    obtain ⟨_, ⟨⟩, htype, _⟩ := Value.same_record_iff.mp hvalues
    have haccepts := OpenType.accepts_trans (TabularType.accepts_of_keyOf hstoredKey)
      ((OpenType.same_iff_accepts hstored.recordType hrow.recordType).mp htype).1
    obtain ⟨key, hkey⟩ := TabularType.exists_key ht.rows.1 hrow haccepts
    have hback : key.same entry.1 = true :=
      Key.same_symm (ht.keyCells entry hentry) (hrow.ofKey hkey)
        (TabularType.same_keyOf hvalues hstoredKey hkey)
    refine ⟨key, entry.2, hkey, ?_, hsame⟩
    rw [get_eq hwell (TabularType.fits_of_keyOf hrow hkey)]
    rw [find?_of_same ht (hrow.ofKey hkey) hentry hback]
  · rintro ⟨key, stored, hkey, hget, hsame⟩
    rw [get_eq hwell (TabularType.fits_of_keyOf hrow hkey)] at hget
    obtain ⟨entry, hentry, _, rfl⟩ := mem_of_find? (Except.ok.inj hget)
    exact ⟨entry, hentry, hsame⟩

end Table

end ManagementSchema
