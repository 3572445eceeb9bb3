-- The values that the constructors build: arrays and records from built
-- parts, and tables by any run of their operations from the table without
-- rows. What the constructors check holds of every part of such a value.
import ManagementSchema.Proofs.BuiltTypes
import ManagementSchema.Proofs.Entries
import ManagementSchema.Proofs.Outcome
import ManagementSchema.Value.Table

namespace ManagementSchema

/-! ## Induction -/

/-- What holds of every single value, and of a larger value when it holds of the parts, holds of
every value. -/
@[elab_as_elim, induction_eliminator]
theorem Value.induct {motive : Value → Prop}
    (scalar : ∀ s, motive (.scalar s))
    (array : ∀ a : ArrayValue, (∀ v, some v ∈ a.elements → motive v) → motive (.array a))
    (record : ∀ r : Record, (∀ name v, (name, some v) ∈ r.fields → motive v) →
      motive (.record r))
    (table : ∀ t : Table, (∀ entry ∈ t.rows, (∀ v, some v ∈ entry.1 → motive v) ∧
      motive (.record entry.2)) → motive (.table t)) :
    ∀ v, motive v
  | .scalar s => scalar s
  | .array ⟨_, elements⟩ =>
    array _ fun v _ => Value.induct scalar array record table v
  | .record ⟨_, fields⟩ =>
    record _ fun _ v _ => Value.induct scalar array record table v
  | .table ⟨_, rows⟩ =>
    table _ fun entry _ =>
      ⟨fun v _ => Value.induct scalar array record table v,
        Value.induct scalar array record table (.record entry.2)⟩
termination_by v => sizeOf v
decreasing_by
  · have h := List.sizeOf_lt_of_mem ‹some v ∈ elements›
    simp only [Option.some.sizeOf_spec, Value.array.sizeOf_spec, ArrayValue.mk.sizeOf_spec] at h ⊢
    omega
  · have h := List.sizeOf_lt_of_mem ‹_ ∈ fields›
    simp only [Option.some.sizeOf_spec, Prod.mk.sizeOf_spec, Value.record.sizeOf_spec,
      Record.mk.sizeOf_spec] at h ⊢
    omega
  · have hrow := List.sizeOf_lt_of_mem ‹entry ∈ rows›
    have h := List.sizeOf_lt_of_mem ‹some v ∈ entry.1›
    obtain ⟨key, row⟩ := entry
    simp only [Option.some.sizeOf_spec, Prod.mk.sizeOf_spec, Value.table.sizeOf_spec,
      Table.mk.sizeOf_spec] at h hrow ⊢
    omega
  · have hrow := List.sizeOf_lt_of_mem ‹entry ∈ rows›
    obtain ⟨key, row⟩ := entry
    simp only [Prod.mk.sizeOf_spec, Value.table.sizeOf_spec, Value.record.sizeOf_spec,
      Table.mk.sizeOf_spec] at hrow ⊢
    omega

/-! ## Built values -/

/-- Of single values, only names of managed objects are checked when they are built. -/
def Scalar.Built : Scalar → Prop
  | .objectName n => ∃ domain properties, ObjectName.ofProperties domain properties = .ok n
  | _ => True

/-- The value comes from the constructors that check what they are given; a table comes from the
table without rows by operations on it. -/
inductive Value.Built : Value → Prop
  | scalar {s : Scalar} : s.Built → Built (.scalar s)
  | array {type : ArrayType} {elements : List (Option Value)} {a : ArrayValue} :
      (OpenType.array type).Built → (∀ v, some v ∈ elements → Built v) →
      ArrayValue.build type elements = .ok a → Built (.array a)
  | record {type : CompositeType} {given : List (String × Option Value)} {r : Record} :
      (OpenType.composite type).Built → (∀ name v, (name, some v) ∈ given → Built v) →
      Record.build type given = .ok r → Built (.record r)
  | empty {type : TabularType} : (OpenType.tabular type).Built → Built (.table (.empty type))
  | put {t t' : Table} {row : Record} :
      Built (.table t) → Built (.record row) → t.put row = .ok t' → Built (.table t')
  | putAll {t t' : Table} {batch : List Record} :
      Built (.table t) → (∀ row ∈ batch, Built (.record row)) → t.putAll batch = .ok t' →
      Built (.table t')
  | remove {t t' : Table} {key : Key} {row : Option Record} :
      Built (.table t) → t.remove key = .ok (row, t') → Built (.table t')
  | clear {t : Table} : Built (.table t) → Built (.table t.clear)

/-! ## What the constructors give -/

/-- Each element is null or of the type of the entries, and the innermost arrays of an unboxed kind
have no null. -/
structure ArrayType.Admits (type : ArrayType) (elements : List (Option Value)) : Prop where
  component : ∀ v, some v ∈ elements → type.component.hasValue v = true
  noNull : type.isPrimitive = true → type.dimension = 1 → none ∉ elements

theorem ArrayValue.checkElements_eq_ok {type : ArrayType} {index : Nat}
    {elements : List (Option Value)} :
    checkElements type index elements = .ok () ↔ type.Admits elements := by
  have hfault : checkElements type index elements = .ok () ↔
      ∀ element ∈ elements, elementFault? type element = none := by
    induction elements generalizing index with
    | nil => simp [checkElements]
    | cons element rest ih =>
      rw [checkElements]
      rcases h : elementFault? type element with _ | reason <;> simp [h, ih]
  rw [hfault]
  refine ⟨?_, ?_⟩
  · intro h
    refine ⟨fun v hv => ?_, fun hprimitive hdimension hnull => ?_⟩
    · simpa [elementFault?] using h _ hv
    · simpa [elementFault?, hprimitive, hdimension] using h _ hnull
  · rintro ⟨hcomponent, hnull⟩ element helement
    cases element with
    | none =>
      have hboxed : ¬ (type.isPrimitive = true ∧ type.dimension = 1) :=
        fun h => hnull h.1 h.2 helement
      simp [elementFault?, hboxed]
    | some v => simp [elementFault?, hcomponent v helement]

theorem ArrayValue.build_eq_ok {type : ArrayType} {elements : List (Option Value)}
    {a : ArrayValue} :
    ArrayValue.build type elements = .ok a ↔ a = ⟨type, elements⟩ ∧ type.Admits elements := by
  unfold build
  refine ⟨?_, ?_⟩
  · intro h
    split at h
    · cases h
      exact ⟨rfl, checkElements_eq_ok.mp ‹_›⟩
    · cases h
  · rintro ⟨rfl, hadmits⟩
    rw [checkElements_eq_ok.mpr hadmits]

/-- The entry is null or of the type of the item with its name. -/
def CompositeType.Fits (type : CompositeType) (entry : String × Option Value) : Prop :=
  ∃ itemType, type.itemType? entry.1 = some itemType ∧
    ∀ v, entry.2 = some v → itemType.hasValue v = true

namespace Record

/-- The fields are the given entries, in the order of the names. -/
def Arranged (given : List (String × Option Value)) (names : List String)
    (fields : List (String × Option Value)) : Prop :=
  List.Forall₂ (fun name field => field.1 = name ∧ Dictionary.find? name given = some field.2)
    names fields

/-- An item is collected when the type has an item of its name, the cell fits it, and the name
is new. -/
theorem collect_cons_eq_ok {type : CompositeType} {found rest result : List (String × Option Value)}
    {name : String} {cell : Option Value} :
    collect type found ((name, cell) :: rest) = .ok result ↔
      (∃ itemType, type.itemType? name = some itemType ∧
        ∀ v, cell = some v → itemType.hasValue v = true) ∧
      Dictionary.find? name found = none ∧
      collect type (found ++ [(name, cell)]) rest = .ok result := by
  rw [collect]
  rcases type.itemType? name with _ | itemType
  · simp
  · rcases Dictionary.find? name found with _ | old
    · rcases cell with _ | v
      · simp
      · by_cases hv : itemType.hasValue v = true <;> simp [hv]
    · rcases cell with _ | v
      · simp
      · by_cases hv : itemType.hasValue v = true <;> simp [hv]

/-- What is given is taken as it stands, if each entry fits an item and no name is given twice. -/
theorem collect_eq_ok {type : CompositeType} {found given result : List (String × Option Value)} :
    collect type found given = .ok result ↔ result = found ++ given ∧
      (∀ entry ∈ given, type.Fits entry) ∧ (given.map Prod.fst).Nodup ∧
      ∀ entry ∈ given, Dictionary.find? entry.1 found = none := by
  induction given generalizing found with
  | nil => simp [collect, eq_comm]
  | cons entry rest ih =>
    obtain ⟨name, cell⟩ := entry
    rw [collect_cons_eq_ok, ih]
    -- A later name is new among the found ones and this one.
    have hlater : (∀ entry ∈ rest, Dictionary.find? entry.1 (found ++ [(name, cell)]) = none) ↔
        name ∉ rest.map Prod.fst ∧ ∀ entry ∈ rest, Dictionary.find? entry.1 found = none := by
      simp only [Dictionary.find?_eq_none_iff, List.mem_append, List.mem_map, List.mem_singleton]
      grind
    rw [hlater]
    simp only [List.forall_mem_cons, List.map_cons, List.nodup_cons, List.append_assoc,
      List.singleton_append]
    unfold CompositeType.Fits
    grind

theorem arrange_eq_ok {type : CompositeType} {found fields : List (String × Option Value)}
    {names : List String} : arrange type found names = .ok fields ↔
      Arranged found names fields := by
  unfold Arranged
  induction names generalizing fields with
  | nil => cases fields <;> simp [arrange]
  | cons name rest ih =>
    rw [arrange]
    rcases hfind : Dictionary.find? name found with _ | cell
    · simp [List.forall₂_cons_left_iff, hfind]
    · simp only [Outcome.map_eq_ok, ih, List.forall₂_cons_left_iff, hfind]
      refine ⟨?_, ?_⟩
      · rintro ⟨others, hothers, rfl⟩
        exact ⟨(name, cell), others, ⟨rfl, rfl⟩, hothers, rfl⟩
      · rintro ⟨⟨_, _⟩, others, ⟨rfl, ⟨⟩⟩, hothers, rfl⟩
        exact ⟨others, hothers, rfl⟩

theorem Arranged.names {given fields : List (String × Option Value)} {names : List String}
    (h : Arranged given names fields) : fields.map Prod.fst = names := by
  unfold Arranged at h
  induction h with
  | nil => rfl
  | cons hfield _ ih => rw [List.map_cons, hfield.1, ih]

theorem Arranged.mem {given fields : List (String × Option Value)} {names : List String}
    (h : Arranged given names fields) : ∀ field ∈ fields, field ∈ given := by
  unfold Arranged at h
  induction h with
  | nil => simp
  | cons hfield _ ih =>
    obtain ⟨rfl, hfind⟩ := hfield
    exact List.forall_mem_cons.mpr ⟨Dictionary.mem_of_find? hfind, ih⟩

/-- A record is built when the given entries fit the items, no name is given twice and none is
missing. -/
theorem build_eq_ok {type : CompositeType} {given : List (String × Option Value)} {r : Record} :
    Record.build type given = .ok r ↔ r.type = type ∧ (∀ entry ∈ given, type.Fits entry) ∧
      (given.map Prod.fst).Nodup ∧ Arranged given type.itemNames r.fields := by
  have hsteps : ∀ fields, (collect type [] given >>= fun found =>
      arrange type found type.itemNames) = .ok fields ↔
        (∀ entry ∈ given, type.Fits entry) ∧ (given.map Prod.fst).Nodup ∧
          Arranged given type.itemNames fields := by
    intro fields
    simp only [Outcome.bind_eq_ok, collect_eq_ok, arrange_eq_ok, List.nil_append]
    simp [Dictionary.find?, and_assoc]
  unfold build
  refine ⟨?_, ?_⟩
  · intro h
    split at h
    · rename_i fields hfields
      cases h
      exact ⟨rfl, (hsteps fields).mp hfields⟩
    · cases h
  · obtain ⟨rtype, fields⟩ := r
    rintro ⟨rfl, hall⟩
    simp only
    rw [(hsteps fields).mpr hall]

theorem fieldNames_of_build {type : CompositeType} {given : List (String × Option Value)}
    {r : Record} (h : Record.build type given = .ok r) : r.fields.map Prod.fst = type.itemNames :=
  (build_eq_ok.mp h).2.2.2.names

theorem get_eq_ok {r : Record} {name : String} {cell : Option Value} :
    r.get name = .ok cell ↔ Dictionary.find? name r.fields = some cell := by
  unfold get
  rcases Dictionary.find? name r.fields with _ | found <;> simp

end Record

namespace Table

theorem find?_eq_none {t : Table} {key : Key} :
    t.find? key = none ↔ ∀ entry ∈ t.rows, key.same entry.1 = false := by
  simp [find?]

/-- A row that is put in stands at the end, under its key, which is new. -/
theorem put_eq_ok {t t' : Table} {row : Record} : t.put row = .ok t' ↔
    ∃ key, t.type.keyOf row = .ok key ∧ t.find? key = none ∧
      t' = ⟨t.type, t.rows ++ [(key, row)]⟩ := by
  unfold put
  rw [Outcome.bind_eq_ok]
  apply exists_congr
  intro key
  apply and_congr_right
  intro _
  rcases t.find? key with _ | old
  · simp [eq_comm]
  · simp

theorem isSome_find?_append {t : Table} {staged : List (Key × Record)} {key : Key} :
    (find? ⟨t.type, t.rows ++ staged⟩ key).isSome =
      ((t.find? key).isSome || staged.any fun (other, _) => key.same other) := by
  rw [Bool.eq_iff_iff]
  simp only [find?, Option.isSome_map, List.find?_isSome, List.mem_append, Bool.or_eq_true,
    List.any_eq_true]
  grind

theorem foldlM_put_append (t : Table) (staged : List (Key × Record)) (batch : List Record) :
    batch.foldlM put ⟨t.type, t.rows ++ staged⟩ =
      (t.stage staged batch).map fun staged => ⟨t.type, t.rows ++ staged⟩ := by
  induction batch generalizing staged with
  | nil => rfl
  | cons row rest ih =>
    rw [List.foldlM_cons, stage, put]
    rcases t.type.keyOf row with e | key
    · rfl
    · simp only [Outcome.ok_bind, isSome_find?_append]
      split
      · rfl
      · simp only [List.append_assoc, Outcome.pure_eq_ok, Outcome.ok_bind]
        exact ih (staged ++ [(key, row)])

/-- A batch is put in as its rows one after the other, but fails as a whole. -/
theorem putAll_eq_foldlM (t : Table) (batch : List Record) :
    t.putAll batch = batch.foldlM put t := by
  obtain ⟨type, rows⟩ := t
  have hstaged := foldlM_put_append ⟨type, rows⟩ [] batch
  simp only [List.append_nil] at hstaged
  rw [hstaged, putAll]

theorem remove_eq_ok {t t' : Table} {key : Key} {row : Option Record} :
    t.remove key = .ok (row, t') ↔
      t.get key = .ok row ∧ t' = ⟨t.type, t.rows.eraseP fun (stored, _) => key.same stored⟩ := by
  unfold remove
  rw [Outcome.map_eq_ok]
  simp [eq_comm]

end Table

namespace TabularType

variable {type : TabularType} {row : Record} {key : Key}

/-- A row has a key if its type is one that the table takes, and the key is made of the cells
under the names of the index. -/
theorem keyOf_eq_ok : type.keyOf row = .ok key ↔ type.row.accepts row.type = true ∧
    List.Forall₂ (fun name cell => Dictionary.find? name row.fields = some cell)
      type.index key := by
  unfold keyOf
  by_cases htype : type.row.accepts row.type = true
  · rw [if_pos htype]
    simp [Record.getAll, Outcome.mapM_eq_ok, Record.get_eq_ok, htype]
  · rw [if_neg htype]
    simp [htype]

theorem accepts_of_keyOf (h : type.keyOf row = .ok key) :
    (OpenType.composite type.row).accepts (.composite row.type) = true := by
  rw [OpenType.accepts]
  exact (keyOf_eq_ok.mp h).1

/-- Each cell of a key is a cell of the row. -/
theorem mem_fields_of_keyOf (h : type.keyOf row = .ok key) :
    ∀ cell ∈ key, ∃ name, (name, cell) ∈ row.fields := by
  obtain ⟨_, hcells⟩ := keyOf_eq_ok.mp h
  clear h
  generalize type.index = names at hcells
  induction hcells with
  | nil => simp
  | cons hfind _ ih =>
    exact List.forall_mem_cons.mpr ⟨⟨_, Dictionary.mem_of_find? hfind⟩, ih⟩

end TabularType

/-! ## The parts of a built value -/

namespace Value.Built

theorem arrayType {a : ArrayValue} (h : (Value.array a).Built) :
    (OpenType.array a.type).Built := by
  cases h with
  | array htype _ hbuild =>
    rw [(ArrayValue.build_eq_ok.mp hbuild).1]
    exact htype

theorem elements {a : ArrayValue} (h : (Value.array a).Built) :
    ∀ v, some v ∈ a.elements → v.Built := by
  cases h with
  | array _ helements hbuild =>
    rw [(ArrayValue.build_eq_ok.mp hbuild).1]
    exact helements

theorem admits {a : ArrayValue} (h : (Value.array a).Built) : a.type.Admits a.elements := by
  cases h with
  | array _ _ hbuild =>
    obtain ⟨rfl, hadmits⟩ := ArrayValue.build_eq_ok.mp hbuild
    exact hadmits

theorem recordType {r : Record} (h : (Value.record r).Built) :
    (OpenType.composite r.type).Built := by
  cases h with
  | record htype _ hbuild =>
    rw [(Record.build_eq_ok.mp hbuild).1]
    exact htype

theorem fields {r : Record} (h : (Value.record r).Built) :
    ∀ name v, (name, some v) ∈ r.fields → v.Built := by
  cases h with
  | record _ hgiven hbuild =>
    obtain ⟨_, _, _, harranged⟩ := Record.build_eq_ok.mp hbuild
    intro name v hfield
    exact hgiven name v (harranged.mem _ hfield)

theorem fieldNames {r : Record} (h : (Value.record r).Built) :
    r.fields.map Prod.fst = r.type.itemNames := by
  cases h with
  | record _ _ hbuild => rw [Record.fieldNames_of_build hbuild, (Record.build_eq_ok.mp hbuild).1]

theorem fits {r : Record} (h : (Value.record r).Built) : ∀ field ∈ r.fields, r.type.Fits field := by
  cases h with
  | record _ _ hbuild =>
    obtain ⟨rfl, hfits, _, harranged⟩ := Record.build_eq_ok.mp hbuild
    exact fun field hfield => hfits field (harranged.mem field hfield)

/-- The names of the fields are those of the items, so no two of them are the same. -/
theorem nodup_fields {r : Record} (h : (Value.record r).Built) :
    (r.fields.map Prod.fst).Nodup := by
  rw [h.fieldNames]
  exact h.recordType.nodup_itemNames

theorem ofKey {type : TabularType} {r : Record} {key : Key} (h : (Value.record r).Built)
    (hkey : type.keyOf r = .ok key) : ∀ v, some v ∈ key → v.Built := by
  intro v hv
  obtain ⟨name, hfield⟩ := TabularType.mem_fields_of_keyOf hkey _ hv
  exact h.fields name v hfield

/-- Every item has an entry, which is null or of its type. -/
theorem get {r : Record} (h : (Value.record r).Built) {name : String} {itemType : OpenType}
    (hitem : r.type.itemType? name = some itemType) :
    ∃ cell, r.get name = .ok cell ∧ ∀ v, cell = some v → itemType.hasValue v = true := by
  have hname : name ∈ r.fields.map Prod.fst := by
    rw [h.fieldNames]
    exact CompositeType.name_mem_of_itemType? hitem
  obtain ⟨⟨_, cell⟩, hfield, rfl⟩ := List.mem_map.mp hname
  refine ⟨cell, Record.get_eq_ok.mpr (Dictionary.find?_of_mem h.nodup_fields hfield), ?_⟩
  obtain ⟨found, hfound, hcell⟩ := h.fits _ hfield
  cases hitem.symm.trans hfound
  exact hcell

end Value.Built

/-! ## Built tables -/

/-- What holds of every table without rows, and is kept when one row is put in or removed or all
of them are, holds of every built table. -/
@[elab_as_elim]
theorem Table.inductBuilt {motive : Table → Prop}
    (empty : ∀ type, (OpenType.tabular type).Built → motive (.empty type))
    (put : ∀ t t' row, (Value.table t).Built → motive t → (Value.record row).Built →
      t.put row = .ok t' → motive t')
    (remove : ∀ t t' key row, (Value.table t).Built → motive t →
      t.remove key = .ok (row, t') → motive t')
    (clear : ∀ t, (Value.table t).Built → motive t → motive t.clear)
    {t : Table} (h : (Value.table t).Built) : motive t := by
  generalize ht : Value.table t = v at h
  induction h generalizing t with
  | scalar _ => cases ht
  | array _ _ _ _ => cases ht
  | record _ _ _ _ => cases ht
  | empty htype =>
    cases ht
    exact empty _ htype
  | put hbuilt hrow hput ih _ =>
    cases ht
    exact put _ _ _ hbuilt (ih rfl) hrow hput
  | @putAll t₀ _ batch hbuilt hbatch hputAll ih _ =>
    cases ht
    rw [Table.putAll_eq_foldlM] at hputAll
    have hkept : ∀ row ∈ batch, ∀ t t', (Value.table t).Built ∧ motive t → t.put row = .ok t' →
        (Value.table t').Built ∧ motive t' := by
      intro row hrow t t' ht hput
      exact ⟨.put ht.1 (hbatch row hrow) hput, put t t' row ht.1 ht.2 (hbatch row hrow) hput⟩
    exact (Outcome.foldlM_keeps hkept ⟨hbuilt, ih rfl⟩ hputAll).2
  | remove hbuilt hremove ih =>
    cases ht
    exact remove _ _ _ _ hbuilt (ih rfl) hremove
  | clear hbuilt ih =>
    cases ht
    exact clear _ hbuilt (ih rfl)

namespace Value.Built

/-- Every operation keeps the type of a table, and leaves it with built rows under their keys. -/
theorem rows {t : Table} (h : (Value.table t).Built) :
    (OpenType.tabular t.type).Built ∧ ∀ entry ∈ t.rows,
      (Value.record entry.2).Built ∧ t.type.keyOf entry.2 = .ok entry.1 := by
  refine Table.inductBuilt ?empty ?put ?remove ?clear h
  case empty =>
    intro type htype
    exact ⟨htype, by simp [Table.empty]⟩
  case put =>
    rintro t t' row _ ⟨htype, hrows⟩ hrow hput
    obtain ⟨key, hkey, _, rfl⟩ := Table.put_eq_ok.mp hput
    refine ⟨htype, fun entry hentry => ?_⟩
    rcases List.mem_append.mp hentry with hold | hnew
    · exact hrows entry hold
    · obtain rfl := List.mem_singleton.mp hnew
      exact ⟨hrow, hkey⟩
  case remove =>
    rintro t t' key row _ ⟨htype, hrows⟩ hremove
    obtain ⟨_, rfl⟩ := Table.remove_eq_ok.mp hremove
    exact ⟨htype, fun entry hentry => hrows entry (List.mem_of_mem_eraseP hentry)⟩
  case clear =>
    rintro t _ ⟨htype, _⟩
    exact ⟨htype, by simp [Table.clear, Table.empty]⟩

theorem keyCells {t : Table} (h : (Value.table t).Built) :
    ∀ entry ∈ t.rows, ∀ v, some v ∈ entry.1 → v.Built := by
  intro entry hentry
  obtain ⟨hrow, hkey⟩ := h.rows.2 entry hentry
  exact hrow.ofKey hkey

/-- A row that came later is under another key than those before it. -/
theorem newKeys {t : Table} (h : (Value.table t).Built) :
    t.rows.Pairwise fun old new => Key.same new.1 old.1 = false := by
  refine Table.inductBuilt ?empty ?put ?remove ?clear h
  case empty =>
    intro type _
    exact .nil
  case put =>
    intro t t' row _ ih _ hput
    obtain ⟨key, _, hnew, rfl⟩ := Table.put_eq_ok.mp hput
    rw [Table.find?_eq_none] at hnew
    simpa [List.pairwise_append, ih] using hnew
  case remove =>
    intro t t' key row _ ih hremove
    obtain ⟨_, rfl⟩ := Table.remove_eq_ok.mp hremove
    exact ih.sublist List.eraseP_sublist
  case clear =>
    intro t _ _
    exact .nil

end Value.Built

end ManagementSchema
