-- Equality of values. Cells are compared in their places, fields by their
-- names and rows by their keys. Among built values this is an equivalence:
-- no name and no key stands twice, so what is found one way is found back.
import ManagementSchema.Proofs.Acceptance
import ManagementSchema.Proofs.BuiltValues

namespace ManagementSchema

namespace Value

/-! ## Parts in their places -/

theorem sameCell_none_iff {b : Option Value} : sameCell none b = true ↔ b = none := by
  cases b <;> simp [sameCell]

theorem sameCell_some_iff {v : Value} {b : Option Value} :
    sameCell (some v) b = true ↔ ∃ w, b = some w ∧ v.same w = true := by
  cases b <;> simp [sameCell]

/-- Lists of cells are equal when they are as long and equal cell by cell. -/
theorem sameCells_iff {a b : List (Option Value)} :
    sameCells a b = true ↔ List.Forall₂ (fun x y => sameCell x y = true) a b := by
  induction a generalizing b with
  | nil => cases b <;> simp [sameCells]
  | cons cell rest ih => cases b <;> simp [sameCells, ih]

/-- Every field has an equal cell under its name among the others. -/
theorem sameFields_iff {fields others : List (String × Option Value)} :
    sameFields fields others = true ↔
      ∀ field ∈ fields, ∃ other, Dictionary.find? field.1 others = some other ∧
        sameCell field.2 other = true := by
  induction fields with
  | nil => simp [sameFields]
  | cons field rest ih =>
    obtain ⟨name, cell⟩ := field
    rw [sameFields]
    rcases h : Dictionary.find? name others with _ | other <;> simp [h, ih]

/-- Every row stands among the others, under an equal key. -/
theorem sameRows_iff {rows others : List (Key × Record)} :
    sameRows rows others = true ↔
      ∀ entry ∈ rows, ∃ other ∈ others, sameCells entry.1 other.1 = true ∧
        entry.2.same other.2 = true := by
  induction rows with
  | nil => simp [sameRows]
  | cons entry rest ih =>
    obtain ⟨key, row⟩ := entry
    rw [sameRows]
    simp [ih]

/-! ## Equality by the form of the values -/

variable {v w u : Value}

theorem same_scalar_iff {s : Scalar} : (scalar s).same w = true ↔ w = scalar s := by
  cases w <;> simp [Value.same, eq_comm]

theorem same_array_iff {a : ArrayValue} : (array a).same w = true ↔
    ∃ other, w = array other ∧ (OpenType.array a.type).same (.array other.type) = true ∧
      sameCells a.elements other.elements = true := by
  obtain ⟨type, elements⟩ := a
  cases w <;> simp [Value.same, ArrayValue.same, OpenType.same]

theorem same_record_iff {r : Record} : (record r).same w = true ↔
    ∃ other, w = record other ∧
      (OpenType.composite r.type).same (.composite other.type) = true ∧
      ∀ field ∈ r.fields, ∃ cell, Dictionary.find? field.1 other.fields = some cell ∧
        sameCell field.2 cell = true := by
  obtain ⟨type, fields⟩ := r
  cases w <;> simp [Value.same, Record.same, OpenType.same, sameFields_iff]

theorem same_table_iff {t : Table} : (table t).same w = true ↔
    ∃ other, w = table other ∧ (OpenType.tabular t.type).same (.tabular other.type) = true ∧
      t.rows.length = other.rows.length ∧
      ∀ entry ∈ t.rows, ∃ row ∈ other.rows, Key.same entry.1 row.1 = true ∧
        (record entry.2).same (record row.2) = true := by
  obtain ⟨type, rows⟩ := t
  cases w <;> simp [Value.same, Table.same, OpenType.same, sameRows_iff, Key.same, and_assoc]

/-! ## A value and itself -/

theorem sameCell_self {cell : Option Value} (h : ∀ v, cell = some v → v.same v = true) :
    sameCell cell cell = true := by
  cases cell with
  | none => rfl
  | some v => exact h v rfl

theorem sameCells_self {cells : List (Option Value)}
    (h : ∀ v, some v ∈ cells → v.same v = true) : sameCells cells cells = true := by
  rw [sameCells_iff, List.forall₂_same]
  intro cell hcell
  exact sameCell_self fun v hv => h v (hv ▸ hcell)

/-- A built value is equal to itself. -/
theorem same_self (h : v.Built) : v.same v = true := by
  induction v with
  | scalar s => exact same_scalar_iff.mpr rfl
  | array a ih =>
    apply same_array_iff.mpr
    refine ⟨a, rfl, OpenType.same_self h.arrayType, ?_⟩
    exact sameCells_self fun v hv => ih v hv (h.elements v hv)
  | record r ih =>
    apply same_record_iff.mpr
    refine ⟨r, rfl, OpenType.same_self h.recordType, ?_⟩
    intro field hfield
    refine ⟨field.2, Dictionary.find?_of_mem h.nodup_fields hfield, sameCell_self ?_⟩
    intro v hv
    have hmem : (field.1, some v) ∈ r.fields := hv ▸ hfield
    exact ih field.1 v hmem (h.fields field.1 v hmem)
  | table t ih =>
    obtain ⟨htype, hrows⟩ := h.rows
    apply same_table_iff.mpr
    refine ⟨t, rfl, OpenType.same_self htype, rfl, ?_⟩
    intro entry hentry
    refine ⟨entry, hentry, sameCells_self ?_, (ih entry hentry).2 (hrows entry hentry).1⟩
    intro v hv
    exact (ih entry hentry).1 v hv (h.keyCells entry hentry v hv)

/-! ## Equality turned round and passed on -/

/-- Equality with the value can be turned round and passed on, among built values. -/
structure Coherent (v : Value) : Prop where
  symm : ∀ w, w.Built → v.same w = true → w.same v = true
  trans : ∀ w u, w.Built → u.Built → v.same w = true → w.same u = true → v.same u = true

theorem sameCell_symm {a b : Option Value} (ha : ∀ v, a = some v → v.Coherent)
    (hb : ∀ v, b = some v → v.Built) (h : sameCell a b = true) : sameCell b a = true := by
  cases a with
  | none =>
    rw [sameCell_none_iff] at h
    rw [h]
    rfl
  | some v =>
    obtain ⟨w, rfl, hvw⟩ := sameCell_some_iff.mp h
    exact (ha v rfl).symm w (hb w rfl) hvw

theorem sameCell_trans {a b c : Option Value} (ha : ∀ v, a = some v → v.Coherent)
    (hb : ∀ v, b = some v → v.Built) (hc : ∀ v, c = some v → v.Built)
    (hab : sameCell a b = true) (hbc : sameCell b c = true) : sameCell a c = true := by
  cases a with
  | none =>
    rw [sameCell_none_iff] at hab
    rwa [hab] at hbc
  | some v =>
    obtain ⟨w, rfl, hvw⟩ := sameCell_some_iff.mp hab
    obtain ⟨u, rfl, hwu⟩ := sameCell_some_iff.mp hbc
    exact (ha v rfl).trans w u (hb w rfl) (hc u rfl) hvw hwu

theorem sameCells_symm {a b : List (Option Value)} (ha : ∀ v, some v ∈ a → v.Coherent)
    (hb : ∀ v, some v ∈ b → v.Built) (h : sameCells a b = true) : sameCells b a = true := by
  induction a generalizing b with
  | nil => cases b <;> simp_all [sameCells]
  | cons cell rest ih =>
    cases b with
    | nil => simp [sameCells] at h
    | cons other others =>
      simp only [sameCells, Bool.and_eq_true, List.mem_cons] at h ha hb ⊢
      refine ⟨sameCell_symm ?_ ?_ h.1, ih ?_ ?_ h.2⟩
      · exact fun v hv => ha v (.inl hv.symm)
      · exact fun v hv => hb v (.inl hv.symm)
      · exact fun v hv => ha v (.inr hv)
      · exact fun v hv => hb v (.inr hv)

theorem sameCells_trans {a b c : List (Option Value)} (ha : ∀ v, some v ∈ a → v.Coherent)
    (hb : ∀ v, some v ∈ b → v.Built) (hc : ∀ v, some v ∈ c → v.Built)
    (hab : sameCells a b = true) (hbc : sameCells b c = true) : sameCells a c = true := by
  induction a generalizing b c with
  | nil => cases b <;> simp_all [sameCells]
  | cons cell rest ih =>
    cases b with
    | nil => simp [sameCells] at hab
    | cons other others =>
      cases c with
      | nil => simp [sameCells] at hbc
      | cons last lasts =>
        simp only [sameCells, Bool.and_eq_true, List.mem_cons] at hab hbc ha hb hc ⊢
        refine ⟨sameCell_trans ?_ ?_ ?_ hab.1 hbc.1, ih ?_ ?_ ?_ hab.2 hbc.2⟩
        · exact fun v hv => ha v (.inl hv.symm)
        · exact fun v hv => hb v (.inl hv.symm)
        · exact fun v hv => hc v (.inl hv.symm)
        · exact fun v hv => ha v (.inr hv)
        · exact fun v hv => hb v (.inr hv)
        · exact fun v hv => hc v (.inr hv)

theorem coherent_scalar (s : Scalar) : (scalar s).Coherent := by
  refine ⟨?_, ?_⟩
  · intro w _ h
    rw [same_scalar_iff.mp h]
    exact same_scalar_iff.mpr rfl
  · intro w u _ _ hvw hwu
    rwa [same_scalar_iff.mp hvw] at hwu

theorem coherent_array {a : ArrayValue} (ha : (array a).Built)
    (h : ∀ v, some v ∈ a.elements → v.Coherent) : (array a).Coherent := by
  refine ⟨?_, ?_⟩
  · intro w hw hsame
    obtain ⟨b, rfl, htype, hcells⟩ := same_array_iff.mp hsame
    apply same_array_iff.mpr
    exact ⟨a, rfl, OpenType.same_symm ha.arrayType hw.arrayType htype,
      sameCells_symm h hw.elements hcells⟩
  · intro w u hw hu hvw hwu
    obtain ⟨b, rfl, htype, hcells⟩ := same_array_iff.mp hvw
    obtain ⟨c, rfl, htype', hcells'⟩ := same_array_iff.mp hwu
    apply same_array_iff.mpr
    exact ⟨c, rfl, OpenType.same_trans ha.arrayType hw.arrayType hu.arrayType htype htype',
      sameCells_trans h hw.elements hu.elements hcells hcells'⟩

/-- Records of equal types have fields of the same names. -/
theorem exists_field_of_same {r other : Record} (hr : (record r).Built)
    (hother : (record other).Built)
    (htype : (OpenType.composite r.type).same (.composite other.type) = true)
    {field : String × Option Value} (hfield : field ∈ other.fields) :
    ∃ own ∈ r.fields, own.1 = field.1 := by
  have haccepts := ((OpenType.same_iff_accepts hr.recordType hother.recordType).mp htype).2
  have hname : field.1 ∈ r.fields.map Prod.fst := by
    rw [hr.fieldNames]
    apply OpenType.itemNames_subset_of_accepts haccepts
    rw [← hother.fieldNames]
    exact List.mem_map_of_mem hfield
  exact List.mem_map.mp hname

theorem coherent_record {r : Record} (hr : (record r).Built)
    (h : ∀ name v, (name, some v) ∈ r.fields → v.Coherent) : (record r).Coherent := by
  have hcell : ∀ field ∈ r.fields, ∀ v, field.2 = some v → v.Coherent := by
    rintro ⟨name, _⟩ hfield v rfl
    exact h name v hfield
  have hbuilt : ∀ other : Record, (record other).Built → ∀ name cell,
      Dictionary.find? name other.fields = some cell → ∀ v, cell = some v → v.Built := by
    rintro other hother name _ hfind v rfl
    exact hother.fields name v (Dictionary.mem_of_find? hfind)
  refine ⟨?_, ?_⟩
  · intro w hw hsame
    obtain ⟨other, rfl, htype, hfields⟩ := same_record_iff.mp hsame
    apply same_record_iff.mpr
    refine ⟨r, rfl, OpenType.same_symm hr.recordType hw.recordType htype, ?_⟩
    intro field hfield
    obtain ⟨own, hown, heq⟩ := exists_field_of_same hr hw htype hfield
    obtain ⟨cell, hfind, hsame⟩ := hfields own hown
    have hfound := Dictionary.find?_of_mem hw.nodup_fields hfield
    obtain rfl : cell = field.2 := Option.some.inj (hfind.symm.trans (heq ▸ hfound))
    refine ⟨own.2, ?_, sameCell_symm (hcell own hown) (hbuilt other hw _ _ hfind) hsame⟩
    rw [← heq]
    exact Dictionary.find?_of_mem hr.nodup_fields hown
  · intro w u hw hu hvw hwu
    obtain ⟨other, rfl, htype, hfields⟩ := same_record_iff.mp hvw
    obtain ⟨last, rfl, htype', hfields'⟩ := same_record_iff.mp hwu
    apply same_record_iff.mpr
    refine ⟨last, rfl, OpenType.same_trans hr.recordType hw.recordType hu.recordType htype htype',
      ?_⟩
    intro field hfield
    obtain ⟨cell, hfind, hsame⟩ := hfields field hfield
    obtain ⟨cell', hfind', hsame'⟩ := hfields' _ (Dictionary.mem_of_find? hfind)
    refine ⟨cell', hfind', ?_⟩
    exact sameCell_trans (hcell field hfield) (hbuilt other hw _ _ hfind)
      (hbuilt last hu _ _ hfind') hsame hsame'

/-- When no two are paired with the same one, the first may be taken away with its partner, and the
rest are still paired. -/
theorem exists_partner {α β : Type} {R : α → β → Prop} {x : α} {rest : List α} {ys : List β}
    (hpaired : ∀ a ∈ x :: rest, ∃ y ∈ ys, R a y)
    (hapart : (x :: rest).Pairwise fun a b => ∀ y ∈ ys, R a y → ¬ R b y) :
    ∃ before partner after, ys = before ++ partner :: after ∧ R x partner ∧
      (∀ a ∈ rest, ∃ y ∈ before ++ after, R a y) ∧
      rest.Pairwise fun a b => ∀ y ∈ before ++ after, R a y → ¬ R b y := by
  rw [List.forall_mem_cons] at hpaired
  rw [List.pairwise_cons] at hapart
  obtain ⟨⟨partner, hpartner, hx⟩, hrest⟩ := hpaired
  obtain ⟨before, after, rfl⟩ := List.append_of_mem hpartner
  refine ⟨before, partner, after, rfl, hx, ?_, ?_⟩
  · intro other hother
    obtain ⟨y, hy, hR⟩ := hrest other hother
    have hne : y ≠ partner := by
      rintro rfl
      exact hapart.1 other hother y hpartner hx hR
    refine ⟨y, ?_, hR⟩
    simpa [hne] using hy
  · refine hapart.2.imp ?_
    intro a b hab y hy
    apply hab
    simp only [List.mem_append, List.mem_cons] at hy ⊢
    grind

/-- When as many are paired with each other, and no two with the same one, then none is left
over on the other side. -/
theorem exists_paired {α β : Type} {R : α → β → Prop} {xs : List α} {ys : List β}
    (hlength : xs.length = ys.length) (hpaired : ∀ x ∈ xs, ∃ y ∈ ys, R x y)
    (hapart : xs.Pairwise fun a b => ∀ y ∈ ys, R a y → ¬ R b y) :
    ∀ y ∈ ys, ∃ x ∈ xs, R x y := by
  induction xs generalizing ys with
  | nil =>
    obtain rfl := List.length_eq_zero_iff.mp hlength.symm
    simp
  | cons x rest ih =>
    obtain ⟨before, partner, after, rfl, hx, hrest, hstill⟩ := exists_partner hpaired hapart
    have hothers : ∀ y ∈ before ++ after, ∃ x ∈ rest, R x y := by
      apply ih ?_ hrest hstill
      simp at hlength ⊢
      omega
    intro y hy
    by_cases heq : y = partner
    · exact ⟨x, List.mem_cons_self, heq ▸ hx⟩
    · obtain ⟨other, hother, hR⟩ := hothers y (by simpa [heq] using hy)
      exact ⟨other, List.mem_cons_of_mem x hother, hR⟩

/-- There are at least as many partners. -/
theorem length_le_of_paired {α β : Type} {R : α → β → Prop} {xs : List α} {ys : List β}
    (hpaired : ∀ x ∈ xs, ∃ y ∈ ys, R x y)
    (hapart : xs.Pairwise fun a b => ∀ y ∈ ys, R a y → ¬ R b y) : xs.length ≤ ys.length := by
  induction xs generalizing ys with
  | nil => simp
  | cons x rest ih =>
    obtain ⟨before, partner, after, rfl, _, hrest, hstill⟩ := exists_partner hpaired hapart
    have hlength := ih hrest hstill
    simp at hlength ⊢
    omega

/-- Two rows that are both equal to the same one would be under equal keys. -/
theorem apart_of_newKeys {t other : Table} (ht : (table t).Built) (hother : (table other).Built)
    (hkeys : ∀ entry ∈ t.rows, ∀ v, some v ∈ entry.1 → v.Coherent) :
    t.rows.Pairwise fun old new => ∀ row ∈ other.rows,
      Key.same old.1 row.1 = true ∧ (record old.2).same (record row.2) = true →
      ¬ (Key.same new.1 row.1 = true ∧ (record new.2).same (record row.2) = true) := by
  refine ht.newKeys.imp_of_mem ?_
  rintro old new hold hnew hdiffer row hrow ⟨holdRow, _⟩ ⟨hnewRow, _⟩
  have hback : Key.same row.1 old.1 = true :=
    sameCells_symm (hkeys old hold) (hother.keyCells row hrow) holdRow
  have hequal : Key.same new.1 old.1 = true :=
    sameCells_trans (hkeys new hnew) (hother.keyCells row hrow) (ht.keyCells old hold) hnewRow
      hback
  simp [hdiffer] at hequal

theorem coherent_table {t : Table} (ht : (table t).Built)
    (hkeys : ∀ entry ∈ t.rows, ∀ v, some v ∈ entry.1 → v.Coherent)
    (hrows : ∀ entry ∈ t.rows, (record entry.2).Coherent) : (table t).Coherent := by
  refine ⟨?_, ?_⟩
  · intro w hw hsame
    obtain ⟨other, rfl, htype, hlength, hpaired⟩ := same_table_iff.mp hsame
    apply same_table_iff.mpr
    refine ⟨t, rfl, OpenType.same_symm ht.rows.1 hw.rows.1 htype, hlength.symm, ?_⟩
    intro row hrow
    obtain ⟨entry, hentry, hkey, hrecord⟩ :=
      exists_paired hlength hpaired (apart_of_newKeys ht hw hkeys) row hrow
    refine ⟨entry, hentry, ?_, ?_⟩
    · exact sameCells_symm (hkeys entry hentry) (hw.keyCells row hrow) hkey
    · exact (hrows entry hentry).symm _ (hw.rows.2 row hrow).1 hrecord
  · intro w u hw hu hvw hwu
    obtain ⟨other, rfl, htype, hlength, hpaired⟩ := same_table_iff.mp hvw
    obtain ⟨last, rfl, htype', hlength', hpaired'⟩ := same_table_iff.mp hwu
    apply same_table_iff.mpr
    refine ⟨last, rfl, OpenType.same_trans ht.rows.1 hw.rows.1 hu.rows.1 htype htype',
      hlength.trans hlength', ?_⟩
    intro entry hentry
    obtain ⟨row, hrow, hkey, hrecord⟩ := hpaired entry hentry
    obtain ⟨row', hrow', hkey', hrecord'⟩ := hpaired' row hrow
    refine ⟨row', hrow', ?_, ?_⟩
    · exact sameCells_trans (hkeys entry hentry) (hw.keyCells row hrow) (hu.keyCells row' hrow')
        hkey hkey'
    · exact (hrows entry hentry).trans _ _ (hw.rows.2 row hrow).1 (hu.rows.2 row' hrow').1
        hrecord hrecord'

/-- That rows are found back needs equality passed on among their keys, so both are shown at
once. -/
theorem Built.coherent (h : v.Built) : v.Coherent := by
  induction v with
  | scalar s => exact coherent_scalar s
  | array a ih => exact coherent_array h fun v hv => ih v hv (h.elements v hv)
  | record r ih =>
    exact coherent_record h fun name v hv => ih name v hv (h.fields name v hv)
  | table t ih =>
    refine coherent_table h ?_ ?_
    · exact fun entry hentry v hv => (ih entry hentry).1 v hv (h.keyCells entry hentry v hv)
    · exact fun entry hentry => (ih entry hentry).2 (h.rows.2 entry hentry).1

theorem same_symm (hv : v.Built) (hw : w.Built) (h : v.same w = true) : w.same v = true :=
  hv.coherent.symm w hw h

theorem same_trans (hv : v.Built) (hw : w.Built) (hu : u.Built) (hvw : v.same w = true)
    (hwu : w.same u = true) : v.same u = true :=
  hv.coherent.trans w u hw hu hvw hwu

end Value

/-! ## Keys -/

namespace Key

variable {a b c : Key}

theorem same_self (ha : ∀ v, some v ∈ a → v.Built) : a.same a = true :=
  Value.sameCells_self fun v hv => Value.same_self (ha v hv)

theorem same_symm (ha : ∀ v, some v ∈ a → v.Built) (hb : ∀ v, some v ∈ b → v.Built)
    (h : a.same b = true) : b.same a = true :=
  Value.sameCells_symm (fun v hv => (ha v hv).coherent) hb h

theorem same_trans (ha : ∀ v, some v ∈ a → v.Built) (hb : ∀ v, some v ∈ b → v.Built)
    (hc : ∀ v, some v ∈ c → v.Built) (hab : a.same b = true) (hbc : b.same c = true) :
    a.same c = true :=
  Value.sameCells_trans (fun v hv => (ha v hv).coherent) hb hc hab hbc

end Key

end ManagementSchema
