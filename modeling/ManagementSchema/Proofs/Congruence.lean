-- Equal values answer alike: to types, to constraints, to the natural order,
-- and as parts of keys. What is looked at in each case is the type of a value
-- or its equality with another one, and equality passes both on.
import Mathlib.Data.List.Find
import ManagementSchema.Proofs.ExportedDescriptors
import ManagementSchema.Proofs.TableRuns

namespace ManagementSchema

/-! ## Types -/

namespace Value

variable {v w u : Value} {type : OpenType}

theorem built_type (h : v.Built) : v.type.Built := by
  cases v with
  | scalar s => exact .simple s.kind
  | array a => exact h.arrayType
  | record r => exact h.recordType
  | table t => exact h.rows.1

/-- Equal values carry equal types. -/
theorem same_type (h : v.same w = true) : v.type.same w.type = true := by
  cases v with
  | scalar s =>
    rw [same_scalar_iff.mp h]
    simp [Value.type, OpenType.same]
  | array a =>
    obtain ⟨other, rfl, htype, _⟩ := same_array_iff.mp h
    exact htype
  | record r =>
    obtain ⟨other, rfl, htype, _⟩ := same_record_iff.mp h
    exact htype
  | table t =>
    obtain ⟨other, rfl, htype, _⟩ := same_table_iff.mp h
    exact htype

theorem hasValue_of_same (hv : v.Built) (hw : w.Built) (h : v.same w = true)
    (hvalue : type.hasValue v = true) : type.hasValue w = true := by
  have htypes := OpenType.same_iff_accepts (built_type hv) (built_type hw)
  rw [OpenType.hasValue_eq_accepts] at hvalue ⊢
  exact OpenType.accepts_trans hvalue (htypes.mp (same_type h)).1

theorem hasValue_congr (hv : v.Built) (hw : w.Built) (h : v.same w = true) :
    type.hasValue v = type.hasValue w := by
  rw [Bool.eq_iff_iff]
  exact ⟨hasValue_of_same hv hw h, hasValue_of_same hw hv (same_symm hv hw h)⟩

/-! ## The natural order -/

/-- Only single values are compared, and equal ones of these are one value. -/
theorem compare_congr (h : v.same w = true) (u : Value) : v.compare u = w.compare u := by
  cases v with
  | scalar s => rw [same_scalar_iff.mp h]
  | array a =>
    obtain ⟨other, rfl, _⟩ := same_array_iff.mp h
    rfl
  | record r =>
    obtain ⟨other, rfl, _⟩ := same_record_iff.mp h
    rfl
  | table t =>
    obtain ⟨other, rfl, _⟩ := same_table_iff.mp h
    rfl

theorem compare_congr_right (h : v.same w = true) (u : Value) : u.compare v = u.compare w := by
  rw [compare_swap u v, compare_swap u w, compare_congr h u]

/-! ## Equality with a third value -/

theorem same_congr (hv : v.Built) (hw : w.Built) (hu : u.Built) (h : v.same w = true) :
    u.same v = u.same w := by
  rw [Bool.eq_iff_iff]
  refine ⟨?_, ?_⟩
  · intro huv
    exact same_trans hu hv hw huv h
  · intro huw
    exact same_trans hu hw hv huw (same_symm hv hw h)

end Value

/-! ## Constraints -/

namespace Constraints

variable {c : Constraints} {v w : Value}

theorem isLegal_congr (hv : v.Built) (hw : w.Built) (h : v.same w = true)
    (hlegal : ∀ legal, c.legal = some legal → ∀ u ∈ legal, u.Built) :
    isLegal v c.legal = isLegal w c.legal := by
  unfold isLegal
  rcases hc : c.legal with _ | legal
  · rfl
  · have hequal : ∀ u ∈ legal, u.same v = u.same w :=
      fun u hu => Value.same_congr hv hw (hlegal legal hc u hu) h
    rw [Bool.eq_iff_iff, List.any_eq_true, List.any_eq_true]
    refine exists_congr fun u => and_congr_right fun hu => ?_
    rw [hequal u hu]

theorem inRange_congr (h : v.same w = true) (min max : Option Value) :
    inRange v min max = inRange w min max := by
  unfold inRange isAbove isBelow
  simp only [Value.compare_congr h]

theorem permits_congr (hc : c.Built) (hv : v.Built) (hw : w.Built) (h : v.same w = true) :
    c.permits v = c.permits w := by
  have hlegal : ∀ legal, c.legal = some legal → ∀ u ∈ legal, u.Built :=
    fun legal hlegal u hu => hc.values u (mem_values.mpr (.inr (.inr (.inr ⟨legal, hlegal, hu⟩))))
  unfold permits
  rw [Value.hasValue_congr hv hw h, isLegal_congr hv hw h hlegal, inRange_congr h]

end Constraints

/-! ## Keys -/

/-- The parts of the key that are not null are built values. -/
def Key.Built (key : Key) : Prop := ∀ v, some v ∈ key → v.Built

namespace TabularType

variable {type : TabularType} {name : String} {a b : Key}

theorem takes_congr {x y : Option Value} (hx : ∀ v, x = some v → v.Built)
    (hy : ∀ v, y = some v → v.Built) (h : Value.sameCell x y = true) (htakes : type.Takes name x) :
    type.Takes name y := by
  rintro itemType w hitem rfl
  cases x with
  | none => cases h
  | some v =>
    obtain ⟨_, hw, hsame⟩ := Value.sameCell_some_iff.mp h
    cases hw
    exact Value.hasValue_of_same (hx v rfl) (hy w rfl) hsame (htakes itemType v hitem rfl)

/-- A key that fits stays one when its parts are exchanged for equal ones. -/
theorem fits_of_same (ha : Key.Built a) (hb : Key.Built b) (h : a.same b = true)
    (hfits : ¬ type.Misfits a) : ¬ type.Misfits b := by
  rw [not_misfits_iff] at hfits ⊢
  unfold Key.same at h
  rw [Value.sameCells_iff] at h
  generalize type.index = names at hfits
  induction hfits generalizing b with
  | nil =>
    cases h
    exact .nil
  | cons htakes _ ih =>
    obtain ⟨y, rest, hcell, hcells, rfl⟩ := List.forall₂_cons_left_iff.mp h
    refine .cons ?_ ?_
    · refine takes_congr ?_ ?_ hcell htakes
      · exact fun v hv => ha v (hv ▸ List.mem_cons_self)
      · exact fun v hv => hb v (hv ▸ List.mem_cons_self)
    · refine ih ?_ ?_ hcells
      · exact fun v hv => ha v (List.mem_cons_of_mem _ hv)
      · exact fun v hv => hb v (List.mem_cons_of_mem _ hv)

end TabularType

namespace Table

variable {t : Table} {a b : Key}

/-- Equal keys find one row, as they are equal to the same keys of rows. -/
theorem find?_congr (ht : (Value.table t).Built) (ha : Key.Built a) (hb : Key.Built b)
    (h : a.same b = true) : t.find? a = t.find? b := by
  have hkeys : ∀ entry ∈ t.rows, a.same entry.1 = b.same entry.1 := by
    intro entry hentry
    have hcells := ht.keyCells entry hentry
    rw [Bool.eq_iff_iff]
    refine ⟨?_, ?_⟩
    · exact Key.same_trans hb ha hcells (Key.same_symm ha hb h)
    · exact Key.same_trans ha hb hcells h
  unfold find?
  rw [List.find?_congr hkeys]

/-- Two keys find the same row or none, or neither of them fits. -/
theorem get_congr (ht : (Value.table t).Built) (ha : Key.Built a) (hb : Key.Built b)
    (h : a.same b = true) :
    (∃ found, t.get a = .ok found ∧ t.get b = .ok found) ∨
      ∃ fault fault', t.get a = .error (.invalidKey fault) ∧ t.get b = .error (.invalidKey fault') := by
  have hwell := ht.rows.1.wellFormed
  by_cases hfits : t.type.Misfits a
  · have hmisfits : t.type.Misfits b := by
      by_contra hb'
      exact TabularType.fits_of_same hb ha (Key.same_symm ha hb h) hb' hfits
    obtain ⟨fault, hfault⟩ := get_of_misfits hwell hfits
    obtain ⟨fault', hfault'⟩ := get_of_misfits hwell hmisfits
    exact .inr ⟨fault, fault', hfault, hfault'⟩
  · refine .inl ⟨t.find? a, get_eq hwell hfits, ?_⟩
    rw [get_eq hwell (TabularType.fits_of_same ha hb h hfits), find?_congr ht ha hb h]

end Table

/-! ## The laws -/

/-- Equality is an equivalence of built values, and equal values can not be told apart: they are of
the same types, permitted by the same constraints, and stand at the same place in the natural
order. Keys of equal parts find the same row of a table, or none of them finds one, or both are
refused. -/
theorem equality_is_a_congruence :
    Equivalence (fun v w : {v : Value // v.Built} => v.1.same w.1 = true) ∧
    (∀ v w : Value, v.Built → w.Built → v.same w = true →
      (∀ type : OpenType, type.hasValue v = type.hasValue w) ∧
      (∀ c : Constraints, c.Built → c.permits v = c.permits w) ∧
      ∀ u, v.compare u = w.compare u ∧ u.compare v = u.compare w) ∧
    ∀ t : Table, (Value.table t).Built → ∀ a b : Key, a.Built → b.Built → a.same b = true →
      (∃ found, t.get a = .ok found ∧ t.get b = .ok found ∧
        t.hasKey a = .ok found.isSome ∧ t.hasKey b = .ok found.isSome) ∨
      ∃ fault fault', t.get a = .error (.invalidKey fault) ∧
        t.get b = .error (.invalidKey fault') ∧
        t.hasKey a = .error (.invalidKey fault) ∧ t.hasKey b = .error (.invalidKey fault') := by
  refine ⟨⟨?_, ?_, ?_⟩, ?_, ?_⟩
  · exact fun v => Value.same_self v.2
  · exact fun {v w} => Value.same_symm v.2 w.2
  · exact fun {v w u} => Value.same_trans v.2 w.2 u.2
  · intro v w hv hw h
    refine ⟨?_, ?_, ?_⟩
    · exact fun type => Value.hasValue_congr hv hw h
    · exact fun c hc => Constraints.permits_congr hc hv hw h
    · exact fun u => ⟨Value.compare_congr h u, Value.compare_congr_right h u⟩
  · intro t ht a b ha hb h
    unfold Table.hasKey
    rcases Table.get_congr ht ha hb h with ⟨found, hfound, hfound'⟩ | ⟨fault, fault', hfault, hfault'⟩
    · rw [hfound, hfound']
      exact .inl ⟨found, rfl, rfl, rfl, rfl⟩
    · rw [hfault, hfault']
      exact .inr ⟨fault, fault', rfl, rfl, rfl, rfl⟩

/-- An outline without points, whose coordinates are declared in some order. -/
def outline (names : List String) : Value :=
  .array ⟨⟨1, .composite (OpenType.points names), false⟩, []⟩

theorem built_outline {names : List String} (hne : names ≠ []) (hnodup : names.Nodup)
    (hblank : ∀ name ∈ names, Text.isBlank name = false) : (outline names).Built := by
  have harray : (OpenType.array ⟨1, .composite (OpenType.points names), false⟩).Built :=
    OpenType.built_array_iff.mpr
      ⟨⟨Nat.le_refl 1, rfl, by simp⟩, OpenType.built_points hne hnodup hblank⟩
  have hbuild : ArrayValue.build ⟨1, .composite (OpenType.points names), false⟩ [] =
      .ok ⟨_, []⟩ := rfl
  exact .array harray (by simp) hbuild

/-- Names of outlines, each under its points. -/
def outlineNames : TabularType where
  name := "Outlines"
  description := "Outlines by their points"
  row := ⟨"Outline", "A named outline",
    [⟨"points", "The points", (outline ["x", "y"]).type⟩, ⟨"name", "The name", .simple .string⟩]⟩
  index := ["points"]

/-- The row with the name of the outline without points. -/
def nothing : Record :=
  ⟨outlineNames.row,
    [("points", some (outline ["x", "y"])), ("name", some (.scalar (.string "nothing")))]⟩

theorem built_outlineNames : (OpenType.tabular outlineNames).Built := by
  have hrow : (OpenType.composite outlineNames.row).Built := by
    refine OpenType.built_composite_iff.mpr
      ⟨⟨by decide, by decide, by decide, by decide, by decide⟩, ?_⟩
    intro item hitem
    simp only [outlineNames, List.mem_cons, List.not_mem_nil, or_false] at hitem
    rcases hitem with rfl | rfl
    · exact Value.built_type (built_outline (by decide) (by decide) (by decide))
    · exact .simple .string
  exact OpenType.built_tabular_iff.mpr
    ⟨⟨by decide, by decide, by decide, by decide, by decide⟩, hrow⟩

theorem built_nothing : (Value.record nothing).Built := by
  have hbuild : Record.build outlineNames.row nothing.fields = .ok nothing := rfl
  refine .record (OpenType.built_tabular_iff.mp built_outlineNames).2 ?_ hbuild
  intro name v hfield
  simp only [nothing, List.mem_cons, Prod.mk.injEq, Option.some.injEq, List.not_mem_nil,
    or_false] at hfield
  rcases hfield with ⟨_, rfl⟩ | ⟨_, rfl⟩
  · exact built_outline (by decide) (by decide) (by decide)
  · exact .scalar trivial

/-- Outlines whose coordinates are declared in different orders are equal, so each of them is one of
the type of the other, and the row under one of them is found under the other. -/
theorem outlines_are_found_in_either_order :
    let t := (Table.empty outlineNames).after [.put nothing]
    (outline ["x", "y"]).same (outline ["y", "x"]) = true ∧ outline ["x", "y"] ≠ outline ["y", "x"] ∧
      (outline ["x", "y"]).type.hasValue (outline ["y", "x"]) = true ∧
      t.get [some (outline ["y", "x"])] = .ok (some nothing) ∧
      t.hasKey [some (outline ["y", "x"])] = .ok true := by
  intro t
  have hv : (outline ["x", "y"]).Built := built_outline (by decide) (by decide) (by decide)
  have hw : (outline ["y", "x"]).Built := built_outline (by decide) (by decide) (by decide)
  have ht : (Value.table t).Built :=
    (Table.built_after (.empty built_outlineNames) (by simp [Change.Built, built_nothing])).1
  have hsame : (outline ["x", "y"]).same (outline ["y", "x"]) = true := by decide
  have hkeys : Key.same [some (outline ["x", "y"])] [some (outline ["y", "x"])] = true := by decide
  obtain ⟨_, hvalues, htables⟩ := equality_is_a_congruence
  have htypes := (hvalues _ _ hv hw hsame).1 (outline ["x", "y"]).type
  have hget : t.get [some (outline ["x", "y"])] = .ok (some nothing) := rfl
  rcases htables t ht _ _ (by simpa [Key.Built] using hv) (by simpa [Key.Built] using hw) hkeys with
    ⟨found, hfound, hfound', _, hhas⟩ | ⟨fault, _, hfault, _⟩
  · obtain rfl : some nothing = found := Except.ok.inj (hget.symm.trans hfound)
    refine ⟨hsame, by simp [outline, OpenType.points], ?_, hfound', hhas⟩
    rw [← htypes]
    decide
  · rw [hget] at hfault
    cases hfault

end ManagementSchema
