-- Whether a value is one of a type is decided by the type which it carries.
-- The constructors checked each part of it against the type of its own whole,
-- so the parts fit all the way down: through arrays in arrays, records with
-- more items than asked for, and tables.
import ManagementSchema.Proofs.Revalidation
import ManagementSchema.Proofs.ValueSets

namespace ManagementSchema

/-! ## What it is to fit all the way down -/

/-- Arrays in arrays, just so many deep, where nulls may stand in the place of inner arrays. -/
inductive Value.Nesting : Nat → Value → Prop
  | line (a : ArrayValue) : Nesting 1 (.array a)
  | more {depth : Nat} {a : ArrayValue} :
      (∀ v, some v ∈ a.elements → Nesting (depth + 1) v) → Nesting (depth + 2) (.array a)

/-- The cell stands in an array that many dimensions down. -/
inductive Value.Leaf : Nat → Value → Option Value → Prop
  | here {a : ArrayValue} {cell : Option Value} : cell ∈ a.elements → Leaf 1 (.array a) cell
  | deeper {depth : Nat} {a : ArrayValue} {v : Value} {cell : Option Value} :
      some v ∈ a.elements → Leaf (depth + 1) v cell → Leaf (depth + 2) (.array a) cell

/-- The value and all its parts are what the type says. -/
inductive OpenType.Conforms : OpenType → Value → Prop
  | scalar (s : Scalar) : Conforms (.simple s.kind) (.scalar s)
  | array {type : ArrayType} {a : ArrayValue} :
      Value.Nesting type.dimension (.array a) →
      (∀ v, Value.Leaf type.dimension (.array a) (some v) → Conforms type.element v) →
      (type.isPrimitive = true → ¬ Value.Leaf type.dimension (.array a) none) →
      Conforms (.array type) (.array a)
  | record {type : CompositeType} {r : Record} :
      (∀ item ∈ type.items, ∃ cell, r.get item.name = .ok cell) →
      (∀ item ∈ type.items, ∀ v, r.get item.name = .ok (some v) → Conforms item.type v) →
      Conforms (.composite type) (.record r)
  | table {type : TabularType} {t : Table} :
      (∀ entry ∈ t.rows, Conforms (.composite type.row) (.record entry.2)) →
      Conforms (.tabular type) (.table t)

/-! ## Arrays, one dimension at a time -/

namespace OpenType

/-- Elements that conform make up an array that conforms. -/
theorem Conforms.ofElements {type : ArrayType} {a : ArrayValue} (hpositive : 1 ≤ type.dimension)
    (helements : ∀ v, some v ∈ a.elements → type.component.Conforms v)
    (hnull : type.isPrimitive = true → type.dimension = 1 → none ∉ a.elements) :
    Conforms (.array type) (.array a) := by
  obtain ⟨dimension, element, isPrimitive⟩ := type
  simp only at hpositive helements hnull
  match dimension, hpositive with
  | 1, _ =>
    refine .array (.line a) ?_ ?_
    · rintro v (hleaf | _)
      exact helements v hleaf
    · rintro hprimitive (hleaf | _)
      exact hnull hprimitive rfl hleaf
  | depth + 2, _ =>
    -- The elements are arrays of one dimension less, and their leaves are all there are.
    have hinner : ∀ v, some v ∈ a.elements →
        Conforms (.array ⟨depth + 1, element, isPrimitive⟩) v := by
      simpa [ArrayType.component] using helements
    refine .array (.more fun v hv => ?_) ?_ ?_
    · obtain _ | ⟨hnesting, _, _⟩ := hinner v hv
      exact hnesting
    · rintro v (_ | ⟨helement, hleaf⟩)
      obtain _ | ⟨_, hleaves, _⟩ := hinner _ helement
      exact hleaves v hleaf
    · rintro hprimitive (_ | ⟨helement, hleaf⟩)
      obtain _ | ⟨_, _, hnone⟩ := hinner _ helement
      exact hnone hprimitive hleaf

theorem component_accepts {type other : ArrayType}
    (h : (array type).accepts (array other) = true) :
    type.component.accepts other.component = true := by
  obtain ⟨_, ⟨⟩, hdimension, hprimitive, helement⟩ := accepts_array_iff.mp h
  unfold ArrayType.component
  rw [hdimension]
  split
  · exact helement
  · exact accepts_array_iff.mpr ⟨_, rfl, rfl, hprimitive, helement⟩

/-! ## Built values conform -/

theorem conforms_of_accepts {v : Value} (hv : v.Built) {type : OpenType}
    (h : type.accepts v.type = true) : type.Conforms v := by
  induction v generalizing type with
  | scalar s =>
    cases type with
    | simple kind =>
      obtain ⟨rfl⟩ := accepts_simple_iff.mp h
      exact .scalar s
    | _ => simp [accepts, Value.type] at h
  | array a ih =>
    cases type with
    | array type =>
      obtain ⟨_, ⟨⟩, hdimension, hprimitive, _⟩ := accepts_array_iff.mp h
      refine Conforms.ofElements ?_ (fun v hmem => ?_) ?_
      · rw [hdimension]
        exact hv.arrayType.normal.1.positive
      · have hcomponent := hv.admits.component v hmem
        rw [hasValue_eq_accepts] at hcomponent
        exact ih v hmem (hv.elements v hmem) (accepts_trans (component_accepts h) hcomponent)
      · rw [hdimension, hprimitive]
        exact hv.admits.noNull
    | _ => simp [accepts, Value.type] at h
  | record r ih =>
    cases type with
    | composite type =>
      obtain ⟨_, ⟨⟩, _, hitems⟩ := accepts_composite_iff.mp h
      refine .record (fun item hitem => ?_) (fun item hitem v hget => ?_)
      · obtain ⟨itemType, hfound, _⟩ := hitems item hitem
        obtain ⟨cell, hcell, _⟩ := hv.get hfound
        exact ⟨cell, hcell⟩
      · obtain ⟨itemType, hfound, haccepts⟩ := hitems item hitem
        obtain ⟨cell, hcell, hvalue⟩ := hv.get hfound
        obtain rfl : cell = some v := Except.ok.inj (hcell.symm.trans hget)
        have hmem := Dictionary.mem_of_find? (Record.get_eq_ok.mp hget)
        have hitemValue := hvalue v rfl
        rw [hasValue_eq_accepts] at hitemValue
        exact ih item.name v hmem (hv.fields item.name v hmem)
          (accepts_trans haccepts hitemValue)
    | _ => simp [accepts, Value.type] at h
  | table t ih =>
    cases type with
    | tabular type =>
      obtain ⟨_, ⟨⟩, _, _, hrow⟩ := accepts_tabular_iff.mp h
      refine .table fun entry hentry => ?_
      obtain ⟨hbuilt, hkey⟩ := hv.rows.2 entry hentry
      have haccepts := TabularType.accepts_of_keyOf hkey
      exact (ih entry hentry).2 hbuilt (accepts_trans hrow haccepts)
    | _ => simp [accepts, Value.type] at h

theorem conforms_of_hasValue {type : OpenType} {v : Value} (hv : v.Built)
    (h : type.hasValue v = true) : type.Conforms v :=
  conforms_of_accepts hv (hasValue_eq_accepts ▸ h)

/-- A built value that is one of a type conforms to it all the way down. So does whatever coercion
and the check of constraints give, with any conversions registered. -/
theorem built_values_conform_all_the_way_down :
    (∀ (type : OpenType) (v : Value), v.Built → type.hasValue v = true → type.Conforms v) ∧
    ∀ conversions : Conversions, conversions.Built → ∀ type : OpenType,
      (∀ raw v, raw.Built → conversions.coerce type raw = .ok v → type.Conforms v) ∧
      (∀ raw legal, raw.Built → conversions.coerceLegal type raw = .ok legal →
        ∀ v ∈ legal, type.Conforms v) ∧
      ∀ fields c, fields.Built → Constraints.validate conversions type fields = .ok c →
        ∀ v ∈ c.values, type.Conforms v := by
  refine ⟨fun _ _ => conforms_of_hasValue, fun conversions hc type => ⟨?_, ?_, ?_⟩⟩
  · intro raw v hraw h
    exact conforms_of_hasValue (hc.coerce hraw h) (Conversions.coerce_eq_ok.mp h).2
  · intro raw legal hraw h v hv
    have htyped := (Conversions.legal_of_coerceLegal h).2
    exact conforms_of_hasValue (hc.coerceLegal hraw h v hv) (htyped v hv)
  · intro fields c hfields h v hv
    obtain ⟨hcoerced, _⟩ := Constraints.validate_eq_ok.mp h
    obtain rfl : c.type = type := hcoerced.ofType
    exact conforms_of_hasValue (hcoerced.built hc hfields v hv) (hcoerced.typed v hv)

/-- Of a grid of unboxed integers a whole line may be null. -/
theorem a_null_line_of_an_unboxed_grid_conforms :
    (array ⟨2, .simple .integer, true⟩).Conforms
      (.array ⟨⟨2, .simple .integer, true⟩,
        [none, some (.array ⟨⟨1, .simple .integer, true⟩, [some (.scalar (.integer 3))]⟩)]⟩) := by
  have hbuilt : ∀ dimension, 1 ≤ dimension →
      (array ⟨dimension, .simple .integer, true⟩).Built := by
    intro dimension hpositive
    exact built_array_iff.mpr
      ⟨⟨hpositive, rfl, fun _ => ⟨.integer, rfl, rfl⟩⟩, .simple .integer⟩
  have hline : ArrayValue.build ⟨1, .simple .integer, true⟩ [some (.scalar (.integer 3))] =
      .ok ⟨_, _⟩ := rfl
  have hgrid : ArrayValue.build ⟨2, .simple .integer, true⟩
      [none, some (.array ⟨⟨1, .simple .integer, true⟩, [some (.scalar (.integer 3))]⟩)] =
      .ok ⟨_, _⟩ := rfl
  apply built_values_conform_all_the_way_down.1
  · refine .array (hbuilt 2 (by decide)) ?_ hgrid
    intro v hv
    obtain rfl : v = .array _ := by simpa using hv
    refine .array (hbuilt 1 (by decide)) ?_ hline
    intro v hv
    obtain rfl : v = .scalar (.integer 3) := by simpa using hv
    exact .scalar trivial
  · decide

end OpenType

end ManagementSchema
