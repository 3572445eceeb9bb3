-- Types as sets of values: a type accepts another one exactly when it has all
-- of its values. Every type but that of no values has a value that carries
-- just this type: a single value of the kind, an array without elements, a
-- record of nulls, a table without rows.
import ManagementSchema.Proofs.Acceptance
import ManagementSchema.Proofs.BuiltValues

namespace ManagementSchema

/-! ## The type that a value carries -/

/-- The type that a value was built with. -/
def Value.type : Value → OpenType
  | .scalar s => .simple s.kind
  | .array a => .array a.type
  | .record r => .composite r.type
  | .table t => .tabular t.type

namespace OpenType

variable {type other : OpenType} {v : Value}

/-- A value is one of a type that accepts the type which it carries. -/
theorem hasValue_eq_accepts : type.hasValue v = type.accepts v.type := by
  cases type <;> cases v <;> simp [hasValue, Value.type, accepts]

theorem hasValue_of_accepts (h : type.accepts other = true) (hv : other.hasValue v = true) :
    type.hasValue v = true := by
  rw [hasValue_eq_accepts] at hv ⊢
  exact accepts_trans h hv

/-! ## A value of each type -/

theorem exists_scalar {kind : Kind} (h : kind ≠ .void) :
    ∃ s : Scalar, s.Built ∧ s.kind = kind := by
  cases kind with
  | void => exact absurd rfl h
  | boolean => exact ⟨.boolean true, trivial, rfl⟩
  | character => exact ⟨.character 'a', trivial, rfl⟩
  | byte => exact ⟨.byte 0, trivial, rfl⟩
  | short => exact ⟨.short 0, trivial, rfl⟩
  | integer => exact ⟨.integer 0, trivial, rfl⟩
  | long => exact ⟨.long 0, trivial, rfl⟩
  | float => exact ⟨.float 0, trivial, rfl⟩
  | double => exact ⟨.double 0, trivial, rfl⟩
  | string => exact ⟨.string "", trivial, rfl⟩
  | bigDecimal => exact ⟨.bigDecimal ⟨0, 0⟩, trivial, rfl⟩
  | bigInteger => exact ⟨.bigInteger 0, trivial, rfl⟩
  | date => exact ⟨.date ⟨0, 0⟩, trivial, rfl⟩
  | objectName => exact ⟨.objectName _, ⟨"domain", [("key", "value")], rfl⟩, rfl⟩

/-- Null under each name. -/
def nulls (names : List String) : List (String × Option Value) := names.map fun name => (name, none)

theorem map_fst_nulls (names : List String) : (nulls names).map Prod.fst = names := by
  simp [nulls, Function.comp_def]

/-- A record may be null under every name. -/
theorem build_nulls {type : CompositeType} (h : type.itemNames.Nodup) :
    Record.build type (nulls type.itemNames) = .ok ⟨type, nulls type.itemNames⟩ := by
  have hnodup : ((nulls type.itemNames).map Prod.fst).Nodup := by rwa [map_fst_nulls]
  refine Record.build_eq_ok.mpr ⟨rfl, ?_, hnodup, ?_⟩
  · intro entry hentry
    obtain ⟨name, hname, rfl⟩ := List.mem_map.mp hentry
    obtain ⟨item, hitem, rfl⟩ := List.mem_map.mp hname
    exact ⟨item.type, CompositeType.itemType?_of_mem h hitem, by simp⟩
  · refine List.forall₂_map_right_iff.mpr (List.forall₂_same.mpr fun name hname => ⟨rfl, ?_⟩)
    exact Dictionary.find?_of_mem hnodup (List.mem_map_of_mem hname)

theorem exists_value (h : type.Built) (hvoid : type ≠ .simple .void) :
    ∃ v : Value, v.Built ∧ v.type = type := by
  cases type with
  | simple kind =>
    obtain ⟨s, hs, rfl⟩ := exists_scalar fun hkind => hvoid (congrArg simple hkind)
    exact ⟨.scalar s, .scalar hs, rfl⟩
  | array type =>
    have hbuild : ArrayValue.build type [] = .ok ⟨type, []⟩ := rfl
    exact ⟨.array ⟨type, []⟩, .array h (by simp) hbuild, rfl⟩
  | composite type =>
    have hgiven : ∀ name v, (name, some v) ∈ nulls type.itemNames → v.Built := by simp [nulls]
    exact ⟨.record ⟨type, nulls type.itemNames⟩,
      .record h hgiven (build_nulls h.nodup_itemNames), rfl⟩
  | tabular type => exact ⟨.table (.empty type), .empty h, rfl⟩

/-- A type accepts another one exactly when every built value of the other one is a value of it.
Only the type without any values is left out as the other one. -/
theorem acceptance_is_inclusion_of_values (h : other.Built) (hvoid : other ≠ .simple .void) :
    type.accepts other = true ↔
      ∀ v : Value, v.Built → other.hasValue v = true → type.hasValue v = true := by
  refine ⟨fun haccepts v _ hv => hasValue_of_accepts haccepts hv, fun hall => ?_⟩
  obtain ⟨v, hv, rfl⟩ := exists_value h hvoid
  rw [← hasValue_eq_accepts]
  refine hall v hv ?_
  rw [hasValue_eq_accepts]
  exact accepts_self h

/-- A grid of points with more coordinates is a grid of points with fewer of them. -/
theorem wider_points_are_points :
    (array ⟨2, composite (points ["x", "y"]), false⟩).Built ∧
    ∀ v : Value, v.Built → (array ⟨2, composite (points ["x", "y"]), false⟩).hasValue v = true →
      (array ⟨2, composite (points ["y"]), false⟩).hasValue v = true := by
  have hpoints : (composite (points ["x", "y"])).Built :=
    built_points (by decide) (by decide) (by decide)
  have hgrid : (array ⟨2, composite (points ["x", "y"]), false⟩).Built :=
    built_array_iff.mpr ⟨⟨by decide, rfl, by simp⟩, hpoints⟩
  exact ⟨hgrid, (acceptance_is_inclusion_of_values hgrid (by simp)).mp (by decide)⟩

end OpenType

end ManagementSchema
