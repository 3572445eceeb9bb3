-- Array types, layer by layer. An array over arrays is one array type whose
-- dimensions add up, so every array type stays in normal form, and components
-- give the dimensions back one by one, down to what they were laid over.
import ManagementSchema.Proofs.BuiltTypes

namespace ManagementSchema

/-- The type comes from single, composite and tabular types in any number of steps: arrays of some
dimension over a type, unboxed arrays of a kind, and components of arrays. -/
inductive OpenType.Layered : OpenType → Prop
  | plain {type : OpenType} : type.isArray = false → type.Built → Layered type
  | array {dimension : Nat} {element : OpenType} {type : ArrayType} :
      Layered element → ArrayType.build dimension element = .ok type → Layered (.array type)
  | unboxed {kind : Kind} {type : ArrayType} :
      ArrayType.buildPrimitive kind = .ok type → Layered (.array type)
  | component {type : ArrayType} : Layered (.array type) → Layered type.component

/-- What is left of a type when so many components are taken, each of the one before. -/
def OpenType.peel : Nat → OpenType → Option OpenType
  | 0, type => some type
  | count + 1, .array type => type.component.peel count
  | _ + 1, _ => none

namespace ArrayType

variable {m n : Nat} {element : OpenType} {type : ArrayType}

/-! ## Laying dimensions on -/

/-- Arrays over arrays are the arrays of all their dimensions. -/
theorem build_over_build (hm : 1 ≤ m) (hn : 1 ≤ n) (element : OpenType) :
    ∃ inner outer, build n element = .ok inner ∧ build m (.array inner) = .ok outer ∧
      build (m + n) element = .ok outer := by
  have hsum : 1 ≤ m + n := Nat.le_add_right_of_le hm
  rcases element.isArray_cases with ⟨inner, rfl⟩ | hplain
  · refine ⟨_, _, build_array hn inner, build_array hm _, ?_⟩
    rw [build_array hsum, Nat.add_assoc]
  · exact ⟨_, _, build_plain hn hplain, build_array hm _, build_plain hsum hplain⟩

/-! ## Taking dimensions off -/

/-- The component of a line of entries is the type of the entries, be they arrays themselves. -/
theorem component_of_build_one (hbuilt : element.Built) (h : build 1 element = .ok type) :
    type.component = element := by
  obtain ⟨_, ⟨inner, rfl, rfl⟩ | ⟨_, rfl⟩⟩ := build_eq_ok.mp h
  · have hpositive := hbuilt.normal.1.positive
    obtain ⟨dimension, innermost, isPrimitive⟩ := inner
    unfold component
    rw [if_neg (by simp only at hpositive ⊢; omega)]
    simp only [Nat.add_sub_cancel_left]
  · rfl

/-- The component of an array of several dimensions is the array of one dimension less. -/
theorem component_of_build_succ (hbuilt : element.Built) (hn : 1 ≤ n)
    (h : build (n + 1) element = .ok type) :
    ∃ inner, build n element = .ok inner ∧ type.component = .array inner := by
  obtain ⟨inner, outer, hinner, houter, hflat⟩ := build_over_build (Nat.le_refl 1) hn element
  rw [Nat.add_comm, h] at hflat
  cases hflat
  exact ⟨inner, hinner, component_of_build_one (.array hbuilt hinner) houter⟩

/-- Where a component is an array, a line of such components is the array again. -/
theorem build_component (h : 2 ≤ type.dimension) : build 1 type.component = .ok type := by
  obtain ⟨dimension, element, isPrimitive⟩ := type
  simp only at h
  unfold component
  rw [if_neg (by simp only; omega), build_array (Nat.le_refl 1)]
  simp only
  rw [Nat.add_sub_cancel' (by omega)]

theorem Normal.pred (h : type.Normal) (hdimension : type.dimension ≠ 1) :
    Normal ⟨type.dimension - 1, type.element, type.isPrimitive⟩ := by
  obtain ⟨hpositive, hinnermost, hunboxed⟩ := h
  exact ⟨by simp only; omega, hinnermost, hunboxed⟩

end ArrayType

namespace OpenType

variable {type : OpenType}

/-- As many components as there are dimensions lead back to what the dimensions were laid over. -/
theorem peel_of_build {n : Nat} {array : ArrayType} (hbuilt : type.Built)
    (h : ArrayType.build n type = .ok array) : (OpenType.array array).peel n = some type := by
  induction n generalizing array with
  | zero => cases h
  | succ n ih =>
    rw [peel]
    rcases Nat.eq_zero_or_pos n with rfl | hn
    · rw [ArrayType.component_of_build_one hbuilt h]
      rfl
    · obtain ⟨inner, hinner, hcomponent⟩ := ArrayType.component_of_build_succ hbuilt hn h
      rw [hcomponent]
      exact ih hinner

/-! ## Layered types -/

theorem Built.component {array : ArrayType} (h : (OpenType.array array).Built) :
    array.component.Built := by
  obtain ⟨hnormal, helement⟩ := h.normal
  unfold ArrayType.component
  split
  · exact helement
  · exact built_array_iff.mpr ⟨hnormal.pred ‹_›, helement⟩

/-- Components are no new types: what the steps lead to is what the constructors build. -/
theorem layered_iff_built : type.Layered ↔ type.Built := by
  refine ⟨?_, ?_⟩
  · intro h
    induction h with
    | plain _ hbuilt => exact hbuilt
    | array _ hbuild ih => exact .array ih hbuild
    | unboxed hbuild => exact .primitive hbuild
    | component _ ih => exact ih.component
  · intro h
    induction h with
    | simple kind => exact .plain rfl (.simple kind)
    | array _ hbuild ih => exact .array ih hbuild
    | primitive hbuild => exact .unboxed hbuild
    | composite hitems hbuild => exact .plain rfl (.composite hitems hbuild)
    | tabular hrow hbuild => exact .plain rfl (.tabular hrow hbuild)

/-- However an array type came about, it is in normal form: it has a dimension, its element is no
array, and it is unboxed only over a kind with an unboxed form. Dimensions over dimensions are as
many dimensions at once, a component is what one dimension was laid over, and as many components
as dimensions lead back to the start. One dimension over the component of an array of several is
the array itself. Types that are one and the same are also equal. -/
theorem dimensions_are_laid_on_and_peel_off (h : type.Layered) :
    (∀ array, type = .array array → array.Normal) ∧
      (∀ m n, 1 ≤ m → 1 ≤ n → ∃ inner outer flat, ArrayType.build n type = .ok inner ∧
        ArrayType.build m (.array inner) = .ok outer ∧
        ArrayType.build (m + n) type = .ok flat ∧ outer = flat) ∧
      (∃ line, ArrayType.build 1 type = .ok line ∧ line.component = type) ∧
      (∀ n, 1 ≤ n → ∃ array, ArrayType.build n type = .ok array ∧
        (OpenType.array array).peel n = some type) ∧
      (∀ array, type = .array array → 2 ≤ array.dimension →
        ArrayType.build 1 array.component = .ok array) ∧
      type.same type = true := by
  have hbuilt := layered_iff_built.mp h
  refine ⟨?_, ?_, ?_, ?_, ?_, same_self hbuilt⟩
  · rintro array rfl
    exact hbuilt.normal.1
  · intro m n hm hn
    obtain ⟨inner, outer, hinner, houter, hflat⟩ := ArrayType.build_over_build hm hn type
    exact ⟨inner, outer, outer, hinner, houter, hflat, rfl⟩
  · obtain ⟨line, _, hline, _⟩ :=
      ArrayType.build_over_build (Nat.le_refl 1) (Nat.le_refl 1) type
    exact ⟨line, hline, ArrayType.component_of_build_one hbuilt hline⟩
  · intro n hn
    obtain ⟨array, _, harray, _⟩ := ArrayType.build_over_build (Nat.le_refl 1) hn type
    exact ⟨array, harray, peel_of_build hbuilt harray⟩
  · rintro array rfl hdimension
    exact ArrayType.build_component hdimension

/-- A grid of unboxed integers, as what is left of three dimensions. It stays unboxed under four
and three more dimensions, and a line of its lines is the grid. -/
theorem a_plane_of_a_cube_of_integers_peels_off :
    ∃ grid : ArrayType, grid = ⟨2, .simple .integer, true⟩ ∧ (OpenType.array grid).Layered ∧
      grid.Normal ∧
      (∃ inner outer flat, ArrayType.build 3 (.array grid) = .ok inner ∧
        ArrayType.build 4 (.array inner) = .ok outer ∧
        ArrayType.build 7 (.array grid) = .ok flat ∧ outer = flat) ∧
      (∃ cube, ArrayType.build 1 (.array grid) = .ok cube ∧ cube.component = .array grid) ∧
      ArrayType.build 1 grid.component = .ok grid := by
  have hline : (OpenType.array ⟨1, .simple .integer, true⟩).Layered :=
    .unboxed (show ArrayType.buildPrimitive .integer = _ from rfl)
  have hcube : (OpenType.array ⟨3, .simple .integer, true⟩).Layered :=
    .array hline (show ArrayType.build 2 _ = _ from rfl)
  have hgrid : (OpenType.array ⟨2, .simple .integer, true⟩).Layered := hcube.component
  obtain ⟨hnormal, hadd, hcomponent, _, hagain, _⟩ := dimensions_are_laid_on_and_peel_off hgrid
  exact ⟨_, rfl, hgrid, hnormal _ rfl, hadd 4 3 (by decide) (by decide), hcomponent,
    hagain _ rfl (by decide)⟩

end OpenType

end ManagementSchema
