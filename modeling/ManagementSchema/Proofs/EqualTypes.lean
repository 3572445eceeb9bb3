-- Equal types are interchangeable: wherever constraints are read and checked,
-- a type is asked for its kind, its names and its values, and for the
-- conversions that are registered for it. Equal types answer all of this alike.
import ManagementSchema.Proofs.Congruence
import ManagementSchema.Proofs.TableRuns

namespace ManagementSchema

/-! ## What a type is asked for -/

/-- The letter of an unboxed kind stands for the element, or else its class name does. -/
theorem ArrayType.className_eq (type : ArrayType) : type.className =
    String.ofList (List.replicate type.dimension '[') ++
      match if type.isPrimitive then type.element.kind?.bind Kind.primitiveCode? else none with
      | some code => String.singleton code
      | none => "L" ++ type.element.className ++ ";" := by
  obtain ⟨dimension, element, isPrimitive⟩ := type
  cases isPrimitive with
  | false => rfl
  | true => cases element <;> rfl

namespace OpenType

variable {a b : OpenType}

theorem kind?_of_same (h : a.same b = true) : a.kind? = b.kind? := by
  cases a with
  | simple kind => rw [same_simple_iff.mp h]
  | array type =>
    obtain ⟨_, rfl, _⟩ := same_array_iff.mp h
    rfl
  | composite type =>
    obtain ⟨_, rfl, _⟩ := same_composite_iff.mp h
    rfl
  | tabular type =>
    obtain ⟨_, rfl, _⟩ := same_tabular_iff.mp h
    rfl

theorem className_of_same (h : a.same b = true) : a.className = b.className := by
  induction a generalizing b with
  | simple kind => rw [same_simple_iff.mp h]
  | array type ih =>
    obtain ⟨other, rfl, hdimension, helement, hprimitive⟩ := same_array_iff.mp h
    unfold className
    rw [ArrayType.className_eq, ArrayType.className_eq, hdimension, hprimitive,
      kind?_of_same helement, ih helement]
  | composite type _ =>
    obtain ⟨_, rfl, _⟩ := same_composite_iff.mp h
    rfl
  | tabular type _ =>
    obtain ⟨_, rfl, _⟩ := same_tabular_iff.mp h
    rfl

theorem name_of_same (h : a.same b = true) : a.name = b.name := by
  cases a with
  | simple kind => rw [same_simple_iff.mp h]
  | array type =>
    have hclass := className_of_same h
    obtain ⟨_, rfl, _⟩ := same_array_iff.mp h
    exact hclass
  | composite type =>
    obtain ⟨_, rfl, hname, _⟩ := same_composite_iff.mp h
    exact hname
  | tabular type =>
    obtain ⟨_, rfl, hname, _⟩ := same_tabular_iff.mp h
    exact hname

theorem isOrdered_of_same (h : a.same b = true) : a.isOrdered = b.isOrdered := by
  have hordered : ∀ type : OpenType, type.isOrdered = (type.kind?.map Kind.isOrdered).getD false := by
    intro type
    cases type <;> rfl
  rw [hordered a, hordered b, kind?_of_same h]

/-- Equal types accept each other, so they have the same values. -/
theorem hasValue_eq_of_same (ha : a.Built) (hb : b.Built) (h : a.same b = true) (v : Value) :
    a.hasValue v = b.hasValue v := by
  obtain ⟨hab, hba⟩ := (same_iff_accepts ha hb).mp h
  rw [Bool.eq_iff_iff]
  exact ⟨hasValue_of_accepts hba, hasValue_of_accepts hab⟩

/-- Equality with a third type does not tell equal types apart. -/
theorem same_congr {other : OpenType} (ho : other.Built) (ha : a.Built) (hb : b.Built)
    (h : a.same b = true) : other.same a = other.same b := by
  rw [Bool.eq_iff_iff]
  refine ⟨?_, ?_⟩
  · intro hother
    exact same_trans ho ha hb hother h
  · intro hother
    exact same_trans ho hb ha hother (same_symm ha hb h)

end OpenType

/-! ## Conversions -/

namespace Conversions

variable {c : Conversions} {a b : OpenType}

/-- The types with a conversion are built. -/
def OverBuilt (c : Conversions) : Prop := ∀ entry ∈ c.entries, entry.1.Built

theorem find?_congr (hc : c.OverBuilt) (ha : a.Built) (hb : b.Built) (h : a.same b = true) :
    c.find? a = c.find? b := by
  have hentries : ∀ entry ∈ c.entries, entry.1.same a = entry.1.same b :=
    fun entry hentry => OpenType.same_congr (hc entry hentry) ha hb h
  unfold find?
  rw [List.find?_congr hentries]

theorem refusalOf_congr (h : a.same b = true) : refusalOf a = refusalOf b := by
  funext text e
  cases e <;> simp only [refusalOf, OpenType.className_of_same h]

/-- A text of a type that is not of single values is left to the conversion for the type. -/
theorem ofText_of_kind?_eq_none {type : OpenType} (h : type.kind? = none) (text : String) :
    c.ofText type text =
      match (c.find? type).bind TextConversion.function? with
      | some f => (f text).mapError (refusalOf type text)
      | none => .error ⟨type.className, Text.quoted text, .nonConvertible⟩ := by
  cases type with
  | simple kind => cases h
  | _ => rfl

theorem ofText_congr (hc : c.OverBuilt) (ha : a.Built) (hb : b.Built) (h : a.same b = true)
    (text : String) : c.ofText a text = c.ofText b text := by
  rcases hkind : a.kind? with _ | kind
  · rw [ofText_of_kind?_eq_none hkind,
      ofText_of_kind?_eq_none ((OpenType.kind?_of_same h).symm.trans hkind),
      find?_congr hc ha hb h, refusalOf_congr h, OpenType.className_of_same h]
  · cases a with
    | simple kind => rw [OpenType.same_simple_iff.mp h]
    | _ => cases hkind

theorem coerce_congr (hc : c.OverBuilt) (ha : a.Built) (hb : b.Built) (h : a.same b = true)
    (raw : Raw) : c.coerce a raw = c.coerce b raw := by
  have hraw : c.ofRaw a raw = c.ofRaw b raw := by
    cases raw with
    | native v => rfl
    | text s => exact ofText_congr hc ha hb h s
    | sequence items => simp only [ofRaw, OpenType.className_of_same h]
    | set items => simp only [ofRaw, OpenType.className_of_same h]
  unfold coerce
  simp only [hraw, OpenType.hasValue_eq_of_same ha hb h, OpenType.className_of_same h,
    OpenType.name_of_same h]

theorem elementRaws_congr (h : a.same b = true) (index : Nat) (elements : List (Option Value)) :
    elementRaws a index elements = elementRaws b index elements := by
  induction elements generalizing index with
  | nil => rfl
  | cons element rest ih =>
    cases element with
    | none => simp only [elementRaws, OpenType.className_of_same h]
    | some v => simp only [elementRaws, ih]

theorem collectionRaws_congr (h : a.same b = true) (raw : Raw) :
    collectionRaws a raw = collectionRaws b raw := by
  cases raw with
  | native v =>
    cases v with
    | array array => simp only [collectionRaws, elementRaws_congr h]
    | _ => rfl
  | _ => rfl

theorem coerceLegal_congr (hc : c.OverBuilt) (ha : a.Built) (hb : b.Built) (h : a.same b = true)
    (raw : Raw) : c.coerceLegal a raw = c.coerceLegal b raw := by
  have hcoerce : c.coerce a = c.coerce b := funext (coerce_congr hc ha hb h)
  unfold coerceLegal
  rw [collectionRaws_congr h, hcoerce]

end Conversions

/-! ## Constraints -/

namespace Constraints

variable {conversions : Conversions} {a b : OpenType} {c : Constraints}

theorem check_withType (h : c.type.same b = true) : check { c with type := b } = check c := by
  have horder : checkOrder { c with type := b } = checkOrder c := by
    unfold checkOrder
    simp only [OpenType.isOrdered_of_same h, OpenType.name_of_same h]
  unfold check
  rw [horder]
  rfl

/-- The check of raw fields goes one way for equal types; only the type itself is handed on. -/
theorem validate_congr (hc : conversions.OverBuilt) (ha : a.Built) (hb : b.Built)
    (h : a.same b = true) (fields : ConstraintFields) :
    validate conversions b fields =
      (validate conversions a fields).map fun r => { r with type := b } := by
  have hfield : coerceField conversions b = coerceField conversions a := by
    funext raw
    cases raw with
    | none => rfl
    | some raw => simp only [coerceField, Conversions.coerce_congr hc ha hb h]
  have hlegal : coerceLegalField conversions b = coerceLegalField conversions a := by
    funext raw
    cases raw with
    | none => rfl
    | some raw => simp only [coerceLegalField, Conversions.coerceLegal_congr hc ha hb h]
  unfold validate
  rw [hfield, hlegal]
  rcases coerceField conversions a fields.default with e | default
  · rfl
  rcases coerceField conversions a fields.min with e | min
  · rfl
  rcases coerceField conversions a fields.max with e | max
  · rfl
  rcases coerceLegalField conversions a fields.legal with e | legal
  · rfl
  simp only [Outcome.ok_bind]
  have hcheck := check_withType (c := { type := a, default, min, max, legal }) h
  rw [hcheck]
  rcases check { type := a, default, min, max, legal } with e | _
  · rfl
  · rfl

theorem permits_withType (hc : c.type.Built) (hb : b.Built) (h : c.type.same b = true)
    (v : Value) : permits { c with type := b } v = c.permits v := by
  unfold permits
  rw [OpenType.hasValue_eq_of_same hc hb h]

theorem same_withType (hc : c.Built) (h : c.type.same b = true) :
    c.same { c with type := b } = true := by
  have hself := hc.same_self
  unfold same at hself ⊢
  rw [h]
  rwa [OpenType.same_self hc.ofType] at hself

end Constraints

/-! ## The law -/

/-- Of two equal types the one may stand for the other wherever constraints are handled, whatever
conversions are registered: a raw value or a collection becomes the same value or is refused with
the same error, and raw fields either fail their check with the same error or give constraints that
are equal, but for the type with the same values, and permit the same values. -/
theorem equal_types_are_interchangeable {a b : OpenType} (ha : a.Built) (hb : b.Built)
    (h : a.same b = true) {c : Conversions} (hc : c.OverBuilt) :
    (∀ raw, c.coerce a raw = c.coerce b raw) ∧
    (∀ raw, c.coerceLegal a raw = c.coerceLegal b raw) ∧
    ∀ fields,
      (∃ e, Constraints.validate c a fields = .error e ∧
        Constraints.validate c b fields = .error e) ∨
      ∃ r r', Constraints.validate c a fields = .ok r ∧ Constraints.validate c b fields = .ok r' ∧
        r' = { r with type := b } ∧ (∀ v, r.permits v = r'.permits v) ∧
        (c.Built → fields.Built → r.same r' = true) := by
  refine ⟨Conversions.coerce_congr hc ha hb h, Conversions.coerceLegal_congr hc ha hb h, ?_⟩
  intro fields
  have hvalidate := Constraints.validate_congr hc ha hb h fields
  rcases hr : Constraints.validate c a fields with e | r
  · rw [hr] at hvalidate
    exact .inl ⟨e, rfl, hvalidate⟩
  · rw [hr] at hvalidate
    obtain rfl : r.type = a := (Constraints.validate_eq_ok.mp hr).1.ofType
    refine .inr ⟨r, { r with type := b }, rfl, hvalidate, rfl, ?_, ?_⟩
    · exact fun v => (Constraints.permits_withType ha hb h v).symm
    · intro hfunctions hfields
      exact Constraints.same_withType (Constraints.built_of_validate ha hfunctions hfields hr) h

/-- The point at zero. -/
def origin : Value := .record (Table.point 0 0)

/-- A conversion that is registered for points serves points that are declared the other way
round. -/
theorem a_conversion_serves_points_declared_otherwise :
    ∃ r r', Constraints.validate
        (Conversions.empty.withValueOf (.composite (OpenType.points ["x", "y"])) fun _ => .ok origin)
        (.composite (OpenType.points ["x", "y"])) { default := some (.text "origin") } = .ok r ∧
      Constraints.validate
        (Conversions.empty.withValueOf (.composite (OpenType.points ["x", "y"])) fun _ => .ok origin)
        (.composite (OpenType.points ["y", "x"])) { default := some (.text "origin") } = .ok r' ∧
      r'.default = some origin ∧ r.same r' = true := by
  have ha : (OpenType.composite (OpenType.points ["x", "y"])).Built :=
    OpenType.built_points (by decide) (by decide) (by decide)
  have hb : (OpenType.composite (OpenType.points ["y", "x"])).Built :=
    OpenType.built_points (by decide) (by decide) (by decide)
  have hc : Conversions.OverBuilt (Conversions.empty.withValueOf
      (.composite (OpenType.points ["x", "y"])) fun _ => .ok origin) := by
    intro entry hentry
    obtain rfl := List.mem_singleton.mp hentry
    exact ha
  have hfunctions : Conversions.Built (Conversions.empty.withValueOf
      (.composite (OpenType.points ["x", "y"])) fun _ => .ok origin) := by
    intro entry hentry f hf text v hv
    obtain rfl := List.mem_singleton.mp hentry
    rcases hf with hf | hf
    · cases hf
      cases hv
      exact Table.built_point 0 0
    · cases hf
  have hfields : ConstraintFields.Built { default := some (.text "origin") } := by
    intro field raw hraw
    cases field
    · cases hraw
      exact .text "origin"
    all_goals cases hraw
  obtain ⟨_, _, hvalidate⟩ := equal_types_are_interchangeable ha hb (by decide) hc
  rcases hvalidate { default := some (.text "origin") } with
    ⟨e, he, _⟩ | ⟨r, r', hr, hr', rfl, _, hsame⟩
  · cases he
  · have hequal := hsame hfunctions hfields
    cases hr
    exact ⟨_, _, rfl, hr', rfl, hequal⟩

end ManagementSchema
