-- What the check of constraints makes sure of, and what follows for those that
-- passed it: they permit the values that they name, and checked again with
-- another default they accept just the defaults that they permit.
import ManagementSchema.Proofs.Equality
import ManagementSchema.Proofs.ValidationRules

namespace ManagementSchema

namespace Constraints

variable {c : Constraints} {v : Value}

/-! ## Constraints that passed the check -/

/-- What the check makes sure of. -/
structure Settled (c : Constraints) : Prop where
  typed : c.Typed
  legal : ∀ legal, c.legal = some legal → legal ≠ [] ∧ Conversions.Distinct legal
  consistent : c.Consistent

theorem settled_of_validate {conversions : Conversions} {type : OpenType}
    {fields : ConstraintFields} (h : validate conversions type fields = .ok c) : c.Settled := by
  obtain ⟨hc, hconsistent⟩ := validate_eq_ok.mp h
  refine ⟨hc.typed, fun legal hlegal => ?_, hconsistent⟩
  obtain ⟨hne, hdistinct, _⟩ := (hlegal ▸ hc.legal).spec
  exact ⟨hne, hdistinct⟩

theorem settled_unconstrained (type : OpenType) : (unconstrained type).Settled := by
  refine ⟨?_, ?_, fun rule => ?_⟩
  · intro v hv
    cases hv
  · intro legal hlegal
    cases hlegal
  · cases rule with
    | alone => intro h; cases h
    | ordered => intro h; rcases h with h | h <;> cases h
    | nonempty => intro min max h; cases h
    | defaultLegal => intro default h; cases h
    | defaultInRange => intro default h; cases h

/-! ## The same values once more -/

/-- The constraints as values that may be checked again. -/
def toValues (c : Constraints) : ConstraintValues := ⟨c.default, c.min, c.max, c.legal⟩

variable {other : Conversions} {type : OpenType}

theorem fieldBecomes_native {v w : Option Value} :
    FieldBecomes other type (v.map .native) w ↔
      w = v ∧ ∀ x, v = some x → type.hasValue x = true := by
  cases v with
  | none =>
    refine ⟨?_, ?_⟩
    · rintro ⟨⟩
      simp
    · rintro ⟨rfl, _⟩
      exact .absent
  | some v =>
    refine ⟨?_, ?_⟩
    · rintro (_ | hw)
      obtain ⟨rfl, hv⟩ := Conversions.coerce_native.mp hw
      simp [hv]
    · rintro ⟨rfl, hv⟩
      exact .value (Conversions.coerce_native.mpr ⟨rfl, hv v rfl⟩)

theorem legalBecomes_natives {legal given : Option (List Value)}
    (h : ∀ values, legal = some values → values ≠ [] ∧ Conversions.Distinct values) :
    LegalBecomes other type (legal.map fun values => .set (values.map .native)) given ↔
      given = legal ∧ ∀ values, legal = some values → ∀ v ∈ values, type.hasValue v = true := by
  cases legal with
  | none =>
    refine ⟨?_, ?_⟩
    · rintro ⟨⟩
      simp
    · rintro ⟨rfl, _⟩
      exact .absent
  | some values =>
    obtain ⟨hne, hdistinct⟩ := h values rfl
    refine ⟨?_, ?_⟩
    · rintro (_ | hempty | ⟨hgiven, _⟩)
      · exact absurd (List.map_eq_nil_iff.mp hempty) hne
      · obtain ⟨rfl, hvalues⟩ := (Conversions.coerceLegal_natives hdistinct).mp hgiven
        exact ⟨rfl, fun _ heq => by cases heq; exact hvalues⟩
    · rintro ⟨rfl, hvalues⟩
      exact .values
        ((Conversions.coerceLegal_natives hdistinct).mpr ⟨rfl, hvalues values rfl⟩) hne

/-- Finished values coerce to themselves, whatever conversions are registered. -/
theorem coerced_toValues {d : Constraints}
    (h : ∀ legal, c.legal = some legal → legal ≠ [] ∧ Conversions.Distinct legal) :
    Coerced other c.type c.toValues.toFields d ↔ d = c ∧ c.Typed := by
  refine ⟨?_, ?_⟩
  · rintro ⟨hofType, hdefault, hmin, hmax, hlegal⟩
    obtain ⟨hdefault, hdefaultTyped⟩ := fieldBecomes_native.mp hdefault
    obtain ⟨hmin, hminTyped⟩ := fieldBecomes_native.mp hmin
    obtain ⟨hmax, hmaxTyped⟩ := fieldBecomes_native.mp hmax
    obtain ⟨hlegal, hlegalTyped⟩ := (legalBecomes_natives h).mp hlegal
    refine ⟨?_, ?_⟩
    · cases c
      cases d
      simp_all [toValues]
    · intro v hv
      rcases mem_values.mp hv with hv | hv | hv | ⟨legal, heq, hv⟩
      · exact hdefaultTyped v hv
      · exact hminTyped v hv
      · exact hmaxTyped v hv
      · exact hlegalTyped legal heq v hv
  · rintro ⟨rfl, htyped⟩
    refine ⟨rfl, fieldBecomes_native.mpr ⟨rfl, ?_⟩, fieldBecomes_native.mpr ⟨rfl, ?_⟩,
      fieldBecomes_native.mpr ⟨rfl, ?_⟩, (legalBecomes_natives h).mpr ⟨rfl, ?_⟩⟩
    · exact fun v hv => htyped v (default_mem_values hv)
    · exact fun v hv => htyped v (min_mem_values hv)
    · exact fun v hv => htyped v (max_mem_values hv)
    · exact fun legal hlegal v hv => htyped v (legal_mem_values hlegal hv)

/-- Checked again, constraints are accepted just when they are settled, and come back as they
are. -/
theorem validateValues_eq_ok (c : Constraints) {d : Constraints}
    (h : ∀ legal, c.legal = some legal → legal ≠ [] ∧ Conversions.Distinct legal) :
    validateValues other c.type c.toValues = .ok d ↔ d = c ∧ c.Settled := by
  unfold validateValues
  rw [validate_eq_ok, coerced_toValues h]
  refine ⟨?_, ?_⟩
  · rintro ⟨⟨rfl, htyped⟩, hconsistent⟩
    exact ⟨rfl, htyped, h, hconsistent⟩
  · rintro ⟨rfl, hsettled⟩
    exact ⟨⟨rfl, hsettled.typed⟩, hsettled.consistent⟩

/-! ## Another default -/

/-- Settled constraints stay so with another default, if they permit it, and only then. -/
theorem Settled.withDefault_iff (h : c.Settled) :
    ({ c with default := some v } : Constraints).Settled ↔ c.permits v = true := by
  rw [permits_iff]
  refine ⟨?_, ?_⟩
  · rintro ⟨htyped, _, hconsistent⟩
    refine ⟨htyped v (default_mem_values rfl), ?_, ?_⟩
    · exact hconsistent .defaultLegal v rfl
    · exact hconsistent .defaultInRange v rfl
  · rintro ⟨hv, hlists, hbounds⟩
    refine ⟨fun w hw => ?_, h.legal, fun rule => ?_⟩
    · rcases mem_values.mp hw with hw | hw
      · cases hw
        exact hv
      · exact h.typed w (mem_values.mpr (.inr hw))
    · cases rule with
      | alone => exact h.consistent .alone
      | ordered => exact h.consistent .ordered
      | nonempty => exact h.consistent .nonempty
      | defaultLegal =>
        rintro default ⟨⟩
        exact hlists
      | defaultInRange =>
        rintro default ⟨⟩
        exact hbounds

/-- The values that checked constraints permit are just those that the check accepts as the
default beside the other constraints, whatever conversions are registered. -/
theorem permitted_values_are_the_accepted_defaults {conversions : Conversions} {type : OpenType}
    {fields : ConstraintFields} {c : Constraints} (h : validate conversions type fields = .ok c)
    (other : Conversions) (v : Value) :
    (c.permits v = true ↔
      ∃ d, validateValues other type { c.toValues with default := some v } = .ok d) ∧
    ∀ d, validateValues other type { c.toValues with default := some v } = .ok d →
      d = { c with default := some v } := by
  have hsettled : c.Settled := settled_of_validate h
  obtain rfl : c.type = type := (validate_eq_ok.mp h).1.ofType
  have hagain : ∀ d,
      validateValues other c.type { c.toValues with default := some v } = .ok d ↔
        d = { c with default := some v } ∧ c.permits v = true := by
    intro d
    rw [← hsettled.withDefault_iff]
    exact validateValues_eq_ok { c with default := some v } hsettled.legal
  simp only [hagain]
  refine ⟨?_, ?_⟩
  · refine ⟨?_, ?_⟩
    · intro hv
      exact ⟨_, rfl, hv⟩
    · rintro ⟨d, _, hv⟩
      exact hv
  · rintro d ⟨hd, _⟩
    exact hd

/-- A default may be level with a bound that is written with another scale. -/
theorem a_bound_is_accepted_as_default_in_another_scale :
    ∃ d, validateValues .empty (.simple .bigDecimal)
      { default := some (.scalar (.bigDecimal ⟨100, 2⟩)),
        min := some (.scalar (.bigDecimal ⟨10, 1⟩)),
        max := some (.scalar (.bigDecimal ⟨5, 0⟩)) } = .ok d := by
  have h : validate .empty (.simple .bigDecimal)
      { min := some (.text "1.0"), max := some (.text "5") } =
      .ok { type := .simple .bigDecimal,
            min := some (.scalar (.bigDecimal ⟨10, 1⟩)),
            max := some (.scalar (.bigDecimal ⟨5, 0⟩)) } := rfl
  exact (permitted_values_are_the_accepted_defaults h .empty
    (.scalar (.bigDecimal ⟨100, 2⟩))).1.mp (by decide)

/-! ## No contradiction -/

theorem Coerced.built {conversions : Conversions} {fields : ConstraintFields}
    (hc : conversions.Built) (hf : fields.Built) (h : Coerced conversions type fields c) :
    ∀ v ∈ c.values, v.Built := by
  have hfield : ∀ field w, FieldBecomes conversions type (fields.get? field) (some w) →
      w.Built := by
    intro field w hw
    rcases hraw : fields.get? field with _ | raw
    · rw [hraw] at hw
      cases hw
    · rw [hraw] at hw
      rcases hw with _ | hw
      exact hc.coerce (hf field raw hraw) hw
  intro v hv
  rcases mem_values.mp hv with hv | hv | hv | ⟨legal, hlegal, hv⟩
  · exact hfield .defaultValue v (hv ▸ h.default)
  · exact hfield .minValue v (hv ▸ h.min)
  · exact hfield .maxValue v (hv ▸ h.max)
  · have hbecomes := h.legal
    rw [hlegal] at hbecomes
    rcases hraw : fields.legal with _ | raw
    · rw [hraw] at hbecomes
      cases hbecomes
    · rw [hraw] at hbecomes
      rcases hbecomes with _ | _ | ⟨hcoerce, _⟩
      exact hc.coerceLegal (hf .legalValues raw hraw) hcoerce v hv

/-- Settled constraints permit each value that they name. -/
theorem Settled.permits (h : c.Settled) (hbuilt : ∀ v ∈ c.values, v.Built) :
    ∀ v ∈ c.values, c.permits v = true := by
  intro v hv
  have htyped : c.type.hasValue v = true := h.typed v hv
  -- Beside a bound there are no legal values.
  have halone : ∀ bound, c.min = some bound ∨ c.max = some bound → c.Lists v := by
    intro bound hbound legal hlegal
    obtain ⟨hmin, hmax⟩ := h.consistent .alone (by rw [hlegal]; rfl)
    rw [hmin, hmax] at hbound
    rcases hbound with hbound | hbound <;> cases hbound
  rw [permits_iff]
  refine ⟨htyped, ?_⟩
  rcases mem_values.mp hv with hdefault | hmin | hmax | ⟨legal, hlegal, hmem⟩
  · exact ⟨h.consistent .defaultLegal v hdefault, h.consistent .defaultInRange v hdefault⟩
  · have hordered : c.type.isOrdered = true := h.consistent .ordered (.inl (by rw [hmin]; rfl))
    refine ⟨halone v (.inl hmin), ?_, fun max hmax => h.consistent .nonempty v max hmin hmax⟩
    intro min heq
    cases hmin.symm.trans heq
    exact Value.atMost_self hordered htyped
  · have hordered : c.type.isOrdered = true := h.consistent .ordered (.inr (by rw [hmax]; rfl))
    refine ⟨halone v (.inr hmax), fun min hmin => h.consistent .nonempty min v hmin hmax, ?_⟩
    intro max heq
    cases hmax.symm.trans heq
    exact Value.atMost_self hordered htyped
  · obtain ⟨hmin, hmax⟩ := h.consistent .alone (by rw [hlegal]; rfl)
    refine ⟨?_, ?_, ?_⟩
    · intro values hvalues
      cases hlegal.symm.trans hvalues
      exact ⟨v, hmem, Value.same_self (hbuilt v hv)⟩
    · simp [hmin]
    · simp [hmax]

/-- Constraints that pass the check do not contradict themselves: each value that they name is of
the type and permitted, and legal values are there only without bounds, at least one of them, and
none twice. -/
theorem checked_constraints_permit_their_own_values {conversions : Conversions} {type : OpenType}
    {fields : ConstraintFields} {c : Constraints} (hc : conversions.Built) (hf : fields.Built)
    (h : validate conversions type fields = .ok c) :
    (∀ v ∈ c.values, c.permits v = true) ∧
    (∀ legal, c.legal = some legal →
      legal ≠ [] ∧ Conversions.Distinct legal ∧ c.min = none ∧ c.max = none) ∧
    ∀ v ∈ c.values, type.hasValue v = true := by
  have hsettled : c.Settled := settled_of_validate h
  obtain ⟨hcoerced, hconsistent⟩ := validate_eq_ok.mp h
  refine ⟨hsettled.permits (hcoerced.built hc hf), ?_, ?_⟩
  · intro legal hlegal
    obtain ⟨hne, hdistinct⟩ := hsettled.legal legal hlegal
    obtain ⟨hmin, hmax⟩ := hconsistent .alone (by rw [hlegal]; rfl)
    exact ⟨hne, hdistinct, hmin, hmax⟩
  · rw [← hcoerced.ofType]
    exact hsettled.typed

/-- A legal value is permitted, also where it was stated twice. -/
theorem a_repeated_legal_value_is_permitted :
    permits { type := .simple .integer, legal := some [.scalar (.integer 1), .scalar (.integer 2)] }
      (.scalar (.integer 1)) = true := by
  have h : validate .empty (.simple .integer)
      { legal := some (.sequence [.text "1", .text "2", .text "1"]) } =
      .ok { type := .simple .integer,
            legal := some [.scalar (.integer 1), .scalar (.integer 2)] } := rfl
  have hf : ConstraintFields.Built
      { legal := some (.sequence [.text "1", .text "2", .text "1"]) } := by
    rintro (_ | _ | _ | _) raw ⟨⟩
    refine .sequence ?_
    simp [Raw.Built.text]
  exact (checked_constraints_permit_their_own_values (fun entry hentry => by cases hentry) hf h).1
    (.scalar (.integer 1)) (by simp [values])

end Constraints

end ManagementSchema
