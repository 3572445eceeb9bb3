-- The natural order of single values. Two values of one kind can always be
-- compared, and turned round the comparison gives the opposite: so of two
-- values of an ordered type, the one that is not above the other is at most
-- the other.
import ManagementSchema.Proofs.DecimalOrder
import ManagementSchema.Value.Basic

namespace ManagementSchema

/-! ## Decimals, instants and names -/

instance : Std.TransCmp Decimal.compareNumeric := by
  have hnumber : Decimal.compareNumeric = compareOn Decimal.number := by
    funext a b
    exact Decimal.compareNumeric_eq a b
  rw [hnumber]
  infer_instance

instance : Std.TransCmp Instant.compare :=
  inferInstanceAs (Std.TransCmp (compareLex (compareOn Instant.seconds) (compareOn Instant.nano)))

instance : Std.TransCmp ObjectName.compare :=
  inferInstanceAs
    (Std.TransCmp (compareLex (compareOn ObjectName.domain) (compareOn ObjectName.keyList)))

/-! ## Single values -/

namespace Scalar

/-- Two single values are compared when they are of one kind, and only then. -/
theorem compare_isSome (a b : Scalar) : (a.compare b).isSome = true ↔ a.kind = b.kind := by
  cases a <;> cases b <;> simp [Scalar.compare, kind]

theorem compare_swap (a b : Scalar) : a.compare b = (b.compare a).map Ordering.swap := by
  cases a <;> cases b
  case bigDecimal.bigDecimal a b => exact congrArg some Std.OrientedCmp.eq_swap
  case date.date a b => exact congrArg some Std.OrientedCmp.eq_swap
  case objectName.objectName a b => exact congrArg some Std.OrientedCmp.eq_swap
  all_goals first | exact congrArg some Std.OrientedOrd.eq_swap | rfl

/-- Nothing is above or below itself, not even a bit pattern that is no number. -/
theorem compare_self (a : Scalar) : a.compare a = some .eq := by
  cases a <;> exact congrArg some Std.ReflCmp.compare_self

end Scalar

/-! ## Values of an ordered type -/

/-- The first value stands before the second in the natural order, or is level with it. -/
def Value.AtMost (a b : Value) : Prop := a.compare b = some .lt ∨ a.compare b = some .eq

/-- Only kinds are ordered, so the values of an ordered type are single. -/
theorem OpenType.scalar_of_isOrdered {type : OpenType} (h : type.isOrdered = true) {v : Value}
    (hv : type.hasValue v = true) : ∃ s, v = .scalar s ∧ type = .simple s.kind := by
  cases type with
  | simple kind =>
    cases v with
    | scalar s => exact ⟨s, rfl, by simpa [hasValue] using hv⟩
    | array a => simp [hasValue] at hv
    | record r => simp [hasValue] at hv
    | table t => simp [hasValue] at hv
  | array type => simp [isOrdered] at h
  | composite type => simp [isOrdered] at h
  | tabular type => simp [isOrdered] at h

namespace Value

theorem compare_swap (a b : Value) : a.compare b = (b.compare a).map Ordering.swap := by
  cases a <;> cases b
  case scalar.scalar a b => exact Scalar.compare_swap a b
  all_goals rfl

theorem atMost_iff_swap {a b : Value} :
    a.AtMost b ↔ b.compare a = some .gt ∨ b.compare a = some .eq := by
  unfold AtMost
  rw [compare_swap a b]
  rcases b.compare a with _ | _ | _ | _ <;> simp

theorem atMost_self {type : OpenType} (h : type.isOrdered = true) {v : Value}
    (hv : type.hasValue v = true) : v.AtMost v := by
  obtain ⟨s, rfl, _⟩ := type.scalar_of_isOrdered h hv
  exact Or.inr s.compare_self

/-- Only single values are compared, and only those of one kind. -/
theorem compare_isSome_iff {a b : Value} : (a.compare b).isSome = true ↔
    ∃ s t, a = .scalar s ∧ b = .scalar t ∧ s.kind = t.kind := by
  refine ⟨?_, ?_⟩
  · intro h
    cases a with
    | scalar s =>
      cases b with
      | scalar t => exact ⟨s, t, rfl, rfl, (s.compare_isSome t).mp h⟩
      | array b => cases h
      | record b => cases h
      | table b => cases h
    | array a => cases h
    | record a => cases h
    | table a => cases h
  · rintro ⟨s, t, rfl, rfl, hkind⟩
    exact (s.compare_isSome t).mpr hkind

theorem compare_isSome_of_isOrdered {type : OpenType} (h : type.isOrdered = true) {a b : Value}
    (ha : type.hasValue a = true) (hb : type.hasValue b = true) : (a.compare b).isSome = true := by
  obtain ⟨s, rfl, hs⟩ := type.scalar_of_isOrdered h ha
  obtain ⟨t, rfl, ht⟩ := type.scalar_of_isOrdered h hb
  rw [hs] at ht
  exact compare_isSome_iff.mpr ⟨s, t, rfl, rfl, OpenType.simple.inj ht⟩

/-- Values of an ordered type can be compared, so one that is not above another is at most the
other. -/
theorem atMost_iff_not_gt {type : OpenType} (h : type.isOrdered = true) {a b : Value}
    (ha : type.hasValue a = true) (hb : type.hasValue b = true) :
    a.AtMost b ↔ a.compare b ≠ some .gt := by
  have hsome := compare_isSome_of_isOrdered h ha hb
  unfold AtMost
  rcases hc : a.compare b with _ | _ | _ | _
  · simp [hc] at hsome
  · simp
  · simp
  · simp

end Value

end ManagementSchema
