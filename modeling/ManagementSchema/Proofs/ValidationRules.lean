-- The rules that constraints must keep, stated without the order in which the
-- code looks at them, and the laws of the check: it succeeds on just those
-- fields that coerce and keep the rules, and else it reports the first failure.
import ManagementSchema.Constraint.Validation
import ManagementSchema.Proofs.Coercion
import ManagementSchema.Proofs.NaturalOrder

namespace ManagementSchema

namespace Constraints

variable {c : Constraints} {v : Value}

/-! ## Permitted values -/

/-- The value is equal to one of the legal values, if there are any. -/
def Lists (c : Constraints) (v : Value) : Prop :=
  ∀ legal, c.legal = some legal → ∃ w ∈ legal, w.same v = true

/-- The value is between the bounds that are there, or level with one. -/
def Bounds (c : Constraints) (v : Value) : Prop :=
  (∀ min, c.min = some min → min.AtMost v) ∧ (∀ max, c.max = some max → v.AtMost max)

theorem isLegal_iff : isLegal v c.legal = true ↔ c.Lists v := by
  unfold isLegal Lists
  rcases c.legal with _ | legal
  · simp
  · simp [List.any_eq_true]

theorem inRange_iff : inRange v c.min c.max = true ↔ c.Bounds v := by
  have habove : isAbove v c.min = true ↔ ∀ min, c.min = some min → min.AtMost v := by
    simp only [Value.atMost_iff_swap]
    rcases c.min with _ | min <;> simp [isAbove]
  have hbelow : isBelow v c.max = true ↔ ∀ max, c.max = some max → v.AtMost max := by
    unfold Value.AtMost
    rcases c.max with _ | max <;> simp [isBelow]
  rw [inRange, Bool.and_eq_true, habove, hbelow, Bounds]

theorem permits_iff :
    c.permits v = true ↔ c.type.hasValue v = true ∧ c.Lists v ∧ c.Bounds v := by
  rw [permits, Bool.and_eq_true, Bool.and_eq_true, isLegal_iff, inRange_iff, and_assoc]

/-- All values that the constraints name. -/
def values (c : Constraints) : List Value :=
  c.default.toList ++ c.min.toList ++ c.max.toList ++ c.legal.getD []

/-- The constraints name values of their type only. -/
def Typed (c : Constraints) : Prop := ∀ v ∈ c.values, c.type.hasValue v = true

theorem mem_values :
    v ∈ c.values ↔ c.default = some v ∨ c.min = some v ∨ c.max = some v ∨
      ∃ legal, c.legal = some legal ∧ v ∈ legal := by
  rcases h : c.legal with _ | legal <;> simp [values, h]

theorem default_mem_values (h : c.default = some v) : v ∈ c.values := mem_values.mpr (.inl h)

theorem min_mem_values (h : c.min = some v) : v ∈ c.values := mem_values.mpr (.inr (.inl h))

theorem max_mem_values (h : c.max = some v) : v ∈ c.values :=
  mem_values.mpr (.inr (.inr (.inl h)))

theorem legal_mem_values {legal : List Value} (h : c.legal = some legal) (hv : v ∈ legal) :
    v ∈ c.values :=
  mem_values.mpr (.inr (.inr (.inr ⟨legal, h, hv⟩)))

/-! ## The rules -/

/-- The rules about constraints that are coerced, in the order in which they are checked. -/
inductive Rule where
  | alone
  | ordered
  | nonempty
  | defaultLegal
  | defaultInRange
  deriving DecidableEq, Repr

/-- All rules, in their order. -/
def Rule.all : List Rule := [alone, ordered, nonempty, defaultLegal, defaultInRange]

/-- What a rule asks for. -/
def Keeps (c : Constraints) : Rule → Prop
  | .alone => c.legal.isSome → c.min = none ∧ c.max = none
  | .ordered => c.min.isSome ∨ c.max.isSome → c.type.isOrdered = true
  | .nonempty => ∀ min max, c.min = some min → c.max = some max → min.AtMost max
  | .defaultLegal => ∀ default, c.default = some default → c.Lists default
  | .defaultInRange => ∀ default, c.default = some default → c.Bounds default

/-- The constraints fit each other. -/
def Consistent (c : Constraints) : Prop := ∀ rule, c.Keeps rule

/-- A rule that is broken, with the error that says so. -/
inductive Breaks (c : Constraints) : Rule → ConstraintError → Prop
  | beside {fields : RangeFields} : c.legal.isSome → rangeFields c.min c.max = some fields →
      Breaks c .alone (.conflict fields)
  | minUnordered : c.type.isOrdered = false → c.min.isSome →
      Breaks c .ordered (.unsupported .minValue c.type.name)
  | maxUnordered : c.type.isOrdered = false → c.min = none → c.max.isSome →
      Breaks c .ordered (.unsupported .maxValue c.type.name)
  | empty {min max : Value} : c.min = some min → c.max = some max → ¬ min.AtMost max →
      Breaks c .nonempty (.emptyRange min.render max.render)
  | illegal {default : Value} : c.default = some default → ¬ c.Lists default →
      Breaks c .defaultLegal (.defaultNotLegal default.render)
  | outside {default : Value} : c.default = some default → ¬ c.Bounds default →
      Breaks c .defaultInRange
        (.defaultOutOfRange default.render (c.min.map Value.render) (c.max.map Value.render))

/-- A rule is kept unless it is broken with some error. -/
theorem keeps_iff {rule : Rule} : c.Keeps rule ↔ ∀ e, ¬ c.Breaks rule e := by
  cases rule with
  | alone =>
    refine ⟨?_, ?_⟩
    · rintro h e ⟨hlegal, hfields⟩
      rw [(h hlegal).1, (h hlegal).2] at hfields
      cases hfields
    · intro h hlegal
      rcases hfields : rangeFields c.min c.max with _ | fields
      · revert hfields
        rcases c.min with _ | _ <;> rcases c.max with _ | _ <;> simp [rangeFields]
      · exact absurd (.beside hlegal hfields) (h _)
  | ordered =>
    refine ⟨?_, ?_⟩
    · rintro h e (_ | ⟨hunordered, hmin⟩ | ⟨hunordered, _, hmax⟩)
      · simp [h (.inl hmin)] at hunordered
      · simp [h (.inr hmax)] at hunordered
    · intro h hbounds
      by_contra hordered
      rw [Bool.not_eq_true] at hordered
      rcases hmin : c.min with _ | min
      · rw [hmin] at hbounds
        exact h _ (.maxUnordered hordered hmin (by simpa using hbounds))
      · exact h _ (.minUnordered hordered (by rw [hmin]; rfl))
  | nonempty =>
    refine ⟨?_, ?_⟩
    · rintro h e (_ | _ | _ | ⟨hmin, hmax, hempty⟩)
      exact hempty (h _ _ hmin hmax)
    · intro h min max hmin hmax
      by_contra hempty
      exact h _ (.empty hmin hmax hempty)
  | defaultLegal =>
    refine ⟨?_, ?_⟩
    · rintro h e (_ | _ | _ | _ | ⟨hdefault, hlists⟩)
      exact hlists (h _ hdefault)
    · intro h default hdefault
      by_contra hlists
      exact h _ (.illegal hdefault hlists)
  | defaultInRange =>
    refine ⟨?_, ?_⟩
    · rintro h e (_ | _ | _ | _ | _ | ⟨hdefault, hbounds⟩)
      exact hbounds (h _ hdefault)
    · intro h default hdefault
      by_contra hbounds
      exact h _ (.outside hdefault hbounds)

/-! ## The checks -/

theorem checkConflict_eq_error {e : ConstraintError} :
    checkConflict c = .error e ↔ c.Breaks .alone e := by
  unfold checkConflict
  refine ⟨?_, ?_⟩
  · intro h
    split at h
    · rename_i hlegal hfields
      cases h
      exact .beside (by rw [hlegal]; rfl) hfields
    · cases h
  · rintro ⟨hlegal, hfields⟩
    obtain ⟨legal, hlegal⟩ := Option.isSome_iff_exists.mp hlegal
    rw [hlegal, hfields]

theorem checkOrder_eq_error {e : ConstraintError} :
    checkOrder c = .error e ↔ c.Breaks .ordered e := by
  unfold checkOrder
  refine ⟨?_, ?_⟩
  · intro h
    split at h
    · cases h
    · rename_i hordered
      rw [Bool.not_eq_true] at hordered
      split at h
      · rename_i hmin
        cases h
        exact .minUnordered hordered hmin
      · rename_i hmin
        split at h
        · rename_i hmax
          cases h
          exact .maxUnordered hordered (by simpa using hmin) hmax
        · cases h
  · rintro (_ | ⟨hordered, hmin⟩ | ⟨hordered, hmin, hmax⟩)
    · simp [hordered, hmin]
    · simp [hordered, hmin, hmax]

/-- Once the bounds are known to have an order, two of them can be compared. -/
theorem checkRange_eq_error (ht : c.Typed) (ho : c.Keeps .ordered) {e : ConstraintError} :
    checkRange c = .error e ↔ c.Breaks .nonempty e := by
  have hgap : ∀ min max, c.min = some min → c.max = some max →
      (min.compare max = some .gt ↔ ¬ min.AtMost max) := by
    intro min max hmin hmax
    have hordered : c.type.isOrdered = true := ho (.inl (by rw [hmin]; rfl))
    rw [Value.atMost_iff_not_gt hordered (ht _ (min_mem_values hmin))
      (ht _ (max_mem_values hmax)), not_not]
  unfold checkRange
  refine ⟨?_, ?_⟩
  · intro h
    split at h
    · rename_i hmin hmax
      split at h
      · rename_i hgt
        cases h
        exact .empty hmin hmax ((hgap _ _ hmin hmax).mp hgt)
      · cases h
    · cases h
  · intro hbreaks
    cases hbreaks with
    | @empty min max hmin hmax hempty => simp [hmin, hmax, (hgap min max hmin hmax).mpr hempty]

theorem checkDefault_eq_error {e : ConstraintError} :
    checkDefault c = .error e ↔
      Outcome.FirstFailure c.Breaks [.defaultLegal, .defaultInRange] e := by
  unfold checkDefault
  refine ⟨?_, ?_⟩
  · intro h
    split at h
    · cases h
    · rename_i default hdefault
      split at h
      · rename_i hlegal
        cases h
        rw [Bool.not_eq_true', ← Bool.not_eq_true, isLegal_iff] at hlegal
        exact .here (.illegal hdefault hlegal)
      · rename_i hlegal
        rw [Bool.not_eq_true, Bool.not_eq_false', isLegal_iff] at hlegal
        split at h
        · rename_i hrange
          cases h
          rw [Bool.not_eq_true', ← Bool.not_eq_true, inRange_iff] at hrange
          refine .later (keeps_iff.mp ?_) (.here (.outside hdefault hrange))
          intro other hother
          cases hdefault.symm.trans hother
          exact hlegal
        · cases h
  · rintro (hbreaks | ⟨hkeeps, hbreaks | ⟨_, hnone⟩⟩)
    · cases hbreaks with
      | illegal hdefault hlists =>
        rw [← isLegal_iff, Bool.not_eq_true] at hlists
        simp [hdefault, hlists]
    · cases hbreaks with
      | @outside default hdefault hbounds =>
        have hlists : isLegal default c.legal = true :=
          isLegal_iff.mpr (keeps_iff.mpr hkeeps default hdefault)
        rw [← inRange_iff, Bool.not_eq_true] at hbounds
        simp [hdefault, hlists, hbounds]
    · cases hnone

/-- The error of the check is the one of the first rule that is broken. -/
theorem check_eq_error (ht : c.Typed) {e : ConstraintError} :
    check c = .error e ↔ Outcome.FirstFailure c.Breaks Rule.all e := by
  unfold check
  refine Outcome.FirstFailure.bind_iff (fun _ => checkConflict_eq_error) fun _ _ => ?_
  refine Outcome.FirstFailure.bind_iff (fun _ => checkOrder_eq_error) fun _ hordered => ?_
  -- Only bounds that have an order are compared.
  have ho : c.Keeps .ordered := by
    rw [keeps_iff]
    intro e hbreaks
    rw [checkOrder_eq_error.mpr hbreaks] at hordered
    cases hordered
  refine Outcome.FirstFailure.bind_iff (fun _ => checkRange_eq_error ht ho) fun _ _ => ?_
  exact checkDefault_eq_error

theorem check_eq_ok (ht : c.Typed) : check c = .ok () ↔ c.Consistent := by
  have hnone : c.Consistent ↔ ∀ e, ¬ Outcome.FirstFailure c.Breaks Rule.all e := by
    rw [Outcome.FirstFailure.none_iff]
    unfold Consistent
    simp only [keeps_iff]
    refine ⟨?_, ?_⟩
    · intro h rule _
      exact h rule
    · intro h rule
      exact h rule (by cases rule <;> simp [Rule.all])
  simp only [hnone, ← check_eq_error ht]
  rcases check c with e | ⟨⟨⟩⟩ <;> simp

/-! ## Raw fields -/

section

variable (conversions : Conversions) (type : OpenType)

/-- What becomes of a raw constraint: one that is there must coerce. -/
inductive FieldBecomes : Option Raw → Option Value → Prop
  | absent : FieldBecomes none none
  | value {raw : Raw} {v : Value} : conversions.coerce type raw = .ok v →
      FieldBecomes (some raw) (some v)

/-- What becomes of raw legal values: an empty collection counts as absent. -/
inductive LegalBecomes : Option Raw → Option (List Value) → Prop
  | absent : LegalBecomes none none
  | empty {raw : Raw} : Conversions.IsEmpty raw → LegalBecomes (some raw) none
  | values {raw : Raw} {legal : List Value} : conversions.coerceLegal type raw = .ok legal →
      legal ≠ [] → LegalBecomes (some raw) (some legal)

/-- The constraints are just what the raw fields become. -/
structure Coerced (fields : ConstraintFields) (c : Constraints) : Prop where
  ofType : c.type = type
  default : FieldBecomes conversions type fields.default c.default
  min : FieldBecomes conversions type fields.min c.min
  max : FieldBecomes conversions type fields.max c.max
  legal : LegalBecomes conversions type fields.legal c.legal

/-- What is checked: that each field coerces, and each rule. -/
inductive Check where
  | coercion (field : ConstraintField)
  | rule (rule : Rule)
  deriving DecidableEq, Repr

/-- All checks, in their order. -/
def Check.all : List Check := ConstraintField.all.map .coercion ++ Rule.all.map .rule

/-- A check that fails on raw fields, with its error. The rules are about coerced fields. -/
inductive Fails (fields : ConstraintFields) : Check → ConstraintError → Prop
  | refused {field : ConstraintField} {raw : Raw} {refusal : Refusal} : field ≠ .legalValues →
      fields.get? field = some raw → conversions.coerce type raw = .error refusal →
      Fails fields (.coercion field) (.refused refusal)
  | legal {raw : Raw} {e : ConstraintError} : fields.legal = some raw →
      conversions.coerceLegal type raw = .error e → Fails fields (.coercion .legalValues) e
  | broken {c : Constraints} {rule : Rule} {e : ConstraintError} :
      Coerced conversions type fields c → c.Breaks rule e → Fails fields (.rule rule) e

end

section

variable {conversions : Conversions} {type : OpenType} {fields : ConstraintFields}

theorem coerceField_eq_ok {raw : Option Raw} {v : Option Value} :
    coerceField conversions type raw = .ok v ↔ FieldBecomes conversions type raw v := by
  cases raw with
  | none =>
    refine ⟨?_, ?_⟩
    · rintro ⟨⟩
      exact .absent
    · rintro ⟨⟩
      rfl
  | some raw =>
    rw [coerceField, Outcome.map_eq_ok]
    refine ⟨?_, ?_⟩
    · rintro ⟨w, hw, rfl⟩
      exact .value (Outcome.mapError_eq_ok.mp hw)
    · rintro (_ | hw)
      exact ⟨_, Outcome.mapError_eq_ok.mpr hw, rfl⟩

theorem coerceLegalField_eq_ok {raw : Option Raw} {legal : Option (List Value)} :
    coerceLegalField conversions type raw = .ok legal ↔
      LegalBecomes conversions type raw legal := by
  cases raw with
  | none =>
    refine ⟨?_, ?_⟩
    · rintro ⟨⟩
      exact .absent
    · rintro ⟨⟩
      rfl
  | some raw =>
    rw [coerceLegalField, Outcome.map_eq_ok]
    refine ⟨?_, ?_⟩
    · rintro ⟨values, hvalues, rfl⟩
      rcases values with _ | ⟨first, rest⟩
      · exact .empty (Conversions.coerceLegal_eq_nil.mp hvalues)
      · exact .values hvalues (by simp)
    · rintro (_ | hempty | ⟨hvalues, hne⟩)
      · exact ⟨[], Conversions.coerceLegal_eq_nil.mpr hempty, rfl⟩
      · exact ⟨_, hvalues, by simp [hne]⟩

theorem coerceField_eq_error (field : ConstraintField) (hfield : field ≠ .legalValues)
    {e : ConstraintError} : coerceField conversions type (fields.get? field) = .error e ↔
      Fails conversions type fields (.coercion field) e := by
  refine ⟨?_, ?_⟩
  · intro h
    rcases hraw : fields.get? field with _ | raw
    · rw [hraw] at h
      cases h
    · rw [hraw, coerceField, Outcome.map_eq_error, Outcome.mapError_eq_error] at h
      obtain ⟨refusal, hrefusal, rfl⟩ := h
      exact .refused hfield hraw hrefusal
  · rintro (⟨_, hraw, hrefusal⟩ | _)
    · rw [hraw, coerceField, Outcome.map_eq_error, Outcome.mapError_eq_error]
      exact ⟨_, hrefusal, rfl⟩
    · exact absurd rfl hfield

theorem coerceLegalField_eq_error {e : ConstraintError} :
    coerceLegalField conversions type fields.legal = .error e ↔
      Fails conversions type fields (.coercion .legalValues) e := by
  refine ⟨?_, ?_⟩
  · intro h
    rcases hraw : fields.legal with _ | raw
    · rw [hraw] at h
      cases h
    · rw [hraw, coerceLegalField, Outcome.map_eq_error] at h
      exact .legal hraw h
  · rintro (⟨hfield, _, _⟩ | ⟨hraw, hlegal⟩)
    · exact absurd rfl hfield
    · rw [hraw, coerceLegalField, Outcome.map_eq_error]
      exact hlegal

/-- Fields coerce in one way only. -/
theorem Coerced.unique {c d : Constraints} (hc : Coerced conversions type fields c)
    (hd : Coerced conversions type fields d) : c = d := by
  have hdefault := (coerceField_eq_ok.mpr hc.default).symm.trans (coerceField_eq_ok.mpr hd.default)
  have hmin := (coerceField_eq_ok.mpr hc.min).symm.trans (coerceField_eq_ok.mpr hd.min)
  have hmax := (coerceField_eq_ok.mpr hc.max).symm.trans (coerceField_eq_ok.mpr hd.max)
  have hlegal :=
    (coerceLegalField_eq_ok.mpr hc.legal).symm.trans (coerceLegalField_eq_ok.mpr hd.legal)
  have htype := hc.ofType.trans hd.ofType.symm
  cases c
  cases d
  simp_all

theorem FieldBecomes.hasValue {raw : Option Raw} {v : Value}
    (h : FieldBecomes conversions type raw (some v)) : type.hasValue v = true := by
  cases h with
  | value hv => exact (Conversions.coerce_eq_ok.mp hv).2

theorem LegalBecomes.spec {raw : Option Raw} {legal : List Value}
    (h : LegalBecomes conversions type raw (some legal)) :
    legal ≠ [] ∧ Conversions.Distinct legal ∧ ∀ v ∈ legal, type.hasValue v = true := by
  cases h with
  | values hlegal hne => exact ⟨hne, Conversions.legal_of_coerceLegal hlegal⟩

theorem Coerced.typed (h : Coerced conversions type fields c) : c.Typed := by
  intro v hv
  rw [h.ofType]
  rcases mem_values.mp hv with hdefault | hmin | hmax | ⟨legal, hlegal, hmem⟩
  · exact (hdefault ▸ h.default).hasValue
  · exact (hmin ▸ h.min).hasValue
  · exact (hmax ▸ h.max).hasValue
  · exact (hlegal ▸ h.legal).spec.2.2 v hmem

/-! ## The check of raw fields -/

theorem validate_eq_ok : validate conversions type fields = .ok c ↔
    Coerced conversions type fields c ∧ c.Consistent := by
  unfold validate
  simp only [Outcome.bind_eq_ok, coerceField_eq_ok, coerceLegalField_eq_ok, Outcome.pure_eq_ok]
  refine ⟨?_, ?_⟩
  · rintro ⟨default, hdefault, min, hmin, max, hmax, legal, hlegal, _, hcheck, ⟨⟩⟩
    have hc : Coerced conversions type fields { type, default, min, max, legal } :=
      ⟨rfl, hdefault, hmin, hmax, hlegal⟩
    exact ⟨hc, (check_eq_ok hc.typed).mp hcheck⟩
  · rintro ⟨hc, hconsistent⟩
    have hcheck : check c = .ok () := (check_eq_ok hc.typed).mpr hconsistent
    obtain ⟨type, default, min, max, legal⟩ := c
    obtain ⟨rfl, hdefault, hmin, hmax, hlegal⟩ := hc
    exact ⟨default, hdefault, min, hmin, max, hmax, legal, hlegal, (), hcheck, rfl⟩

theorem validate_eq_error {e : ConstraintError} : validate conversions type fields = .error e ↔
    Outcome.FirstFailure (Fails conversions type fields) Check.all e := by
  unfold validate
  refine Outcome.FirstFailure.bind_iff
    (fun _ => coerceField_eq_error .defaultValue (by decide)) fun default hdefault => ?_
  refine Outcome.FirstFailure.bind_iff
    (fun _ => coerceField_eq_error .minValue (by decide)) fun min hmin => ?_
  refine Outcome.FirstFailure.bind_iff
    (fun _ => coerceField_eq_error .maxValue (by decide)) fun max hmax => ?_
  refine Outcome.FirstFailure.bind_iff
    (fun _ => coerceLegalField_eq_error) fun legal hlegal => ?_
  have hc : Coerced conversions type fields { type, default, min, max, legal } :=
    ⟨rfl, coerceField_eq_ok.mp hdefault, coerceField_eq_ok.mp hmin, coerceField_eq_ok.mp hmax,
      coerceLegalField_eq_ok.mp hlegal⟩
  -- What is left is the check of the rules, for the one way in which the fields coerce.
  have hbroken : ∀ rule e, Fails conversions type fields (.rule rule) e ↔
      Breaks { type, default, min, max, legal } rule e := by
    intro rule e
    refine ⟨?_, ?_⟩
    · rintro (_ | _ | ⟨hother, hbreaks⟩)
      rw [hc.unique hother]
      exact hbreaks
    · exact .broken hc
  have hrules : check { type, default, min, max, legal } = .error e ↔
      Outcome.FirstFailure (Fails conversions type fields) (Rule.all.map .rule) e := by
    rw [Outcome.FirstFailure.map_iff, Outcome.FirstFailure.congr fun rule _ e => hbroken rule e]
    exact check_eq_error hc.typed
  refine Iff.trans (Outcome.bind_eq_error.trans ?_) hrules
  simp

end

/-- The check of raw fields succeeds on just those that coerce to constraints which keep all
rules, and gives these constraints. Else it gives the error of the first check that fails. -/
theorem validation_is_exact (conversions : Conversions) (type : OpenType)
    (fields : ConstraintFields) :
    (∀ c, validate conversions type fields = .ok c ↔
      Coerced conversions type fields c ∧ c.Consistent) ∧
    ∀ e, validate conversions type fields = .error e ↔
      Outcome.FirstFailure (Fails conversions type fields) Check.all e := by
  refine ⟨?_, ?_⟩
  · intro c
    exact validate_eq_ok
  · intro e
    exact validate_eq_error

/-- Of three rules that are broken the first one is reported. -/
example : validate .empty (.simple .integer)
    { default := some (.text "7"), min := some (.text "9"), max := some (.text "8"),
      legal := some (.sequence [.text "1"]) } = .error (.conflict .both) := rfl

end Constraints

end ManagementSchema
