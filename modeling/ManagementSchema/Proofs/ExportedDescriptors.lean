-- The descriptor that an info exports states its constraints in full: read
-- again, with whatever conversions, it gives the same info.
import ManagementSchema.Constraint.Info
import ManagementSchema.Proofs.Revalidation

namespace ManagementSchema

/-! ## Equality with itself -/

theorem Raw.sameItems_self {items : List Raw} (h : ∀ item ∈ items, item.same item = true) :
    sameItems items items = true := by
  induction items with
  | nil => rfl
  | cons item rest ih =>
    rw [sameItems, h item List.mem_cons_self, ih fun other hother =>
      h other (List.mem_cons_of_mem _ hother)]
    rfl

theorem Raw.same_self {raw : Raw} (h : raw.Built) : raw.same raw = true := by
  induction h with
  | text s => simp [same]
  | native hv =>
    rw [same]
    exact Value.same_self hv
  | sequence _ ih =>
    rw [same]
    exact sameItems_self ih
  | set _ ih =>
    rw [same]
    exact sameItems_self ih

namespace Descriptor

/-- The finished values in the descriptor are built. -/
def Built (d : Descriptor) : Prop := ∀ entry ∈ d.entries, entry.2.Built

variable {d : Descriptor}

theorem Built.constraintFields (h : d.Built) : d.constraintFields.Built := by
  intro field raw hraw
  have hget : d.get? field.name = some raw := by
    cases field <;> exact hraw
  exact h (field.name, raw) (Dictionary.mem_of_find? hget)

theorem Built.insert (h : d.Built) {name : String} {raw : Raw} (hraw : raw.Built) :
    Descriptor.Built (d.insert name raw) := by
  intro entry hentry
  rcases Dictionary.mem_insertEntry hentry with rfl | hentry
  · exact hraw
  · exact h entry hentry

theorem Built.put (h : d.Built) {name : String} {raw : Option Raw}
    (hraw : ∀ r, raw = some r → r.Built) : (d.put name raw).Built := by
  unfold Descriptor.put
  split
  · exact h.insert (hraw _ rfl)
  · exact h

theorem same_self (h : d.Built) : d.same d = true := by
  unfold same
  rw [Bool.and_eq_true, decide_eq_true_eq]
  refine ⟨rfl, Raw.sameItems_self fun raw hraw => ?_⟩
  obtain ⟨entry, hentry, rfl⟩ := List.mem_map.mp hraw
  exact Raw.same_self (h entry hentry)

theorem get?_put (name other : String) (raw : Option Raw) :
    (d.put name raw).get? other = if name = other then raw.or (d.get? other) else d.get? other := by
  unfold put
  rcases raw with _ | raw
  · simp
  · rw [Dictionary.get?_insert]
    rfl

end Descriptor

namespace Constraints

variable {c : Constraints}

/-- Constraints that passed the check, over a built type and built values. -/
structure Built (c : Constraints) : Prop where
  ofType : c.type.Built
  values : ∀ v ∈ c.values, v.Built
  settled : c.Settled

theorem built_unconstrained {type : OpenType} (h : type.Built) : (unconstrained type).Built := by
  refine ⟨h, ?_, settled_unconstrained type⟩
  intro v hv
  cases hv

theorem built_of_validate {conversions : Conversions} {type : OpenType}
    {fields : ConstraintFields} (ht : type.Built) (hc : conversions.Built) (hf : fields.Built)
    (h : validate conversions type fields = .ok c) : c.Built := by
  have hcoerced := (validate_eq_ok.mp h).1
  refine ⟨?_, hcoerced.built hc hf, settled_of_validate h⟩
  rw [hcoerced.ofType]
  exact ht

theorem Built.same_self (h : c.Built) : c.same c = true := by
  have hcell : ∀ cell : Option Value, (∀ v, cell = some v → v ∈ c.values) →
      Value.sameCell cell cell = true := by
    intro cell hcell
    exact Value.sameCell_self fun v hv => Value.same_self (h.values v (hcell v hv))
  have hdefault := hcell c.default fun _ => default_mem_values
  have hmin := hcell c.min fun _ => min_mem_values
  have hmax := hcell c.max fun _ => max_mem_values
  have hlegal : sameLegal c.legal c.legal = true := by
    rcases hlegal : c.legal with _ | legal
    · rfl
    · rw [sameLegal]
      refine Value.sameCells_self fun v hv => Value.same_self (h.values v ?_)
      have hmem : v ∈ legal := by simpa using hv
      exact legal_mem_values hlegal hmem
  rw [same, OpenType.same_self h.ofType, hdefault, hmin, hmax, hlegal]
  rfl

/-! ## What is exported -/

/-- The descriptor states just the constraints, each as a finished value. -/
theorem constraintFields_toDescriptor : c.toDescriptor.constraintFields = c.toValues.toFields := by
  unfold Descriptor.constraintFields Descriptor.field? toDescriptor
  simp only [Descriptor.get?_put, Dictionary.get?_insert, Dictionary.get?_empty,
    ConstraintField.name]
  simp [toValues, ConstraintValues.toFields]

theorem Built.toDescriptor (h : c.Built) : c.toDescriptor.Built := by
  have hfield : ∀ cell : Option Value, (∀ v, cell = some v → v ∈ c.values) →
      ∀ raw, cell.map Raw.native = some raw → raw.Built := by
    intro cell hcell raw hraw
    obtain ⟨v, hv, rfl⟩ := Option.map_eq_some_iff.mp hraw
    exact .native (h.values v (hcell v hv))
  have hempty : Descriptor.Built Dictionary.empty := fun entry hentry => by cases hentry
  refine ((((((hempty.insert (.text _)).insert (.text _)).put ?_).put ?_).put ?_).put ?_)
  · exact hfield c.default fun _ => default_mem_values
  · exact hfield c.min fun _ => min_mem_values
  · exact hfield c.max fun _ => max_mem_values
  · intro raw hraw
    obtain ⟨legal, hlegal, rfl⟩ := Option.map_eq_some_iff.mp hraw
    refine .set fun item hitem => ?_
    obtain ⟨v, hv, rfl⟩ := List.mem_map.mp hitem
    exact .native (h.values v (legal_mem_values hlegal hv))

/-- Constraints that passed the check pass it again from their own descriptor. -/
theorem validate_toDescriptor (h : c.Settled) (other : Conversions) :
    validate other c.type c.toDescriptor.constraintFields = .ok c := by
  rw [constraintFields_toDescriptor]
  exact (validateValues_eq_ok c h.legal).mpr ⟨rfl, h⟩

end Constraints

/-! ## Parameters -/

/-- The finished values are built. -/
def ConstraintValues.Built (values : ConstraintValues) : Prop := values.toFields.Built

namespace ParameterInfo

/-- The parameters that can be made. -/
inductive Built : ParameterInfo → Prop
  | unconstrained {name description : String} {type : OpenType} {info : ParameterInfo} :
      type.Built → ParameterInfo.unconstrained name description type = .ok info → Built info
  | ofDescriptor {name description : String} {type : OpenType} {descriptor : Descriptor}
      {conversions : Conversions} {info : ParameterInfo} :
      type.Built → conversions.Built → descriptor.Built →
      ParameterInfo.ofDescriptor name description type descriptor conversions = .ok info →
      Built info
  | ofValues {name description : String} {type : OpenType} {values : ConstraintValues}
      {conversions : Conversions} {info : ParameterInfo} :
      type.Built → conversions.Built → values.Built →
      ParameterInfo.ofValues name description type values conversions = .ok info → Built info
  | build {name description : String} {type : OpenType} {fields : ConstraintFields}
      {conversions : Conversions} {constraints : Constraints} {info : ParameterInfo} :
      type.Built → conversions.Built → fields.Built →
      Constraints.validate conversions type fields = .ok constraints →
      ParameterInfo.build name description constraints = .ok info → Built info

theorem build_eq_ok {name description : String} {constraints : Constraints}
    {info : ParameterInfo} : build name description constraints = .ok info ↔
      check name description = .ok () ∧ ⟨name, description, constraints⟩ = info := by
  unfold build
  rw [Outcome.bind_eq_ok]
  refine ⟨?_, ?_⟩
  · rintro ⟨_, hcheck, ⟨⟩⟩
    exact ⟨hcheck, rfl⟩
  · rintro ⟨hcheck, rfl⟩
    exact ⟨(), hcheck, rfl⟩

theorem checked_of_build {name description : String} {constraints : Constraints}
    {info : ParameterInfo} (hc : constraints.Built)
    (h : build name description constraints = .ok info) :
    check info.name info.description = .ok () ∧ info.constraints.Built := by
  obtain ⟨hcheck, rfl⟩ := build_eq_ok.mp h
  exact ⟨hcheck, hc⟩

/-- However a parameter is made, its texts and its constraints passed their checks. -/
theorem Built.checked {info : ParameterInfo} (h : info.Built) :
    check info.name info.description = .ok () ∧ info.constraints.Built := by
  cases h with
  | unconstrained ht h =>
    exact checked_of_build (Constraints.built_unconstrained ht) h
  | ofDescriptor ht hc hd h =>
    obtain ⟨_, _, h⟩ := Outcome.bind_eq_ok.mp h
    obtain ⟨constraints, hvalid, h⟩ := Outcome.bind_eq_ok.mp h
    exact checked_of_build (Constraints.built_of_validate ht hc hd.constraintFields hvalid) h
  | ofValues ht hc hv h =>
    obtain ⟨_, _, h⟩ := Outcome.bind_eq_ok.mp h
    obtain ⟨constraints, hvalid, h⟩ := Outcome.bind_eq_ok.mp h
    exact checked_of_build (Constraints.built_of_validate ht hc hv hvalid) h
  | build ht hc hf hvalid h =>
    exact checked_of_build (Constraints.built_of_validate ht hc hf hvalid) h

theorem ofDescriptor_toDescriptor {info : ParameterInfo} (h : info.Built)
    (other : Conversions) : ofDescriptor info.name info.description info.constraints.type
      info.toDescriptor other = .ok info := by
  obtain ⟨hcheck, hbuilt⟩ := h.checked
  unfold ofDescriptor toDescriptor
  rw [hcheck, Constraints.validate_toDescriptor hbuilt.settled other]
  exact build_eq_ok.mpr ⟨hcheck, rfl⟩

theorem Built.same_self {info : ParameterInfo} (h : info.Built) : info.same info = true := by
  simp [same, h.checked.2.same_self]

end ParameterInfo

/-! ## Attributes -/

namespace AttributeInfo

/-- The attributes that can be made. -/
inductive Built : AttributeInfo → Prop
  | unconstrained {name description : String} {access : Access} {type : OpenType}
      {info : AttributeInfo} :
      type.Built → AttributeInfo.unconstrained name description access type = .ok info →
      Built info
  | ofDescriptor {name description : String} {access : Access} {type : OpenType}
      {descriptor : Descriptor} {conversions : Conversions} {info : AttributeInfo} :
      type.Built → conversions.Built → descriptor.Built →
      AttributeInfo.ofDescriptor name description access type descriptor conversions = .ok info →
      Built info
  | ofValues {name description : String} {access : Access} {type : OpenType}
      {values : ConstraintValues} {conversions : Conversions} {info : AttributeInfo} :
      type.Built → conversions.Built → values.Built →
      AttributeInfo.ofValues name description access type values conversions = .ok info →
      Built info
  | build {name description : String} {access : Access} {type : OpenType}
      {fields : ConstraintFields} {conversions : Conversions} {constraints : Constraints}
      {info : AttributeInfo} :
      type.Built → conversions.Built → fields.Built →
      Constraints.validate conversions type fields = .ok constraints →
      AttributeInfo.build name description access constraints = .ok info → Built info

theorem build_eq_ok {name description : String} {access : Access} {constraints : Constraints}
    {info : AttributeInfo} : build name description access constraints = .ok info ↔
      check name description access constraints.type = .ok () ∧
        ⟨name, description, access, constraints⟩ = info := by
  unfold build
  rw [Outcome.bind_eq_ok]
  refine ⟨?_, ?_⟩
  · rintro ⟨_, hcheck, ⟨⟩⟩
    exact ⟨hcheck, rfl⟩
  · rintro ⟨hcheck, rfl⟩
    exact ⟨(), hcheck, rfl⟩

theorem checked_of_build {name description : String} {access : Access}
    {constraints : Constraints} {info : AttributeInfo} (hc : constraints.Built)
    (h : build name description access constraints = .ok info) :
    check info.name info.description info.access info.constraints.type = .ok () ∧
      info.constraints.Built := by
  obtain ⟨hcheck, rfl⟩ := build_eq_ok.mp h
  exact ⟨hcheck, hc⟩

/-- However an attribute is made, its texts, its access and its constraints passed their
checks. -/
theorem Built.checked {info : AttributeInfo} (h : info.Built) :
    check info.name info.description info.access info.constraints.type = .ok () ∧
      info.constraints.Built := by
  cases h with
  | unconstrained ht h =>
    exact checked_of_build (Constraints.built_unconstrained ht) h
  | ofDescriptor ht hc hd h =>
    obtain ⟨_, _, h⟩ := Outcome.bind_eq_ok.mp h
    obtain ⟨constraints, hvalid, h⟩ := Outcome.bind_eq_ok.mp h
    exact checked_of_build (Constraints.built_of_validate ht hc hd.constraintFields hvalid) h
  | ofValues ht hc hv h =>
    obtain ⟨_, _, h⟩ := Outcome.bind_eq_ok.mp h
    obtain ⟨constraints, hvalid, h⟩ := Outcome.bind_eq_ok.mp h
    exact checked_of_build (Constraints.built_of_validate ht hc hv hvalid) h
  | build ht hc hf hvalid h =>
    exact checked_of_build (Constraints.built_of_validate ht hc hf hvalid) h

theorem ofDescriptor_toDescriptor {info : AttributeInfo} (h : info.Built)
    (other : Conversions) : ofDescriptor info.name info.description info.access
      info.constraints.type info.toDescriptor other = .ok info := by
  obtain ⟨hcheck, hbuilt⟩ := h.checked
  unfold ofDescriptor toDescriptor
  rw [hcheck, Constraints.validate_toDescriptor hbuilt.settled other]
  exact build_eq_ok.mpr ⟨hcheck, rfl⟩

theorem Built.same_self {info : AttributeInfo} (h : info.Built) : info.same info = true := by
  simp [same, h.checked.2.same_self]

end AttributeInfo

/-! ## The law -/

/-- An exported descriptor restores its info, whatever conversions are registered where it is
read: the same type, name, words and access give the info again, and the same descriptor. -/
theorem exported_descriptors_restore_their_infos :
    (∀ info : ParameterInfo, info.Built → ∀ other : Conversions, ∃ again : ParameterInfo,
      ParameterInfo.ofDescriptor info.name info.description info.constraints.type
        info.toDescriptor other = .ok again ∧
      again = info ∧ again.same info = true ∧
      again.toDescriptor.same info.toDescriptor = true) ∧
    ∀ info : AttributeInfo, info.Built → ∀ other : Conversions, ∃ again : AttributeInfo,
      AttributeInfo.ofDescriptor info.name info.description info.access info.constraints.type
        info.toDescriptor other = .ok again ∧
      again = info ∧ again.same info = true ∧
      again.toDescriptor.same info.toDescriptor = true := by
  refine ⟨?_, ?_⟩
  · intro info h other
    exact ⟨info, ParameterInfo.ofDescriptor_toDescriptor h other, rfl, h.same_self,
      Descriptor.same_self h.checked.2.toDescriptor⟩
  · intro info h other
    exact ⟨info, AttributeInfo.ofDescriptor_toDescriptor h other, rfl, h.same_self,
      Descriptor.same_self h.checked.2.toDescriptor⟩

/-- A parameter with a bound and an attribute that is a question come back from their
descriptors. -/
theorem a_parameter_and_a_getter_are_restored :
    (∃ again : ParameterInfo,
      ParameterInfo.ofDescriptor "size" "size in bytes" (.simple .long)
        (ParameterInfo.toDescriptor ⟨"size", "size in bytes",
          { type := .simple .long, min := some (.scalar (.long 1)) }⟩) .empty = .ok again ∧
      again.constraints.min = some (.scalar (.long 1))) ∧
    ∃ again : AttributeInfo,
      AttributeInfo.ofDescriptor "running" "whether it runs" .getter (.simple .boolean)
        (AttributeInfo.toDescriptor ⟨"running", "whether it runs", .getter,
          { type := .simple .boolean }⟩) .empty = .ok again ∧
      again.access = .getter := by
  have hparameter : ParameterInfo.Built ⟨"size", "size in bytes",
      { type := .simple .long, min := some (.scalar (.long 1)) }⟩ := by
    refine @ParameterInfo.Built.ofValues "size" "size in bytes" (.simple .long)
      { min := some (.scalar (.long 1)) } .empty _ (.simple .long) ?_ ?_ rfl
    · intro entry hentry
      cases hentry
    · rintro (_ | _ | _ | _) raw ⟨⟩
      exact .native (.scalar trivial)
  have hattribute : AttributeInfo.Built ⟨"running", "whether it runs", .getter,
      { type := .simple .boolean }⟩ :=
    @AttributeInfo.Built.unconstrained "running" "whether it runs" .getter (.simple .boolean) _
      (.simple .boolean) rfl
  refine ⟨?_, ?_⟩
  · obtain ⟨again, hagain, rfl, _, _⟩ :=
      exported_descriptors_restore_their_infos.1 _ hparameter .empty
    exact ⟨_, hagain, rfl⟩
  · obtain ⟨again, hagain, rfl, _, _⟩ :=
      exported_descriptors_restore_their_infos.2 _ hattribute .empty
    exact ⟨_, hagain, rfl⟩

end ManagementSchema
