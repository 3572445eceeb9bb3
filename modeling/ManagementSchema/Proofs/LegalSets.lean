-- Legal values as a set. Beside a default and without bounds, constraints are
-- accepted and permit values by what the collection yields, not by how often,
-- in which order or in which shape it is stated. With more values more is
-- accepted and permitted, from the first value on: no value is no constraint.
import ManagementSchema.Proofs.LegalValues
import ManagementSchema.Proofs.Revalidation

namespace ManagementSchema

namespace Constraints

variable {conversions : Conversions} {type : OpenType} {raw raw₁ raw₂ : Raw} {default : Option Raw}
  {values values₁ values₂ : List Value} {c c₁ : Constraints} {v : Value}

/-! ## One collection -/

/-- The fields that state legal values, perhaps a default, and no bounds. -/
def listing (default : Option Raw) (raw : Raw) : ConstraintFields := { default, legal := some raw }

/-- The constraints that list the values and have no bounds. -/
def ofList (type : OpenType) (default : Option Value) (values : List Value) : Constraints :=
  { type, default, legal := some (Conversions.distinct [] values) }

theorem legalBecomes_iff (h : conversions.Yields type raw values) (hne : values ≠ [])
    {legal : Option (List Value)} : LegalBecomes conversions type (some raw) legal ↔
      legal = some (Conversions.distinct [] values) := by
  have hlegal := h.coerceLegal
  have hdistinct := mt Conversions.distinct_eq_nil.mp hne
  refine ⟨?_, ?_⟩
  · intro hbecomes
    cases hbecomes with
    | empty hempty =>
      rw [Conversions.coerceLegal_eq_nil.mpr hempty] at hlegal
      exact absurd (Except.ok.inj hlegal).symm hdistinct
    | values hvalues _ =>
      rw [hlegal] at hvalues
      rw [Except.ok.inj hvalues]
  · rintro rfl
    exact .values hlegal hdistinct

theorem coerced_listing_iff (h : conversions.Yields type raw values) (hne : values ≠ []) :
    Coerced conversions type (listing default raw) c ↔
      ∃ d, FieldBecomes conversions type default d ∧ c = ofList type d values := by
  refine ⟨?_, ?_⟩
  · intro ⟨htype, hdefault, hmin, hmax, hlegal⟩
    obtain ⟨ctype, cdefault, cmin, cmax, clegal⟩ := c
    cases htype
    cases hmin
    cases hmax
    cases (legalBecomes_iff h hne).mp hlegal
    exact ⟨cdefault, hdefault, rfl⟩
  · rintro ⟨d, hdefault, rfl⟩
    exact ⟨rfl, hdefault, .absent, .absent, (legalBecomes_iff h hne).mpr rfl⟩

theorem consistent_ofList_iff {d : Option Value} : (ofList type d values).Consistent ↔
    ∀ v, d = some v → (ofList type d values).Lists v := by
  refine ⟨?_, ?_⟩
  · intro h
    exact h .defaultLegal
  · intro h rule
    cases rule with
    | alone => exact fun _ => ⟨rfl, rfl⟩
    | ordered => simp [Keeps, ofList]
    | nonempty => simp [Keeps, ofList]
    | defaultLegal => exact h
    | defaultInRange => simp [Keeps, Bounds, ofList]

theorem lists_ofList_iff {d : Option Value} (hvalues : ∀ v ∈ values, v.Built) (hv : v.Built) :
    (ofList type d values).Lists v ↔ ∃ w ∈ values, w.same v = true := by
  rw [← Conversions.exists_same_distinct_iff hvalues hv]
  simp [Lists, ofList]

theorem permits_ofList_iff {d : Option Value} (hvalues : ∀ v ∈ values, v.Built) (hv : v.Built) :
    (ofList type d values).permits v = true ↔
      type.hasValue v = true ∧ ∃ w ∈ values, w.same v = true := by
  rw [permits_iff, lists_ofList_iff hvalues hv]
  simp [Bounds, ofList]

/-- Beside listed values a default is accepted just if it is equal to one of them. -/
theorem validate_listing_eq_ok (h : conversions.Yields type raw values) (hne : values ≠ []) :
    validate conversions type (listing default raw) = .ok c ↔
      ∃ d, FieldBecomes conversions type default d ∧ c = ofList type d values ∧
        ∀ v, d = some v → c.Lists v := by
  rw [validate_eq_ok, coerced_listing_iff h hne]
  refine ⟨?_, ?_⟩
  · rintro ⟨⟨d, hdefault, rfl⟩, hconsistent⟩
    exact ⟨d, hdefault, rfl, consistent_ofList_iff.mp hconsistent⟩
  · rintro ⟨d, hdefault, rfl, hlists⟩
    exact ⟨⟨d, hdefault, rfl⟩, consistent_ofList_iff.mpr hlists⟩

/-! ## More legal values -/

/-- Where the first fields are accepted the others are, and permit no less. -/
def ExtendedBy (conversions : Conversions) (type : OpenType) (fields others : ConstraintFields) :
    Prop :=
  ∀ c, validate conversions type fields = .ok c →
    ∃ d, validate conversions type others = .ok d ∧
      ∀ v, v.Built → c.permits v = true → d.permits v = true

/-- Fields that extend each other are accepted and permit values alike. -/
theorem ExtendedBy.antisymm {fields others : ConstraintFields}
    (h : ExtendedBy conversions type fields others)
    (hback : ExtendedBy conversions type others fields) :
    ((∃ c, validate conversions type fields = .ok c) ↔
      ∃ d, validate conversions type others = .ok d) ∧
    ∀ c d, validate conversions type fields = .ok c → validate conversions type others = .ok d →
      ∀ v, v.Built → c.permits v = d.permits v := by
  refine ⟨⟨?_, ?_⟩, ?_⟩
  · intro ⟨c, hc⟩
    obtain ⟨d, hd, _⟩ := h c hc
    exact ⟨d, hd⟩
  · intro ⟨d, hd⟩
    obtain ⟨c, hc, _⟩ := hback d hd
    exact ⟨c, hc⟩
  · intro c d hc hd v hv
    obtain ⟨_, hd', hpermits⟩ := h c hc
    obtain ⟨_, hc', hpermitsBack⟩ := hback d hd
    cases hd.symm.trans hd'
    cases hc.symm.trans hc'
    exact Bool.eq_iff_iff.mpr ⟨hpermits v hv, hpermitsBack v hv⟩

/-- With more legal values the same default is accepted, and no fewer values are permitted. -/
theorem extendedBy_of_among (hc : conversions.Built)
    (hdefault : ∀ d, default = some d → d.Built) (hraw₁ : raw₁.Built) (hraw₂ : raw₂.Built)
    (h₁ : conversions.Yields type raw₁ values₁) (h₂ : conversions.Yields type raw₂ values₂)
    (hne : values₁ ≠ []) (hamong : Value.Among values₁ values₂) :
    ExtendedBy conversions type (listing default raw₁) (listing default raw₂) := by
  have hvalues₁ := h₁.built hc hraw₁
  have hvalues₂ := h₂.built hc hraw₂
  have hne₂ := hamong.ne_nil hne
  intro c hvalid
  obtain ⟨d, hd, rfl, hlists⟩ := (validate_listing_eq_ok h₁ hne).mp hvalid
  refine ⟨ofList type d values₂, (validate_listing_eq_ok h₂ hne₂).mpr ⟨d, hd, rfl, ?_⟩, ?_⟩
  · intro v hv
    cases hv
    cases hd with
    | value hcoerce =>
      have hv : v.Built := hc.coerce (hdefault _ rfl) hcoerce
      rw [lists_ofList_iff hvalues₂ hv]
      exact hamong.exists_same hvalues₁ hvalues₂ hv
        ((lists_ofList_iff hvalues₁ hv).mp (hlists v rfl))
  · intro v hv
    rw [permits_ofList_iff hvalues₁ hv, permits_ofList_iff hvalues₂ hv]
    intro ⟨htyped, hany⟩
    exact ⟨htyped, hamong.exists_same hvalues₁ hvalues₂ hv hany⟩

theorem exists_yields_of_becomes {legal : List Value}
    (h : LegalBecomes conversions type (some raw) (some legal)) :
    ∃ values, conversions.Yields type raw values := by
  cases h with
  | values hlegal _ => exact Conversions.exists_legal_iff.mp ⟨legal, hlegal⟩

/-- A default that is not legal coerces, and so does the collection beside it. -/
theorem yields_of_defaultNotLegal {default : Raw} {text : String}
    (h : validate conversions type (listing (some default) raw) = .error (.defaultNotLegal text)) :
    ∃ v values, conversions.coerce type default = .ok v ∧ conversions.Yields type raw values := by
  obtain ⟨check, _, hfails⟩ := (validate_eq_error.mp h).exists_fails
  cases hfails with
  | legal hraw herror =>
    -- The collection itself is refused or malformed with other errors.
    cases hraw
    by_cases hplural : raw.IsPlural
    · obtain ⟨_, ⟨⟩⟩ := Conversions.exists_refusal hplural herror
    · rw [Conversions.coerceLegal_of_not_plural hplural] at herror
      cases herror
  | @broken c rule _ hc hbreaks =>
    cases hbreaks with
    | @illegal v hv hlists =>
      have hlegal : ∃ legal, c.legal = some legal := by
        by_contra hnone
        apply hlists
        intro legal hlegal
        exact absurd ⟨legal, hlegal⟩ hnone
      obtain ⟨legal, hlegal⟩ := hlegal
      obtain ⟨values, hyields⟩ := exists_yields_of_becomes (hlegal ▸ hc.legal)
      have hdefault := hc.default
      rw [hv] at hdefault
      cases hdefault with
      | value hcoerce => exact ⟨v, values, hcoerce, hyields⟩

/-- A default is accepted once it is appended to the collection. -/
theorem validate_listing_append {default longer : Raw} {items : List Raw}
    (hdefault : conversions.coerce type default = .ok v)
    (hvalues : List.Forall₂ (fun item v => conversions.coerce type item = .ok v) items values)
    (hbuilt : ∀ w ∈ values ++ [v], w.Built) (hlonger : longer.Holds (items ++ [default])) :
    validate conversions type (listing (some default) longer) =
      .ok (ofList type (some v) (values ++ [v])) := by
  have hv : v.Built := hbuilt v (by simp)
  have hyields : conversions.Yields type longer (values ++ [v]) :=
    ⟨_, hlonger, List.rel_append hvalues (.cons hdefault .nil)⟩
  rw [validate_listing_eq_ok hyields (by simp)]
  refine ⟨some v, .value hdefault, rfl, ?_⟩
  intro w hw
  cases hw
  rw [lists_ofList_iff hbuilt hv]
  exact ⟨v, by simp, Value.same_self hv⟩

/-! ## The law -/

/-- Constraints with legal values and no bounds are accepted, and permit what they permit, by the
set of the values: collections with the same values in any order, number and shape count alike,
more values accept and permit no less, and a default that is refused because it is not legal is
accepted once it is appended as it is. An empty collection is left out, as it constrains nothing. -/
theorem legal_values_are_a_set {conversions : Conversions} {type : OpenType}
    (hc : conversions.Built) :
    (∀ default raw₁ raw₂ values₁ values₂, (∀ d, default = some d → d.Built) →
      raw₁.Built → raw₂.Built → conversions.Yields type raw₁ values₁ →
      conversions.Yields type raw₂ values₂ → values₁ ≠ [] → Value.Among values₁ values₂ →
      ExtendedBy conversions type (listing default raw₁) (listing default raw₂) ∧
      (Value.Among values₂ values₁ →
        ((∃ c, validate conversions type (listing default raw₁) = .ok c) ↔
          ∃ d, validate conversions type (listing default raw₂) = .ok d) ∧
        ∀ c d, validate conversions type (listing default raw₁) = .ok c →
          validate conversions type (listing default raw₂) = .ok d →
          ∀ v, v.Built → c.permits v = d.permits v)) ∧
    ∀ default raw text, default.Built → raw.Built →
      validate conversions type (listing (some default) raw) = .error (.defaultNotLegal text) →
      ∃ v items, conversions.coerce type default = .ok v ∧ raw.Holds items ∧
        ∀ longer, longer.Holds (items ++ [default]) →
          ∃ c, validate conversions type (listing (some default) longer) = .ok c ∧
            c.default = some v := by
  refine ⟨?_, ?_⟩
  · intro default raw₁ raw₂ values₁ values₂ hdefault hraw₁ hraw₂ h₁ h₂ hne hamong
    have hextended := extendedBy_of_among hc hdefault hraw₁ hraw₂ h₁ h₂ hne hamong
    refine ⟨hextended, ?_⟩
    intro hback
    apply hextended.antisymm
    exact extendedBy_of_among hc hdefault hraw₂ hraw₁ h₂ h₁ (hamong.ne_nil hne) hback
  · intro default raw text hdefault hraw herror
    obtain ⟨v, values, hcoerce, hyields⟩ := yields_of_defaultNotLegal herror
    have hbuilt := hyields.built hc hraw
    obtain ⟨items, hholds, hvalues⟩ := hyields
    refine ⟨v, items, hcoerce, hholds, ?_⟩
    intro longer hlonger
    refine ⟨_, validate_listing_append hcoerce hvalues ?_ hlonger, rfl⟩
    rw [List.forall_mem_append, List.forall_mem_singleton]
    exact ⟨hbuilt, hc.coerce hdefault hcoerce⟩

/-- A sequence with a repetition counts as the set of its two values, and a default that is neither
of them is accepted once it is appended. -/
theorem a_default_is_accepted_once_it_is_listed :
    (∃ c d, validate .empty (.simple .integer)
        (listing (some (.text "2")) (.sequence [.text "1", .text "2", .text "1"])) = .ok c ∧
      validate .empty (.simple .integer)
        (listing (some (.text "2")) (.set [.text "2", .text "1"])) = .ok d ∧
      ∀ v, v.Built → c.permits v = d.permits v) ∧
    (∃ text, validate .empty (.simple .integer)
      (listing (some (.text "3")) (.set [.text "2", .text "1"])) =
        .error (.defaultNotLegal text)) ∧
    ∃ c, validate .empty (.simple .integer)
      (listing (some (.text "3")) (.set [.text "2", .text "1", .text "3"])) = .ok c := by
  have hsequence : Raw.Built (.sequence [.text "1", .text "2", .text "1"]) := by
    apply Raw.Built.sequence
    simp [Raw.Built.text]
  have hset : Raw.Built (.set [.text "2", .text "1"]) := by
    apply Raw.Built.set
    simp [Raw.Built.text]
  have hyields : Conversions.empty.Yields (.simple .integer)
      (.sequence [.text "1", .text "2", .text "1"])
      [.scalar (.integer 1), .scalar (.integer 2), .scalar (.integer 1)] :=
    ⟨_, .sequence _, .cons rfl (.cons rfl (.cons rfl .nil))⟩
  have hothers : Conversions.empty.Yields (.simple .integer) (.set [.text "2", .text "1"])
      [.scalar (.integer 2), .scalar (.integer 1)] :=
    ⟨_, .set _, .cons rfl (.cons rfl .nil)⟩
  have hamong : Value.Among [.scalar (.integer 1), .scalar (.integer 2), .scalar (.integer 1)]
      [.scalar (.integer 2), .scalar (.integer 1)] := by
    unfold Value.Among
    decide
  have hback : Value.Among [.scalar (.integer 2), .scalar (.integer 1)]
      [.scalar (.integer 1), .scalar (.integer 2), .scalar (.integer 1)] := by
    unfold Value.Among
    decide
  obtain ⟨hlistings, happend⟩ := @legal_values_are_a_set .empty (.simple .integer)
    Conversions.built_empty
  obtain ⟨_, hequal⟩ := hlistings (some (.text "2")) _ _ _ _ (by simp [Raw.Built.text]) hsequence
    hset hyields hothers (by simp) hamong
  obtain ⟨_, hpermits⟩ := hequal hback
  refine ⟨⟨_, _, rfl, rfl, hpermits _ _ rfl rfl⟩, ⟨_, rfl⟩, ?_⟩
  obtain ⟨v, items, _, hholds, hlonger⟩ := happend (.text "3") _ _ (.text "3") hset rfl
  cases hholds
  obtain ⟨c, haccepted, _⟩ := hlonger _ (.set _)
  exact ⟨c, haccepted⟩

/-- An empty collection is not the least one: it lets each default pass. -/
example :
    validate .empty (.simple .integer) (listing (some (.text "1")) (.set [])) =
      .ok { type := .simple .integer, default := some (.scalar (.integer 1)) } ∧
    validate .empty (.simple .integer) (listing (some (.text "1")) (.set [.text "2"])) =
      .error (.defaultNotLegal "1") := ⟨rfl, rfl⟩

end Constraints

end ManagementSchema
