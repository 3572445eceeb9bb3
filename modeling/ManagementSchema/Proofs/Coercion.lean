-- What coercion gives: values of the type, each once. A list of such values
-- that is coerced again comes back as it is, whatever is registered.
import ManagementSchema.Constraint.Coercion
import ManagementSchema.Proofs.BuiltValues

namespace ManagementSchema

/-- The items of the collection. The elements of a finished array count as finished values, and
none of them is null. -/
inductive Raw.Holds : Raw → List Raw → Prop
  | sequence (items : List Raw) : Holds (.sequence items) items
  | set (items : List Raw) : Holds (.set items) items
  | array {a : ArrayValue} {values : List Value} : a.elements = values.map some →
      Holds (.native (.array a)) (values.map .native)

namespace Conversions

variable {c : Conversions} {type : OpenType}

/-! ## Single values -/

/-- Whatever a conversion gives is checked against the type. -/
theorem coerce_eq_ok {raw : Raw} {v : Value} :
    c.coerce type raw = .ok v ↔ c.ofRaw type raw = .ok v ∧ type.hasValue v = true := by
  unfold coerce
  rw [Outcome.bind_eq_ok]
  refine ⟨?_, ?_⟩
  · rintro ⟨w, hw, h⟩
    by_cases hv : type.hasValue w = true
    · rw [if_pos hv] at h
      cases h
      exact ⟨hw, hv⟩
    · rw [if_neg hv] at h
      cases h
  · rintro ⟨hw, hv⟩
    exact ⟨v, hw, by rw [if_pos hv]; rfl⟩

/-- A finished value is taken as it is, if it is of the type. -/
theorem coerce_native {v w : Value} :
    c.coerce type (.native v) = .ok w ↔ w = v ∧ type.hasValue v = true := by
  rw [coerce_eq_ok]
  refine ⟨?_, ?_⟩
  · rintro ⟨hw, hv⟩
    cases hw
    exact ⟨rfl, hv⟩
  · rintro ⟨rfl, hv⟩
    exact ⟨rfl, hv⟩

/-! ## Lists without repetition -/

/-- No value of the list is equal to one before it. -/
def Distinct (values : List Value) : Prop := values.Pairwise fun a b => a.same b = false

theorem mem_of_mem_distinct {seen values : List Value} {v : Value}
    (h : v ∈ distinct seen values) : v ∈ values := by
  induction values generalizing seen with
  | nil => cases h
  | cons first rest ih =>
    unfold distinct at h
    split at h
    · exact List.mem_cons_of_mem _ (ih h)
    · rcases List.mem_cons.mp h with rfl | hrest
      · exact List.mem_cons_self
      · exact List.mem_cons_of_mem _ (ih hrest)

/-- What is left is without repetition, and none of it is equal to a value seen before. -/
theorem distinct_spec (seen values : List Value) :
    Distinct (distinct seen values) ∧
      ∀ v ∈ distinct seen values, ∀ s ∈ seen, s.same v = false := by
  induction values generalizing seen with
  | nil => simp [distinct, Distinct]
  | cons first rest ih =>
    unfold distinct
    split
    · exact ih seen
    · rename_i hfirst
      obtain ⟨hrest, hseen⟩ := ih (first :: seen)
      simp only [List.mem_cons, forall_eq_or_imp] at hseen
      refine ⟨List.pairwise_cons.mpr ⟨fun v hv => (hseen v hv).1, hrest⟩, ?_⟩
      simp only [List.mem_cons, forall_eq_or_imp]
      refine ⟨fun s hs => ?_, fun v hv => (hseen v hv).2⟩
      simpa using fun hsame => hfirst (List.any_eq_true.mpr ⟨s, hs, hsame⟩)

/-- A list without repetition, of values not seen before, stays as it is. -/
theorem distinct_eq_self {seen values : List Value} (h : Distinct values)
    (hseen : ∀ v ∈ values, ∀ s ∈ seen, s.same v = false) : distinct seen values = values := by
  induction values generalizing seen with
  | nil => rfl
  | cons first rest ih =>
    obtain ⟨hfirst, hrest⟩ := List.pairwise_cons.mp h
    simp only [List.mem_cons, forall_eq_or_imp] at hseen
    have hnew : seen.any (·.same first) = false := by
      rw [List.any_eq_false]
      intro s hs
      simp [hseen.1 s hs]
    unfold distinct
    rw [hnew, if_neg (by simp), ih hrest]
    intro v hv s hs
    rcases List.mem_cons.mp hs with rfl | hs
    · exact hfirst v hv
    · exact hseen.2 v hv s hs

theorem distinct_eq_nil {values : List Value} : distinct [] values = [] ↔ values = [] := by
  cases values <;> simp [distinct]

/-! ## What a collection holds -/

theorem elementRaws_eq_ok {index : Nat} {elements : List (Option Value)}
    {raws : List Raw} :
    elementRaws type index elements = .ok raws ↔
      ∃ values : List Value, elements = values.map some ∧ raws = values.map .native := by
  induction elements generalizing index raws with
  | nil => simp [elementRaws]
  | cons element rest ih =>
    cases element with
    | none =>
      rw [elementRaws]
      refine iff_of_false nofun ?_
      intro ⟨values, hvalues, _⟩
      cases values <;> simp at hvalues
    | some v =>
      rw [elementRaws, Outcome.map_eq_ok]
      simp only [ih]
      refine ⟨?_, ?_⟩
      · rintro ⟨_, ⟨values, rfl, rfl⟩, rfl⟩
        exact ⟨v :: values, rfl, rfl⟩
      · rintro ⟨values, hvalues, rfl⟩
        cases values with
        | nil => simp at hvalues
        | cons w values =>
          simp only [List.map_cons, List.cons.injEq, Option.some.injEq] at hvalues
          obtain ⟨rfl, rfl⟩ := hvalues
          exact ⟨_, ⟨values, rfl, rfl⟩, rfl⟩

/-- The first null is refused by its place, before any element is looked at. -/
theorem elementRaws_of_null (index : Nat) (before : List Value) (rest : List (Option Value)) :
    elementRaws type index (before.map some ++ none :: rest) =
      .error ⟨type.className, "legalValues[" ++ toString (index + before.length) ++ "]",
        .nullLegalValue⟩ := by
  induction before generalizing index with
  | nil => simp [elementRaws]
  | cons v before ih =>
    rw [List.map_cons, List.cons_append, elementRaws, ih, List.length_cons, Nat.add_right_comm,
      Nat.add_assoc]
    rfl

theorem collectionRaws_eq_ok {raw : Raw} {items : List Raw} :
    collectionRaws type raw = .ok items ↔ raw.Holds items := by
  refine ⟨?_, ?_⟩
  · intro h
    cases raw with
    | text s => cases h
    | sequence items =>
      cases h
      exact .sequence items
    | set items =>
      cases h
      exact .set items
    | native v =>
      cases v with
      | array a =>
        obtain ⟨values, helements, rfl⟩ := elementRaws_eq_ok.mp (Outcome.mapError_eq_ok.mp h)
        exact .array helements
      | _ => cases h
  · intro h
    cases h with
    | sequence => rfl
    | set => rfl
    | array helements =>
      rw [collectionRaws, Outcome.mapError_eq_ok]
      exact elementRaws_eq_ok.mpr ⟨_, helements, rfl⟩

/-! ## Collections -/

theorem coerceLegal_eq_ok {raw : Raw} {legal : List Value} :
    c.coerceLegal type raw = .ok legal ↔
      ∃ raws values, collectionRaws type raw = .ok raws ∧
        raws.mapM (c.coerce type) = .ok values ∧ legal = distinct [] values := by
  unfold coerceLegal
  rw [Outcome.bind_eq_ok]
  simp only [Outcome.bind_eq_ok, Outcome.mapError_eq_ok, Outcome.pure_eq_ok, Except.ok.injEq,
    eq_comm (a := legal)]
  simp only [← exists_and_left]

/-- Coerced legal values are values of the type, without repetition. -/
theorem legal_of_coerceLegal {raw : Raw} {legal : List Value}
    (h : c.coerceLegal type raw = .ok legal) :
    Distinct legal ∧ ∀ v ∈ legal, type.hasValue v = true := by
  obtain ⟨raws, values, _, hvalues, rfl⟩ := coerceLegal_eq_ok.mp h
  refine ⟨(distinct_spec [] values).1, fun v hv => ?_⟩
  obtain ⟨item, _, hitem⟩ := Outcome.exists_of_mem_mapM hvalues v (mem_of_mem_distinct hv)
  exact (coerce_eq_ok.mp hitem).2

theorem mapM_coerce_natives {values given : List Value} :
    (values.map .native).mapM (c.coerce type) = .ok given ↔
      given = values ∧ ∀ v ∈ values, type.hasValue v = true := by
  rw [Outcome.mapM_eq_ok, List.forall₂_map_left_iff]
  simp only [coerce_native]
  refine ⟨?_, ?_⟩
  · intro h
    induction h with
    | nil => simp
    | cons hv _ ih =>
      obtain ⟨rfl, hv⟩ := hv
      obtain ⟨rfl, hrest⟩ := ih
      exact ⟨rfl, List.forall_mem_cons.mpr ⟨hv, hrest⟩⟩
  · rintro ⟨rfl, h⟩
    exact List.forall₂_same.mpr fun v hv => ⟨rfl, h v hv⟩

/-- Finished values without repetition come back as they are, if they are of the type. -/
theorem coerceLegal_natives {values legal : List Value} (hd : Distinct values) :
    c.coerceLegal type (.set (values.map .native)) = .ok legal ↔
      legal = values ∧ ∀ v ∈ values, type.hasValue v = true := by
  have hself : distinct [] values = values := distinct_eq_self hd fun v _ s hs => by cases hs
  rw [coerceLegal_eq_ok]
  refine ⟨?_, ?_⟩
  · rintro ⟨raws, given, hraws, hgiven, rfl⟩
    cases hraws
    obtain ⟨rfl, hvalues⟩ := mapM_coerce_natives.mp hgiven
    exact ⟨hself, hvalues⟩
  · rintro ⟨rfl, hvalues⟩
    exact ⟨_, legal, rfl, mapM_coerce_natives.mpr ⟨rfl, hvalues⟩, hself.symm⟩

/-- The raw value is a collection without elements. -/
def IsEmpty : Raw → Prop
  | .sequence items | .set items => items = []
  | .native (.array a) => a.elements = []
  | _ => False

theorem holds_nil_iff {raw : Raw} : raw.Holds [] ↔ IsEmpty raw := by
  refine ⟨?_, ?_⟩
  · intro h
    generalize hitems : ([] : List Raw) = items at h
    cases h with
    | sequence => exact hitems.symm
    | set => exact hitems.symm
    | array helements => simp_all [IsEmpty]
  · intro h
    cases raw with
    | text s => cases h
    | sequence items =>
      cases h
      exact .sequence []
    | set items =>
      cases h
      exact .set []
    | native v =>
      cases v with
      | array a => exact @Raw.Holds.array a [] h
      | _ => cases h

/-- Nothing is left of a collection only when there was nothing in it. -/
theorem coerceLegal_eq_nil {raw : Raw} : c.coerceLegal type raw = .ok [] ↔ IsEmpty raw := by
  have hempty : collectionRaws type raw = .ok [] ↔ IsEmpty raw :=
    collectionRaws_eq_ok.trans holds_nil_iff
  rw [← hempty, coerceLegal_eq_ok]
  refine ⟨?_, ?_⟩
  · rintro ⟨raws, values, hraws, hvalues, hnil⟩
    rw [distinct_eq_nil.mp hnil.symm, Outcome.mapM_eq_ok] at hvalues
    cases hvalues
    exact hraws
  · intro hraws
    exact ⟨[], [], hraws, rfl, rfl⟩

end Conversions

/-! ## Built values in, built values out -/

/-- The finished values in the raw value are built. -/
inductive Raw.Built : Raw → Prop
  | text (s : String) : Built (.text s)
  | native {v : Value} : v.Built → Built (.native v)
  | sequence {items : List Raw} : (∀ item ∈ items, Built item) → Built (.sequence items)
  | set {items : List Raw} : (∀ item ∈ items, Built item) → Built (.set items)

theorem Raw.Holds.built {raw : Raw} {items : List Raw} (h : raw.Holds items) (hraw : raw.Built) :
    ∀ item ∈ items, item.Built := by
  cases h with
  | sequence =>
    cases hraw with
    | sequence hitems => exact hitems
  | set =>
    cases hraw with
    | set hitems => exact hitems
  | @array a values helements =>
    cases hraw with
    | native ha =>
      intro item hitem
      obtain ⟨v, hv, rfl⟩ := List.mem_map.mp hitem
      apply Raw.Built.native
      apply ha.elements v
      rw [helements]
      exact List.mem_map_of_mem hv

/-- The finished values in the fields are built. -/
def ConstraintFields.Built (fields : ConstraintFields) : Prop :=
  ∀ field raw, fields.get? field = some raw → raw.Built

/-- The registered functions give built values. -/
def Conversions.Built (c : Conversions) : Prop :=
  ∀ entry ∈ c.entries, ∀ f, entry.2.valueOf = some f ∨ entry.2.fromText = some f →
    ∀ text v, f text = .ok v → v.Built

theorem Conversions.built_empty : Conversions.empty.Built := by
  intro entry hentry
  cases hentry

/-- A reader gives values of its own kind. -/
theorem Kind.kind_of_readReason {k : Kind} {text : String} {s : Scalar}
    (h : k.readReason text = .ok s) : s.kind = k := by
  cases k <;> simp only [readReason, Outcome.map_eq_ok] at h
  case void => cases h
  case boolean =>
    simp only [readBoolean] at h
    split at h
    · cases h
      rfl
    · split at h
      · cases h
        rfl
      · cases h
  case character =>
    unfold readCharacter at h
    split at h
    · cases h
      rfl
    · cases h
  case string =>
    cases h
    rfl
  all_goals
    obtain ⟨_, _, rfl⟩ := h
    rfl

theorem ObjectName.ofProperties_of_read {text : String} {n : ObjectName}
    (h : ObjectName.read text = .ok n) :
    ∃ domain properties, ObjectName.ofProperties domain properties = .ok n := by
  unfold read at h
  split at h
  · rename_i domain rest hcut
    obtain ⟨properties, _, hof⟩ := Outcome.bind_eq_ok.mp h
    exact ⟨_, properties, hof⟩
  · cases h

theorem Kind.built_of_read {k : Kind} {text : String} {s : Scalar} (h : k.read text = .ok s) :
    s.Built := by
  have hreason : k.readReason text = .ok s := Outcome.mapError_eq_ok.mp h
  cases s
  case objectName n =>
    have hk : k = .objectName := (kind_of_readReason hreason).symm
    subst hk
    obtain ⟨m, hm, heq⟩ := Outcome.map_eq_ok.mp hreason
    cases heq
    exact ObjectName.ofProperties_of_read (Outcome.mapError_eq_ok.mp hm)
  all_goals exact trivial

namespace Conversions

variable {c : Conversions} {type : OpenType}

theorem Built.ofText (hc : c.Built) {text : String} {v : Value}
    (h : c.ofText type text = .ok v) : v.Built := by
  unfold Conversions.ofText at h
  split at h
  · rename_i kind
    obtain ⟨s, hs, rfl⟩ := Outcome.map_eq_ok.mp h
    exact .scalar (Kind.built_of_read hs)
  · split at h
    · rename_i f hf
      obtain ⟨conversion, hfind, hfunction⟩ := Option.bind_eq_some_iff.mp hf
      obtain ⟨entry, hentry, rfl⟩ := Option.map_eq_some_iff.mp hfind
      have hmem := List.mem_of_find?_eq_some hentry
      exact hc entry hmem f (Option.or_eq_some_iff.mp hfunction |>.imp id And.right) text v
        (Outcome.mapError_eq_ok.mp h)
    · cases h

theorem Built.coerce (hc : c.Built) {raw : Raw} (hraw : raw.Built) {v : Value}
    (h : c.coerce type raw = .ok v) : v.Built := by
  have hof := (coerce_eq_ok.mp h).1
  cases hraw with
  | text s => exact hc.ofText hof
  | native hv =>
    cases hof
    exact hv
  | sequence _ => cases hof
  | set _ => cases hof

theorem Built.coerceLegal (hc : c.Built) {raw : Raw} (hraw : raw.Built) {legal : List Value}
    (h : c.coerceLegal type raw = .ok legal) : ∀ v ∈ legal, v.Built := by
  obtain ⟨raws, values, hraws, hvalues, rfl⟩ := coerceLegal_eq_ok.mp h
  intro v hv
  obtain ⟨item, hitem, hcoerce⟩ := Outcome.exists_of_mem_mapM hvalues v (mem_of_mem_distinct hv)
  exact hc.coerce ((collectionRaws_eq_ok.mp hraws).built hraw item hitem) hcoerce

end Conversions

end ManagementSchema
