-- Collections of legal values. What a collection holds is coerced item by item,
-- and of equal values the first one stays in its place. So the result is known
-- from the values alone, and coerced once more it comes back as it is.
import ManagementSchema.Proofs.Coercion
import ManagementSchema.Proofs.Equality

namespace ManagementSchema

/-- The raw value is a collection or a finished array. -/
def Raw.IsPlural : Raw → Prop
  | .sequence _ | .set _ | .native (.array _) => True
  | _ => False

/-- Each of the values is equal to one of the others. -/
def Value.Among (values others : List Value) : Prop :=
  ∀ v ∈ values, ∃ w ∈ others, w.same v = true

section

variable {values others : List Value}

theorem Value.Among.ne_nil (h : Among values others) (hne : values ≠ []) : others ≠ [] := by
  obtain ⟨v, hv⟩ := List.exists_mem_of_ne_nil values hne
  obtain ⟨w, hw, _⟩ := h v hv
  exact List.ne_nil_of_mem hw

theorem Value.Among.exists_same (h : Among values others) (hvalues : ∀ v ∈ values, v.Built)
    (hothers : ∀ v ∈ others, v.Built) {v : Value} (hv : v.Built)
    (hany : ∃ w ∈ values, w.same v = true) : ∃ w ∈ others, w.same v = true := by
  obtain ⟨w, hw, hsame⟩ := hany
  obtain ⟨u, hu, hother⟩ := h w hw
  exact ⟨u, hu, Value.same_trans (hothers u hu) (hvalues w hw) hv hother hsame⟩

end

namespace Conversions

variable {c : Conversions} {type : OpenType} {raw : Raw} {values legal : List Value}

/-! ## First occurrences -/

/-- The second list is the first one without the values that are equal to one before them. -/
inductive FirstOccurrences : List Value → List Value → Prop
  | nil : FirstOccurrences [] []
  | new {values legal : List Value} {v : Value} : FirstOccurrences values legal →
      (∀ w ∈ values, w.same v = false) → FirstOccurrences (values ++ [v]) (legal ++ [v])
  | again {values legal : List Value} {v w : Value} : FirstOccurrences values legal →
      w ∈ values → w.same v = true → FirstOccurrences (values ++ [v]) legal

/-- A last value is left out if it is equal to one seen or kept before it. -/
theorem distinct_append_singleton (seen values : List Value) (v : Value) :
    distinct seen (values ++ [v]) =
      if (seen ++ distinct seen values).any (·.same v) then distinct seen values
      else distinct seen values ++ [v] := by
  induction values generalizing seen with
  | nil => simp [distinct]
  | cons first rest ih =>
    rw [List.cons_append, distinct, distinct]
    by_cases hfirst : seen.any (·.same first) = true
    · rw [if_pos hfirst, if_pos hfirst, ih]
    · rw [if_neg hfirst, if_neg hfirst, ih]
      have hany : ((first :: seen) ++ distinct (first :: seen) rest).any (·.same v) =
          (seen ++ first :: distinct (first :: seen) rest).any (·.same v) := by
        simp only [List.any_append, List.any_cons]
        grind
      rw [hany]
      split
      · rfl
      · rfl

/-- Every value is equal to one seen or kept. -/
theorem exists_same_of_mem (seen : List Value) (hvalues : ∀ v ∈ values, v.Built) :
    ∀ v ∈ values, ∃ w ∈ seen ++ distinct seen values, w.same v = true := by
  induction values generalizing seen with
  | nil => simp
  | cons first rest ih =>
    rw [List.forall_mem_cons] at hvalues
    rw [distinct]
    by_cases hfirst : seen.any (·.same first) = true
    · rw [if_pos hfirst, List.forall_mem_cons]
      obtain ⟨w, hw, hsame⟩ := List.any_eq_true.mp hfirst
      exact ⟨⟨w, List.mem_append_left _ hw, hsame⟩, ih seen hvalues.2⟩
    · rw [if_neg hfirst, List.forall_mem_cons]
      refine ⟨⟨first, by simp, Value.same_self hvalues.1⟩, ?_⟩
      intro v hv
      obtain ⟨w, hw, hsame⟩ := ih (first :: seen) hvalues.2 v hv
      refine ⟨w, ?_, hsame⟩
      simp only [List.mem_append, List.mem_cons] at hw ⊢
      grind

theorem among_distinct (hvalues : ∀ v ∈ values, v.Built) :
    Value.Among values (distinct [] values) :=
  exists_same_of_mem [] hvalues

/-- It is all one whether a value is compared with all values or with those that are kept. -/
theorem exists_same_distinct_iff (hvalues : ∀ v ∈ values, v.Built) {v : Value} (hv : v.Built) :
    (∃ w ∈ distinct [] values, w.same v = true) ↔ ∃ w ∈ values, w.same v = true := by
  refine ⟨?_, ?_⟩
  · intro ⟨w, hw, hsame⟩
    exact ⟨w, mem_of_mem_distinct hw, hsame⟩
  · intro hany
    have hkept : ∀ w ∈ distinct [] values, w.Built := fun w hw => hvalues w (mem_of_mem_distinct hw)
    exact (among_distinct hvalues).exists_same hvalues hkept hv hany

theorem firstOccurrences_distinct (hvalues : ∀ v ∈ values, v.Built) :
    FirstOccurrences values (distinct [] values) := by
  induction values using List.reverseRecOn with
  | nil => exact .nil
  | append_singleton values v ih =>
    rw [List.forall_mem_append, List.forall_mem_singleton] at hvalues
    obtain ⟨hbefore, hv⟩ := hvalues
    rw [distinct_append_singleton]
    by_cases hany : ∃ w ∈ values, w.same v = true
    · have hkept := (exists_same_distinct_iff hbefore hv).mpr hany
      rw [if_pos (by simpa using hkept)]
      obtain ⟨w, hw, hsame⟩ := hany
      exact .again (ih hbefore) hw hsame
    · have hkept := mt (exists_same_distinct_iff hbefore hv).mp hany
      rw [if_neg (by simpa using hkept)]
      exact .new (ih hbefore) (by simpa using hany)

/-! ## Coerced collections -/

/-- The items of the collection coerce to the values, each at its place. -/
def Yields (c : Conversions) (type : OpenType) (raw : Raw) (values : List Value) : Prop :=
  ∃ items, raw.Holds items ∧ List.Forall₂ (fun item v => c.coerce type item = .ok v) items values

theorem Yields.built (h : c.Yields type raw values) (hc : c.Built) (hraw : raw.Built) :
    ∀ v ∈ values, v.Built := by
  obtain ⟨items, hholds, hvalues⟩ := h
  intro v hv
  obtain ⟨item, hitem, hcoerce⟩ :=
    Outcome.exists_of_mem_mapM (Outcome.mapM_eq_ok.mpr hvalues) v hv
  exact hc.coerce (hholds.built hraw item hitem) hcoerce

theorem Yields.coerceLegal (h : c.Yields type raw values) :
    c.coerceLegal type raw = .ok (distinct [] values) := by
  obtain ⟨items, hholds, hvalues⟩ := h
  rw [coerceLegal_eq_ok]
  exact ⟨items, values, collectionRaws_eq_ok.mpr hholds, Outcome.mapM_eq_ok.mpr hvalues, rfl⟩

/-- The error for a collection that can be read is the one of the first item that does not
coerce. -/
theorem coerceLegal_eq_error_of_holds {items : List Raw} (h : raw.Holds items)
    {e : ConstraintError} : c.coerceLegal type raw = .error e ↔
      ∃ before item rest refusal, items = before ++ item :: rest ∧
        (∀ other ∈ before, ∃ v, c.coerce type other = .ok v) ∧
        c.coerce type item = .error refusal ∧ e = .refused refusal := by
  unfold Conversions.coerceLegal
  rw [collectionRaws_eq_ok.mpr h, Outcome.ok_bind, Outcome.bind_eq_error]
  simp only [Outcome.mapError_eq_error, Outcome.mapM_eq_error, Outcome.pure_eq_ok, reduceCtorEq,
    and_false, exists_false, or_false]
  grind

theorem coerceLegal_of_not_plural (h : ¬ raw.IsPlural) : c.coerceLegal type raw =
    .error (.malformed .legalValues (.notACollection raw.shape)) := by
  cases raw with
  | text s => rfl
  | sequence items => exact absurd trivial h
  | set items => exact absurd trivial h
  | native v =>
    cases v with
    | array a => exact absurd trivial h
    | _ => rfl

theorem exists_legal_iff :
    (∃ legal, c.coerceLegal type raw = .ok legal) ↔ ∃ values, c.Yields type raw values := by
  refine ⟨?_, ?_⟩
  · intro ⟨legal, hlegal⟩
    obtain ⟨items, values, hitems, hvalues, _⟩ := coerceLegal_eq_ok.mp hlegal
    exact ⟨values, items, collectionRaws_eq_ok.mp hitems, Outcome.mapM_eq_ok.mp hvalues⟩
  · intro ⟨values, hyields⟩
    exact ⟨_, hyields.coerceLegal⟩

/-- In an array the first null is refused, whatever the other elements are. -/
theorem coerceLegal_of_null {a : ArrayValue} {before : List Value} {rest : List (Option Value)}
    (h : a.elements = before.map some ++ none :: rest) :
    c.coerceLegal type (.native (.array a)) =
      .error (.refused ⟨type.className, "legalValues[" ++ toString before.length ++ "]",
        .nullLegalValue⟩) := by
  have hraws : collectionRaws type (.native (.array a)) =
      .error (.refused ⟨type.className, "legalValues[" ++ toString before.length ++ "]",
        .nullLegalValue⟩) := by
    rw [collectionRaws, h, elementRaws_of_null, Nat.zero_add]
    rfl
  unfold Conversions.coerceLegal
  rw [hraws, Outcome.error_bind]

/-- The elements of an array are all values, or there is a first null. -/
theorem exists_values_or_null (elements : List (Option Value)) :
    (∃ values : List Value, elements = values.map some) ∨
      ∃ (before : List Value) (rest : List (Option Value)),
        elements = before.map some ++ none :: rest := by
  induction elements with
  | nil => exact .inl ⟨[], rfl⟩
  | cons element rest ih =>
    cases element with
    | none => exact .inr ⟨[], rest, rfl⟩
    | some v =>
      rcases ih with ⟨values, rfl⟩ | ⟨before, rest, rfl⟩
      · exact .inl ⟨v :: values, rfl⟩
      · exact .inr ⟨v :: before, rest, rfl⟩

theorem holds_or_null (h : raw.IsPlural) : (∃ items, raw.Holds items) ∨
    ∃ (a : ArrayValue) (before : List Value) (rest : List (Option Value)),
      raw = .native (.array a) ∧ a.elements = before.map some ++ none :: rest := by
  cases raw with
  | text s => cases h
  | sequence items => exact .inl ⟨items, .sequence items⟩
  | set items => exact .inl ⟨items, .set items⟩
  | native v =>
    cases v with
    | array a =>
      rcases exists_values_or_null a.elements with ⟨values, hvalues⟩ | ⟨before, rest, hnull⟩
      · exact .inl ⟨_, .array hvalues⟩
      · exact .inr ⟨a, before, rest, rfl, hnull⟩
    | _ => cases h

/-- A collection or an array is only refused for what it holds. -/
theorem exists_refusal (h : raw.IsPlural) {e : ConstraintError}
    (herror : c.coerceLegal type raw = .error e) : ∃ refusal, e = .refused refusal := by
  rcases holds_or_null h with ⟨items, hitems⟩ | ⟨a, before, rest, rfl, hnull⟩
  · obtain ⟨_, _, _, refusal, _, _, _, he⟩ := (coerceLegal_eq_error_of_holds hitems).mp herror
    exact ⟨refusal, he⟩
  · rw [coerceLegal_of_null hnull] at herror
    exact ⟨_, (Except.error.inj herror).symm⟩

theorem malformed_iff : (∃ field fault, c.coerceLegal type raw = .error (.malformed field fault)) ↔
    ¬ raw.IsPlural := by
  refine ⟨?_, ?_⟩
  · intro ⟨field, fault, herror⟩ hplural
    obtain ⟨_, ⟨⟩⟩ := exists_refusal hplural herror
  · intro h
    exact ⟨_, _, coerceLegal_of_not_plural h⟩

/-- An array is taken if each element is a value of the type. -/
theorem takes_array_iff {a : ArrayValue} :
    (∃ legal, c.coerceLegal type (.native (.array a)) = .ok legal) ↔
      ∀ element ∈ a.elements, ∃ v, element = some v ∧ type.hasValue v = true := by
  rcases exists_values_or_null a.elements with ⟨values, hvalues⟩ | ⟨before, rest, hnull⟩
  · have hraws : collectionRaws type (.native (.array a)) = .ok (values.map .native) :=
      collectionRaws_eq_ok.mpr (.array hvalues)
    simp only [coerceLegal_eq_ok, hraws, Except.ok.injEq, hvalues]
    refine ⟨?_, ?_⟩
    · rintro ⟨_, _, given, rfl, hgiven, _⟩ element helement
      obtain ⟨v, hv, rfl⟩ := List.mem_map.mp helement
      exact ⟨v, rfl, (mapM_coerce_natives.mp hgiven).2 v hv⟩
    · intro htyped
      refine ⟨_, _, values, rfl, mapM_coerce_natives.mpr ⟨rfl, ?_⟩, rfl⟩
      simpa using htyped
  · rw [coerceLegal_of_null hnull]
    refine iff_of_false nofun ?_
    intro htyped
    obtain ⟨_, ⟨⟩, _⟩ := htyped none (by simp [hnull])

theorem refuses_array_iff {a : ArrayValue} :
    (∃ e, c.coerceLegal type (.native (.array a)) = .error e) ↔
      ∃ element ∈ a.elements, ∀ v, element = some v → type.hasValue v = false := by
  have hrefuses : (∃ e, c.coerceLegal type (.native (.array a)) = .error e) ↔
      ¬ ∃ legal, c.coerceLegal type (.native (.array a)) = .ok legal := by
    rcases c.coerceLegal type (.native (.array a)) with e | legal <;> simp
  rw [hrefuses, takes_array_iff]
  simp

/-! ## The law -/

/-- A raw value that is neither a collection nor an array is malformed, and no other. A sequence or
a set is refused with the error of its first item that does not coerce, and an array for an element
that is null or not of the type. What is left gives its values, of equal ones the first, and these
are given once more when they are stated as a collection, whatever conversions are registered. -/
theorem legal_values_are_the_first_of_equal_ones (c : Conversions) (type : OpenType) (raw : Raw) :
    ((∃ field fault, c.coerceLegal type raw = .error (.malformed field fault)) ↔ ¬ raw.IsPlural) ∧
    (∀ items, raw = .sequence items ∨ raw = .set items → ∀ e, c.coerceLegal type raw = .error e ↔
      ∃ before item rest refusal, items = before ++ item :: rest ∧
        (∀ other ∈ before, ∃ v, c.coerce type other = .ok v) ∧
        c.coerce type item = .error refusal ∧ e = .refused refusal) ∧
    (∀ a, raw = .native (.array a) → ((∃ e, c.coerceLegal type raw = .error e) ↔
      ∃ element ∈ a.elements, ∀ v, element = some v → type.hasValue v = false)) ∧
    ((∃ legal, c.coerceLegal type raw = .ok legal) ↔ ∃ values, c.Yields type raw values) ∧
    (c.Built → raw.Built → ∀ values, c.Yields type raw values →
      ∃ legal, c.coerceLegal type raw = .ok legal ∧ FirstOccurrences values legal ∧
        Distinct legal ∧ Value.Among values legal ∧ (∀ v ∈ legal, v ∈ values) ∧
        ∀ other : Conversions, other.coerceLegal type (.set (legal.map .native)) = .ok legal ∧
          other.coerceLegal type (.sequence (legal.map .native)) = .ok legal) := by
  refine ⟨malformed_iff, ?_, ?_, exists_legal_iff, ?_⟩
  · intro items hitems e
    rcases hitems with rfl | rfl
    · exact coerceLegal_eq_error_of_holds (.sequence items)
    · exact coerceLegal_eq_error_of_holds (.set items)
  · rintro a rfl
    exact refuses_array_iff
  · intro hc hraw values hyields
    have hbuilt := hyields.built hc hraw
    have hlegal := hyields.coerceLegal
    obtain ⟨hdistinct, htyped⟩ := legal_of_coerceLegal hlegal
    refine ⟨_, hlegal, firstOccurrences_distinct hbuilt, hdistinct, among_distinct hbuilt,
      fun v => mem_of_mem_distinct, ?_⟩
    intro other
    have hagain : other.coerceLegal type (.set ((distinct [] values).map .native)) =
        .ok (distinct [] values) := (coerceLegal_natives hdistinct).mpr ⟨rfl, htyped⟩
    -- Sequences and sets are read alike.
    exact ⟨hagain, hagain⟩

/-- A decimal that is stated as a text and as a finished value is listed once, but in another scale
it is another value. -/
theorem a_decimal_is_listed_once_for_each_scale :
    Conversions.empty.coerceLegal (.simple .bigDecimal)
        (.set [.text "1.0", .native (.scalar (.bigDecimal ⟨10, 1⟩)), .text "1.00"]) =
      .ok [.scalar (.bigDecimal ⟨10, 1⟩), .scalar (.bigDecimal ⟨100, 2⟩)] ∧
    FirstOccurrences
      [.scalar (.bigDecimal ⟨10, 1⟩), .scalar (.bigDecimal ⟨10, 1⟩), .scalar (.bigDecimal ⟨100, 2⟩)]
      [.scalar (.bigDecimal ⟨10, 1⟩), .scalar (.bigDecimal ⟨100, 2⟩)] := by
  have hraw : Raw.Built
      (.set [.text "1.0", .native (.scalar (.bigDecimal ⟨10, 1⟩)), .text "1.00"]) := by
    have hnative : (Raw.native (.scalar (.bigDecimal ⟨10, 1⟩))).Built := .native (.scalar trivial)
    apply Raw.Built.set
    simp [Raw.Built.text, hnative]
  have hyields : Conversions.empty.Yields (.simple .bigDecimal)
      (.set [.text "1.0", .native (.scalar (.bigDecimal ⟨10, 1⟩)), .text "1.00"])
      [.scalar (.bigDecimal ⟨10, 1⟩), .scalar (.bigDecimal ⟨10, 1⟩),
        .scalar (.bigDecimal ⟨100, 2⟩)] :=
    ⟨_, .set _, .cons rfl (.cons rfl (.cons rfl .nil))⟩
  obtain ⟨_, _, _, _, hresult⟩ := legal_values_are_the_first_of_equal_ones .empty
    (.simple .bigDecimal)
    (.set [.text "1.0", .native (.scalar (.bigDecimal ⟨10, 1⟩)), .text "1.00"])
  obtain ⟨legal, hlegal, hfirst, _⟩ := hresult built_empty hraw _ hyields
  have hcomputed : Conversions.empty.coerceLegal (.simple .bigDecimal)
        (.set [.text "1.0", .native (.scalar (.bigDecimal ⟨10, 1⟩)), .text "1.00"]) =
      .ok [.scalar (.bigDecimal ⟨10, 1⟩), .scalar (.bigDecimal ⟨100, 2⟩)] := rfl
  cases hlegal.symm.trans hcomputed
  exact ⟨hcomputed, hfirst⟩

end Conversions

end ManagementSchema
