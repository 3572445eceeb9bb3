-- What a constraint makes of a JSON value: nothing of null, an error where an
-- object or a null item stands at any depth, and else a raw value that has the
-- shape of the JSON value, item by item.
import ManagementSchema.Proofs.RecognizedFields

namespace ManagementSchema

/-! ## JSON values inside of others -/

namespace Json

/-- What holds of single values and objects, and of an array when it holds of the items, holds of
every JSON value. No member of an object is looked at. -/
@[elab_as_elim]
theorem induct {motive : Json → Prop} (null : motive .null) (bool : ∀ b, motive (.bool b))
    (number : ∀ n, motive (.number n)) (string : ∀ s, motive (.string s))
    (array : ∀ items, (∀ item ∈ items, motive item) → motive (.array items))
    (object : ∀ members, motive (.object members)) (json : Json) : motive json := by
  cases json with
  | null => exact null
  | bool b => exact bool b
  | number n => exact number n
  | string s => exact string s
  | array items =>
    exact array items fun item _ => induct null bool number string array object item
  | object members => exact object members
termination_by json

/-- The first value stands in the second at some depth: it is the value itself, or stands in an
item of the array or under a name of the object. -/
inductive Within (part : Json) : Json → Prop
  | self : Within part part
  | item {items : List Json} {item : Json} :
      item ∈ items → Within part item → Within part (.array items)
  | member {members : List (String × Json)} {name : String} {value : Json} :
      (name, value) ∈ members → Within part value → Within part (.object members)

/-- An object stands in the value. -/
def HasObject (json : Json) : Prop := ∃ members, (object members).Within json

/-- A null stands in the value as an item of an array. -/
def HasNullItem (json : Json) : Prop := ∃ items, (array items).Within json ∧ null ∈ items

variable {items : List Json}

theorem hasObject_array_iff : (array items).HasObject ↔ ∃ item ∈ items, item.HasObject := by
  refine ⟨?_, ?_⟩
  · rintro ⟨members, _ | ⟨hitem, hwithin⟩⟩
    exact ⟨_, hitem, members, hwithin⟩
  · rintro ⟨item, hitem, members, hwithin⟩
    exact ⟨members, .item hitem hwithin⟩

theorem hasNullItem_array_iff :
    (array items).HasNullItem ↔ null ∈ items ∨ ∃ item ∈ items, item.HasNullItem := by
  refine ⟨?_, ?_⟩
  · rintro ⟨inner, _ | ⟨hitem, hwithin⟩, hnull⟩
    · exact .inl hnull
    · exact .inr ⟨_, hitem, inner, hwithin, hnull⟩
  · rintro (hnull | ⟨item, hitem, inner, hwithin, hnull⟩)
    · exact ⟨items, .self, hnull⟩
    · exact ⟨inner, .item hitem hwithin, hnull⟩

end Json

namespace Raw

variable {json item : Json} {items : List Json} {raw : Raw} {raws : List Raw} {fault : Fault}

/-- The raw value has the shape of the JSON value: a sequence of as many raw values for an array, in
the same order, and for the single values the string, the text of the number, the boolean. -/
inductive Mirrors : Json → Raw → Prop
  | bool (b : Bool) : Mirrors (.bool b) (.native (.scalar (.boolean b)))
  | number (n : Json.Number) : Mirrors (.number n) (.text n.text)
  | string (s : String) : Mirrors (.string s) (.text s)
  | array {items : List Json} {raws : List Raw} :
      List.Forall₂ Mirrors items raws → Mirrors (.array items) (.sequence raws)

/-! ## Items of arrays -/

/-- A JSON value as the raw value of an item, which may not be absent. -/
def ofJsonItem (item : Json) : Except Fault Raw :=
  match ofJson item with
  | .error fault => .error fault
  | .ok none => .error .nullElement
  | .ok (some raw) => .ok raw

theorem ofJsonItems_eq_mapM (items : List Json) : ofJsonItems items = items.mapM ofJsonItem := by
  induction items with
  | nil => rfl
  | cons item rest ih =>
    rw [ofJsonItems, List.mapM_cons, ih]
    unfold ofJsonItem
    rcases ofJson item with fault | _ | raw <;> rfl

/-- Only null is no value. -/
theorem ofJson_eq_none_iff : ofJson json = .ok none ↔ json = .null := by
  cases json with
  | array items => simp [ofJson, Outcome.map_eq_ok]
  | _ => simp [ofJson]

theorem ofJsonItem_eq_ok : ofJsonItem item = .ok raw ↔ ofJson item = .ok (some raw) := by
  unfold ofJsonItem
  rcases ofJson item with fault | _ | raw <;> simp

theorem ofJsonItem_eq_error : ofJsonItem item = .error fault ↔
    item = .null ∧ fault = .nullElement ∨ ofJson item = .error fault := by
  rw [← ofJson_eq_none_iff]
  unfold ofJsonItem
  rcases ofJson item with fault | _ | raw <;> simp [eq_comm]

theorem ofJson_array_eq_some : ofJson (.array items) = .ok (some raw) ↔
    ∃ raws, List.Forall₂ (fun item raw => ofJson item = .ok (some raw)) items raws ∧
      .sequence raws = raw := by
  rw [ofJson, Outcome.map_eq_ok]
  simp only [ofJsonItems_eq_mapM, Outcome.mapM_eq_ok, ofJsonItem_eq_ok, Option.some.injEq]

/-- An array is refused for its first item that is null or refused itself. -/
theorem ofJson_array_eq_error : ofJson (.array items) = .error fault ↔
    ∃ before item rest, items = before ++ item :: rest ∧
      (∀ other ∈ before, ∃ raw, ofJson other = .ok (some raw)) ∧
      (item = .null ∧ fault = .nullElement ∨ ofJson item = .error fault) := by
  rw [ofJson, Outcome.map_eq_error, ofJsonItems_eq_mapM, Outcome.mapM_eq_error]
  simp only [ofJsonItem_eq_ok, ofJsonItem_eq_error]

theorem ofJson_array_fails_iff : (∃ fault, ofJson (.array items) = .error fault) ↔
    .null ∈ items ∨ ∃ item ∈ items, ∃ fault, ofJson item = .error fault := by
  simp only [ofJson, Outcome.map_eq_error, ofJsonItems_eq_mapM, Outcome.mapM_fails_iff,
    ofJsonItem_eq_error, exists_or, and_or_left]
  simp

/-! ## Whole values -/

/-- What is read of a JSON value is what has its shape. -/
theorem ofJson_eq_some_iff : ofJson json = .ok (some raw) ↔ Mirrors json raw := by
  induction json using Json.induct generalizing raw with
  | null => exact ⟨nofun, nofun⟩
  | bool b =>
    refine ⟨?_, ?_⟩
    · rintro ⟨⟩
      exact .bool b
    · rintro ⟨⟩
      rfl
  | number n =>
    refine ⟨?_, ?_⟩
    · rintro ⟨⟩
      exact .number n
    · rintro ⟨⟩
      rfl
  | string s =>
    refine ⟨?_, ?_⟩
    · rintro ⟨⟩
      exact .string s
    · rintro ⟨⟩
      rfl
  | array items ih =>
    rw [ofJson_array_eq_some]
    refine ⟨?_, ?_⟩
    · rintro ⟨raws, hitems, rfl⟩
      have hboth := (List.forall₂_and_left items raws).mpr ⟨ih, hitems⟩
      exact .array (hboth.imp fun item raw h => h.1.mp h.2)
    · rintro (_ | _ | _ | hitems)
      have hboth := (List.forall₂_and_left items _).mpr ⟨ih, hitems⟩
      exact ⟨_, hboth.imp fun item raw h => h.1.mpr h.2, rfl⟩
  | object members => exact ⟨nofun, nofun⟩

/-- The fault names what stands in a refused value. -/
theorem fault_of_ofJson (h : ofJson json = .error fault) :
    fault = .objectValue ∧ json.HasObject ∨ fault = .nullElement ∧ json.HasNullItem := by
  induction json using Json.induct with
  | null => cases h
  | bool b => cases h
  | number n => cases h
  | string s => cases h
  | array items ih =>
    rw [Json.hasObject_array_iff, Json.hasNullItem_array_iff]
    obtain ⟨before, item, rest, rfl, _, hitem⟩ := ofJson_array_eq_error.mp h
    have hmem : item ∈ before ++ item :: rest := List.mem_append_right before List.mem_cons_self
    rcases hitem with ⟨rfl, hfault⟩ | hitem
    · exact .inr ⟨hfault, .inl hmem⟩
    · rcases ih item hmem hitem with ⟨hfault, hobject⟩ | ⟨hfault, hnull⟩
      · exact .inl ⟨hfault, item, hmem, hobject⟩
      · exact .inr ⟨hfault, .inr ⟨item, hmem, hnull⟩⟩
  | object members =>
    cases h
    exact .inl ⟨rfl, members, .self⟩

theorem ofJson_fails_iff :
    (∃ fault, ofJson json = .error fault) ↔ json.HasObject ∨ json.HasNullItem := by
  refine ⟨?_, ?_⟩
  · rintro ⟨fault, h⟩
    rcases fault_of_ofJson h with ⟨_, hobject⟩ | ⟨_, hnull⟩
    · exact .inl hobject
    · exact .inr hnull
  · intro h
    induction json using Json.induct with
    | array items ih =>
      rw [ofJson_array_fails_iff]
      rw [Json.hasObject_array_iff, Json.hasNullItem_array_iff] at h
      rcases h with ⟨item, hitem, hobject⟩ | hnull | ⟨item, hitem, hnull⟩
      · exact .inr ⟨item, hitem, ih item hitem (.inl hobject)⟩
      · exact .inl hnull
      · exact .inr ⟨item, hitem, ih item hitem (.inr hnull)⟩
    | object members => exact ⟨.objectValue, rfl⟩
    | _ =>
      -- A single value has nothing in it but itself.
      rcases h with ⟨_, ⟨⟩⟩ | ⟨_, ⟨⟩, _⟩

end Raw

/-! ## The law -/

namespace Descriptor

/-- What a constraint makes of a JSON value. Null, and only null, is no value. A value is refused,
with an error that names the constraint and what is wrong, just if an object stands in it at any
depth or a null in one of its arrays at any depth. Every other value is read, and what is read has
its shape. -/
theorem json_values_keep_their_shape (field : ConstraintField) (json : Json) :
    (rawOfMember field.name json = .ok none ↔ json = .null) ∧
      ((∃ e, rawOfMember field.name json = .error e) ↔ json.HasObject ∨ json.HasNullItem) ∧
      (∀ e, rawOfMember field.name json = .error e →
        e = .malformed field .objectValue ∧ json.HasObject ∨
          e = .malformed field .nullElement ∧ json.HasNullItem) ∧
      ((∃ raw, rawOfMember field.name json = .ok (some raw)) ↔
        json ≠ .null ∧ ¬ json.HasObject ∧ ¬ json.HasNullItem) ∧
      ∀ raw, rawOfMember field.name json = .ok (some raw) ↔ Raw.Mirrors json raw := by
  simp only [rawOfMember_name, Outcome.mapError_eq_ok, Outcome.mapError_eq_error]
  have hfails : (∃ fault, Raw.ofJson json = .error fault) ↔ json.HasObject ∨ json.HasNullItem :=
    Raw.ofJson_fails_iff
  refine ⟨Raw.ofJson_eq_none_iff, ?_, ?_, ?_, fun raw => Raw.ofJson_eq_some_iff⟩
  · rw [← hfails]
    refine ⟨?_, ?_⟩
    · rintro ⟨_, fault, hfault, _⟩
      exact ⟨fault, hfault⟩
    · rintro ⟨fault, hfault⟩
      exact ⟨_, fault, hfault, rfl⟩
  · rintro _ ⟨fault, hfault, rfl⟩
    rcases Raw.fault_of_ofJson hfault with ⟨rfl, hobject⟩ | ⟨rfl, hnull⟩
    · exact .inl ⟨rfl, hobject⟩
    · exact .inr ⟨rfl, hnull⟩
  · -- Of the three ways in which reading can end, the other two are the ones left out.
    rw [← not_or, ← hfails, ne_eq, ← Raw.ofJson_eq_none_iff]
    rcases Raw.ofJson json with fault | _ | raw <;> simp

/-- A null three arrays deep is refused, and without it the arrays are read one inside the
other. -/
theorem a_null_three_arrays_deep_is_refused :
    rawOfMember "legalValues" (.array [.string "a", .array [.array [.null]]]) =
        .error (.malformed .legalValues .nullElement) ∧
      rawOfMember "legalValues" (.array [.string "a", .array [.array [.bool true]]]) =
        .ok (some (.sequence [.text "a",
          .sequence [.sequence [.native (.scalar (.boolean true))]]])) := by
  refine ⟨?_, ?_⟩
  · obtain ⟨_, hfails, hfault, _⟩ := json_values_keep_their_shape .legalValues
      (.array [.string "a", .array [.array [.null]]])
    have hnull : Json.HasNullItem (.array [.string "a", .array [.array [.null]]]) :=
      ⟨[.null], .item (List.mem_cons_of_mem _ List.mem_cons_self) (.item List.mem_cons_self .self),
        List.mem_cons_self⟩
    obtain ⟨e, he⟩ := hfails.mpr (.inr hnull)
    rcases hfault e he with ⟨rfl, _⟩ | ⟨rfl, _⟩
    · cases he
    · exact he
  · obtain ⟨_, _, _, _, hread⟩ := json_values_keep_their_shape .legalValues
      (.array [.string "a", .array [.array [.bool true]]])
    have hinner : Raw.Mirrors (.array [.array [.bool true]])
        (.sequence [.sequence [.native (.scalar (.boolean true))]]) :=
      .array (.cons (.array (.cons (.bool true) .nil)) .nil)
    exact (hread _).mpr (.array (.cons (.string "a") (.cons hinner .nil)))

end Descriptor

end ManagementSchema
