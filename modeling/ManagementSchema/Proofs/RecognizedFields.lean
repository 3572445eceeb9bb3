-- Only the four constraints of a descriptor matter. What edits leave under a
-- name is what the last of them that touches the name says, and of a JSON
-- object only the members under the names of constraints can be refused.
import Mathlib.Data.List.Induction
import ManagementSchema.Proofs.Entries
import ManagementSchema.Proofs.ExportedDescriptors

namespace ManagementSchema

theorem ConstraintField.ofName?_name (field : ConstraintField) :
    ofName? field.name = some field := by
  cases field <;> decide

theorem ConstraintField.name_of_ofName? {name : String} {field : ConstraintField}
    (h : ofName? name = some field) : field.name = name := by
  simpa using List.find?_some h

namespace Descriptor

/-! ## Infos -/

/-- What is made from the one descriptor, or the error that refuses it, is made from the other one
too. -/
structure Alike (d d' : Descriptor) : Prop where
  ofParameter : ∀ name description type conversions,
    ParameterInfo.ofDescriptor name description type d conversions =
      ParameterInfo.ofDescriptor name description type d' conversions
  ofAttribute : ∀ name description access type conversions,
    AttributeInfo.ofDescriptor name description access type d conversions =
      AttributeInfo.ofDescriptor name description access type d' conversions

theorem alike_of_fields {d d' : Descriptor} (h : ∀ field, d.field? field = d'.field? field) :
    d.Alike d' := by
  have hfields : d.constraintFields = d'.constraintFields := by
    unfold constraintFields
    rw [h, h, h, h]
  refine ⟨?_, ?_⟩
  · intro name description type conversions
    unfold ParameterInfo.ofDescriptor
    rw [hfields]
  · intro name description access type conversions
    unfold AttributeInfo.ofDescriptor
    rw [hfields]

/-! ## Edits -/

namespace Edit

/-- What an edit says of a name, if it touches it: the raw value that stands there after it, or
that none does. -/
def says? (name : String) : Edit → Option (Option Raw)
  | restate fields => some (Dictionary.find? name fields.reverse)
  | set other raw => if other = name then some (some raw) else none
  | remove other => if other = name then some none else none

/-- What edits leave under a name is what the last one that touches it says. -/
def left (name : String) (edits : List Edit) : Option Raw :=
  (edits.reverse.findSome? (says? name)).join

theorem get?_apply (d : Descriptor) (edit : Edit) (name : String) :
    (edit.apply d).get? name = (edit.says? name).getD (d.get? name) := by
  cases edit with
  | restate fields => exact Dictionary.get?_ofList fields name
  | set other raw =>
    rw [apply, Dictionary.get?_insert, says?]
    split <;> rfl
  | remove other =>
    rw [apply, Dictionary.get?_erase, says?]
    split <;> rfl

end Edit

theorem get?_ofEdits (edits : List Edit) (name : String) :
    (ofEdits edits).get? name = Edit.left name edits := by
  induction edits using List.reverseRecOn with
  | nil => rfl
  | append_singleton before edit ih =>
    have hlast : ofEdits (before ++ [edit]) = edit.apply (ofEdits before) := by
      simp [ofEdits, List.foldl_append]
    rw [hlast, Edit.get?_apply, ih]
    unfold Edit.left
    rw [List.reverse_append, List.reverse_singleton, List.singleton_append, List.findSome?_cons]
    rcases edit.says? name with _ | said
    · rfl
    · rfl

end Descriptor

/-! ## JSON members -/

mutual

/-- Objects are refused whatever their members, so the order of members does not matter. -/
theorem Raw.ofJson_sorted : ∀ value : Json, ofJson value.sorted = ofJson value
  | .null => rfl
  | .bool _ => rfl
  | .number _ => rfl
  | .string _ => rfl
  | .array items => by rw [Json.sorted, ofJson, ofJson, Raw.ofJsonItems_sortedItems items]
  | .object _ => rfl

theorem Raw.ofJsonItems_sortedItems :
    ∀ items : List Json, ofJsonItems (Json.sortedItems items) = ofJsonItems items
  | [] => rfl
  | item :: rest => by
    rw [Json.sortedItems, ofJsonItems, ofJsonItems, Raw.ofJson_sorted item,
      Raw.ofJsonItems_sortedItems rest]

end

/-- The member of an object under a name: the last one counts, null is none, and the members inside
of it stand in order. -/
def Json.member? (members : List (String × Json)) (name : String) : Option Json :=
  match Dictionary.find? name members.reverse with
  | some .null | none => none
  | some value => some value.sorted

namespace Descriptor

variable {members members' : List (String × Json)} {d : Descriptor} {entries : List (String × Json)}
  {name : String} {value : Json} {e : ConstraintError}

/-- The raw value that an object states for a constraint, or why its member does not do for
one. -/
def stated (members : List (String × Json)) (field : ConstraintField) :
    Except Raw.Fault (Option Raw) :=
  match Json.member? members field.name with
  | some value => Raw.ofJson value
  | none => .ok none

theorem stated_of_get? {field : ConstraintField}
    (h : (Dictionary.ofList members).get? field.name = some value) :
    stated members field = Raw.ofJson value := by
  rw [Dictionary.get?_ofList] at h
  unfold stated Json.member?
  rw [h]
  cases value with
  | null => rfl
  | _ => exact Raw.ofJson_sorted _

theorem stated_of_get?_eq_none {field : ConstraintField}
    (h : (Dictionary.ofList members).get? field.name = none) :
    stated members field = .ok none := by
  rw [Dictionary.get?_ofList] at h
  unfold stated Json.member?
  rw [h]

theorem rawOfMember_name (field : ConstraintField) (value : Json) :
    rawOfMember field.name value = (Raw.ofJson value).mapError (.malformed field) := by
  unfold rawOfMember
  rw [field.ofName?_name]

/-- A member is refused only under the name of a constraint. -/
theorem rawOfMember_eq_error : rawOfMember name value = .error e ↔
    ∃ field fault, ConstraintField.ofName? name = some field ∧ Raw.ofJson value = .error fault ∧
      e = .malformed field fault := by
  unfold rawOfMember
  rcases ConstraintField.ofName? name with _ | field
  · cases value <;> simp
  · simp only [Outcome.mapError_eq_error, Option.some.injEq]
    refine ⟨?_, ?_⟩
    · rintro ⟨fault, hfault, rfl⟩
      exact ⟨field, fault, rfl, hfault, rfl⟩
    · rintro ⟨_, fault, rfl, hfault, rfl⟩
      exact ⟨fault, hfault, rfl⟩

theorem addMembers_cons (d : Descriptor) (name : String) (value : Json)
    (rest : List (String × Json)) : addMembers d ((name, value) :: rest) =
      rawOfMember name value >>= fun raw => addMembers (d.put name raw) rest := by
  rw [addMembers]
  refine congrArg (rawOfMember name value >>= ·) (funext fun raw => ?_)
  cases raw <;> rfl

/-- The error is the one of the first member that is refused. -/
theorem addMembers_eq_error : addMembers d entries = .error e ↔
    Outcome.FirstFailure (fun entry e => rawOfMember entry.1 entry.2 = .error e) entries e := by
  induction entries generalizing d with
  | nil =>
    refine ⟨?_, ?_⟩
    · rintro ⟨⟩
    · rintro ⟨⟩
  | cons entry rest ih =>
    obtain ⟨name, value⟩ := entry
    rw [addMembers_cons]
    exact Outcome.FirstFailure.bind_iff (fun _ => Iff.rfl) fun _ _ => ih

/-- A member goes under its own name. -/
theorem get?_of_addMembers {d' : Descriptor} (h : addMembers d entries = .ok d')
    (hnodup : (entries.map Prod.fst).Nodup) (name : String) :
    (∀ value, (name, value) ∈ entries → ∃ raw, rawOfMember name value = .ok raw ∧
      d'.get? name = raw.or (d.get? name)) ∧
    (name ∉ entries.map Prod.fst → d'.get? name = d.get? name) := by
  induction entries generalizing d with
  | nil =>
    cases h
    simp
  | cons entry rest ih =>
    obtain ⟨key, first⟩ := entry
    rw [addMembers_cons, Outcome.bind_eq_ok] at h
    obtain ⟨raw, hraw, hrest⟩ := h
    rw [List.map_cons, List.nodup_cons] at hnodup
    obtain ⟨hfound, hnot⟩ := ih hrest hnodup.2
    have hput : (d.put key raw).get? name =
        if key = name then raw.or (d.get? name) else d.get? name := get?_put key name raw
    by_cases heq : key = name
    · subst heq
      rw [if_pos rfl] at hput
      refine ⟨?_, ?_⟩
      · intro value hvalue
        rcases List.mem_cons.mp hvalue with hfirst | hvalue
        · cases hfirst
          exact ⟨raw, hraw, (hnot hnodup.1).trans hput⟩
        · exact absurd (List.mem_map_of_mem hvalue) hnodup.1
      · intro hmem
        simp at hmem
    · rw [if_neg heq] at hput
      rw [hput] at hfound hnot
      refine ⟨?_, ?_⟩
      · intro value hvalue
        rcases List.mem_cons.mp hvalue with hfirst | hvalue
        · cases hfirst
          exact absurd rfl heq
        · exact hfound value hvalue
      · intro hmem
        rw [List.map_cons, List.mem_cons, not_or] at hmem
        exact hnot hmem.2

/-- An object is refused for the first of the constraints, in the order of their names, whose
member does not do. -/
theorem ofJson_eq_error : ofJson members = .error e ↔
    ∃ field fault, stated members field = .error fault ∧ e = .malformed field fault ∧
      ∀ other : ConstraintField, other.name < field.name →
        ∀ fault, stated members other ≠ .error fault := by
  have hsorted := (Dictionary.ofList members).sorted
  -- A refused member is the one that a constraint is stated by.
  have hrefused : ∀ field fault, stated members field = .error fault ↔
      ∃ value, (field.name, value) ∈ (Dictionary.ofList members).entries ∧
        Raw.ofJson value = .error fault := by
    intro field fault
    simp only [Dictionary.mem_entries_iff]
    rcases hget : (Dictionary.ofList members).get? field.name with _ | value
    · simp [stated_of_get?_eq_none hget]
    · simp [stated_of_get? hget]
  unfold ofJson
  rw [addMembers_eq_error, Outcome.FirstFailure.iff_of_pairwise (fun _ _ => String.lt_asymm) hsorted]
  refine ⟨?_, ?_⟩
  · rintro ⟨⟨name, value⟩, hmem, hfails, hleast⟩
    obtain ⟨field, fault, hname, hvalue, rfl⟩ := rawOfMember_eq_error.mp hfails
    obtain rfl := ConstraintField.name_of_ofName? hname
    refine ⟨field, fault, (hrefused field fault).mpr ⟨value, hmem, hvalue⟩, rfl, ?_⟩
    intro other hless fault' hother
    obtain ⟨value', hmem', hvalue'⟩ := (hrefused other fault').mp hother
    exact hleast _ hmem' hless _
      (rawOfMember_eq_error.mpr ⟨other, fault', other.ofName?_name, hvalue', rfl⟩)
  · rintro ⟨field, fault, hstated, rfl, hleast⟩
    obtain ⟨value, hmem, hvalue⟩ := (hrefused field fault).mp hstated
    refine ⟨(field.name, value), hmem,
      rawOfMember_eq_error.mpr ⟨field, fault, field.ofName?_name, hvalue, rfl⟩, ?_⟩
    rintro ⟨name', value'⟩ hmem' hless e' hfails
    obtain ⟨other, fault', hname, hvalue', _⟩ := rawOfMember_eq_error.mp hfails
    obtain rfl := ConstraintField.name_of_ofName? hname
    exact hleast other hless fault' ((hrefused other fault').mpr ⟨value', hmem', hvalue'⟩)

/-- A descriptor that is made of an object has what the object states for each constraint. -/
theorem stated_of_ofJson (h : ofJson members = .ok d) (field : ConstraintField) :
    stated members field = .ok (d.field? field) := by
  have hnodup := (Dictionary.ofList members).nodup_keys
  obtain ⟨hfound, hnot⟩ := get?_of_addMembers h hnodup field.name
  unfold field?
  rcases hget : (Dictionary.ofList members).get? field.name with _ | value
  · have hmem : field.name ∉ (Dictionary.ofList members).keys := by
      intro hmem
      obtain ⟨⟨_, value⟩, hentry, rfl⟩ := List.mem_map.mp hmem
      rw [Dictionary.mem_entries_iff.mp hentry] at hget
      cases hget
    rw [stated_of_get?_eq_none hget, hnot hmem]
    rfl
  · obtain ⟨raw, hraw, hfield⟩ := hfound value (Dictionary.mem_entries_iff.mpr hget)
    rw [rawOfMember_name, Outcome.mapError_eq_ok] at hraw
    rw [stated_of_get? hget, hfield, hraw, Dictionary.get?_empty, Option.or_none]

/-- Objects that state the same for each constraint are refused alike, or make descriptors with the
same constraints. -/
theorem ofJson_congr (h : ∀ field, stated members field = stated members' field) :
    (∃ e, ofJson members = .error e ∧ ofJson members' = .error e) ∨
      ∃ d d', ofJson members = .ok d ∧ ofJson members' = .ok d' ∧
        ∀ field, d.field? field = d'.field? field := by
  have herror : ∀ e, ofJson members = .error e ↔ ofJson members' = .error e := by
    intro e
    rw [ofJson_eq_error, ofJson_eq_error]
    simp only [h]
  rcases hd : ofJson members with e | d
  · exact .inl ⟨e, rfl, (herror e).mp hd⟩
  · rcases hd' : ofJson members' with e | d'
    · rw [(herror e).mpr hd'] at hd
      cases hd
    · refine .inr ⟨d, d', rfl, rfl, ?_⟩
      intro field
      have hfield := (stated_of_ofJson hd field).symm.trans
        ((h field).trans (stated_of_ofJson hd' field))
      exact Except.ok.inj hfield

/-! ## The law -/

/-- Only the four constraints matter. Edits, however many and in whatever order, that leave the
same raw value or none under the name of each constraint make descriptors of which the same infos
are made, and the same errors. JSON objects with the same member or none under each of these names
are refused with the same error, or make descriptors of which the same infos are made. -/
theorem only_the_four_constraints_matter :
    (∀ edits edits' : List Edit,
      (∀ field : ConstraintField, Edit.left field.name edits = Edit.left field.name edits') →
      (ofEdits edits).Alike (ofEdits edits')) ∧
    ∀ members members' : List (String × Json),
      (∀ field : ConstraintField,
        Json.member? members field.name = Json.member? members' field.name) →
      (∃ e, ofJson members = .error e ∧ ofJson members' = .error e) ∨
        ∃ d d', ofJson members = .ok d ∧ ofJson members' = .ok d' ∧ d.Alike d' := by
  refine ⟨?_, ?_⟩
  · intro edits edits' h
    apply alike_of_fields
    intro field
    unfold field?
    rw [get?_ofEdits, get?_ofEdits, h field]
  · intro members members' h
    have hstated : ∀ field, stated members field = stated members' field := by
      intro field
      unfold stated
      rw [h field]
    rcases ofJson_congr hstated with herror | ⟨d, d', hd, hd', hfields⟩
    · exact .inl herror
    · exact .inr ⟨d, d', hd, hd', alike_of_fields hfields⟩

/-- A field that was removed again, one whose name is misspelt and a member that is null leave no
trace. -/
theorem misspelt_and_null_fields_leave_no_trace :
    (ofEdits [.restate [("units", .text "s"), ("minValue", .text "9")],
        .set "minValue" (.text "1"), .remove "units"]).Alike
      (ofEdits [.set "minvalue" (.text "0"), .set "minValue" (.text "1")]) ∧
    ∃ d d', ofJson [("units", .object [("si", .null)]), ("minValue", .string "1"),
        ("maxValue", .null)] = .ok d ∧
      ofJson [("minValue", .string "1"), ("minvalue", .array [.null])] = .ok d' ∧ d.Alike d' := by
  obtain ⟨hedits, hmembers⟩ := only_the_four_constraints_matter
  refine ⟨hedits _ _ ?_, ?_⟩
  · intro field
    cases field <;> rfl
  · refine (hmembers _ _ ?_).resolve_left ?_
    · intro field
      cases field <;> rfl
    · rintro ⟨e, he, _⟩
      cases he

end Descriptor

end ManagementSchema
