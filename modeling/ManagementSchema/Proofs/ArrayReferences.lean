-- Brackets behind the name of a definition. A name asks for its definition in
-- front of brackets as it does alone, so each pair of them adds a dimension. But
-- the names of unboxed kinds are looked for first there, and two of these, unlike
-- the others, may also be names of definitions.
import ManagementSchema.Proofs.TypeEntries

namespace ManagementSchema

/-! ## Trimmed texts -/

namespace Text

variable {cs : List Char} {c : Char}

theorem length_trimChars_le (cs : List Char) : (trimChars cs).length ≤ cs.length := by
  unfold trimChars
  rw [List.length_reverse]
  calc ((cs.dropWhile isBlankChar).reverse.dropWhile isBlankChar).length
      ≤ (cs.dropWhile isBlankChar).reverse.length := (List.dropWhile_sublist _).length_le
    _ = (cs.dropWhile isBlankChar).length := List.length_reverse
    _ ≤ cs.length := (List.dropWhile_sublist _).length_le

/-- A trimmed text does not begin with white space. -/
theorem first_of_trimmed (h : trimChars (c :: cs) = c :: cs) : isBlankChar c = false := by
  by_contra hblank
  have hshorter : trimChars (c :: cs) = trimChars cs := by
    unfold trimChars
    rw [List.dropWhile_cons_of_pos (by simpa using hblank)]
  have hlength := length_trimChars_le cs
  rw [← hshorter, h, List.length_cons] at hlength
  omega

/-- Nothing comes off a text whose first and last characters are no white space. -/
theorem trimChars_append_singleton (h : trimChars cs = cs) (hne : cs ≠ []) (between : List Char)
    (hc : isBlankChar c = false) : trimChars (cs ++ between ++ [c]) = cs ++ between ++ [c] := by
  obtain ⟨first, rest, rfl⟩ := List.exists_cons_of_ne_nil hne
  have hfirst := first_of_trimmed h
  unfold trimChars
  simp [List.dropWhile_cons_of_neg, hfirst, hc]

end Text

/-! ## Kinds in front of brackets -/

/-- The names of unboxed kinds that are no names of kinds by themselves. -/
theorem Kind.unboxed_only {name : String} {kind : Kind} (hnone : ofName? name = none)
    (hkind : ofPrimitiveName? name = some kind) :
    name = "int" ∧ kind = .integer ∨ name = "char" ∧ kind = .character := by
  have hname : kind.primitiveName? = some name := by simpa using List.find?_some hkind
  cases kind
  all_goals
    cases hname
  case integer => exact .inl ⟨rfl, rfl⟩
  case character => exact .inr ⟨rfl, rfl⟩
  all_goals
    revert hnone
    decide

/-! ## Brackets -/

namespace Reference

variable {name : String}

/-- The name with pairs of brackets behind it. -/
def bracketed (name : String) (dimension : Nat) : String :=
  name ++ String.ofList (brackets dimension)

theorem brackets_succ (dimension : Nat) :
    brackets (dimension + 1) = brackets dimension ++ ['['] ++ [']'] := by
  unfold brackets
  rw [List.replicate_succ', List.flatten_append]
  simp

/-- A name that is written without brackets is the name in front of any brackets that are put
behind it. -/
theorem written_bracketed (h : Written name 0 name) (hne : name ≠ "") (dimension : Nat) :
    Written (bracketed name (dimension + 1)) (dimension + 1) name := by
  obtain ⟨hname, hend⟩ := h
  have htrim : Text.trimChars name.toList = name.toList := by
    simpa [Text.trim, brackets] using hname
  have hchars : name.toList ≠ [] := by simpa using hne
  refine ⟨?_, hend⟩
  unfold Text.trim bracketed
  rw [String.toList_append, String.toList_ofList, String.toList_ofList, brackets_succ,
    ← List.append_assoc]
  have hbracket : Text.isBlankChar ']' = false := by decide
  exact Text.trimChars_append_singleton htrim hchars _ hbracket

end Reference

/-! ## Named types -/

namespace OpenType

/-- The type is one of records or tables, and has the name. -/
def Named (name : String) : OpenType → Prop
  | composite type => type.name = name
  | tabular type => type.name = name
  | _ => False

theorem Named.name_eq {name : String} {type : OpenType} (h : type.Named name) :
    type.name = name := by
  cases type with
  | simple kind => exact h.elim
  | array type => exact h.elim
  | composite type => exact h
  | tabular type => exact h

theorem Named.build_eq_ok {name : String} {type : OpenType} (h : type.Named name)
    (dimension : Nat) :
    ArrayType.build (dimension + 1) type = .ok ⟨dimension + 1, type, false⟩ := by
  cases type with
  | simple kind => exact h.elim
  | array type => exact h.elim
  | composite type => rfl
  | tabular type => rfl

end OpenType

namespace Manifest

variable {m : Manifest} {name : String} {type : OpenType} {dimension : Nat}

theorem not_named_of_over {element : OpenType}
    (h : Reference.Over (dimension + 1) element type) : ¬ type.Named name := by
  obtain ⟨array, _, rfl⟩ := Reference.over_succ_iff.mp h
  exact not_false

/-- A name that stands for a type of this name is the plain name of a definition. -/
theorem plain_of_named (h : Derives m.types name type) (hnamed : type.Named name) :
    Plain name ∧ NameDerives m.types name type := by
  rcases derives_iff.mp h with
    ⟨_, _, _, _, _, rfl⟩ | ⟨dimension, called, element, hcalls, hname, hover⟩
  · exact hnamed.elim
  · cases dimension with
    | succ dimension => exact absurd hnamed (not_named_of_over hover)
    | zero =>
      obtain rfl := Reference.over_zero_iff.mp hover
      rcases hname with ⟨kind, _, rfl⟩ | ⟨hnone, definition, hget, hbuilds⟩
      · exact hnamed.elim
      · obtain ⟨typeOf, hrefs, hmakes⟩ := hbuilds
        obtain rfl : called = name := (name_of_makes hmakes).symm.trans hnamed.name_eq
        exact ⟨⟨hcalls, hnone⟩, .inr ⟨hnone, definition, hget, typeOf, hrefs, hmakes⟩⟩

theorem resolve_bracketed_unboxed {kind : Kind} (hplain : Plain name)
    (hkind : Kind.ofPrimitiveName? name = some kind) (dimension : Nat) :
    m.resolve (Reference.bracketed name (dimension + 1)) =
      .ok (.array ⟨dimension + 1, .simple kind, true⟩) := by
  obtain ⟨⟨hwritten, hne, _⟩, _⟩ := hplain
  rw [resolve_eq_ok_iff]
  exact .unboxed (Reference.written_bracketed hwritten hne dimension) hkind

/-- A plain name that is not taken for an unboxed kind has its own type in front of brackets. -/
theorem resolve_bracketed {array : ArrayType} (hplain : Plain name)
    (hname : NameDerives m.types name type) (hkind : Kind.ofPrimitiveName? name = none)
    (harray : ArrayType.build (dimension + 1) type = .ok array) :
    m.resolve (Reference.bracketed name (dimension + 1)) = .ok (.array array) := by
  obtain ⟨⟨hwritten, hne, _⟩, _⟩ := hplain
  have hcalls : Reference.Calls (Reference.bracketed name (dimension + 1)) (dimension + 1) name :=
    ⟨Reference.written_bracketed hwritten hne dimension, hne, .inr hkind⟩
  rw [resolve_eq_ok_iff, derives_iff]
  exact .inr ⟨dimension + 1, name, type, hcalls, hname, .array harray⟩

/-! ## The law -/

/-- Pairs of brackets behind the name of a record or a table give the arrays of that type, of as
many dimensions as there are pairs. Only where the definition has the name of an unboxed kind,
which is possible for `int` and `char` alone, are they arrays of that kind. -/
theorem brackets_add_dimensions_to_definitions (h : m.resolve name = .ok type)
    (hnamed : type.Named name) (hdimension : 0 < dimension) :
    (name ≠ "int" → name ≠ "char" → ∃ array, ArrayType.build dimension type = .ok array ∧
      array = ⟨dimension, type, false⟩ ∧
      m.resolve (Reference.bracketed name dimension) = .ok (.array array)) ∧
    ∀ kind, name = "int" ∧ kind = .integer ∨ name = "char" ∧ kind = .character →
      m.resolve (Reference.bracketed name dimension) =
        .ok (.array ⟨dimension, .simple kind, true⟩) := by
  obtain ⟨hplain, hname⟩ := plain_of_named ((resolve_eq_ok_iff m name type).mp h) hnamed
  obtain ⟨dimension, rfl⟩ := Nat.exists_eq_succ_of_ne_zero hdimension.ne'
  refine ⟨?_, ?_⟩
  · intro hint hchar
    have hkind : Kind.ofPrimitiveName? name = none := by
      rcases hunboxed : Kind.ofPrimitiveName? name with _ | kind
      · rfl
      · rcases Kind.unboxed_only hplain.2 hunboxed with ⟨hname, _⟩ | ⟨hname, _⟩
        · exact absurd hname hint
        · exact absurd hname hchar
    have harray := hnamed.build_eq_ok dimension
    exact ⟨_, harray, rfl, resolve_bracketed hplain hname hkind harray⟩
  · rintro kind (⟨rfl, rfl⟩ | ⟨rfl, rfl⟩)
    · exact resolve_bracketed_unboxed hplain (by decide) dimension
    · exact resolve_bracketed_unboxed hplain (by decide) dimension

/-- One record of a single item, under a name. -/
def singleRecord (name : String) : Manifest :=
  { types := .ofList [(name, .composite "a point" [⟨"x", "column", "long"⟩])] }

/-- What that record is. -/
def singleRecordType (name : String) : OpenType :=
  .composite ⟨name, "a point", [⟨"x", "column", .simple .long⟩]⟩

/-- A grid of points in two dimensions. -/
theorem points_are_arranged_in_a_grid :
    (singleRecord "Point").resolve "Point" = .ok (singleRecordType "Point") ∧
      (singleRecordType "Point").Named "Point" ∧
      ∃ array, ArrayType.build 2 (singleRecordType "Point") = .ok array ∧
        (singleRecord "Point").resolve "Point[][]" = .ok (.array array) := by
  have hpoint : (singleRecord "Point").resolve "Point" = .ok (singleRecordType "Point") := rfl
  have hnamed : (singleRecordType "Point").Named "Point" := rfl
  refine ⟨hpoint, hnamed, ?_⟩
  obtain ⟨hgrid, _⟩ :=
    brackets_add_dimensions_to_definitions hpoint hnamed (show 0 < 2 by decide)
  obtain ⟨array, harray, _, hresolve⟩ := hgrid (by decide) (by decide)
  exact ⟨array, harray, hresolve⟩

/-- A record of the name `int` is found, but with brackets behind the name it is not looked at. -/
theorem a_record_named_int_has_no_arrays :
    ("int" ∈ (singleRecord "int").types.keys) ∧
      (singleRecord "int").resolve "int" = .ok (singleRecordType "int") ∧
      (singleRecordType "int").Named "int" ∧
      ∃ array, ArrayType.build 1 (singleRecordType "int") = .ok array ∧
        (singleRecord "int").resolve "int[]" = .ok (.array ⟨1, .simple .integer, true⟩) ∧
        OpenType.same (.array ⟨1, .simple .integer, true⟩) (.array array) = false := by
  refine ⟨by decide, rfl, rfl, _, rfl, rfl, rfl⟩

end Manifest

end ManagementSchema
