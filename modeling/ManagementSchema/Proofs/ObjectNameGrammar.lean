-- The grammar of object names. A text is a name just if it is a domain, a
-- colon and properties between commas; the first colon ends the domain, as no
-- domain has one, and what the first equals sign of a property leaves behind
-- may not have another one.
import ManagementSchema.ObjectName
import ManagementSchema.Proofs.Entries
import ManagementSchema.Proofs.Outcome

namespace ManagementSchema

/-! ## Parts between marks -/

namespace Text

variable {mark : Char} {cs : List Char} {parts : List (List Char)}

theorem splitAll_eq_splitOn (mark : Char) (cs : List Char) :
    splitAll mark cs = cs.splitOn mark := by
  induction cs with
  | nil => rfl
  | cons c rest ih =>
    rw [splitAll, List.splitOn_cons_eq_if_modifyHead, ih]
    by_cases hmark : c = mark
    · simp [hmark]
    · rcases hsplit : rest.splitOn mark with _ | ⟨part, more⟩
      · exact absurd hsplit (List.splitOn_ne_nil mark rest)
      · simp [hmark]

theorem not_mem_of_mem_splitAll : ∀ part ∈ splitAll mark cs, mark ∉ part := by
  induction cs with
  | nil => simp [splitAll]
  | cons c rest ih =>
    unfold splitAll
    by_cases hmark : c = mark
    · simpa [hmark] using ih
    · rw [if_neg hmark]
      rcases hsplit : splitAll mark rest with _ | ⟨part, more⟩
      · simp [Ne.symm hmark]
      · rw [hsplit, List.forall_mem_cons] at ih
        rw [List.forall_mem_cons, List.mem_cons, not_or]
        exact ⟨⟨Ne.symm hmark, ih.1⟩, ih.2⟩

/-- The parts between the marks are the only ones without a mark that give the text when they are
put together with marks between them. -/
theorem splitAll_eq_iff : splitAll mark cs = parts ↔
    parts ≠ [] ∧ (∀ part ∈ parts, mark ∉ part) ∧ cs = [mark].intercalate parts := by
  refine ⟨?_, ?_⟩
  · rintro rfl
    refine ⟨?_, not_mem_of_mem_splitAll, ?_⟩
    · rw [splitAll_eq_splitOn]
      exact List.splitOn_ne_nil mark cs
    · rw [splitAll_eq_splitOn, List.intercalate_splitOn]
  · rintro ⟨hne, hfree, rfl⟩
    rw [splitAll_eq_splitOn, List.splitOn_intercalate mark hfree hne]

end Text

namespace ObjectName

variable {domain : String} {found result : Dictionary String} {given : List (String × String)}
  {property : String × String} {n : ObjectName} {text : String}

/-! ## Properties -/

/-- The text has no character that separates the parts of a name, and is not empty. -/
def Plain (s : String) : Prop := s ≠ "" ∧ ',' ∉ s.toList ∧ '=' ∉ s.toList ∧ ':' ∉ s.toList

/-- Key and value are plain texts. -/
def Proper (property : String × String) : Prop := Plain property.1 ∧ Plain property.2

theorem hasReserved_eq_false {s : String} :
    hasReserved s = false ↔ ',' ∉ s.toList ∧ '=' ∉ s.toList ∧ ':' ∉ s.toList := by
  simp only [hasReserved, isReserved, List.any_eq_false, Bool.or_eq_true, beq_iff_eq, not_or]
  refine ⟨?_, ?_⟩
  · intro h
    exact ⟨fun hc => (h _ hc).1.1 rfl, fun hc => (h _ hc).1.2 rfl, fun hc => (h _ hc).2 rfl⟩
  · rintro ⟨hcomma, hequals, hcolon⟩ c hc
    exact ⟨⟨fun h => hcomma (h ▸ hc), fun h => hequals (h ▸ hc)⟩, fun h => hcolon (h ▸ hc)⟩

theorem checkProperty_eq_ok {key value : String} :
    checkProperty domain key value = .ok () ↔ Proper (key, value) := by
  unfold checkProperty Proper Plain
  rw [← hasReserved_eq_false, ← hasReserved_eq_false]
  by_cases hkey : key = ""
  · simp [hkey]
  · by_cases hvalue : value = ""
    · simp [hkey, hvalue]
    · simp [hkey, hvalue]

theorem addProperties_cons_eq_ok {key value : String} :
    addProperties domain found ((key, value) :: given) = .ok result ↔
      Proper (key, value) ∧ found.get? key = none ∧
        addProperties domain (found.insert key value) given = .ok result := by
  have hcheck := @checkProperty_eq_ok domain key value
  rw [addProperties]
  rcases h : checkProperty domain key value with fault | ⟨⟩
  · simp only [h, reduceCtorEq, false_iff] at hcheck
    simp [hcheck]
  · simp only [h, true_iff] at hcheck
    rcases found.get? key with _ | old
    · simp [hcheck]
    · simp

/-- Properties are added if each passes the check and no key is there already or comes twice. -/
theorem addProperties_eq_ok : addProperties domain found given = .ok result ↔
    (∀ property ∈ given, Proper property) ∧ (given.map Prod.fst).Nodup ∧
      (∀ property ∈ given, found.get? property.1 = none) ∧
      result = given.foldl (fun d (key, value) => d.insert key value) found := by
  induction given generalizing found with
  | nil => simp [addProperties, eq_comm]
  | cons property rest ih =>
    obtain ⟨key, value⟩ := property
    -- What is new to the dictionary with the first key is new to the given one, and another key.
    have hlater : (∀ property ∈ rest, (found.insert key value).get? property.1 = none) ↔
        key ∉ rest.map Prod.fst ∧ ∀ property ∈ rest, found.get? property.1 = none := by
      simp only [Dictionary.get?_insert, List.mem_map]
      grind
    rw [addProperties_cons_eq_ok, ih, hlater]
    simp only [List.forall_mem_cons, List.map_cons, List.nodup_cons, List.foldl_cons]
    tauto

/-- A name is made of a domain without colons and at least one property, no key twice. -/
theorem ofProperties_eq_ok : ofProperties domain given = .ok n ↔
    ':' ∉ domain.toList ∧ given ≠ [] ∧ (∀ property ∈ given, Proper property) ∧
      (given.map Prod.fst).Nodup ∧ n = ⟨domain, .ofList given⟩ := by
  have hadd : ∀ properties, addProperties domain .empty given = .ok properties ↔
      (∀ property ∈ given, Proper property) ∧ (given.map Prod.fst).Nodup ∧
        properties = .ofList given := by
    intro properties
    rw [addProperties_eq_ok]
    simp [Dictionary.get?_empty, Dictionary.ofList]
  have hnone : (given.map Prod.fst).Nodup →
      ((Dictionary.ofList given).entries.isEmpty = true ↔ given = []) := by
    intro hnodup
    rw [List.isEmpty_iff, List.eq_nil_iff_forall_not_mem, List.eq_nil_iff_forall_not_mem]
    exact forall_congr' fun entry => not_congr (Dictionary.mem_ofList hnodup)
  unfold ofProperties
  simp only [Outcome.bind_eq_ok, hadd]
  refine ⟨?_, ?_⟩
  · rintro ⟨_, ⟨hproper, hnodup, rfl⟩, h⟩
    simp only [Outcome.check_bind_eq_ok, hnone hnodup, Outcome.pure_eq_ok, Except.ok.injEq] at h
    exact ⟨h.1, h.2.1, hproper, hnodup, h.2.2.symm⟩
  · rintro ⟨hdomain, hne, hproper, hnodup, rfl⟩
    refine ⟨_, ⟨hproper, hnodup, rfl⟩, ?_⟩
    simp [hdomain, hnone hnodup, hne]

/-! ## Texts -/

/-- The characters of a property. -/
def written (property : String × String) : List Char := (property.1 ++ "=" ++ property.2).toList

theorem written_eq (key value : String) :
    written (key, value) = key.toList ++ '=' :: value.toList := by
  simp [written, String.toList_append]

/-- A property is read from what stands before and behind its first equals sign. -/
theorem readProperty_eq_ok {part : List Char} : readProperty text part = .ok property ↔
    part = written property ∧ '=' ∉ property.1.toList := by
  obtain ⟨key, value⟩ := property
  rw [written_eq, ← Text.cut_eq_some_iff]
  unfold readProperty
  rcases Text.cut '=' part with _ | ⟨front, behind⟩
  · simp
  · simp [← String.toList_inj]

theorem mapM_readProperty_eq_ok {parts : List (List Char)} :
    parts.mapM (readProperty text) = .ok given ↔
      parts = given.map written ∧ ∀ property ∈ given, '=' ∉ property.1.toList := by
  rw [Outcome.mapM_eq_ok]
  simp only [readProperty_eq_ok]
  refine ⟨?_, ?_⟩
  · intro h
    induction h with
    | nil => simp
    | cons hpart _ ih =>
      refine ⟨?_, List.forall_mem_cons.mpr ⟨hpart.2, ih.2⟩⟩
      rw [List.map_cons, ← hpart.1, ← ih.1]
  · rintro ⟨rfl, hkeys⟩
    rw [List.forall₂_map_left_iff, List.forall₂_same]
    exact fun property hproperty => ⟨rfl, hkeys property hproperty⟩

/-- The text is the domain, a colon, and the properties in this order, between commas. -/
structure Spells (text domain : String) (properties : List (String × String)) : Prop where
  text : text = domain ++ ":" ++
    Text.join "," (properties.map fun (key, value) => key ++ "=" ++ value)
  domain : ':' ∉ domain.toList
  some : properties ≠ []
  proper : ∀ property ∈ properties, Proper property
  distinct : (properties.map Prod.fst).Nodup

/-- The characters of a spelled name: those of the domain, a colon, and those of the properties with
commas between them. -/
theorem eq_join_iff : text = domain ++ ":" ++
      Text.join "," (given.map fun (key, value) => key ++ "=" ++ value) ↔
    text.toList = domain.toList ++ ':' :: [','].intercalate (given.map written) := by
  have hwritten : written = String.toList ∘ fun property => property.1 ++ "=" ++ property.2 := rfl
  rw [← String.toList_inj, hwritten]
  simp [Text.join, String.toList_append, String.toList_intercalate]

theorem comma_not_mem_written (h : Proper property) : ',' ∉ written property := by
  obtain ⟨⟨_, hkey, _⟩, ⟨_, hvalue, _⟩⟩ := h
  rw [written_eq]
  simp [hkey, hvalue]

/-- A text is read just if it spells a name, and as that name. -/
theorem read_eq_ok : read text = .ok n ↔
    ∃ domain properties, Spells text domain properties ∧ n = ⟨domain, .ofList properties⟩ := by
  unfold read
  refine ⟨?_, ?_⟩
  · -- Each part of the reader gives back what it took from the text.
    rcases hcut : Text.cut ':' text.toList with _ | ⟨front, rest⟩
    · simp
    · intro h
      obtain ⟨given, hgiven, hname⟩ := Outcome.bind_eq_ok.mp h
      obtain ⟨hparts, _⟩ := mapM_readProperty_eq_ok.mp hgiven
      obtain ⟨hdomain, hsome, hproper, hdistinct, rfl⟩ := ofProperties_eq_ok.mp hname
      obtain ⟨htext, _⟩ := Text.cut_eq_some_iff.mp hcut
      obtain ⟨_, _, hrest⟩ := Text.splitAll_eq_iff.mp hparts
      refine ⟨_, given, ⟨?_, hdomain, hsome, hproper, hdistinct⟩, rfl⟩
      rw [eq_join_iff, String.toList_ofList, ← hrest]
      exact htext
  · -- Each part of the reader finds what was put there, as it is free of the mark behind it.
    rintro ⟨domain, given, hspells, rfl⟩
    have hcut : Text.cut ':' text.toList =
        some (domain.toList, [','].intercalate (given.map written)) :=
      Text.cut_eq_some_iff.mpr ⟨eq_join_iff.mp hspells.text, hspells.domain⟩
    have hparts : Text.splitAll ',' ([','].intercalate (given.map written)) =
        given.map written := by
      refine Text.splitAll_eq_iff.mpr ⟨by simpa using hspells.some, ?_, rfl⟩
      intro part hpart
      obtain ⟨property, hproperty, rfl⟩ := List.mem_map.mp hpart
      exact comma_not_mem_written (hspells.proper property hproperty)
    have hproperties : (given.map written).mapM (readProperty text) = .ok given := by
      refine mapM_readProperty_eq_ok.mpr ⟨rfl, ?_⟩
      intro property hproperty
      exact (hspells.proper property hproperty).1.2.2.1
    simp only [hcut, hparts, hproperties, Outcome.ok_bind, String.ofList_toList]
    exact ofProperties_eq_ok.mpr
      ⟨hspells.domain, hspells.some, hspells.proper, hspells.distinct, rfl⟩

end ObjectName

end ManagementSchema
