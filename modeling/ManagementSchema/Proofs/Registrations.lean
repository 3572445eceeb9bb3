-- Conversions after any sequence of registrations. A registration changes one way
-- of one entry, the one for the types equal to its own, so the last registration of
-- a way counts, and there are as many entries as different types.
import Mathlib.Data.Set.Card
import ManagementSchema.Proofs.EqualTypes

namespace ManagementSchema

namespace Conversions

/-! ## Registrations -/

/-- One of the two ways from a text to a value. -/
inductive Way where
  | valueOf
  | fromText
  deriving DecidableEq

/-- A function that is registered for a type, as one of its two ways. -/
structure Registration where
  way : Way
  type : OpenType
  function : TextFunction

/-- What the registration makes of the entry for its type. -/
def Registration.change (r : Registration) (conversion : TextConversion) : TextConversion :=
  match r.way with
  | .valueOf => { conversion with valueOf := some r.function }
  | .fromText => { conversion with fromText := some r.function }

/-- The conversions with one registration more. -/
def register (c : Conversions) (r : Registration) : Conversions :=
  match r.way with
  | .valueOf => c.withValueOf r.type r.function
  | .fromText => c.withFromText r.type r.function

/-- The conversions after some registrations, made one after the other. -/
def ofRegistrations (rs : List Registration) : Conversions := rs.foldl register .empty

/-- The function of the last registration of a way for a type that is equal to this one. -/
def lastOf (way : Way) (type : OpenType) (rs : List Registration) : Option TextFunction :=
  ((rs.filter fun r => r.way = way && r.type.same type).getLast?).map Registration.function

/-- The function that counts for a type. -/
def preferred (type : OpenType) (rs : List Registration) : Option TextFunction :=
  (lastOf .valueOf type rs).or (lastOf .fromText type rs)

variable {c : Conversions} {r : Registration} {rs : List Registration} {type other : OpenType}
  {entries : List (OpenType × TextConversion)}

theorem register_eq (c : Conversions) (r : Registration) :
    c.register r = ⟨updateEntries r.type r.change c.entries⟩ := by
  obtain ⟨way, type, function⟩ := r
  cases way with
  | valueOf => rfl
  | fromText => rfl

theorem ofRegistrations_append (rs : List Registration) (r : Registration) :
    ofRegistrations (rs ++ [r]) = (ofRegistrations rs).register r := by
  unfold ofRegistrations
  rw [List.foldl_append]
  rfl

theorem lastOf_append (way : Way) (type : OpenType) (rs : List Registration) (r : Registration) :
    lastOf way type (rs ++ [r]) =
      if r.way = way ∧ r.type.same type = true then some r.function else lastOf way type rs := by
  unfold lastOf
  rw [List.filter_append]
  by_cases h : r.way = way ∧ r.type.same type = true
  · simp [h]
  · rw [if_neg h]
    simp [h]

/-! ## One registration -/

/-- The types that have an entry, in the order of the entries. -/
def types (c : Conversions) : List OpenType := c.entries.map Prod.fst

theorem types_updateEntries (type : OpenType) (change : TextConversion → TextConversion)
    (entries : List (OpenType × TextConversion)) :
    (updateEntries type change entries).map Prod.fst =
      if (entries.map Prod.fst).any (·.same type) then entries.map Prod.fst
      else entries.map Prod.fst ++ [type] := by
  induction entries with
  | nil => rfl
  | cons entry rest ih =>
    obtain ⟨other, conversion⟩ := entry
    unfold updateEntries
    by_cases h : other.same type = true
    · simp [h]
    · rw [if_neg h, List.map_cons, ih, List.map_cons, List.any_cons, Bool.eq_false_iff.mpr h,
        Bool.false_or, apply_ite (other :: ·)]
      rfl

/-- A registration makes an entry for its type if there is none for a type equal to it. -/
theorem types_register (c : Conversions) (r : Registration) :
    (c.register r).types =
      if c.types.any (·.same r.type) then c.types else c.types ++ [r.type] := by
  rw [register_eq]
  exact types_updateEntries r.type r.change c.entries

theorem mem_types_register (h : type ∈ (c.register r).types) : type ∈ c.types ∨ type = r.type := by
  rw [types_register] at h
  split at h
  · exact .inl h
  · simpa using h

theorem overBuilt_iff : c.OverBuilt ↔ ∀ type ∈ c.types, type.Built := by
  unfold OverBuilt types
  rw [List.forall_mem_map]

theorem overBuilt_register (hc : c.OverBuilt) (hr : r.type.Built) : (c.register r).OverBuilt := by
  rw [overBuilt_iff] at hc ⊢
  intro type htype
  rcases mem_types_register htype with hmem | rfl
  · exact hc type hmem
  · exact hr

theorem overBuilt_ofRegistrations (hrs : ∀ r ∈ rs, r.type.Built) :
    (ofRegistrations rs).OverBuilt := by
  induction rs using List.reverseRecOn with
  | nil =>
    intro entry hentry
    cases hentry
  | append_singleton rs r ih =>
    rw [List.forall_mem_append, List.forall_mem_singleton] at hrs
    rw [ofRegistrations_append]
    exact overBuilt_register (ih hrs.1) hrs.2

/-- A type that is equal to the one of a registration finds the entry as that has been changed, and
any other type what it found before. -/
theorem find?_register (hc : c.OverBuilt) (hr : r.type.Built) (htype : type.Built) :
    (c.register r).find? type =
      if r.type.same type = true then some (r.change ((c.find? type).getD {}))
      else c.find? type := by
  obtain ⟨entries⟩ := c
  rw [register_eq]
  unfold find?
  simp only
  induction entries with
  | nil =>
    by_cases h : r.type.same type = true
    · simp [updateEntries, h]
    · simp [updateEntries, h]
  | cons entry rest ih =>
    obtain ⟨other, conversion⟩ := entry
    have hother : other.Built := hc _ List.mem_cons_self
    have hrest := ih fun entry hentry => hc entry (List.mem_cons_of_mem _ hentry)
    unfold updateEntries
    by_cases h : other.same r.type = true
    · rw [if_pos h]
      -- The entry that is changed is found by the types that are equal to the registered one.
      have hfound : other.same type = r.type.same type := by
        rw [Bool.eq_iff_iff]
        refine ⟨?_, OpenType.same_trans hother hr htype h⟩
        exact OpenType.same_trans hr hother htype (OpenType.same_symm hother hr h)
      by_cases hsame : r.type.same type = true
      · simp [hfound, hsame]
      · simp [hfound, hsame]
    · rw [if_neg h]
      by_cases hsame : other.same type = true
      · have hdifferent : r.type.same type = false := by
          rw [Bool.eq_false_iff]
          intro hr'
          exact h (OpenType.same_trans hother htype hr hsame (OpenType.same_symm hr htype hr'))
        simp [hsame, hdifferent]
      · simpa [hsame] using hrest

/-! ## Any sequence of registrations -/

/-- In the entry that a type finds stand the last functions of both ways. -/
theorem find?_ofRegistrations (hrs : ∀ r ∈ rs, r.type.Built) (htype : type.Built) :
    ((ofRegistrations rs).find? type).getD {} =
      ⟨lastOf .valueOf type rs, lastOf .fromText type rs⟩ := by
  induction rs using List.reverseRecOn with
  | nil => rfl
  | append_singleton rs r ih =>
    rw [List.forall_mem_append, List.forall_mem_singleton] at hrs
    rw [ofRegistrations_append, find?_register (overBuilt_ofRegistrations hrs.1) hrs.2 htype,
      lastOf_append, lastOf_append]
    by_cases hsame : r.type.same type = true
    · rw [if_pos hsame, Option.getD_some, ih hrs.1]
      unfold Registration.change
      cases hway : r.way with
      | valueOf => simp [hsame]
      | fromText => simp [hsame]
    · simp [hsame, ih hrs.1]

theorem function?_ofRegistrations (hrs : ∀ r ∈ rs, r.type.Built) (htype : type.Built) :
    ((ofRegistrations rs).find? type).bind TextConversion.function? = preferred type rs := by
  have hfound := find?_ofRegistrations hrs htype
  cases hentry : (ofRegistrations rs).find? type with
  | none =>
    rw [hentry] at hfound
    unfold preferred
    obtain ⟨hvalueOf, hfromText⟩ := TextConversion.mk.inj hfound
    rw [← hvalueOf, ← hfromText]
    rfl
  | some conversion =>
    rw [hentry] at hfound
    rw [Option.bind_some, show conversion = _ from hfound]
    rfl

/-! ## Classes of equal types -/

/-- The types that are equal to this one. -/
def classOf (type : OpenType) : Set OpenType := {other | other.Built ∧ type.same other = true}

theorem classOf_eq_iff (htype : type.Built) (hother : other.Built) :
    classOf type = classOf other ↔ type.same other = true := by
  refine ⟨?_, ?_⟩
  · intro h
    have hmem : other ∈ classOf other := ⟨hother, OpenType.same_self hother⟩
    rw [← h] at hmem
    exact hmem.2
  · intro h
    ext third
    refine and_congr_right fun hthird => ⟨?_, OpenType.same_trans htype hother hthird h⟩
    exact OpenType.same_trans hother htype hthird (OpenType.same_symm htype hother h)

/-- The classes of equal types for which something is registered. -/
def registeredClasses (rs : List Registration) : Set (Set OpenType) :=
  {types | ∃ r ∈ rs, types = classOf r.type}

/-- The list has one type of each class for which something is registered. -/
structure Represents (types : List OpenType) (rs : List Registration) : Prop where
  apart : types.Pairwise fun a b => classOf a ≠ classOf b
  covers : ∀ types', types' ∈ registeredClasses rs ↔ ∃ type ∈ types, types' = classOf type

/-- A type of a class that has no entry yet is put behind the others. -/
theorem Represents.register (h : Represents c.types rs) (hc : c.OverBuilt) (hr : r.type.Built) :
    Represents (c.register r).types (rs ++ [r]) := by
  have hbuilt := overBuilt_iff.mp hc
  have hclasses : ∀ types', types' ∈ registeredClasses (rs ++ [r]) ↔
      types' ∈ registeredClasses rs ∨ types' = classOf r.type := by
    intro types'
    simp only [registeredClasses, Set.mem_ofPred_eq, List.mem_append, List.mem_singleton,
      or_and_right, exists_or, exists_eq_left]
  rw [types_register]
  by_cases hknown : c.types.any (·.same r.type) = true
  · obtain ⟨known, hmem, hsame⟩ := List.any_eq_true.mp hknown
    have hclass : classOf r.type = classOf known :=
      ((classOf_eq_iff (hbuilt known hmem) hr).mpr hsame).symm
    rw [if_pos hknown]
    refine ⟨h.apart, fun types' => ?_⟩
    rw [hclasses, h.covers, hclass]
    refine ⟨?_, .inl⟩
    rintro (hcovered | rfl)
    · exact hcovered
    · exact ⟨known, hmem, rfl⟩
  · rw [if_neg hknown]
    refine ⟨?_, fun types' => ?_⟩
    · rw [List.pairwise_append]
      refine ⟨h.apart, List.pairwise_singleton _ _, ?_⟩
      intro known hmem type htype
      obtain rfl := List.mem_singleton.mp htype
      intro hclass
      apply hknown
      rw [List.any_eq_true]
      exact ⟨known, hmem, (classOf_eq_iff (hbuilt known hmem) hr).mp hclass⟩
    · rw [hclasses, h.covers]
      simp only [List.mem_append, List.mem_singleton, or_and_right, exists_or, exists_eq_left]

theorem represents_ofRegistrations (hrs : ∀ r ∈ rs, r.type.Built) :
    Represents (ofRegistrations rs).types rs := by
  induction rs using List.reverseRecOn with
  | nil =>
    refine ⟨List.Pairwise.nil, fun types' => ?_⟩
    simp [registeredClasses, types, ofRegistrations, empty]
  | append_singleton rs r ih =>
    rw [List.forall_mem_append, List.forall_mem_singleton] at hrs
    rw [ofRegistrations_append]
    exact (ih hrs.1).register (overBuilt_ofRegistrations hrs.1) hrs.2

theorem Represents.ncard {types : List OpenType} (h : Represents types rs) :
    (registeredClasses rs).ncard = types.length := by
  classical
  have hnodup : (types.map classOf).Nodup := by
    rw [List.Nodup, List.pairwise_map]
    exact h.apart
  have hset : registeredClasses rs = ((types.map classOf).toFinset : Set (Set OpenType)) := by
    ext types'
    simp [h.covers, eq_comm]
  rw [hset, Set.ncard_coe_finset, List.toFinset_card_of_nodup hnodup, List.length_map]

/-! ## The law -/

/-- A text as a value, by the function for its type if there is one. -/
def textBy (function? : Option TextFunction) (type : OpenType) (text : String) :
    Except Refusal Value :=
  match function? with
  | some f => (f text).mapError (refusalOf type text)
  | none => .error ⟨type.className, Text.quoted text, .nonConvertible⟩

/-- The value that was made of a text, if it is one of the type. -/
def checked (type : OpenType) (text : String) (v : Value) : Except Refusal Value :=
  if type.hasValue v then .ok v
  else .error ⟨type.className, (Raw.text text).toString, .notAValue v.kindLabel type.name⟩

theorem coerce_text (c : Conversions) (type : OpenType) (text : String) :
    c.coerce type (.text text) = c.ofText type text >>= checked type text := rfl

theorem coerce_ofRegistrations (hrs : ∀ r ∈ rs, r.type.Built) (htype : type.Built)
    (hkind : type.kind? = none) (text : String) :
    (ofRegistrations rs).coerce type (.text text) =
      textBy (preferred type rs) type text >>= checked type text := by
  rw [coerce_text, ofText_of_kind?_eq_none hkind, function?_ofRegistrations hrs htype]
  rfl

theorem coerce_kind (c : Conversions) (kind : Kind) (text : String) :
    c.coerce (.simple kind) (.text text) = Value.read kind text := by
  rw [coerce_text]
  show Value.read kind text >>= checked (.simple kind) text = Value.read kind text
  unfold Value.read Kind.read
  cases hread : kind.readReason text with
  | error reason => rfl
  | ok s =>
    have hkind := Kind.kind_of_readReason hread
    show checked (.simple kind) text (.scalar s) = .ok (.scalar s)
    unfold checked
    rw [if_pos (by simp [OpenType.hasValue, hkind])]

theorem lastOf_filter (way : Way) (type : OpenType) (rs : List Registration) :
    lastOf way type (rs.filter (·.type.same type)) = lastOf way type rs := by
  unfold lastOf
  rw [List.filter_filter]
  simp

/-- Of any sequence of registrations the last one for a type decides: a text is taken to the type by
the function that was registered last as the preferred way for a type equal to it, else by the one
that was registered last as the other way, and without either it is refused. What is registered for
other types makes no difference, to single values nothing that is registered does, and there is one
entry for each class of equal types. -/
theorem the_last_registrations_count (hrs : ∀ r ∈ rs, r.type.Built) :
    (∀ type, type.Built → type.kind? = none → ∀ text,
      (ofRegistrations rs).coerce type (.text text) =
        textBy (preferred type rs) type text >>= checked type text) ∧
    (∀ type, type.Built → type.kind? = none → ∀ raw,
      (ofRegistrations rs).coerce type raw =
        (ofRegistrations (rs.filter (·.type.same type))).coerce type raw) ∧
    (∀ kind text, (ofRegistrations rs).coerce (.simple kind) (.text text) = Value.read kind text) ∧
    (ofRegistrations rs).size = (registeredClasses rs).ncard := by
  refine ⟨?_, ?_, ?_, ?_⟩
  · intro type htype hkind text
    exact coerce_ofRegistrations hrs htype hkind text
  · intro type htype hkind raw
    have hfiltered : ∀ r ∈ rs.filter (·.type.same type), r.type.Built :=
      fun r hr => hrs r (List.mem_of_mem_filter hr)
    cases raw with
    | text text =>
      rw [coerce_ofRegistrations hrs htype hkind, coerce_ofRegistrations hfiltered htype hkind]
      unfold preferred
      rw [lastOf_filter, lastOf_filter]
    | native v => rfl
    | sequence items => rfl
    | set items => rfl
  · exact coerce_kind (ofRegistrations rs)
  · rw [(represents_ofRegistrations hrs).ncard]
    exact (List.length_map _).symm

/-- Points are registered in both ways, declared in one order and in the other, and a kind too. -/
def pointRegistrations : List Registration :=
  [⟨.fromText, .composite (OpenType.points ["x", "y"]), fun _ => .ok (.scalar (.boolean true))⟩,
    ⟨.valueOf, .composite (OpenType.points ["y", "x"]), fun _ => .ok origin⟩,
    ⟨.valueOf, .simple .integer, fun _ => .ok origin⟩,
    ⟨.fromText, .composite (OpenType.points ["x", "y"]), fun _ => .ok (.scalar (.boolean false))⟩]

/-- The preferred way counts, although it was registered for points declared the other way round
and not last, and the kind keeps to its reader. There are two entries. -/
theorem points_are_read_in_the_preferred_way :
    (∀ r ∈ pointRegistrations, r.type.Built) ∧
      (ofRegistrations pointRegistrations).coerce (.composite (OpenType.points ["x", "y"]))
        (.text "origin") = .ok origin ∧
      (ofRegistrations pointRegistrations).coerce (.simple .integer) (.text "7") =
        .ok (.scalar (.integer 7)) ∧
      (registeredClasses pointRegistrations).ncard = 2 := by
  have hpoints : (OpenType.composite (OpenType.points ["x", "y"])).Built :=
    OpenType.built_points (by decide) (by decide) (by decide)
  have hturned : (OpenType.composite (OpenType.points ["y", "x"])).Built :=
    OpenType.built_points (by decide) (by decide) (by decide)
  have hbuilt : ∀ r ∈ pointRegistrations, r.type.Built := by
    intro r hr
    simp only [pointRegistrations, List.mem_cons, List.not_mem_nil, or_false] at hr
    rcases hr with rfl | rfl | rfl | rfl
    · exact hpoints
    · exact hturned
    · exact .simple .integer
    · exact hpoints
  obtain ⟨hcoerce, _, hread, hsize⟩ := the_last_registrations_count hbuilt
  refine ⟨hbuilt, ?_, ?_, ?_⟩
  · rw [hcoerce _ hpoints rfl]
    rfl
  · rw [hread]
    rfl
  · rw [← hsize]
    rfl

end Conversions

end ManagementSchema
