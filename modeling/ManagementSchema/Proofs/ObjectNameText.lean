-- Names of managed objects written and read back. The written form of a name
-- spells its properties in the order of their keys, so a name has one written
-- form and is what that form is read as.
import ManagementSchema.Proofs.ObjectNameGrammar

namespace ManagementSchema.ObjectName

variable {text domain : String} {given : List (String × String)} {n m : ObjectName}

/-! ## Built names -/

/-- What holds of every name that was built from a domain and properties. -/
structure Sound (n : ObjectName) : Prop where
  domain : ':' ∉ n.domain.toList
  some : n.properties.entries ≠ []
  proper : ∀ property ∈ n.properties.entries, Proper property

theorem Spells.sound (h : Spells text domain given) : Sound ⟨domain, .ofList given⟩ where
  domain := h.domain
  some := by
    obtain ⟨property, hproperty⟩ := List.exists_mem_of_ne_nil given h.some
    exact List.ne_nil_of_mem ((Dictionary.mem_ofList h.distinct).mpr hproperty)
  proper := by
    intro property hproperty
    exact h.proper property ((Dictionary.mem_ofList h.distinct).mp hproperty)

theorem sound_of_read (h : read text = .ok n) : n.Sound := by
  obtain ⟨domain, given, hspells, rfl⟩ := read_eq_ok.mp h
  exact hspells.sound

theorem sound_of_ofProperties (h : ofProperties domain given = .ok n) : n.Sound := by
  obtain ⟨hdomain, hsome, hproper, hdistinct, rfl⟩ := ofProperties_eq_ok.mp h
  exact (Spells.mk rfl hdomain hsome hproper hdistinct).sound

/-! ## The written form -/

theorem Sound.spells (h : n.Sound) : Spells n.canonical n.domain n.properties.entries :=
  ⟨rfl, h.domain, h.some, h.proper, n.properties.nodup_keys⟩

/-- A name is read from its written form. -/
theorem read_canonical (h : n.Sound) : read n.canonical = .ok n := by
  apply read_eq_ok.mpr
  refine ⟨n.domain, n.properties.entries, h.spells, ?_⟩
  rw [Dictionary.ofList_entries]

theorem eq_of_canonical_eq (hn : n.Sound) (hm : m.Sound) (h : n.canonical = m.canonical) :
    n = m := by
  have hread := read_canonical hn
  rw [h, read_canonical hm] at hread
  exact (Except.ok.inj hread).symm

/-- Texts are read as one name just if they spell the same domain and the same properties, in
whatever order. -/
theorem read_eq_read_iff {text' domain' : String} {given' : List (String × String)}
    (h : Spells text domain given) (h' : Spells text' domain' given') :
    read text = read text' ↔
      domain = domain' ∧ ∀ property, property ∈ given ↔ property ∈ given' := by
  rw [read_eq_ok.mpr ⟨domain, given, h, rfl⟩, read_eq_ok.mpr ⟨domain', given', h', rfl⟩,
    Except.ok.injEq, mk.injEq, Dictionary.ofList_eq_iff h.distinct h'.distinct]

/-- The name was read from a text, or made from a domain and properties. -/
def Made (n : ObjectName) : Prop :=
  (∃ text, read text = .ok n) ∨ ∃ domain given, ofProperties domain given = .ok n

theorem Made.sound (h : n.Made) : n.Sound := by
  rcases h with ⟨text, hread⟩ | ⟨domain, given, hmake⟩
  · exact sound_of_read hread
  · exact sound_of_ofProperties hmake

/-- A text is read just if it is a domain without colons, a colon, and properties between commas,
each a key and a value that are plain texts, no key twice. Two such texts are read as one name just
if domain and properties are the same, in whatever order. What was made is read from its one
written form, which no other name has. -/
theorem names_are_read_by_their_grammar :
    (∀ text, (∃ n, read text = .ok n) ↔ ∃ domain given, Spells text domain given) ∧
    (∀ text domain given text' domain' given',
      Spells text domain given → Spells text' domain' given' →
        ∃ n n', read text = .ok n ∧ read text' = .ok n' ∧
          (n = n' ↔ domain = domain' ∧ ∀ property, property ∈ given ↔ property ∈ given')) ∧
    (∀ n, Made n → read n.canonical = .ok n) ∧
    ∀ n m, Made n → Made m → (n.canonical = m.canonical ↔ n = m) := by
  refine ⟨?_, ?_, ?_, ?_⟩
  · intro text
    refine ⟨?_, ?_⟩
    · rintro ⟨n, h⟩
      obtain ⟨domain, given, hspells, _⟩ := read_eq_ok.mp h
      exact ⟨domain, given, hspells⟩
    · rintro ⟨domain, given, hspells⟩
      exact ⟨_, read_eq_ok.mpr ⟨domain, given, hspells, rfl⟩⟩
  · intro text domain given text' domain' given' h h'
    have hread := read_eq_ok.mpr ⟨domain, given, h, rfl⟩
    have hread' := read_eq_ok.mpr ⟨domain', given', h', rfl⟩
    refine ⟨_, _, hread, hread', ?_⟩
    rw [← read_eq_read_iff h h', hread, hread', Except.ok.injEq]
  · intro n h
    exact read_canonical h.sound
  · intro n m hn hm
    exact ⟨eq_of_canonical_eq hn.sound hm.sound, fun h => h ▸ rfl⟩

/-- The domain may have commas and equals signs, and the properties come in any order. -/
theorem a_name_is_read_in_two_orders :
    Spells "a,b=c:y=2,x=1" "a,b=c" [("y", "2"), ("x", "1")] ∧
    Spells "a,b=c:x=1,y=2" "a,b=c" [("x", "1"), ("y", "2")] ∧
      ∃ n, read "a,b=c:y=2,x=1" = .ok n ∧ read "a,b=c:x=1,y=2" = .ok n ∧
        read n.canonical = .ok n := by
  have h : Spells "a,b=c:y=2,x=1" "a,b=c" [("y", "2"), ("x", "1")] :=
    ⟨by decide +kernel, by decide, by decide, by simp [Proper, Plain], by decide⟩
  have h' : Spells "a,b=c:x=1,y=2" "a,b=c" [("x", "1"), ("y", "2")] :=
    ⟨by decide +kernel, by decide, by decide, by simp [Proper, Plain], by decide⟩
  obtain ⟨_, hread, hwritten, _⟩ := names_are_read_by_their_grammar
  obtain ⟨n, n', hn, hn', hsame⟩ := hread _ _ _ _ _ _ h h'
  obtain rfl : n = n' := by
    apply hsame.mpr
    simp [or_comm]
  exact ⟨h, h', n, hn, hn', hwritten n (.inl ⟨_, hn⟩)⟩

end ManagementSchema.ObjectName
