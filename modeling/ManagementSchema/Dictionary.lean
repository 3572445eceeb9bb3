-- Finite maps from names to values, kept in the order of the names. The order
-- is part of the type, so that equal maps are equal lists.

namespace ManagementSchema

/-- Entries with strictly increasing names. -/
structure Dictionary (α : Type) where
  entries : List (String × α) := []
  sorted : entries.Pairwise (fun a b => a.1 < b.1) := by exact List.Pairwise.nil

namespace Dictionary

variable {α β : Type}

/-! ## Entry lists -/

/-- The value under a name in a list of entries. -/
def find? (name : String) : List (String × α) → Option α
  | [] => none
  | (key, value) :: rest => if key = name then some value else find? name rest

/-- Puts an entry in its place, instead of one with the same name if there is one. -/
def insertEntry (name : String) (value : α) : List (String × α) → List (String × α)
  | [] => [(name, value)]
  | (key, old) :: rest =>
    if name < key then (name, value) :: (key, old) :: rest
    else if key = name then (name, value) :: rest
    else (key, old) :: insertEntry name value rest

theorem mem_insertEntry {name : String} {value : α} {entry : String × α}
    {entries : List (String × α)} (mem : entry ∈ insertEntry name value entries) :
    entry = (name, value) ∨ entry ∈ entries := by
  induction entries with
  | nil => simpa [insertEntry] using mem
  | cons first rest ih =>
    simp only [insertEntry] at mem
    split at mem
    · simpa using mem
    · split at mem <;> grind

theorem insertEntry_sorted {name : String} {value : α} {entries : List (String × α)}
    (sorted : entries.Pairwise fun a b => a.1 < b.1) :
    (insertEntry name value entries).Pairwise fun a b => a.1 < b.1 := by
  induction entries with
  | nil => simp [insertEntry]
  | cons first rest ih =>
    obtain ⟨key, old⟩ := first
    have above := (List.pairwise_cons.1 sorted).1
    have tail := (List.pairwise_cons.1 sorted).2
    simp only [insertEntry]
    split
    · rename_i less
      refine List.pairwise_cons.2 ⟨fun entry mem => ?_, sorted⟩
      rcases List.mem_cons.1 mem with rfl | mem
      · exact less
      · exact String.lt_trans less (above entry mem)
    · split
      · rename_i same
        exact List.pairwise_cons.2 ⟨fun entry mem => same ▸ above entry mem, tail⟩
      · rename_i notLess notSame
        refine List.pairwise_cons.2 ⟨fun entry mem => ?_, ih tail⟩
        rcases mem_insertEntry mem with rfl | mem
        · rcases String.le_total key name with le | le
          · exact Decidable.byContradiction fun notLt =>
              notSame (String.le_antisymm le (String.not_lt.1 notLt))
          · exact absurd (String.le_antisymm (String.not_lt.1 notLess) le) notSame
        · exact above entry mem

theorem find?_insertEntry (name other : String) (value : α) (entries : List (String × α)) :
    find? other (insertEntry name value entries) =
      if name = other then some value else find? other entries := by
  induction entries with
  | nil => rfl
  | cons first rest ih =>
    obtain ⟨key, old⟩ := first
    simp only [insertEntry]
    split
    · rfl
    · split
      · rename_i same
        subst same
        simp only [find?]
        split <;> rfl
      · rename_i notSame
        simp only [find?, ih]
        split
        · rename_i same
          subst same
          exact (if_neg fun h => notSame h.symm).symm
        · rfl

/-- A name that stands in no entry is not found. -/
theorem find?_eq_none_iff {name : String} {entries : List (String × α)} :
    find? name entries = none ↔ ∀ entry ∈ entries, entry.1 ≠ name := by
  induction entries with
  | nil => simp [find?]
  | cons first rest ih => by_cases h : first.1 = name <;> simp [find?, h, ih]

/-! ## Dictionaries -/

/-- The dictionary without entries. -/
def empty : Dictionary α := {}

/-- The value under a name. -/
def get? (d : Dictionary α) (name : String) : Option α := find? name d.entries

/-- The dictionary with a value under a name, in place of an older one. -/
def insert (d : Dictionary α) (name : String) (value : α) : Dictionary α :=
  ⟨insertEntry name value d.entries, insertEntry_sorted d.sorted⟩

/-- The dictionary without a name. -/
def erase (d : Dictionary α) (name : String) : Dictionary α :=
  ⟨d.entries.filter fun entry => entry.1 ≠ name, d.sorted.filter _⟩

/-- The names, in order. -/
def keys (d : Dictionary α) : List String := d.entries.map Prod.fst

/-- The number of entries. -/
def size (d : Dictionary α) : Nat := d.entries.length

/-- The dictionary of some entries; of two with the same name the later one stays. -/
def ofList (entries : List (String × α)) : Dictionary α :=
  entries.foldl (fun d (name, value) => d.insert name value) empty

theorem get?_empty (name : String) : (empty : Dictionary α).get? name = none := rfl

theorem get?_insert (d : Dictionary α) (name other : String) (value : α) :
    (d.insert name value).get? other = if name = other then some value else d.get? other :=
  find?_insertEntry name other value d.entries

theorem get?_erase (d : Dictionary α) (name other : String) :
    (d.erase name).get? other = if name = other then none else d.get? other := by
  simp only [get?, erase]
  induction d.entries with
  | nil => simp [find?]
  | cons first rest ih =>
    obtain ⟨key, old⟩ := first
    by_cases same : key = name
    · subst same
      simp only [ne_eq, not_true_eq_false, decide_false, Bool.false_eq_true, not_false_eq_true,
        List.filter_cons_of_neg, ih, find?]
      split <;> rfl
    · simp only [ne_eq, same, not_false_eq_true, decide_true, List.filter_cons_of_pos, find?, ih]
      split
      · rename_i h
        subst h
        exact (if_neg fun h => same h.symm).symm
      · rfl

instance [DecidableEq α] : DecidableEq (Dictionary α) := fun a b =>
  if h : a.entries = b.entries then
    isTrue (by cases a; cases b; simp_all)
  else isFalse fun same => h (congrArg entries same)

end Dictionary

end ManagementSchema
