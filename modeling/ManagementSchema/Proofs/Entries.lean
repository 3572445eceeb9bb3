-- Entries of dictionaries. The names are in strict order, so a name has one
-- value at most, and dictionaries with the same entries are the same.
import Mathlib.Data.List.Induction
import Mathlib.Data.List.Sort
import ManagementSchema.Dictionary

namespace ManagementSchema.Dictionary

variable {α : Type} {name : String} {value : α} {entries : List (String × α)} {d e : Dictionary α}

/-! ## Lists of entries -/

theorem mem_of_find? (h : find? name entries = some value) : (name, value) ∈ entries := by
  induction entries with
  | nil => cases h
  | cons first rest ih =>
    obtain ⟨key, old⟩ := first
    unfold find? at h
    split at h
    · rename_i hkey
      cases h
      simp [hkey]
    · exact List.mem_cons_of_mem _ (ih h)

/-- Among entries with different names, each is found by its name. -/
theorem find?_of_mem (hnodup : (entries.map Prod.fst).Nodup) (h : (name, value) ∈ entries) :
    find? name entries = some value := by
  induction entries with
  | nil => cases h
  | cons first rest ih =>
    simp only [List.map_cons, List.nodup_cons] at hnodup
    unfold find?
    rcases List.mem_cons.mp h with rfl | hrest
    · simp
    · have hne : first.1 ≠ name := fun heq =>
        hnodup.1 (heq ▸ List.mem_map_of_mem hrest)
      rw [if_neg hne]
      exact ih hnodup.2 hrest

theorem find?_eq_some_iff (hnodup : (entries.map Prod.fst).Nodup) :
    find? name entries = some value ↔ (name, value) ∈ entries :=
  ⟨mem_of_find?, find?_of_mem hnodup⟩

/-! ## Dictionaries -/

theorem mem_keys_of_get? (h : d.get? name = some value) : name ∈ d.keys :=
  List.mem_map_of_mem (mem_of_find? h)

theorem nodup_keys (d : Dictionary α) : d.keys.Nodup := by
  refine List.pairwise_map.mpr (d.sorted.imp ?_)
  intro a b hless heq
  rw [heq] at hless
  exact String.lt_irrefl _ hless

theorem mem_entries_iff : (name, value) ∈ d.entries ↔ d.get? name = some value :=
  (find?_eq_some_iff d.nodup_keys).symm

/-- Of the entries with a name the last one is in the dictionary. -/
theorem get?_ofList (entries : List (String × α)) (name : String) :
    (ofList entries).get? name = find? name entries.reverse := by
  induction entries using List.reverseRecOn with
  | nil => rfl
  | append_singleton before entry ih =>
    obtain ⟨key, value⟩ := entry
    have hlast : ofList (before ++ [(key, value)]) = (ofList before).insert key value := by
      simp [ofList, List.foldl_append]
    rw [hlast, get?_insert, ih, List.reverse_append]
    rfl

/-- Entries with different names are all in their dictionary. -/
theorem mem_ofList (hnodup : (entries.map Prod.fst).Nodup) {entry : String × α} :
    entry ∈ (ofList entries).entries ↔ entry ∈ entries := by
  obtain ⟨name, value⟩ := entry
  have hreverse : (entries.reverse.map Prod.fst).Nodup := by
    rw [List.map_reverse, List.nodup_reverse]
    exact hnodup
  rw [mem_entries_iff, get?_ofList, find?_eq_some_iff hreverse, List.mem_reverse]

theorem eq_of_mem_entries (h : ∀ entry, entry ∈ d.entries ↔ entry ∈ e.entries) : d = e := by
  have : Std.Irrefl fun a b : String × α => a.1 < b.1 := ⟨fun a => String.lt_irrefl a.1⟩
  have : Std.Antisymm fun a b : String × α => a.1 < b.1 :=
    ⟨fun a b hab hba => absurd hba (String.lt_asymm hab)⟩
  obtain ⟨entries, sorted⟩ := d
  obtain ⟨entries', sorted'⟩ := e
  obtain rfl : entries = entries' := sorted.eq_of_mem_iff sorted' h
  rfl

theorem ofList_entries (d : Dictionary α) : ofList d.entries = d :=
  eq_of_mem_entries fun _ => mem_ofList d.nodup_keys

/-- Entries with different names make the same dictionary just if they are the same entries, in
whatever order. -/
theorem ofList_eq_iff {others : List (String × α)} (h : (entries.map Prod.fst).Nodup)
    (hothers : (others.map Prod.fst).Nodup) :
    ofList entries = ofList others ↔ ∀ entry, entry ∈ entries ↔ entry ∈ others := by
  refine ⟨?_, ?_⟩
  · intro heq entry
    rw [← mem_ofList h, heq, mem_ofList hothers]
  · intro hsame
    apply eq_of_mem_entries
    intro entry
    rw [mem_ofList h, mem_ofList hothers]
    exact hsame entry

end ManagementSchema.Dictionary
