-- Texts taken apart at a character and put together again.

namespace ManagementSchema.Text

/-- What stands before and after the first `mark`, if there is one. -/
def cut (mark : Char) : List Char → Option (List Char × List Char)
  | [] => none
  | c :: rest =>
    if c = mark then some ([], rest)
    else (cut mark rest).map fun (before, after) => (c :: before, after)

/-- The parts between the marks: one more than there are marks. -/
def splitAll (mark : Char) : List Char → List (List Char)
  | [] => [[]]
  | c :: rest =>
    if c = mark then [] :: splitAll mark rest
    else match splitAll mark rest with
      | [] => [[c]]
      | part :: parts => (c :: part) :: parts

/-- The texts one after the other with `between` between each two. -/
def join (between : String) (parts : List String) : String :=
  between.intercalate parts

/-- A cut loses nothing but the mark, and the first part is free of it. -/
theorem cut_eq_some_iff {mark : Char} {cs before after : List Char} :
    cut mark cs = some (before, after) ↔ cs = before ++ mark :: after ∧ mark ∉ before := by
  induction cs generalizing before with
  | nil => simp [cut]
  | cons c rest ih =>
    by_cases h : c = mark
    · subst h
      cases before with
      | nil => simp [cut]
      | cons b bs => simp [cut]; rintro rfl - h; exact absurd rfl h
    · cases before with
      | nil => simp [cut, h]
      | cons b bs => simp [cut, h, ih]; grind

/-- A text without the mark is not cut. -/
theorem cut_eq_none_iff {mark : Char} {cs : List Char} : cut mark cs = none ↔ mark ∉ cs := by
  induction cs with
  | nil => simp [cut]
  | cons c rest ih =>
    by_cases h : c = mark
    · simp [cut, h]
    · simp [cut, h, ih, Ne.symm h]

end ManagementSchema.Text
