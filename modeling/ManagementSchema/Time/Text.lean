-- Instants as text. Years of four digits have the form of an internet
-- timestamp, with any offset; other years have a sign and are always in
-- universal time.

import ManagementSchema.Number.Whole
import ManagementSchema.Text.Blank
import ManagementSchema.Time.Instant

namespace ManagementSchema.Instant

/-- Why a text is not an instant. -/
inductive Fault where
  | tooShort
  | invalid
  | outOfRange
  | trailing
  deriving DecidableEq, Repr

/-- The wording of a fault. -/
def Fault.message : Fault → String
  | .tooShort => "premature end of input"
  | .invalid => "input contains invalid characters"
  | .outOfRange => "input is out of range"
  | .trailing => "trailing input"

/-! ## Writing -/

/-- The number with at least `width` digits. -/
def padded (width n : Nat) : List Char :=
  let digits := Whole.digits n
  List.replicate (width - digits.length) '0' ++ digits

/-- The year: four digits from 0 to 9999, else a sign and at least four digits. -/
def yearChars (year : Int) : List Char :=
  if 0 ≤ year ∧ year ≤ 9999 then padded 4 year.toNat
  else (if year < 0 then '-' else '+') :: padded 4 year.natAbs

/-- The characters of the written form. -/
def chars (t : Instant) : List Char :=
  let date := t.date
  let ofDay := (t.seconds % 86400).toNat
  let second := ofDay % 60 + t.nano / 1000000000
  yearChars date.year ++ '-' :: padded 2 date.month ++ '-' :: padded 2 date.day ++
    'T' :: padded 2 (ofDay / 3600) ++ ':' :: padded 2 (ofDay / 60 % 60) ++
    ':' :: padded 2 second ++ '.' :: padded 3 (t.nano % 1000000000 / 1000000) ++ ['Z']

/-- The written form, in universal time and to the millisecond. A leap second is second 60. -/
protected def toString (t : Instant) : String := String.ofList t.chars

/-! ## Reading -/

/-- The size of a text in bytes of UTF-8. -/
def byteLength : List Char → Nat
  | [] => 0
  | c :: rest => c.utf8Size + byteLength rest

/-- The number that the first `count` characters write, and the rest. -/
def takeDigits (count : Nat) (cs : List Char) : Except Fault (Nat × List Char) :=
  let front := cs.take count
  if front.length = count ∧ front.all Char.isDigit then .ok (Whole.value front, cs.drop count)
  else .error .invalid

/-- The rest after one of the `marks`. -/
def takeMark (marks : List Char) : List Char → Except Fault (List Char)
  | c :: rest => if c ∈ marks then .ok rest else .error .invalid
  | [] => .error .invalid

/-- Nanoseconds from the digits of a fraction. -/
def nanoOfDigits (digits : List Char) : Nat :=
  Whole.value ((digits ++ List.replicate 9 '0').take 9)

/-- An optional point with at least one digit after it, in nanoseconds. -/
def takeFraction : List Char → Except Fault (Nat × List Char)
  | '.' :: rest =>
    let digits := rest.takeWhile Char.isDigit
    if rest.isEmpty then .error .tooShort
    else if digits.isEmpty then .error .invalid
    else .ok (nanoOfDigits digits, rest.dropWhile Char.isDigit)
  | rest => .ok (0, rest)

/-- Two digits of an offset. -/
def takeOffsetDigits (cs : List Char) : Except Fault (Nat × List Char) :=
  if byteLength cs < 2 then .error .tooShort else takeDigits 2 cs

/-- The hours and minutes of an offset, in seconds. -/
def takeOffsetSpan (cs : List Char) : Except Fault (Int × List Char) := do
  let (hours, cs) ← takeOffsetDigits cs
  if cs.isEmpty then throw .tooShort
  let cs ← takeMark [':'] cs
  let (minutes, cs) ← takeOffsetDigits cs
  if 59 < minutes then throw .outOfRange
  return (hours * 3600 + minutes * 60, cs)

/-- The offset from universal time, in seconds. The minus may be a hyphen or U+2212. -/
def takeOffset : List Char → Except Fault (Int × List Char)
  | [] => .error .tooShort
  | c :: rest =>
    if c = 'Z' ∨ c = 'z' then .ok (0, rest)
    else if c = '+' then takeOffsetSpan rest
    else if c = '-' ∨ c = '\u2212' then (takeOffsetSpan rest).map fun (span, cs) => (-span, cs)
    else .error .invalid

/-- Reads an internet timestamp. -/
def readTimestamp (cs : List Char) : Except Fault Instant := do
  if byteLength cs < 19 then throw .tooShort
  let (year, cs) ← takeDigits 4 cs
  let cs ← takeMark ['-'] cs
  let (month, cs) ← takeDigits 2 cs
  let cs ← takeMark ['-'] cs
  let (day, cs) ← takeDigits 2 cs
  let some date := CalendarDate.ofYmd? year month day | throw .outOfRange
  let cs ← takeMark ['T', 't', ' '] cs
  let (hour, cs) ← takeDigits 2 cs
  let cs ← takeMark [':'] cs
  let (minute, cs) ← takeDigits 2 cs
  let cs ← takeMark [':'] cs
  let (second, cs) ← takeDigits 2 cs
  let (nano, cs) ← takeFraction cs
  if 23 < hour ∨ 59 < minute ∨ 60 < second then throw .outOfRange
  let (offset, cs) ← takeOffset cs
  if !cs.isEmpty then throw .trailing
  if 86400 ≤ offset.natAbs then throw .outOfRange
  return ofDateTime date hour minute second nano offset

/-- At most `most` digits as one number below `2 ^ 63`, from `n` on. -/
def readNumber (n : Nat) : (most : Nat) → List Char → Except Fault (Nat × List Char)
  | most + 1, c :: rest =>
    if c.isDigit then
      let next := 10 * n + Whole.digitValue c
      if Whole.fits 64 next then readNumber next most rest else .error .outOfRange
    else .ok (n, c :: rest)
  | _, cs => .ok (n, cs)

/-- At least one and at most `most` digits as one number. -/
def takeNumber (most : Nat) : List Char → Except Fault (Nat × List Char)
  | [] => .error .tooShort
  | c :: rest => if c.isDigit then readNumber 0 most (c :: rest) else .error .invalid

/-- A field of one or two digits between `low` and `high`, after optional white space. -/
def takeField (low high : Nat) (cs : List Char) : Except Fault (Nat × List Char) := do
  let (n, rest) ← takeNumber 2 (cs.dropWhile Text.isBlankChar)
  if low ≤ n ∧ n ≤ high then return (n, rest) else throw .outOfRange

/-- The rest after the one mark that has to stand here. -/
def takeSeparator (mark : Char) : List Char → Except Fault (List Char)
  | [] => .error .tooShort
  | c :: rest => if c = mark then .ok rest else .error .invalid

/-- A year of 32 bits with a sign in front. -/
def takeSignedYear : List Char → Except Fault (Int × List Char)
  | [] => .error .tooShort
  | sign :: cs => do
    let (n, rest) ← takeNumber cs.length cs
    let year := Whole.signed (sign = '-') n
    if Whole.fits 32 year then return (year, rest) else throw .outOfRange

/-- Reads date and time with a signed year, without the `Z` at the end. The fields are checked
one by one, the day of the month last. -/
def readSignedYear (cs : List Char) : Except Fault Instant := do
  let (year, cs) ← takeSignedYear cs
  let cs ← takeSeparator '-' cs
  let (month, cs) ← takeField 1 12 cs
  let cs ← takeSeparator '-' cs
  let (day, cs) ← takeField 1 31 cs
  let cs ← takeSeparator 'T' cs
  let (hour, cs) ← takeField 0 23 cs
  let cs ← takeSeparator ':' cs
  let (minute, cs) ← takeField 0 59 cs
  let cs ← takeSeparator ':' cs
  let (second, cs) ← takeField 0 60 cs
  let (nano, cs) ← takeFraction cs
  if !cs.isEmpty then throw .trailing
  let some date := CalendarDate.ofYmd? year month day | throw .outOfRange
  return ofDateTime date hour minute second nano 0

/-- Reads an instant to the nanosecond. A sign in front and a `Z` at the end call for the form
with a signed year. -/
def readNanos (cs : List Char) : Except Fault Instant :=
  let isSigned := cs.head? = some '+' || cs.head? = some '-'
  if isSigned && cs.getLast? = some 'Z' then readSignedYear cs.dropLast
  else readTimestamp cs

/-- Reads an instant and cuts it to whole milliseconds. -/
def read (cs : List Char) : Except Fault Instant := (readNanos cs).map truncated

end ManagementSchema.Instant
