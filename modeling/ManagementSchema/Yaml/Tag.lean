-- The tags of YAML nodes. A tag is spelled with a short form that may be
-- declared in a directive, and any octet of it by two digits behind a percent
-- sign.

import ManagementSchema.Yaml.Folding

namespace ManagementSchema.Yaml

/-- The tag of a node. Octets need not be a text; then it only counts whether an exclamation mark
comes first. -/
inductive Tag where
  | name (text : String)
  | noText (isLocal : Bool)
  deriving DecidableEq, Repr

namespace Tag

/-- The tag with these octets. -/
def ofOctets (octets : List UInt8) : Tag :=
  match String.fromUTF8? octets.toByteArray with
  | some text => .name text
  | none => .noText (octets.head? = some 0x21)

/-- The name behind the exclamation mark of a local tag; the mark alone is a name too. -/
def localName? : Tag → Option String
  | .name text => match text.toList with
    | ['!'] => some "!"
    | '!' :: rest => some (String.ofList rest)
    | _ => none
  | .noText _ => none

/-! ## Spelling -/

/-- A character of the name of an anchor, of a directive or of a short form. -/
def isNameChar (c : Char) : Bool := c.isAlphanum || c == '_' || c == '-'

/-- A character that stands for itself in a tag; some more do so in one that is written out. -/
def isPlainChar (isVerbatim : Bool) (c : Char) : Bool :=
  isNameChar c || c ∈ [';', '/', '?', ':', '@', '&', '=', '+', '$', '.', '!', '~', '*', '\'', '(',
    ')'] || (isVerbatim && c ∈ [',', '[', ']'])

/-- How many octets of a character are still to come after one more of them. -/
def pendingAfter (pending octet : Nat) : Option Nat :=
  if 0 < pending then if octet / 64 = 2 then some (pending - 1) else none
  else if octet < 0x80 then some 0
  else if octet / 32 = 6 then some 1
  else if octet / 16 = 14 then some 2
  else if octet / 8 = 30 then some 3
  else none

/-- The octets that the next characters spell, and how many characters these are. All octets of a
character beyond ASCII have to be escaped. -/
def readOctets (isVerbatim : Bool) : (pending : Nat) → List Char → Option (List UInt8 × Nat)
  | pending, '%' :: high :: low :: rest => do
    let octet := 16 * (← Whole.hexDigit? high) + (← Whole.hexDigit? low)
    let (octets, count) ← readOctets isVerbatim (← pendingAfter pending octet) rest
    return (UInt8.ofNat octet :: octets, count + 3)
  | _, '%' :: _ => none
  | 0, c :: rest =>
    if isPlainChar isVerbatim c then do
      let (octets, count) ← readOctets isVerbatim 0 rest
      return (UInt8.ofNat c.toNat :: octets, count + 1)
    else return ([], 0)
  | 0, [] => return ([], 0)
  | _ + 1, _ => none

/-- The octets that are spelled next, as far as the first zero, and how many characters these
are. -/
def spelled? (isVerbatim : Bool) (cs : List Char) : Option (List UInt8 × Nat) := do
  let (octets, count) ← readOctets isVerbatim 0 cs
  return (octets.takeWhile (· != 0), count)

/-! ## Short forms -/

/-- What the declared short forms stand for. -/
abbrev Handles := List (String × List UInt8)

/-- What a short form stands for. Two of them need no declaration. -/
def startOf? (handles : Handles) (handle : String) : Option (List UInt8) :=
  match handles.lookup handle with
  | some start => some start
  | none =>
    if handle = "!" then some "!".toUTF8.data.toList
    else if handle = "!!" then some "tag:yaml.org,2002:".toUTF8.data.toList
    else none

/-- Reads a tag; the result says how many characters it has. -/
def read? (handles : Handles) : List Char → Option (Tag × Nat)
  | '!' :: '<' :: rest => do
    let (octets, count) ← spelled? true rest
    if count = 0 ∨ (rest.drop count).head? ≠ some '>' then none
    else return (ofOctets octets, count + 3)
  | '!' :: rest => do
    let name := rest.takeWhile isNameChar
    match rest.drop name.length with
    | '!' :: behind =>
      let (octets, count) ← spelled? false behind
      let start ← startOf? handles (String.ofList ('!' :: name ++ ['!']))
      if count = 0 then none else return (ofOctets (start ++ octets), name.length + 2 + count)
    | _ =>
      let (octets, count) ← spelled? false rest
      if octets.isEmpty then return (.name "!", count + 1)
      else return (ofOctets ((← startOf? handles "!") ++ octets), count + 1)
  | _ => none

end Tag

/-! ## Directives -/

/-- A line in front of a document: the version, or a short form for tags. -/
inductive Directive where
  | version
  | shortForm (name : String) (start : List UInt8)

namespace Directive

/-- The number of a version, of nine digits at most, and what stands behind it. -/
def versionNumber? (cs : List Char) : Option (Nat × List Char) :=
  let digits := cs.takeWhile Char.isDigit
  if digits.isEmpty || 9 < digits.length then none
  else some (Whole.value digits, cs.drop digits.length)

/-- Reads a version. Two of them are known. -/
def version? (cs : List Char) : Option (Directive × List Char) := do
  match ← versionNumber? cs with
  | (1, '.' :: behind) =>
    let (minor, rest) ← versionNumber? behind
    if minor = 1 ∨ minor = 2 then some (.version, rest) else none
  | _ => none

/-- Reads a short form, which is an exclamation mark or a name between two of them, and what it
stands for. -/
def shortForm? : List Char → Option (Directive × List Char)
  | '!' :: rest => do
    let name := rest.takeWhile Tag.isNameChar
    let (handle, behind) ← match rest.drop name.length with
      | '!' :: behind => some ('!' :: name ++ ['!'], behind)
      | behind => if name.isEmpty then some (['!'], behind) else none
    let value := behind.dropWhile isBlank
    let (start, count) ← Tag.spelled? true value
    let end? := value.drop count
    if value.length < behind.length ∧ count ≠ 0 ∧ startsBlank end? then
      some (.shortForm (String.ofList handle) start, end?)
    else none
  | _ => none

/-- Reads a directive from its percent sign to the end of its line. -/
def read? (cs : List Char) : Option (Directive × List Char) := do
  let body := cs.drop 1
  let name := body.takeWhile Tag.isNameChar
  let behind := body.drop name.length
  let value := behind.dropWhile isBlank
  if !startsBlank behind then none
  let (directive, rest) ← match String.ofList name with
    | "YAML" => version? value
    | "TAG" => shortForm? value
    | _ => none
  return (directive, ← restOfLine? rest)

end Directive

end ManagementSchema.Yaml
