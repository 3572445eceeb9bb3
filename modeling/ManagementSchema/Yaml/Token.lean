-- YAML tokens. Indentation shows in tokens that open and close block
-- collections, and a mapping key is marked once the colon behind it is found.

import ManagementSchema.Yaml.Tag

namespace ManagementSchema.Yaml

/-- The parts of a document. -/
inductive Token where
  | directive
  | documentStart
  | documentEnd
  | blockSequence
  | blockMapping
  | blockEnd
  | flowSequence
  | flowSequenceEnd
  | flowMapping
  | flowMappingEnd
  | entry
  | comma
  | key
  | value
  | alias (name : String)
  | anchor (name : String)
  | tag (tag : Tag)
  | scalar (text : String) (isPlain : Bool)
  deriving DecidableEq, Repr

/-- A token that a colon behind it would make the start of a mapping key: its number, where it
stands, and whether it cannot be anything else. -/
structure PossibleKey where
  number : Nat
  line : Nat
  column : Nat
  index : Nat
  isRequired : Bool

/-- A text in the middle of being taken apart. `indents` are the columns of the open block
collections, the innermost first; `keys` has one place for each open flow collection and one for
the block around them. Places are counted in characters on a line and in octets in the text.
`hasVersion` and `handles` are what directives said. -/
structure Scanner where
  rest : List Char
  line : Nat := 0
  column : Nat := 0
  index : Nat := 0
  tokens : Array Token := #[]
  indents : List Nat := []
  keys : List (Option PossibleKey) := [none]
  keyAllowed : Bool := true
  hasVersion : Bool := false
  handles : Tag.Handles := []

namespace Scanner

/-! ## Places -/

/-- The scanner after so many characters. -/
def advance (s : Scanner) : (count : Nat) → List Char → Scanner
  | 0, rest => { s with rest }
  | _, [] => { s with rest := [] }
  | count + 1, c :: rest =>
    let line := if isBreak c then s.line + 1 else s.line
    let column := nextColumn s.column c
    advance { s with line, column, index := s.index + c.utf8Size } count rest

/-- The scanner after so many characters of its text. -/
def skip (s : Scanner) (count : Nat) : Scanner := s.advance count s.rest

/-- The scanner after a token. -/
def emit (s : Scanner) (token : Token) : Scanner := { s with tokens := s.tokens.push token }

/-- The column of the innermost block collection, or one before the first. -/
def indent (s : Scanner) : Int :=
  match s.indents with
  | [] => -1
  | column :: _ => column

/-- Some flow collection is open. -/
def inFlow (s : Scanner) : Bool := 1 < s.keys.length

/-- How many characters of white space and comment stand before the next token, and whether a
line ends among them. A line may start with the mark of the octet order. -/
def spaceBefore (inFlow keyAllowed : Bool) :
    (lineStart inComment : Bool) → List Char → Nat × Bool
  | _, _, [] => (0, false)
  | lineStart, inComment, c :: rest =>
    if isBreak c then
      let (count, _) := spaceBefore inFlow (!inFlow || keyAllowed) true false rest
      (count + 1, true)
    else if inComment || c = '#' || c = ' ' || (c = '\t' && (inFlow || !keyAllowed)) ||
        (lineStart && c = '\ufeff') then
      let (count, ends) := spaceBefore inFlow keyAllowed false (inComment || c = '#') rest
      (count + 1, ends)
    else (0, false)

/-- The scanner at its next token. In block context a new line may start with a key. -/
def skipSpace (s : Scanner) : Scanner :=
  let (count, ends) := spaceBefore s.inFlow s.keyAllowed (s.column = 0) false s.rest
  let next := s.skip count
  if ends && !s.inFlow then { next with keyAllowed := true } else next

/-! ## Possible keys -/

/-- A key has to fit one line and 1024 octets. -/
def isStale (s : Scanner) (key : PossibleKey) : Bool :=
  key.line < s.line || key.index + 1024 < s.index

/-- Drops the keys that can no longer be completed; a required one is an error. -/
def dropStaleKeys (s : Scanner) : Option Scanner :=
  if s.keys.any fun key => key.any fun key => s.isStale key && key.isRequired then none
  else some { s with keys := s.keys.map fun key => key.filter fun key => !s.isStale key }

/-- Gives up the possible key of the innermost collection; a required one is an error. -/
def removeKey (s : Scanner) : Option Scanner :=
  match s.keys with
  | some key :: outer => if key.isRequired then none else some { s with keys := none :: outer }
  | _ => some s

/-- Notes that the next token may start a key. -/
def saveKey (s : Scanner) : Option Scanner :=
  if s.keyAllowed then do
    let cleared ← s.removeKey
    let key : PossibleKey :=
      ⟨s.tokens.size, s.line, s.column, s.index, !s.inFlow && s.indent = s.column⟩
    some { cleared with keys := some key :: cleared.keys.drop 1 }
  else some s

/-! ## Block collections -/

/-- Closes the block collections that stand to the right of a column. -/
def closeBlocks (s : Scanner) (column : Int) : Scanner :=
  if s.inFlow then s
  else
    let closed := s.indents.takeWhile fun (start : Nat) => column < (start : Int)
    { s with
      tokens := s.tokens ++ (closed.map fun _ => Token.blockEnd).toArray
      indents := s.indents.drop closed.length }

/-- Opens a block collection at a column, if that is to the right of the innermost one; its token
gets the given number. -/
def openBlock (s : Scanner) (column number : Nat) (token : Token) : Scanner :=
  if !s.inFlow && s.indent < (column : Int) then
    { s with
      tokens := s.tokens.insertIdxIfInBounds number token
      indents := column :: s.indents }
  else s

/-! ## Single tokens -/

/-- A mark at the start of a line that bounds a document. -/
def boundary (s : Scanner) (token : Token) : Option Scanner := do
  let cleared ← (s.closeBlocks (-1)).removeKey
  some ({ cleared with keyAllowed := false }.skip 3 |>.emit token)

/-- The scanner after what a directive says. It may say everything but once. -/
def declare (s : Scanner) : Directive → Option Scanner
  | .version => if s.hasVersion then none else some { s with hasVersion := true }
  | .shortForm name start =>
    if s.handles.any fun (other, _) => other = name then none
    else some { s with handles := (name, start) :: s.handles }

/-- A directive takes its line, the end included. -/
def directiveLine (s : Scanner) : Option Scanner := do
  let cleared ← (s.closeBlocks (-1)).removeKey
  let (directive, rest) ← Directive.read? s.rest
  let declared ← cleared.declare directive
  some ({ declared with keyAllowed := false }.skip (s.rest.length - rest.length)
    |>.emit .directive)

/-- Opens a flow collection. -/
def openFlow (s : Scanner) (token : Token) : Option Scanner := do
  let saved ← s.saveKey
  some ({ saved with keys := none :: saved.keys, keyAllowed := true }.skip 1 |>.emit token)

/-- Closes a flow collection. -/
def closeFlow (s : Scanner) (token : Token) : Option Scanner := do
  let cleared ← s.removeKey
  let keys := if cleared.inFlow then cleared.keys.drop 1 else cleared.keys
  some ({ cleared with keys, keyAllowed := false }.skip 1 |>.emit token)

/-- A comma. -/
def comma (s : Scanner) : Option Scanner := do
  let cleared ← s.removeKey
  some ({ cleared with keyAllowed := true }.skip 1 |>.emit .comma)

/-- The dash of a block sequence. -/
def dash (s : Scanner) : Option Scanner := do
  if !s.inFlow && !s.keyAllowed then none
  let cleared ← (s.openBlock s.column s.tokens.size .blockSequence).removeKey
  some ({ cleared with keyAllowed := true }.skip 1 |>.emit .entry)

/-- The question mark of an explicit key. -/
def questionMark (s : Scanner) : Option Scanner := do
  if !s.inFlow && !s.keyAllowed then none
  let cleared ← (s.openBlock s.column s.tokens.size .blockMapping).removeKey
  some ({ cleared with keyAllowed := !s.inFlow }.skip 1 |>.emit .key)

/-- The colon before a value. If a key can end here, it is marked, and with it perhaps the start
of a mapping. -/
def colon (s : Scanner) : Option Scanner :=
  match s.keys with
  | some key :: outer =>
    let marked := { s with
      tokens := s.tokens.insertIdxIfInBounds key.number .key
      keys := none :: outer
      keyAllowed := false }
    some (marked.openBlock key.column key.number .blockMapping |>.skip 1 |>.emit .value)
  | _ =>
    if !s.inFlow && !s.keyAllowed then none
    else
      let opened := s.openBlock s.column s.tokens.size .blockMapping
      some ({ opened with keyAllowed := !s.inFlow }.skip 1 |>.emit .value)

/-- What may follow the name of an anchor. -/
def endsName : List Char → Bool
  | c :: rest => startsBlank (c :: rest) || c ∈ ['?', ':', ',', ']', '\x7d', '%', '@', '\x60']
  | [] => true

/-- A name behind an ampersand or a star. -/
def named (s : Scanner) (token : String → Token) : Option Scanner := do
  let saved ← s.saveKey
  let name := (s.rest.drop 1).takeWhile Tag.isNameChar
  if name.isEmpty || !endsName (s.rest.drop (1 + name.length)) then none
  else some ({ saved with keyAllowed := false }.skip (1 + name.length)
    |>.emit (token (String.ofList name)))

/-- A tag. -/
def tagged (s : Scanner) : Option Scanner := do
  let saved ← s.saveKey
  let (tag, count) ← Tag.read? s.handles s.rest
  let behind := s.rest.drop count
  if startsBlank behind || (s.inFlow && behind.head? = some ',') then
    some ({ saved with keyAllowed := false }.skip count |>.emit (.tag tag))
  else none

/-- A scalar in quotation marks. -/
def quoted (s : Scanner) (mark : Char) : Option Scanner := do
  let saved ← s.saveKey
  let start : Progress := { column := s.column + 1, count := 1 }
  let scanned ← scanQuoted mark start 0 (s.rest.drop 1)
  some ({ saved with keyAllowed := false }.skip scanned.count
    |>.emit (.scalar (String.ofList scanned.text) false))

/-- A plain scalar. A new line behind it may start with a key. -/
def plain (s : Scanner) : Option Scanner := do
  let saved ← s.saveKey
  let scanned ← scanPlain s.inFlow (s.indent + 1) { column := s.column } s.rest
  some ({ saved with keyAllowed := scanned.ranOver }.skip scanned.count
    |>.emit (.scalar (String.ofList scanned.text) true))

/-- The signs behind the mark of a block scalar: what happens to its end, and an indentation, in
either order. -/
def blockHeader (cs : List Char) : Option (Chomping × Option Nat × List Char) :=
  let chomping? (c : Char) : Option Chomping :=
    if c = '+' then some .keep else if c = '-' then some .strip else none
  let width? (c : Char) : Option Nat :=
    if c.isDigit then some (c.toNat - '0'.toNat) else none
  let (chomping, afterSign) := match cs with
    | c :: rest => match chomping? c with
      | some chomping => (some chomping, rest)
      | none => (none, cs)
    | [] => (none, [])
  let (width, afterWidth) := match afterSign with
    | c :: rest => match width? c with
      | some width => (some width, rest)
      | none => (none, afterSign)
    | [] => (none, [])
  let (chomping, rest) := match chomping, afterWidth with
    | none, c :: rest => match width, chomping? c with
      | some _, some chomping => (some chomping, rest)
      | _, _ => (none, afterWidth)
    | chomping, rest => (chomping, rest)
  if width = some 0 then none else some (chomping.getD .clip, width, rest)

/-- A block scalar: its signs, the rest of their line, and its lines. -/
def block (s : Scanner) (isFolded : Bool) : Option Scanner := do
  let cleared ← s.removeKey
  let (chomping, width, header) ← blockHeader (s.rest.drop 1)
  let lines ← restOfLine? header
  let indent := match width with
    | some width => if s.indents.isEmpty then width else s.indent.toNat + width
    | none => 0
  let start : BlockProgress := { indent, count := s.rest.length - lines.length }
  let scanned ← scanBlock ⟨isFolded, chomping⟩ s.indent start lines
  some ({ cleared with keyAllowed := true }.skip scanned.count
    |>.emit (.scalar (String.ofList scanned.text) false))

/-! ## The whole text -/

/-- A plain scalar may start with this character. -/
def startsPlain (inFlow : Bool) : List Char → Bool
  | [] => false
  | c :: rest =>
    if isBlank c || isBreak c then false
    else if c = '-' then match rest with
      | d :: _ => !isBlank d
      | [] => true
    else if c = '?' ∨ c = ':' then !inFlow && !startsBlank rest
    else c ∉ [',', '[', ']', '\x7b', '\x7d', '#', '&', '*', '!', '|', '>', '\'', '"', '%', '@',
      '\x60']

/-- One token further; the scanner stands at the first character of the token. -/
def next (s : Scanner) (c : Char) (rest : List Char) : Option Scanner :=
  if s.column = 0 && c = '%' then s.directiveLine
  else if s.column = 0 && isBoundary '-' s.rest then s.boundary .documentStart
  else if s.column = 0 && isBoundary '.' s.rest then s.boundary .documentEnd
  else if c = '[' then s.openFlow .flowSequence
  else if c = '\x7b' then s.openFlow .flowMapping
  else if c = ']' then s.closeFlow .flowSequenceEnd
  else if c = '\x7d' then s.closeFlow .flowMappingEnd
  else if c = ',' then s.comma
  else if c = '-' && startsBlank rest then s.dash
  else if c = '?' && (s.inFlow || startsBlank rest) then s.questionMark
  else if c = ':' && (s.inFlow || startsBlank rest) then s.colon
  else if c = '*' then s.named .alias
  else if c = '&' then s.named .anchor
  else if c = '!' then s.tagged
  else if c = '|' && !s.inFlow then s.block false
  else if c = '>' && !s.inFlow then s.block true
  else if c = '\'' || c = '"' then s.quoted c
  else if startsPlain s.inFlow s.rest then s.plain
  else none

/-- The tokens of the rest of the text. Each takes a character at least, so that the length of
the text is enough `fuel`. -/
def run : (fuel : Nat) → Scanner → Option (Array Token)
  | 0, _ => none
  | fuel + 1, s => do
    let s ← s.skipSpace.dropStaleKeys
    match s.rest with
    | [] =>
      let s ← ({ s with line := s.line + 1 }.closeBlocks (-1)).removeKey
      some s.tokens
    | c :: rest =>
      let s ← (s.closeBlocks s.column).next c rest
      run fuel s

end Scanner

/-- The tokens of a text, if it is one. -/
def tokens? (text : String) : Option (Array Token) :=
  let cs := text.toList
  if cs.all isAllowed then Scanner.run (cs.length + 1) { rest := unifyBreaks cs } else none

end ManagementSchema.Yaml
