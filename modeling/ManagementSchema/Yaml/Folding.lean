-- The texts of YAML scalars as they run over lines: line ends are folded to
-- blanks, kept or cut, by the style of the scalar.

import ManagementSchema.Number.Whole

namespace ManagementSchema.Yaml

/-! ## Characters -/

/-- A blank within a line. -/
def isBlank (c : Char) : Bool := c == ' ' || c == '\t'

/-- The end of a line; other line ends than these are replaced before. -/
def isBreak (c : Char) : Bool := c == '\n' || c == '\u2028' || c == '\u2029'

/-- The text ends, or its first character is a blank or a line end. -/
def startsBlank : List Char → Bool
  | [] => true
  | c :: _ => isBlank c || isBreak c

/-- A character that may stand in a document at all. -/
def isAllowed (c : Char) : Bool :=
  let n := c.toNat
  n == 0x9 || n == 0xa || n == 0xd || (0x20 ≤ n && n ≤ 0x7e) || n == 0x85 ||
    (0xa0 ≤ n && n ≤ 0xfffd) || 0x10000 ≤ n

/-- The text with a line feed for each of the older line ends. -/
def unifyBreaks : List Char → List Char
  | '\r' :: '\n' :: rest => '\n' :: unifyBreaks rest
  | '\r' :: rest => '\n' :: unifyBreaks rest
  | c :: rest => (if c = '\u0085' then '\n' else c) :: unifyBreaks rest
  | [] => []

/-- Three equal marks at the start of a line and a blank after them bound a document. -/
def isBoundary (mark : Char) : List Char → Bool
  | a :: b :: c :: rest => a = mark && b = mark && c = mark && startsBlank rest
  | _ => false

/-- A document begins or ends here, if a line does. -/
def isDocumentBoundary (cs : List Char) : Bool := isBoundary '-' cs || isBoundary '.' cs

/-- What stands behind this line, of which nothing but a comment may be left. -/
def restOfLine? (cs : List Char) : Option (List Char) :=
  let behind := match cs.dropWhile isBlank with
    | '#' :: comment => comment.dropWhile fun c => !isBreak c
    | other => other
  match behind with
  | [] => some []
  | c :: rest => if isBreak c then some rest else none

/-! ## Gaps -/

/-- What stands between two visible parts of a scalar, with the latest character first: nothing,
blanks, or line ends. An escaped line end counts as a line end that leaves no trace. -/
inductive Gap where
  | none
  | blanks (cs : List Char)
  | lines (first : Option Char) (more : List Char)

namespace Gap

/-- The gap after one more blank. Blanks beside line ends do not count. -/
def addBlank (c : Char) : Gap → Gap
  | none => blanks [c]
  | blanks cs => blanks (c :: cs)
  | lines first more => lines first more

/-- The gap after one more line end. -/
def addBreak (c : Char) : Gap → Gap
  | none | blanks _ => lines (some c) []
  | lines first more => lines first (c :: more)

/-- The gap has a line end in it. -/
def hasBreak : Gap → Bool
  | lines .. => true
  | _ => false

/-- A gap holds anything. -/
def isNone : Gap → Bool
  | none => true
  | _ => false

/-- What remains of the gap, the latest character first: one line feed becomes a blank, several
become one less. -/
def folded : Gap → List Char
  | none => []
  | blanks cs => cs
  | lines (some '\n') [] => [' ']
  | lines (some '\n') more => more
  | lines (some c) more => more ++ [c]
  | lines Option.none more => more

end Gap

/-- A scalar that was read: its text and how many characters it took. `ranOver` says that a line
ended behind the text. -/
structure Scanned where
  text : List Char
  count : Nat
  ranOver : Bool := false

/-- The column after a character. -/
def nextColumn (column : Nat) (c : Char) : Nat := if isBreak c then 0 else column + 1

/-! ## Plain scalars -/

/-- The text read so far, the latest character first, the gap behind it, and the place. -/
structure Progress where
  text : List Char := []
  gap : Gap := .none
  column : Nat
  count : Nat := 0

namespace Progress

/-- One more character of the text, behind what remains of the gap. -/
def push (p : Progress) (c : Char) : Progress :=
  ⟨c :: p.gap.folded ++ p.text, .none, p.column + 1, p.count + 1⟩

/-- One more character of the gap. -/
def widen (p : Progress) (c : Char) : Progress :=
  ⟨p.text, if isBreak c then p.gap.addBreak c else p.gap.addBlank c, nextColumn p.column c,
    p.count + 1⟩

/-- The scalar as it stands. -/
def finish (p : Progress) : Scanned := ⟨p.text.reverse, p.count, p.gap.hasBreak⟩

end Progress

/-- A mark that ends a plain scalar in a flow collection. -/
def isFlowMark (c : Char) : Bool := c == ',' || c == '[' || c == ']' || c == '\x7b' || c == '\x7d'

/-- The plain scalar stops in front of this character. -/
def plainStops (inFlow : Bool) (indent : Int) (p : Progress) (cs : List Char) : Bool :=
  match cs with
  | [] => true
  | c :: rest =>
    (c = ':' && startsBlank rest) || (inFlow && isFlowMark c) ||
      (!p.gap.isNone && ((!inFlow && (p.column : Int) < indent) || c = '#' ||
        (p.column = 0 && isDocumentBoundary cs)))

/-- A colon in a flow collection may not be glued to a mark. -/
def isGluedColon (inFlow : Bool) : List Char → Bool
  | ':' :: c :: _ => inFlow && (isFlowMark c || c = '?')
  | _ => false

/-- Reads a plain scalar; in block context its lines have at least the column `indent`. -/
def scanPlain (inFlow : Bool) (indent : Int) (p : Progress) : List Char → Option Scanned
  | [] => some p.finish
  | c :: rest =>
    if isBlank c || isBreak c then
      if p.gap.hasBreak && c = '\t' && (p.column : Int) < indent then none
      else scanPlain inFlow indent (p.widen c) rest
    else if plainStops inFlow indent p (c :: rest) then some p.finish
    else if isGluedColon inFlow (c :: rest) then none
    else scanPlain inFlow indent (p.push c) rest

/-! ## Quoted scalars -/

/-- The character that so many hexadecimal digits name. -/
def hexChar? (width : Nat) (cs : List Char) : Option (Char × Nat) := do
  let digits := cs.take width
  if digits.length < width then none
  let code ← Whole.hexNumber? digits
  if (0xd800 ≤ code ∧ code ≤ 0xdfff) ∨ 0x10ffff < code then none
  else some (Char.ofNat code, width + 1)

/-- The character of an escape, and how many characters it has behind the backslash. -/
def escape? : List Char → Option (Char × Nat)
  | '0' :: _ => some ('\x00', 1)
  | 'a' :: _ => some ('\x07', 1)
  | 'b' :: _ => some ('\x08', 1)
  | 't' :: _ | '\t' :: _ => some ('\t', 1)
  | 'n' :: _ => some ('\n', 1)
  | 'v' :: _ => some ('\x0b', 1)
  | 'f' :: _ => some ('\x0c', 1)
  | 'r' :: _ => some ('\r', 1)
  | 'e' :: _ => some ('\x1b', 1)
  | ' ' :: _ => some (' ', 1)
  | '"' :: _ => some ('"', 1)
  | '/' :: _ => some ('/', 1)
  | '\\' :: _ => some ('\\', 1)
  | 'N' :: _ => some ('\u0085', 1)
  | '_' :: _ => some ('\u00a0', 1)
  | 'L' :: _ => some ('\u2028', 1)
  | 'P' :: _ => some ('\u2029', 1)
  | 'x' :: rest => hexChar? 2 rest
  | 'u' :: rest => hexChar? 4 rest
  | 'U' :: rest => hexChar? 8 rest
  | _ => none

/-- The quoted scalar after one of its characters that is neither blank nor line end; the result
says how many of the next characters belong to it, or that the scalar ends. -/
def quotedStep (mark : Char) (p : Progress) (c : Char) (rest : List Char) :
    Option (Progress × Nat ⊕ Scanned) :=
  if c = mark then
    if mark = '\'' ∧ rest.head? = some '\'' then some (.inl (p.push c, 1))
    else some (.inr ⟨(p.gap.folded ++ p.text).reverse, p.count + 1, false⟩)
  else if c = '\\' ∧ mark = '"' then
    match rest with
    | d :: _ =>
      if isBreak d then
        some (.inl (⟨p.gap.folded ++ p.text, .lines none [], p.column + 1, p.count + 1⟩, 1))
      else (escape? rest).map fun (e, n) => .inl (p.push e, n)
    | [] => none
  else some (.inl (p.push c, 0))

/-- Reads a scalar up to its closing mark; `skip` characters belong to the one before. -/
def scanQuoted (mark : Char) (p : Progress) : (skip : Nat) → List Char → Option Scanned
  | _, [] => none
  | skip + 1, c :: rest =>
    scanQuoted mark { p with column := nextColumn p.column c, count := p.count + 1 } skip rest
  | 0, c :: rest =>
    if p.column = 0 && isDocumentBoundary (c :: rest) then none
    else if isBlank c || isBreak c then scanQuoted mark (p.widen c) 0 rest
    else match quotedStep mark p c rest with
      | none => none
      | some (.inr scanned) => some scanned
      | some (.inl (next, skip)) => scanQuoted mark next skip rest

/-! ## Block scalars -/

/-- Which of the line ends behind the text of a block scalar are kept. -/
inductive Chomping where
  | strip
  | clip
  | keep
  deriving DecidableEq

/-- How a block scalar is read: its lines folded or not, and its end. -/
structure BlockStyle where
  isFolded : Bool
  chomping : Chomping

/-- The block scalar read so far, the latest characters first. The first line fixes `indent` if
it is zero; `ending` is the end of the last line of text and `gaps` are the empty lines after
it. -/
structure BlockProgress where
  text : List Char := []
  ending : List Char := []
  gaps : List Char := []
  indent : Nat
  widest : Nat := 0
  column : Nat := 0
  count : Nat := 0
  inLine : Bool := false
  startedBlank : Bool := false

namespace BlockProgress

/-- The scalar as it stands. -/
def finish (style : BlockStyle) (p : BlockProgress) : Scanned :=
  let text := match style.chomping with
    | .strip => p.text
    | .clip => p.ending ++ p.text
    | .keep => p.gaps ++ p.ending ++ p.text
  ⟨text.reverse, p.count, false⟩

/-- The indentation of the lines, now that one of them begins. -/
def settled (parent : Int) (p : BlockProgress) : Nat :=
  if p.indent = 0 then max (max p.widest p.column) (max (parent + 1).toNat 1) else p.indent

/-- The first character of a line of text. A single line end is folded into a blank if the lines
on both sides start with text. -/
def startLine (style : BlockStyle) (indent : Nat) (p : BlockProgress) (c : Char) :
    BlockProgress :=
  let folds := style.isFolded && p.ending = ['\n'] && !p.startedBlank && !isBlank c
  let between :=
    if folds then if p.gaps.isEmpty then [' '] else p.gaps
    else p.gaps ++ p.ending
  { p with
    text := c :: between ++ p.text, ending := [], gaps := [], indent, column := p.column + 1,
    count := p.count + 1, inLine := true, startedBlank := isBlank c }

end BlockProgress

/-- Reads the lines of a block scalar inside a block with the indentation `parent`. -/
def scanBlock (style : BlockStyle) (parent : Int) (p : BlockProgress) : List Char → Option Scanned
  | [] => some (p.finish style)
  | c :: rest =>
    if p.inLine then
      if isBreak c then
        scanBlock style parent
          { p with ending := [c], inLine := false, column := 0, count := p.count + 1 } rest
      else
        scanBlock style parent
          { p with text := c :: p.text, column := p.column + 1, count := p.count + 1 } rest
    else
      let isInside := p.indent = 0 || p.column < p.indent
      if isInside && c = ' ' then
        scanBlock style parent { p with column := p.column + 1, count := p.count + 1 } rest
      else if isInside && c = '\t' then none
      else if isBreak c then
        scanBlock style parent
          { p with
            gaps := c :: p.gaps, widest := max p.widest p.column, column := 0,
            count := p.count + 1 } rest
      else
        let indent := p.settled parent
        if p.column = indent then scanBlock style parent (p.startLine style indent c) rest
        else some (p.finish style)

end ManagementSchema.Yaml
