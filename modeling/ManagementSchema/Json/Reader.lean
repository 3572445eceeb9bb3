-- Reading a JSON text: first its tokens, then a machine that holds the open
-- arrays and objects on a stack. Both walk down the text once.

import ManagementSchema.Json.Value

namespace ManagementSchema.Json

/-! ## Tokens -/

/-- The smallest parts of a text. -/
inductive Token where
  | arrayStart
  | arrayEnd
  | objectStart
  | objectEnd
  | comma
  | colon
  | null
  | bool (b : Bool)
  | number (n : Number)
  | string (s : String)
  deriving DecidableEq, Repr

/-- The white space between tokens. -/
def isSpace (c : Char) : Bool := c == ' ' || c == '\n' || c == '\t' || c == '\r'

/-- The character of a one-letter escape. -/
def unescape? : Char → Option Char
  | '"' => some '"'
  | '\\' => some '\\'
  | '/' => some '/'
  | 'b' => some '\x08'
  | 'f' => some '\x0c'
  | 'n' => some '\n'
  | 'r' => some '\r'
  | 't' => some '\t'
  | _ => none

/-- The character of one code unit that is no half of a pair. -/
def ofUnit? (unit : Nat) : Option Char :=
  if 0xd800 ≤ unit ∧ unit ≤ 0xdfff then none else some (Char.ofNat unit)

/-- The character of a pair of code units. -/
def ofPair? (high low : Nat) : Option Char :=
  if 0xd800 ≤ high ∧ high ≤ 0xdbff ∧ 0xdc00 ≤ low ∧ low ≤ 0xdfff then
    some (Char.ofNat (0x10000 + (high - 0xd800) * 0x400 + (low - 0xdc00)))
  else none

/-- One character of a string and how many more characters it is written with; the escape of a
pair takes twelve characters in all. -/
def readChar? : List Char → Option (Char × Nat)
  | '\\' :: 'u' :: rest => do
    let digits := rest.take 4
    if digits.length < 4 then none
    let unit ← Whole.hexNumber? digits
    match ofUnit? unit with
    | some c => some (c, 5)
    | none =>
      match rest.drop 4 with
      | '\\' :: 'u' :: more =>
        if (more.take 4).length < 4 then none
        let low ← Whole.hexNumber? (more.take 4)
        (ofPair? unit low).map (·, 11)
      | _ => none
  | '\\' :: c :: _ => (unescape? c).map (·, 1)
  | c :: _ => if c.toNat < 0x20 ∨ c = '\\' then none else some (c, 0)
  | [] => none

/-- The characters of a string up to its closing mark, and how many were read with that mark;
`skip` characters belong to the escape before. -/
def readString? : (skip : Nat) → List Char → Option (List Char × Nat)
  | _, [] => none
  | skip + 1, _ :: rest => (readString? skip rest).map fun (cs, n) => (cs, n + 1)
  | 0, '"' :: _ => some ([], 1)
  | 0, c :: rest => do
    let (first, more) ← readChar? (c :: rest)
    let (cs, n) ← readString? more rest
    some (first :: cs, n + 1)

/-- The characters that number literals are made of. -/
def isNumberChar (c : Char) : Bool :=
  c.isDigit || c == '-' || c == '+' || c == '.' || c == 'e' || c == 'E'

/-- The token at the start of a text and how many characters it has. -/
def readToken? : List Char → Option (Token × Nat)
  | '[' :: _ => some (.arrayStart, 1)
  | ']' :: _ => some (.arrayEnd, 1)
  | '\x7b' :: _ => some (.objectStart, 1)
  | '\x7d' :: _ => some (.objectEnd, 1)
  | ',' :: _ => some (.comma, 1)
  | ':' :: _ => some (.colon, 1)
  | 'n' :: 'u' :: 'l' :: 'l' :: _ => some (.null, 4)
  | 't' :: 'r' :: 'u' :: 'e' :: _ => some (.bool true, 4)
  | 'f' :: 'a' :: 'l' :: 's' :: 'e' :: _ => some (.bool false, 5)
  | '"' :: rest => (readString? 0 rest).map fun (cs, n) => (.string (String.ofList cs), n + 1)
  | cs =>
    let literal := cs.takeWhile isNumberChar
    (Number.read? literal).map fun n => (.number n, literal.length)

/-- The tokens of a text; `skip` characters belong to the token before. -/
def tokens? : (skip : Nat) → List Char → Option (List Token)
  | _, [] => some []
  | skip + 1, _ :: rest => tokens? skip rest
  | 0, c :: rest =>
    if isSpace c then tokens? 0 rest
    else do
      let (token, count) ← readToken? (c :: rest)
      let more ← tokens? (count - 1) rest
      some (token :: more)

/-! ## Nesting -/

/-- An open array or object with what it holds so far, the last part first. An object waits for
the value of a name. -/
inductive Frame where
  | array (items : List Json)
  | object (members : List (String × Json)) (name : String)

/-- What the machine waits for. -/
inductive State where
  | value
  | firstItem
  | firstMember
  | member (members : List (String × Json))
  | colon (members : List (String × Json)) (name : String)
  | afterItem (items : List Json)
  | afterMember (members : List (String × Json))
  | done (result : Json)

/-- A machine: the open containers and what is expected next. -/
structure Machine where
  frames : List Frame
  state : State

/-- Containers may be nested one level less than this deep. -/
def depthLimit : Nat := 128

namespace Machine

/-- A finished value goes into the innermost open container. -/
def deliver (frames : List Frame) (value : Json) : Machine :=
  match frames with
  | [] => ⟨[], .done value⟩
  | .array items :: outer => ⟨outer, .afterItem (value :: items)⟩
  | .object members name :: outer => ⟨outer, .afterMember ((name, value) :: members)⟩

/-- The levels open inside the machine, the one it is working on included. -/
def enter (m : Machine) (state : State) : Option Machine :=
  if m.frames.length + 1 < depthLimit then some ⟨m.frames, state⟩ else none

/-- A value starts or stands here. -/
def startValue (frames : List Frame) : Token → Option Machine
  | .null => some (deliver frames .null)
  | .bool b => some (deliver frames (.bool b))
  | .number n => some (deliver frames (.number n))
  | .string s => some (deliver frames (.string s))
  | .arrayStart => enter ⟨frames, .value⟩ .firstItem
  | .objectStart => enter ⟨frames, .value⟩ .firstMember
  | _ => none

/-- One token further. -/
def step (m : Machine) (token : Token) : Option Machine :=
  match m.state, token with
  | .value, token => startValue m.frames token
  | .firstItem, .arrayEnd => some (deliver m.frames (.array []))
  | .firstItem, token => startValue (.array [] :: m.frames) token
  | .firstMember, .objectEnd => some (deliver m.frames (.object []))
  | .firstMember, .string name => some ⟨m.frames, .colon [] name⟩
  | .member members, .string name => some ⟨m.frames, .colon members name⟩
  | .colon members name, .colon => some ⟨.object members name :: m.frames, .value⟩
  | .afterItem items, .comma => some ⟨.array items :: m.frames, .value⟩
  | .afterItem items, .arrayEnd => some (deliver m.frames (.array items.reverse))
  | .afterMember members, .comma => some ⟨m.frames, .member members⟩
  | .afterMember members, .objectEnd => some (deliver m.frames (.object members.reverse))
  | _, _ => none

end Machine

/-- Reads a text as one value. -/
def read? (text : String) : Option Json := do
  let tokens ← tokens? 0 text.toList
  let final ← tokens.foldlM Machine.step ⟨[], .value⟩
  match final.state with
  | .done result => some result
  | _ => none

end ManagementSchema.Json
