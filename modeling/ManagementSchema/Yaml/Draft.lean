-- The nodes of a YAML document as they are written, read from its tokens. An
-- alias is only the number of the anchor that it names.

import ManagementSchema.Dictionary
import ManagementSchema.Yaml.Token

namespace ManagementSchema.Yaml

/-- What is written in front of a node: the number of its anchor, and its tag. -/
structure Properties where
  anchor : Option Nat := none
  tag : Option Tag := none

/-- A part of a document as it is written. -/
inductive Draft where
  | alias (number : Nat)
  | scalar (properties : Properties) (text : String) (isPlain : Bool)
  | sequence (properties : Properties) (items : List Draft)
  | mapping (properties : Properties) (entries : List (Draft × Draft))

namespace Draft

/-- What stands where nothing is written. -/
def absent : Draft := .scalar {} "" true

/-- The number of the anchor of a part. -/
def anchor? : Draft → Option Nat
  | .alias _ => none
  | .scalar properties .. | .sequence properties _ | .mapping properties _ => properties.anchor

/-- How much a part adds to the length of a document: a collection has a beginning and an end. -/
def weight : Draft → Nat
  | .alias _ | .scalar .. => 1
  | .sequence .. | .mapping .. => 2

mutual

/-- A part and all parts in it, in the order in which they begin. -/
def parts : Draft → List Draft
  | .sequence properties items => .sequence properties items :: partsOfItems items
  | .mapping properties entries => .mapping properties entries :: partsOfEntries entries
  | .alias number => [.alias number]
  | .scalar properties text isPlain => [.scalar properties text isPlain]
termination_by structural draft => draft

/-- The parts of each item. -/
def partsOfItems : List Draft → List Draft
  | [] => []
  | item :: rest => item.parts ++ partsOfItems rest
termination_by structural items => items

/-- The parts of each key and each value. -/
def partsOfEntries : List (Draft × Draft) → List Draft
  | [] => []
  | (key, value) :: rest => key.parts ++ value.parts ++ partsOfEntries rest
termination_by structural entries => entries

end

end Draft

/-! ## Reading tokens -/

/-- A place in a row of tokens, and the number that each name of an anchor has got last. -/
structure Cursor where
  tokens : List Token
  anchors : Dictionary Nat := .empty

/-- Takes tokens from a cursor; there may be no way to do it. -/
abbrev Reader := StateT Cursor Option

namespace Reader

/-- The next token. -/
def peek : Reader (Option Token) := do return (← get).tokens.head?

/-- Takes the next token. -/
def skip : Reader Unit := modify fun cursor => { cursor with tokens := cursor.tokens.drop 1 }

/-- Gives a number to an anchor: how many names there were before it. A name that comes again does
not raise this count, so that the anchor after it gets the same number. -/
def enroll (name : String) : Reader Nat := do
  let number := (← get).anchors.size
  modify fun cursor => { cursor with anchors := cursor.anchors.insert name number }
  return number

/-- An anchor, if one comes next. -/
def anchor? : Reader (Option Nat) := do
  match ← peek with
  | some (.anchor name) => skip; return some (← enroll name)
  | _ => return none

/-- A tag, if one comes next. -/
def tag? : Reader (Option Tag) := do
  match ← peek with
  | some (.tag tag) => skip; return some tag
  | _ => return none

/-- An anchor and a tag, in either order. -/
def properties : Reader Properties := do
  match ← anchor? with
  | some anchor => return ⟨some anchor, ← tag?⟩
  | none =>
    let tag ← tag?
    return ⟨← anchor?, tag⟩

/-- Takes a comma, except in front of the first part of a collection. -/
def comma (isFirst : Bool) : Reader Unit := do
  if !isFirst then
    match ← peek with
    | some .comma => skip
    | _ => failure

end Reader

/-! ## Nodes -/

namespace Draft

open Reader

mutual

/-- A node. Block collections stand only in a block; `indentless` says that the dashes of a
sequence may stand here without an indentation of their own. -/
def read (inBlock indentless : Bool) : (fuel : Nat) → Reader Draft
  | 0 => failure
  | fuel + 1 => do
    match ← peek with
    | some (.alias name) =>
      skip
      match (← get).anchors.get? name with
      | some number => return .alias number
      | none => failure
    | _ => readContent inBlock indentless (← properties) fuel
termination_by structural fuel => fuel

/-- What stands behind the properties of a node. -/
def readContent (inBlock indentless : Bool) (properties : Properties) :
    (fuel : Nat) → Reader Draft
  | 0 => failure
  | fuel + 1 => do
    match ← peek, inBlock, indentless with
    | some .entry, _, true => return .sequence properties (← readDashes fuel)
    | some (.scalar text isPlain), _, _ =>
      skip
      return .scalar properties text isPlain
    | some .flowSequence, _, _ =>
      skip
      return .sequence properties (← readFlowItems true fuel)
    | some .flowMapping, _, _ =>
      skip
      return .mapping properties (← readFlowEntries true fuel)
    | some .blockSequence, true, _ =>
      skip
      return .sequence properties (← readItems fuel)
    | some .blockMapping, true, _ =>
      skip
      return .mapping properties (← readEntries fuel)
    | _, _, _ =>
      if properties.anchor.isSome || properties.tag.isSome then
        return .scalar properties "" true
      else failure
termination_by structural fuel => fuel

/-- A node, or nothing in front of certain tokens and at the end. -/
def readBefore (stops : List Token) (inBlock indentless : Bool) : (fuel : Nat) → Reader Draft
  | 0 => failure
  | fuel + 1 => do
    match ← peek with
    | some token => if token ∈ stops then return absent else read inBlock indentless fuel
    | none => return absent
termination_by structural fuel => fuel

/-- The items of a block sequence. -/
def readItems : (fuel : Nat) → Reader (List Draft)
  | 0 => failure
  | fuel + 1 => do
    match ← peek with
    | some .entry =>
      skip
      let item ← readBefore [.entry, .blockEnd] true false fuel
      return item :: (← readItems fuel)
    | some .blockEnd =>
      skip
      return []
    | _ => failure
termination_by structural fuel => fuel

/-- The items of a sequence without an indentation of its own. -/
def readDashes : (fuel : Nat) → Reader (List Draft)
  | 0 => failure
  | fuel + 1 => do
    match ← peek with
    | some .entry =>
      skip
      let item ← readBefore [.entry, .key, .value, .blockEnd] true false fuel
      return item :: (← readDashes fuel)
    | _ => return []
termination_by structural fuel => fuel

/-- The value behind a key, if a value is marked. -/
def readValue (stops : List Token) (inBlock : Bool) : (fuel : Nat) → Reader Draft
  | 0 => failure
  | fuel + 1 => do
    match ← peek with
    | some .value =>
      skip
      readBefore stops inBlock inBlock fuel
    | _ => return absent
termination_by structural fuel => fuel

/-- The entries of a block mapping. -/
def readEntries : (fuel : Nat) → Reader (List (Draft × Draft))
  | 0 => failure
  | fuel + 1 => do
    match ← peek with
    | some .key =>
      skip
      let key ← readBefore [.key, .value, .blockEnd] true true fuel
      let value ← readValue [.key, .value, .blockEnd] true fuel
      return (key, value) :: (← readEntries fuel)
    | some .blockEnd =>
      skip
      return []
    | _ => failure
termination_by structural fuel => fuel

/-- The marked key of an entry in a flow sequence. If nothing is written there, the token behind the
mark is taken instead. -/
def readFlowKey : (fuel : Nat) → Reader Draft
  | 0 => failure
  | fuel + 1 => do
    match ← peek with
    | some .value | some .comma | some .flowSequenceEnd =>
      skip
      return absent
    | _ => read false false fuel
termination_by structural fuel => fuel

/-- The items of a flow sequence; a marked key is a mapping of one entry. -/
def readFlowItems (isFirst : Bool) : (fuel : Nat) → Reader (List Draft)
  | 0 => failure
  | fuel + 1 => do
    if (← peek) = some .flowSequenceEnd then
      skip
      return []
    comma isFirst
    match ← peek with
    | some .flowSequenceEnd =>
      skip
      return []
    | some .key =>
      skip
      let key ← readFlowKey fuel
      let value ← readValue [.comma, .flowSequenceEnd] false fuel
      return .mapping {} [(key, value)] :: (← readFlowItems false fuel)
    | _ =>
      let item ← read false false fuel
      return item :: (← readFlowItems false fuel)
termination_by structural fuel => fuel

/-- The entries of a flow mapping; a node that is not marked as a key has no value. -/
def readFlowEntries (isFirst : Bool) : (fuel : Nat) → Reader (List (Draft × Draft))
  | 0 => failure
  | fuel + 1 => do
    if (← peek) = some .flowMappingEnd then
      skip
      return []
    comma isFirst
    match ← peek with
    | some .flowMappingEnd =>
      skip
      return []
    | some .key =>
      skip
      let key ← readBefore [.value, .comma, .flowMappingEnd] false false fuel
      let value ← readValue [.comma, .flowMappingEnd] false fuel
      return (key, value) :: (← readFlowEntries false fuel)
    | _ =>
      let key ← read false false fuel
      return (key, absent) :: (← readFlowEntries false fuel)
termination_by structural fuel => fuel

end

/-! ## Documents -/

/-- The node of a document, whose start may be marked. Nothing but ends of documents may follow;
each token is taken within three calls, which bounds their depth. -/
def readDocument : Reader Draft := do
  let tokens := (← get).tokens
  let body := tokens.dropWhile (· = .directive)
  let fuel := 3 * tokens.length + 3
  let node ← match body with
    | .documentStart :: _ => do
      set { (← get) with tokens := body.drop 1 }
      readBefore [.directive, .documentStart, .documentEnd] true false fuel
    | _ => if body.length < tokens.length then failure else readBefore [] true false fuel
  if (← get).tokens.all (· = .documentEnd) then return node else failure

end Draft

end ManagementSchema.Yaml
