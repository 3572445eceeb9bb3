-- The tree of a YAML document. An alias stands for the node that its anchor
-- names, so the tree holds that node once more.

import ManagementSchema.Yaml.Draft

namespace ManagementSchema.Yaml

/-- A part of a document, with its tag. -/
inductive Node where
  | scalar (tag : Option Tag) (text : String) (isPlain : Bool)
  | sequence (tag : Option Tag) (items : List Node)
  | mapping (tag : Option Tag) (entries : List (Node × Node))

namespace Node

/-! ## Limits -/

/-- Collections may be nested this deep. -/
def depthLimit : Nat := 128

/-- How many aliases may be followed for each part of a document. -/
def aliasLimit : Nat := 100

/-! ## Aliases -/

/-- The parts that have a number, each at its place. Of two with one number the later counts. -/
def numbered (parts : List Draft) : Array (Option Draft) :=
  parts.foldl (fun row part => match part.anchor? with
    | some number => row.setIfInBounds number (some part)
    | none => row) (Array.replicate parts.length none)

/-- Follows aliases; the state is how many of them may still be followed. -/
abbrev Expansion := StateT Nat Option

/-- The part that a part stands for: an alias stands for the one with its number. -/
def follow (row : Array (Option Draft)) : Draft → Expansion Draft
  | .alias number => do
    match ← get, row[number]? with
    | left + 1, some (some part) =>
      set left
      return part
    | _, _ => failure
  | part => return part

/-- The node of a part whose collections are nested within a limit. -/
def expand (row : Array (Option Draft)) : (depth : Nat) → Draft → Expansion Node
  | depth, part => do
    match ← follow row part, depth with
    | .scalar properties text isPlain, _ => return .scalar properties.tag text isPlain
    | .sequence properties items, depth + 1 =>
      return .sequence properties.tag (← items.mapM (expand row depth))
    | .mapping properties entries, depth + 1 =>
      return .mapping properties.tag (← entries.mapM fun (key, value) => do
        return (← expand row depth key, ← expand row depth value))
    | _, _ => failure
termination_by structural depth => depth

/-- The node of a document. -/
def ofDraft? (draft : Draft) : Option Node := do
  let parts := draft.parts
  let length := parts.foldl (fun sum part => sum + part.weight) 0
  (expand (numbered parts) depthLimit draft).run' (aliasLimit * length)

/-- The node of a text with one document. An empty text has an empty node. -/
def ofText? (text : String) : Option Node := do
  let tokens ← tokens? text
  let (draft, _) ← Draft.readDocument.run { tokens := tokens.toList }
  ofDraft? draft

end Node

end ManagementSchema.Yaml
