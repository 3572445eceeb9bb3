-- The command line: what is asked for, and what is answered. Files are read
-- through a function, so that an answer is a value like any other.

import ManagementSchema.Manifest.Reader
import ManagementSchema.Manifest.Report

namespace ManagementSchema.CommandLine

/-! ## Arguments -/

/-- The commands by name. -/
inductive CommandName where
  | check
  | coerce
  | types
  deriving DecidableEq, Repr

/-- The command with a name. -/
def CommandName.ofName? (name : String) : Option CommandName :=
  if name = "check" then some check
  else if name = "coerce" then some coerce
  else if name = "types" then some types
  else none

/-- The options that take a value, before a command or behind it. -/
def valueOptions : Option CommandName → List String
  | some .check => ["--log-level", "--format"]
  | some .coerce => ["--log-level", "--type"]
  | some .types | none => ["--log-level"]

/-- The options without a value, which may stand anywhere. -/
def switches : List String := ["--log-json"]

/-- The arguments so far: the command, and what was given since it was named. -/
structure Arguments where
  command : Option CommandName := none
  options : List (String × String) := []
  switches : List String := []
  words : List String := []

namespace Arguments

/-- An argument that is an option; a single dash is a word. -/
def isOption (arg : String) : Bool := arg.toList.head? = some '-' && arg != "-"

/-- One more option, which may not be there already. -/
def addOption (a : Arguments) (name value : String) : Option Arguments :=
  if name ∈ valueOptions a.command ∧ (a.options.lookup name).isNone then
    some { a with options := (name, value) :: a.options }
  else none

/-- One more option without a value, which may not be there already. -/
def addSwitch (a : Arguments) (name : String) : Option Arguments :=
  if name ∈ CommandLine.switches ∧ name ∉ a.switches then
    some { a with switches := name :: a.switches }
  else none

/-- One more word. The first one names the command. -/
def addWord (a : Arguments) (word : String) : Option Arguments :=
  match a.command with
  | none => (CommandName.ofName? word).map fun command => { command := some command }
  | some _ => some { a with words := a.words ++ [word] }

/-- Reads arguments. Behind two dashes there are only words. -/
def read (a : Arguments) : List String → Option Arguments
  | [] => some a
  | arg :: rest =>
    if arg = "--" then
      if a.command.isSome then some { a with words := a.words ++ rest } else none
    else if !isOption arg then do
      let a ← a.addWord arg
      read a rest
    else match Text.cut '=' arg.toList with
      | some (name, value) => do
        let a ← a.addOption (String.ofList name) (String.ofList value)
        read a rest
      | none =>
        if arg ∈ CommandLine.switches then do
          let a ← a.addSwitch arg
          read a rest
        else match rest with
          | value :: rest =>
            if isOption value then none
            else do
              let a ← a.addOption arg value
              read a rest
          | [] => none

end Arguments

/-! ## Commands -/

/-- The forms of a report. -/
inductive ReportFormat where
  | text
  | json
  deriving DecidableEq, Repr

/-- What is asked for. -/
inductive Command where
  | check (path : String) (format : ReportFormat)
  | coerce (kind text : String)
  | types
  deriving DecidableEq, Repr

/-- The form with a name; text if there is no name. -/
def ReportFormat.ofName? : Option String → Option ReportFormat
  | none => some text
  | some name => if name = "text" then some text else if name = "json" then some json else none

/-- The command that arguments make. -/
def Command.ofArguments? (args : List String) : Option Command := do
  let a ← Arguments.read {} args
  match ← a.command, a.words with
  | .check, [path] =>
    if path.isEmpty then none
    else return .check path (← ReportFormat.ofName? (a.options.lookup "--format"))
  | .coerce, [text] => return .coerce (← a.options.lookup "--type") text
  | .types, [] => return .types
  | _, _ => none

/-! ## Answers -/

/-- What a run leaves behind: its exit code, the text it prints, and an error. -/
structure Outcome where
  exit : Nat
  output : String := ""
  error : Option String := none
  deriving DecidableEq, Repr

/-- The outcome of arguments that make no command. -/
def Outcome.refused : Outcome := ⟨2, "", none⟩

/-- A run that ends with an error. -/
def Outcome.failed (error : String) : Outcome := ⟨1, "", some error⟩

/-- A text with blanks behind it, up to a width. -/
def padded (width : Nat) (text : String) : String :=
  text ++ String.ofList (List.replicate (width - text.length) ' ')

/-- A line of the table of kinds. -/
def tableLine (name className ordered primitive : String) : String :=
  padded 12 name ++ " " ++ padded 24 className ++ " " ++ padded 8 ordered ++ " " ++ primitive ++
    "\n"

/-- The table of kinds. -/
def kindTable : String :=
  tableLine "NAME" "CLASS" "ORDERED" "PRIMITIVE" ++
    String.join (Kind.all.map fun kind =>
      tableLine kind.name kind.className (if kind.isOrdered then "yes" else "no")
        (kind.primitiveName?.getD "-"))

/-- The value of a text, for a kind that is given by its name, or what is wrong. -/
def coerceText (kind text : String) : Except String Value :=
  match Kind.ofName? kind with
  | some kind => (Value.read kind text).mapError fun refusal => (DataError.refused refusal).message
  | none => .error ("unknown simple type '" ++ kind ++ "' (see `omt types`)")

/-- The part of a file's name behind its last dot; a name that only starts with a dot has none. -/
def extension? (path : String) : Option String :=
  let reversed := path.toList.reverse.dropWhile (· = '/')
  let name := reversed.takeWhile (· ≠ '/')
  match Text.cut '.' name with
  | some (extension, _ :: _) => some (String.ofList extension.reverse)
  | _ => none

/-- The format of a file. -/
def formatOf (path : String) : FileFormat :=
  ((extension? path).map FileFormat.ofExtension).getD .yaml

/-- Reads the manifest in a file, or says what is wrong. -/
def load (contentOf : String → Option String) (path : String) : Except String Manifest :=
  match contentOf path with
  | none => .error ("reading manifest: " ++ path ++ ": No such file or directory (os error 2)")
  | some text =>
    match Manifest.read? (formatOf path) text with
    | some manifest => .ok manifest
    | none => .error (Manifest.refusal (formatOf path) ++ ": " ++ path)

/-- A report in a form. -/
def reportText (format : ReportFormat) (report : Report) : String :=
  match format with
  | .text => report.text
  | .json => report.toJson.indented 0 ++ "\n"

/-- Runs a command. -/
def Command.run (contentOf : String → Option String) : Command → Outcome
  | check path format =>
    match load contentOf path with
    | .ok manifest =>
      let report := manifest.check .empty
      ⟨if report.isOk then 0 else 1, reportText format report, none⟩
    | .error message => .failed message
  | coerce kind text =>
    match coerceText kind text with
    | .ok value => ⟨0, value.toString ++ "\n", none⟩
    | .error message => .failed message
  | types => ⟨0, kindTable, none⟩

/-- Runs the command that arguments make. -/
def run (contentOf : String → Option String) (args : List String) : Outcome :=
  match Command.ofArguments? args with
  | some command => command.run contentOf
  | none => .refused

end ManagementSchema.CommandLine
