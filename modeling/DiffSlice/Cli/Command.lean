import DiffSlice.Cli.Arguments
import DiffSlice.FileLayout
import DiffSlice.Slice.BlankRuns

/-!
# Commands

Six commands take files and options; the format of the output may be given before or after the command's name.
`Invocation.ofArguments` reads a command line.
-/

namespace DiffSlice.Cli

/-- How results are printed. -/
inductive OutputFormat where
  | text
  | json
deriving DecidableEq, Repr

/-- What is to be done. -/
inductive Command where
  /-- Show what a diff touched in a file. -/
  | slice (before diff : String) (after : Option String) (post : Bool) (annotate : Option LineStyle)
      (config : Option String)
  /-- Show what a diff touched in each of its files. -/
  | patch (diff : String) (root : Option String) (only : Option FileRole) (annotate : Option LineStyle)
      (layout : Option String)
  /-- List the test cases that changed between two files. -/
  | changedTests (before after : String) (config : Option String)
  /-- Put a fragment into a file. -/
  | inject (file fragment : String) (suite : Option String) (write asDiff : Bool)
  /-- Show the beginning of a file. -/
  | outline (file : String) (limit : Nat)
  /-- Show the scope of a line. -/
  | scope (file : String) (line : Nat)
deriving DecidableEq, Repr

/-- A command and the format of its output. -/
structure Invocation where
  format : OutputFormat
  command : Command
deriving DecidableEq, Repr

/-! ## Forms -/

def formatOption : Argument :=
  ⟨"format", .choice ["text", "json"]⟩

def annotateOption : Argument :=
  ⟨"annotate", .choice ["numbers", "markers", "plain"]⟩

/-- The form of the command line before a command. -/
def rootForm : Form where
  options := [formatOption]
  subcommands := ["slice", "patch", "changed-tests", "inject", "outline", "scope", "help"]
  hasVersion := true

def sliceForm : Form where
  positionals := [⟨"before", .path⟩, ⟨"diff", .path⟩]
  options := [formatOption, ⟨"after", .path⟩, annotateOption, ⟨"config", .path⟩]
  flags := ["post"]

def patchForm : Form where
  positionals := [⟨"diff", .path⟩]
  options :=
    [formatOption, ⟨"root", .path⟩, ⟨"only", .choice ["test", "source", "other"]⟩, annotateOption, ⟨"layout", .path⟩]

def changedTestsForm : Form where
  positionals := [⟨"before", .path⟩, ⟨"after", .path⟩]
  options := [formatOption, ⟨"config", .path⟩]

def injectForm : Form where
  positionals := [⟨"file", .path⟩, ⟨"fragment", .path⟩]
  options := [formatOption, ⟨"suite", .text⟩]
  flags := ["write", "as-diff"]

def outlineForm : Form where
  positionals := [⟨"file", .path⟩]
  options := [formatOption, ⟨"limit", .number⟩]

def scopeForm : Form where
  positionals := [⟨"file", .path⟩, ⟨"line", .number⟩]
  options := [formatOption]

/-! ## Values -/

namespace Progress

/-- The text given under a name that is always given. -/
def text (p : Progress) (name : String) : String :=
  (p.value? name).getD ""

/-- The number given under a name, or the default. -/
def number (p : Progress) (name : String) (default : Nat) : Nat :=
  ((p.value? name).bind wholeNumber?).getD default

def format? (p : Progress) : Option OutputFormat :=
  (p.value? "format").map fun value => if value == "json" then .json else .text

def lineStyle? (p : Progress) : Option LineStyle :=
  (p.value? "annotate").map fun value =>
    if value == "numbers" then .lineNumbers else if value == "markers" then .editMarkers else .plain

def role? (p : Progress) : Option FileRole :=
  (p.value? "only").map fun value =>
    if value == "test" then .test else if value == "source" then .source else .other

end Progress

/-- Reads a command by its name and its arguments, with the format if one is given among them. -/
def readCommand (name : String) (arguments : List String) : Except UsageError (Command × Option OutputFormat) := do
  match name with
  | "slice" =>
    let p ← sliceForm.read [] arguments
    return (.slice (p.text "before") (p.text "diff") (p.value? "after") (p.has "post") p.lineStyle?
      (p.value? "config"), p.format?)
  | "patch" =>
    let p ← patchForm.read [] arguments
    return (.patch (p.text "diff") (p.value? "root") p.role? p.lineStyle? (p.value? "layout"), p.format?)
  | "changed-tests" =>
    let p ← changedTestsForm.read [] arguments
    return (.changedTests (p.text "before") (p.text "after") (p.value? "config"), p.format?)
  | "inject" =>
    let p ← injectForm.read [("write", "as-diff")] arguments
    return (.inject (p.text "file") (p.text "fragment") (p.value? "suite") (p.has "write") (p.has "as-diff"), p.format?)
  | "outline" =>
    let p ← outlineForm.read [] arguments
    return (.outline (p.text "file") (p.number "limit" 1), p.format?)
  | "scope" =>
    let p ← scopeForm.read [] arguments
    return (.scope (p.text "file") (p.number "line" 0), p.format?)
  | _ => throw .invalidSubcommand

/-- What comes of asking for help on the given commands. -/
def helpOn : List String → UsageError
  | [] => .displayHelp
  | [name] => if rootForm.subcommands.contains name then .displayHelp else .invalidSubcommand
  | "help" :: names => helpOn names
  | _ => .invalidSubcommand

/-- The command line that the arguments make. -/
def Invocation.ofArguments (arguments : List String) : Except UsageError Invocation := do
  match ← rootForm.readArguments { expected := [] } arguments with
  | (_, some ("help", names)) => throw (helpOn names)
  | (p, some (name, rest)) =>
    let (command, format?) ← readCommand name rest
    let p ← p.settle
    return ⟨(format?.or p.format?).getD .text, command⟩
  | (p, none) =>
    let p ← p.settle
    if p.accepted.isEmpty then throw .nothingGiven else throw .missingSubcommand

end DiffSlice.Cli
