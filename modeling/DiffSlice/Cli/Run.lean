import DiffSlice.Cli.Command
import DiffSlice.Cli.Task
import DiffSlice.Insertion.Splice
import DiffSlice.Json.Options
import DiffSlice.Json.Printer
import DiffSlice.Json.Reader
import DiffSlice.Json.Results

/-!
# Running commands

Each command is a task that comes to what it prints (`Printed`). Options are read before the files they apply to, and
nothing is printed if anything fails.
-/

namespace DiffSlice.Cli

open DiffSlice.Patch DiffSlice.Text

/-- What a command prints, and what it remarks aside. -/
structure Printed where
  output : String := ""
  remarks : String := ""
deriving DecidableEq, Repr

def Printed.append (a b : Printed) : Printed :=
  ⟨a.output ++ b.output, a.remarks ++ b.remarks⟩

def printedJson (value : Json) : Printed :=
  { output := value.pretty ++ "\n" }

def insertionFailure : InsertionError → Failure
  | .unparseable failure => failure.failure
  | error => ⟨.injection, error.message⟩

/-- The path with slashes only. -/
def displayName (path : String) : String :=
  String.ofList (path.toList.map fun c => if c == '\\' then '/' else c)

/-- The options in a JSON file, or the default without one. -/
def loadOptions {α : Type} (path : Option String) (default : α) (fieldNames : List String) (ofJson? : Json → Option α) :
    Task α := do
  match path with
  | none => return default
  | some path =>
    let text ← Task.readFile path
    match Json.parse? text with
    | some value =>
      match if value.repeatsField fieldNames then none else ofJson? value with
      | some options => return options
      | none => .fail ⟨.configuration, path⟩
    | none => .fail ⟨.configuration, path⟩

/-! ## Slices -/

/-- Why a file was not sliced and which hunks were left out. -/
def remarksOn (o : SliceOutcome) : String :=
  (match o.degraded with
    | some (.unparseable failure) => s!"! not sliced: {failure.message}\n"
    | some (.missingNewText error) => s!"! post-image unavailable: {error.message}\n"
    | none => "") ++
    String.join (o.malformed.map fun m => s!"  → skipped {m.message}\n")

def runSlice (before diff : String) (after : Option String) (post : Bool) (annotate : Option LineStyle)
    (config : Option String) (format : OutputFormat) : Task Printed := do
  let loaded ← loadOptions config {} SliceOptions.fieldNames SliceOptions.ofJson?
  let options : SliceOptions :=
    { revision := if post then .new else loaded.revision, style := annotate.getD loaded.style }
  let beforeText ← Task.readFile before
  let diffText ← Task.readFile diff
  let afterText ← match after with
    | some path => some <$> Task.readFile path
    | none => pure none
  let outcome ← Task.orOverflow (sliceFile beforeText afterText diffText (displayName before) options)
  match format with
  | .json => return printedJson outcome.toJson
  | .text => return { output := outcome.text ++ "\n", remarks := remarksOn outcome }

/-- The path of a file under a directory. -/
def joinPath (root path : String) : String :=
  if startsWith "/" path then path
  else if root.toList.getLast? == some '/' then root ++ path
  else root ++ "/" ++ path

/-- Reads the texts before the change of the files of a diff, as far as they are there. -/
def readOldTexts (root : String) : List FileSection → Task (List (String × String))
  | [] => return []
  | file :: rest => do
    match file.path, file.oldPath with
    | some path, some oldPath =>
      let text? ← Task.readFile? (joinPath root oldPath)
      let more ← readOldTexts root rest
      return (text?.map fun text => (path, text)).toList ++ more
    | _, _ => readOldTexts root rest

/-- A file of a patch as it is printed. -/
def printedSlice (role : FileRole) (s : FileSlice) : Printed where
  output := s!"==> {s.path} ({role.name})\n" ++ s.outcome.text ++ "\n\n"
  remarks := remarksOn s.outcome

def runPatch (diff : String) (root : String) (only : Option FileRole) (annotate : Option LineStyle)
    (layout : Option String) (format : OutputFormat) : Task Printed := do
  let layout ← loadOptions layout {} FileLayout.fieldNames FileLayout.ofJson?
  let diffText ← Task.readFile diff
  let texts ← readOldTexts root (FileSection.split diffText)
  let known := fun path => (texts.reverse.find? fun t => t.1 == path).map (·.2)
  let slices ← Task.orOverflow (slicePatch known diffText { style := annotate.getD .lineNumbers })
  let entries := (slices.map fun s => (layout.role s.path, s)).filter fun (role, _) =>
    only.all fun wanted => role == wanted
  match format with
  | .json =>
    return printedJson (.array (entries.map fun (role, s) => .object (("role", .string role.name) :: s.fields)))
  | .text =>
    if entries.isEmpty then return { output := "No matching files in diff\n" }
    let skipped := (editedFiles diffText).filter fun path => slices.all fun s => s.path != path
    let shown := (entries.map fun (role, s) => printedSlice role s).foldl Printed.append {}
    return shown.append
      { output := String.join (skipped.map fun path => s!"  → {path} (no pre-image under {root})\n") }

/-! ## Test cases -/

def changedCaseLine (c : ChangedCase) : String :=
  (match c.change with
    | .new => "+ "
    | .modified => "~ ") ++ c.qualifiedName ++ "\n"

def runChangedTests (before after : String) (config : Option String) (format : OutputFormat) : Task Printed := do
  let callees ← loadOptions config {} TestSyntax.fieldNames TestSyntax.ofJson?
  let beforeText ← Task.readFile before
  let afterText ← Task.readFile after
  let language := (SourceLanguage.ofPath? (displayName after)).getD .javaScript
  let changes ← Task.orFail ParseFailure.failure (detectChanges beforeText afterText language callees)
  match format with
  | .json => return printedJson (.array (changes.map (·.toJson)))
  | .text =>
    if changes.isEmpty then return { output := "No changed test cases\n" }
    else
      return { output := String.join (changes.map changedCaseLine) ++ s!"\n{changes.length} changed test case(s)\n" }

/-! ## Fragments -/

def runInject (file fragment : String) (suite : Option String) (write asDiff : Bool) (format : OutputFormat) :
    Task Printed := do
  let fileText ← Task.readFile file
  let fragmentText ← Task.readFile fragment
  let path := displayName file
  let language := (SourceLanguage.ofPath? path).getD .javaScript
  let injected ← Task.orFail insertionFailure (DiffSlice.inject fileText fragmentText suite language {})
  if write then Task.writeFile file injected
  let diff := if asDiff then some (unifiedDiff fileText injected path) else none
  match format with
  | .json =>
    let text := if write || asDiff then none else some injected
    return printedJson (.object [("path", .string path), ("written", .bool write),
      ("text", .orNull (text.map .string)), ("diff", .orNull (diff.map .string))])
  | .text =>
    if write then return { output := s!"✓ Injected fragment into {path}\n" }
    else return { output := diff.getD injected }

/-! ## Views of one file -/

def runOutline (file : String) (limit : Nat) (format : OutputFormat) : Task Printed := do
  let text ← Task.readFile file
  let tree ← Task.orFail ParseFailure.failure (SyntaxTree.parsePath text (displayName file))
  let kept := outline tree limit
  match format with
  | .json => return printedJson kept.toJson
  | .text => return { output := kept.render .plain ∅ ++ "\n" }

def runScope (file : String) (line : Nat) (format : OutputFormat) : Task Printed := do
  let text ← Task.readFile file
  let tree ← Task.orFail ParseFailure.failure (SyntaxTree.parsePath text (displayName file))
  let scope := tree.lineScope line
  match format with
  | .json =>
    return printedJson (.object [("line", .natural line), ("scope", .string scope.text),
      ("global", .bool scope.isGlobal)])
  | .text =>
    let shown := trim (((lines text)[line - 1]?).getD "")
    return { output := s!"{line}: {scope.text}\n" ++ if shown == "" then "" else s!"  {shown}\n" }

/-! ## Commands -/

def Invocation.task (i : Invocation) : Task Printed :=
  match i.command with
  | .slice before diff after post annotate config => runSlice before diff after post annotate config i.format
  | .patch diff root only annotate layout => runPatch diff (root.getD ".") only annotate layout i.format
  | .changedTests before after config => runChangedTests before after config i.format
  | .inject file fragment suite write asDiff => runInject file fragment suite write asDiff i.format
  | .outline file limit => runOutline file limit i.format
  | .scope file line => runScope file line i.format

/-- A failure as a command reports it. -/
def OutputFormat.report (format : OutputFormat) (failure : Failure) : String :=
  match format with
  | .text => failure.text
  | .json => failure.toJson.render

end DiffSlice.Cli
