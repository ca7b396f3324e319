import DiffSlice.Json.Value
import DiffSlice.Slice.File
import DiffSlice.Suite.Report

/-!
# Results in JSON

How slices, change sets and changed test cases are written. What is absent or empty in an outcome is left out.
-/

namespace DiffSlice

def Json.naturals (numbers : List Nat) : Json :=
  .array (numbers.map .natural)

/-- A change set in JSON: the functions, and the classes with the functions in them. -/
def ChangeSet.toJson (s : ChangeSet) : Json :=
  .object [("globalFunctions", .strings s.functions.toList),
    ("classMethods", .object (s.classes.toList.map fun name => (name, .strings (s.membersOf name))))]

def ParseFailure.toJson : ParseFailure → Json
  | unsupportedLanguage path => .object [("reason", .string "unsupportedLanguage"), ("path", .string path)]
  | syntaxError line => .object [("reason", .string "syntax"), ("line", .natural line)]

def Patch.PatchError.toJson : PatchError → Json
  | contextMismatch line expected found =>
    .object [("reason", .string "contextMismatch"), ("line", .natural line), ("expected", .string expected),
      ("found", .string found)]
  | outOfRange line length =>
    .object [("reason", .string "outOfRange"), ("line", .natural line), ("len", .natural length)]
  | overlap line => .object [("reason", .string "overlap"), ("line", .natural line)]

def Degradation.toJson : Degradation → Json
  | unparseable failure => .object [("unparseable", failure.toJson)]
  | missingNewText error => .object [("missingPostImage", error.toJson)]

def Patch.MalformedHeader.toJson (m : MalformedHeader) : Json :=
  .object [("diffLine", .natural m.diffLine), ("header", .string m.text)]

def SliceOutcome.fields (o : SliceOutcome) : List (String × Json) :=
  [("text", .string o.text), ("changeSet", o.changes.toJson), ("editedLines", .naturals o.editedLines.toList)] ++
    (match o.degraded with
      | some d => [("degraded", d.toJson)]
      | none => []) ++
    if o.malformed.isEmpty then [] else [("malformed", .array (o.malformed.map (·.toJson)))]

def SliceOutcome.toJson (o : SliceOutcome) : Json :=
  .object o.fields

def FileSlice.fields (s : FileSlice) : List (String × Json) :=
  ("path", .string s.path) :: s.outcome.fields

def FileSlice.toJson (s : FileSlice) : Json :=
  .object s.fields

def Slice.toJson (s : Slice) : Json :=
  .object [("lines", .array (s.lines.map fun line =>
    .object [("number", .natural line.number), ("text", .string line.text)]))]

def CaseChange.name : CaseChange → String
  | new => "new"
  | modified => "modified"

def ChangedCase.toJson (c : ChangedCase) : Json :=
  .object [("qualifiedName", .string c.qualifiedName), ("change", .string c.change.name)]

end DiffSlice
