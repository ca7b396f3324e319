import DiffSlice.FileLayout
import DiffSlice.Json.Value
import DiffSlice.Slice.File
import DiffSlice.Suite.Case

/-!
# Options in JSON

Options are objects whose fields may be missing, in which case they have their default, or arrays of the fields'
values in order, of which the last may be missing. Fields of other names are ignored.
-/

namespace DiffSlice

namespace Json

/-- The values of the named fields. -/
def fieldValues? (names : List String) (value : Json) : Option (List (Option Json)) :=
  match value with
  | object _ => some (names.map fun name => value.field? name)
  | array items =>
    if items.length ≤ names.length then
      some (items.map some ++ List.replicate (names.length - items.length) none)
    else none
  | _ => none

/-- What `read?` makes of a value, or the default if there is none. -/
def readOr {α : Type} (default : α) (read? : Json → Option α) : Option Json → Option α
  | some value => read? value
  | none => some default

/-- A name on its own, or as the only field of an object that holds nothing under it. -/
def choice? : Json → Option String
  | string name => some name
  | object [(name, null)] => some name
  | _ => none

def strings? : Json → Option (List String) :=
  arrayOf? string?

/-- The object has two fields with one of the names. -/
def repeatsField (names : List String) : Json → Bool
  | object fields => names.any fun name => 1 < (fields.filter fun f => f.1 == name).length
  | _ => false

end Json

def LineStyle.ofJson? (value : Json) : Option LineStyle :=
  match value.choice? with
  | some "lineNumbers" => some .lineNumbers
  | some "editMarkers" => some .editMarkers
  | some "plain" => some .plain
  | _ => none

def Revision.ofJson? (value : Json) : Option Revision :=
  match value.choice? with
  | some "pre" => some .old
  | some "post" => some .new
  | _ => none

def SourceLanguage.ofJson? (value : Json) : Option SourceLanguage :=
  match value.choice? with
  | some "javascript" => some .javaScript
  | some "typescript" => some .typeScript
  | some "tsx" => some .tsx
  | _ => none

/-- The change set that a value holds. No field may be missing. -/
def ChangeSet.ofJson? (value : Json) : Option ChangeSet := do
  match ← value.fieldValues? ["globalFunctions", "classMethods"] with
  | [some functions, some (.object classes)] =>
    let names ← functions.strings?
    let withFunctions := names.foldl ChangeSet.addFunction .empty
    classes.foldlM (fun s (className, members) => do
      return (← members.strings?).foldl (·.addMethod className ·) (s.addClass className)) withFunctions
  | _ => none

namespace SliceOptions

def fieldNames : List String :=
  ["revision", "annotation"]

def ofJson? (value : Json) : Option SliceOptions := do
  match ← value.fieldValues? fieldNames with
  | [revision, style] =>
    return { revision := ← Json.readOr .old Revision.ofJson? revision
             style := ← Json.readOr .lineNumbers LineStyle.ofJson? style }
  | _ => none

end SliceOptions

namespace TestSyntax

def fieldNames : List String :=
  ["suiteCallees", "caseCallees"]

def ofJson? (value : Json) : Option TestSyntax := do
  match ← value.fieldValues? fieldNames with
  | [suites, cases] =>
    return { suiteCallees := ← Json.readOr ["describe"] Json.strings? suites
             caseCallees := ← Json.readOr ["it"] Json.strings? cases }
  | _ => none

end TestSyntax

namespace FileLayout

def fieldNames : List String :=
  ["testDirPrefix", "testNameMarker", "sourceDirPrefix", "extensions"]

def ofJson? (value : Json) : Option FileLayout := do
  match ← value.fieldValues? fieldNames with
  | [testDir, marker, sourceDir, extensions] =>
    return { testDirStart := ← Json.readOr "test" Json.string? testDir
             testNameMarker := ← Json.readOr "spec" Json.string? marker
             sourceDirStart := ← Json.readOr "src" Json.string? sourceDir
             extensions := ← Json.readOr ["js"] Json.strings? extensions }
  | _ => none

end FileLayout

end DiffSlice
