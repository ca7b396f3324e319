import DiffSlice.Patch.Header

/-!
# The files of a diff

A diff of several files is cut before each line that starts with `diff --git ` (`FileSection.split`). A section names
its file on both sides; a side is missing where the file was created or deleted. `editedFiles` lists the files that a
diff writes to.
-/

namespace DiffSlice.Patch

open DiffSlice.Text

/-- The part of a diff about one file. -/
structure FileSection where
  /-- The file's name before, unless it was created. -/
  oldPath : Option String
  /-- The file's name after, unless it was deleted. -/
  newPath : Option String
  text : String
deriving DecidableEq, Repr

/-- The name the file goes by. -/
def FileSection.path (f : FileSection) : Option String :=
  f.newPath <|> f.oldPath

/-! ## Cutting a diff -/

/-- The line opens the section of a file. -/
def opensSection (line : String) : Bool :=
  startsWith "diff --git " line

/-- Consecutive lines, cut before each line that opens a section. -/
def sectionLines : List String → List (List String)
  | [] => []
  | line :: rest =>
    match sectionLines rest with
    | [] => [[line]]
    | first :: others =>
      if first.head?.any opensSection then [line] :: first :: others else (line :: first) :: others

/-- The texts, without a last one that is blank. -/
def dropBlankLast : List String → List String
  | [] => []
  | [last] => if isBlankText last then [] else [last]
  | text :: rest => text :: dropBlankLast rest

/-! ## Paths -/

/-- What the lines above the hunks say about a side: nothing, or the path of its last mention. -/
abbrev Mention := Option (Option String)

/-- The path on a `---` or `+++` line: it ends at a tab, and `/dev/null` is no path. -/
def pathOfSide (start written : String) : Option String :=
  let path := trimEnd (String.ofList (written.toList.takeWhile (· ≠ '\t')))
  if path = "/dev/null" then none else some ((after? start path).getD path)

/-- The last mentions of the old and the new path above the first hunk. -/
def mentions (old new : Mention) : List String → Mention × Mention
  | [] => (old, new)
  | line :: rest =>
    if isHeaderLine line then (old, new)
    else
      match after? "--- " line, after? "+++ " line with
      | some written, _ => mentions (some (pathOfSide "a/" written)) new rest
      | none, some written => mentions old (some (pathOfSide "b/" written)) rest
      | none, none => mentions old new rest

/-- The two paths on a `diff --git` line. -/
def gitPaths? (line : String) : Option (String × String) := do
  let rest ← "diff --git a/".toList.isPrefixOf? line.toList
  let (old, new) ← splitOnce? " b/".toList rest
  return (String.ofList old, String.ofList new)

/-- A section with its paths. Only where it has no `---` and no `+++` line, the opening line names them. -/
def FileSection.ofText (text : String) : FileSection :=
  match mentions none none (lines text) with
  | (none, none) =>
    match (lines text).head?.bind gitPaths? with
    | some (old, new) => { oldPath := some old, newPath := some new, text }
    | none => { oldPath := none, newPath := none, text }
  | (old, new) => { oldPath := old.join, newPath := new.join, text }

def FileSection.split (diff : String) : List FileSection :=
  (dropBlankLast ((sectionLines (lines diff)).map unlines)).map FileSection.ofText

/-! ## Files written to -/

/-- The path on a `+++ b/` line, without one carriage return after it. -/
def writtenPath? (piece : String) : Option String :=
  match after? "+++ b/" piece with
  | some "" => none
  | some path => if dropReturn path = "" then some path else some (dropReturn path)
  | none => none

/-- The paths of the files that a diff writes to, one for each `+++ b/` line. -/
def editedFiles (diff : String) : List String :=
  (pieces diff).filterMap writtenPath?

end DiffSlice.Patch
