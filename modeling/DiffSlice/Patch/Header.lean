import DiffSlice.Text.Digit
import DiffSlice.Text.Lines

/-!
# Hunk headers and body lines

A hunk header names a range of lines on each side of a change: `@@ -3,2 +3,4 @@`, where a count that is left out is
one. `BodyLine.ofLine` tells what a line below a header says.
-/

namespace DiffSlice.Patch

open DiffSlice.Text

/-! ## Headers -/

/-- The two ranges of a hunk, by the number of their first line and the number of their lines. -/
structure Header where
  oldStart : Nat
  oldCount : Nat
  newStart : Nat
  newCount : Nat
deriving DecidableEq, Repr

/-- Some digits and what follows them. -/
def digits? (s : List Char) : Option (List Char × List Char) :=
  if (s.takeWhile isDigit).isEmpty then none else some (s.takeWhile isDigit, s.dropWhile isDigit)

/-- A comma with digits, if there is one, and what follows. -/
def countPart (s : List Char) : Option (List Char) × List Char :=
  match s with
  | ',' :: rest =>
    match digits? rest with
    | some (count, rest) => (some count, rest)
    | none => (none, s)
  | _ => (none, s)

/-- The count that is written, or one. -/
def countOr1 (written : Option (List Char)) : Nat :=
  (written.bind number?).getD 1

/-- Reads a header at the start of a line; a start that is no number makes it none. -/
def Header.parse? (line : String) : Option Header := do
  let s ← "@@ -".toList.isPrefixOf? line.toList
  let (oldStart, s) ← digits? s
  let (oldCount, s) := countPart s
  let s ← " +".toList.isPrefixOf? s
  let (newStart, s) ← digits? s
  let (newCount, s) := countPart s
  let _ ← " @@".toList.isPrefixOf? s
  let oldStart ← number? oldStart
  let newStart ← number? newStart
  return { oldStart, oldCount := countOr1 oldCount, newStart, newCount := countOr1 newCount }

/-- The line is meant as a header. -/
def isHeaderLine (line : String) : Bool :=
  startsWith "@@" line

/-- The number of old lines before the hunk: an empty range is named by the line before it. -/
def Header.oldPosition (h : Header) : Nat :=
  if h.oldCount = 0 then h.oldStart else h.oldStart - 1

/-! ## Lines below a header -/

/-- What a line of a hunk's body says. -/
inductive BodyLine where
  /-- The line stands on both sides. -/
  | context (text : String)
  /-- The line stands on the old side only. -/
  | removed (text : String)
  /-- The line stands on the new side only. -/
  | added (text : String)
  /-- The line before it has no newline at its end. -/
  | noNewline
deriving DecidableEq, Repr

/-- Reads a body line by its first character; `+++` and `---` name files, and an empty line is an empty context
line. Other lines say nothing. -/
def BodyLine.ofLine? (line : String) : Option BodyLine :=
  match line.toList with
  | '+' :: rest => if startsWith "+++" line then none else some (.added (String.ofList rest))
  | '-' :: rest => if startsWith "---" line then none else some (.removed (String.ofList rest))
  | '\\' :: _ => some .noNewline
  | ' ' :: rest => some (.context (String.ofList rest))
  | [] => some (.context "")
  | _ => none

end DiffSlice.Patch
