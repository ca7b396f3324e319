import DiffSlice.Patch.FileSection
import DiffSlice.Text.Quoted

/-!
# Hunks and their application

`Hunk.ofDiff` reads the hunks of a diff with their bodies; `applyDiff` replaces the ranges they name in a text.
Application is strict: each hunk stands exactly where its header says, after the hunk before it, and every context and
removed line is the line found there, carriage returns at its end aside.
-/

namespace DiffSlice.Patch

open DiffSlice.Text

/-- A header with the lines below it. -/
structure Hunk where
  header : Header
  body : List BodyLine
deriving DecidableEq, Repr

/-! ## Reading -/

/-- The body lines up to the end of a hunk, and the hunks after it. `open?` tells whether a hunk is open. -/
def hunksFrom (open? : Bool) : List String → List BodyLine × List Hunk
  | [] => ([], [])
  | line :: rest =>
    if isHeaderLine line then
      match Header.parse? line with
      | some header =>
        let (body, hunks) := hunksFrom true rest
        ([], ⟨header, body⟩ :: hunks)
      | none => ([], (hunksFrom false rest).2)
    else if opensSection line then ([], (hunksFrom false rest).2)
    else
      let (body, hunks) := hunksFrom open? rest
      match open?, BodyLine.ofLine? line with
      | true, some bodyLine => (bodyLine :: body, hunks)
      | _, _ => (body, hunks)

/-- The hunks of a diff; lines below a header that cannot be read are dropped. -/
def Hunk.ofDiff (diff : String) : List Hunk :=
  (hunksFrom false (lines diff)).2

/-! ## Applying -/

/-- Why a diff does not apply. -/
inductive PatchError where
  /-- A context or removed line is not the line found in the text. -/
  | contextMismatch (line : Nat) (expected found : String)
  /-- The hunk needs a line that the text does not have. -/
  | outOfRange (line length : Nat)
  /-- The hunk starts before the end of the hunk before it. -/
  | overlap (line : Nat)
deriving DecidableEq, Repr

def PatchError.message : PatchError → String
  | contextMismatch line expected found =>
    s!"hunk expects {quoted expected} at line {line}, found {quoted found}"
  | outOfRange line length => s!"hunk touches line {line} but the file has {length} lines"
  | overlap line => s!"hunk starting at line {line} overlaps the previous hunk"

/-- The line a diff expects is the line found. -/
def sameLine (expected found : String) : Bool :=
  dropReturns found == dropReturns expected

/-- The new lines that a body makes of the old lines from position `pos`, and the old lines after it. The text has
`length` lines. -/
def applyBody (length pos : Nat) : List BodyLine → List String → Except PatchError (List String × List String)
  | [], rest => .ok ([], rest)
  | .noNewline :: body, rest => applyBody length pos body rest
  | .added text :: body, rest => do
    let (new, rest) ← applyBody length pos body rest
    return (text :: new, rest)
  | .context _ :: _, [] => .error (.outOfRange (pos + 1) length)
  | .removed _ :: _, [] => .error (.outOfRange (pos + 1) length)
  | .context expected :: body, found :: rest =>
    if sameLine expected found then do
      let (new, rest) ← applyBody length (pos + 1) body rest
      return (found :: new, rest)
    else .error (.contextMismatch (pos + 1) expected found)
  | .removed expected :: body, found :: rest =>
    if sameLine expected found then applyBody length (pos + 1) body rest
    else .error (.contextMismatch (pos + 1) expected found)

/-- The new lines that the hunks make of the old lines from position `pos`, and the old lines after the last hunk. -/
def applyHunks (length pos : Nat) : List Hunk → List String → Except PatchError (List String × List String)
  | [], rest => .ok ([], rest)
  | hunk :: hunks, rest =>
    let start := hunk.header.oldPosition
    if start < pos then .error (.overlap hunk.header.oldStart)
    else if length < start then .error (.outOfRange hunk.header.oldStart length)
    else do
      let (new, later) ← applyBody length start hunk.body (rest.drop (start - pos))
      let (newer, tail) ← applyHunks length (length - later.length) hunks later
      return (rest.take (start - pos) ++ new ++ newer, tail)

/-- A line without newline at its end is noted, and it is a line of the new side. -/
def leavesBareEnd (onNewSide : Bool) : List BodyLine → Bool
  | [] => false
  | .noNewline :: body => onNewSide || leavesBareEnd onNewSide body
  | .removed _ :: body => leavesBareEnd false body
  | _ :: body => leavesBareEnd true body

/-- Applies the hunks of a diff to a text. The result ends in a newline unless a hunk says otherwise, if the text did
or was empty, or if the last hunk reached its end. -/
def applyDiff (before diff : String) : Except PatchError String := do
  let old := lines before
  let hunks := Hunk.ofDiff diff
  let (new, tail) ← applyHunks old.length 0 hunks old
  let reachedEnd := !hunks.isEmpty && tail.isEmpty
  let bareEnd := hunks.any fun hunk => leavesBareEnd false hunk.body
  let result := joinLines (new ++ tail)
  if !bareEnd && !(new ++ tail).isEmpty && (endsLine before || before = "" || reachedEnd) then
    return result ++ "\n"
  else return result

end DiffSlice.Patch
