import DiffSlice.Patch.FileSection
import DiffSlice.Patch.Hunk
import DiffSlice.Slice.Render
import DiffSlice.Tree.Language

/-!
# Slices of changed files

`sliceFile` takes a file, its diff and maybe the file after the change, finds what the diff touched in both, and
slices one of them. Where the text to slice is missing or cannot be parsed, it gives the whole text and says why
(`Degradation`). `slicePatch` does so for every file of a diff whose old text is known. There is no outcome if a line
number of a diff passes the limit.
-/

namespace DiffSlice

open DiffSlice.Patch

/-- Which text of a changed file is sliced. -/
inductive Revision where
  /-- The text before the change, with removed lines as edited ones. -/
  | old
  /-- The text after the change, with added lines as edited ones. -/
  | new
deriving DecidableEq, Repr

/-- How a changed file is sliced. -/
structure SliceOptions where
  revision : Revision := .old
  style : LineStyle := .lineNumbers
deriving DecidableEq, Repr

/-- Why a file was not sliced. -/
inductive Degradation where
  | unparseable (failure : ParseFailure)
  | missingNewText (error : PatchError)
deriving DecidableEq, Repr

/-- What came of slicing a file. -/
structure SliceOutcome where
  text : String
  changes : ChangeSet
  editedLines : LineSet
  degraded : Option Degradation
  malformed : List MalformedHeader

/-- Slices a file by its diff, of which the edits are known. Without a text after the change, the diff is applied to the
one before. -/
def sliceEdits (edits : Edits) (before : String) (after : Option String) (diff path : String)
    (options : SliceOptions) : SliceOutcome :=
  let (newText, patchError) : Option String × Option PatchError :=
    match after with
    | some text => (some text, none)
    | none =>
      match applyDiff before diff with
      | .ok text => (some text, none)
      | .error error => (none, some error)
  let oldTree := SyntaxTree.parsePath before path
  let newTree := newText.map fun text => SyntaxTree.parsePath text path
  let changes := locateEdits oldTree.toOption (newTree.bind (·.toOption)) edits
  let (text, tree, edited) :=
    match options.revision with
    | .old => (before, some oldTree, edits.removedLines)
    | .new => (newText.getD before, newTree, edits.addedLines)
  let degraded :=
    match tree with
    | none => patchError.map .missingNewText
    | some (.error failure) => some (.unparseable failure)
    | some (.ok _) => none
  let sliced :=
    match tree, degraded with
    | some (.ok tree), none => (slice tree changes).render options.style edited
    | _, _ => text
  { text := sliced, changes, editedLines := edited, degraded, malformed := edits.malformed }

/-- Slices a file by its diff, unless a line number of the diff passes the limit. -/
def sliceFile (before : String) (after : Option String) (diff path : String) (options : SliceOptions) :
    Option SliceOutcome :=
  (Edits.ofDiff? diff).map fun edits => sliceEdits edits before after diff path options

/-- A file of a patch with its slice. -/
structure FileSlice where
  path : String
  outcome : SliceOutcome

/-- The text before the change of a file in a diff: the one that is known under its path, or nothing if the file is
new. -/
def FileSection.textBefore? (known : String → Option String) (file : FileSection) (path : String) : Option String :=
  match known path, file.oldPath with
  | some text, _ => some text
  | none, none => some ""
  | none, some _ => none

/-- The diffs of the files whose texts before the change are known, each with its path and that text. -/
def knownSections (known : String → Option String) (diff : String) : List (String × String × String) :=
  (FileSection.split diff).filterMap fun file => do
    let path ← file.path
    let before ← FileSection.textBefore? known file path
    return (path, before, file.text)

/-- Slices the files of a diff whose texts before the change are known, unless a line number passes the limit. -/
def slicePatch (known : String → Option String) (diff : String) (options : SliceOptions) : Option (List FileSlice) :=
  (knownSections known diff).mapM fun (path, before, text) =>
    (sliceFile before none text path options).map fun outcome => ⟨path, outcome⟩

end DiffSlice
