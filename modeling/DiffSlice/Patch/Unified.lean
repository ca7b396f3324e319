import DiffSlice.Patch.Compaction
import DiffSlice.Text.Lines

/-!
# Unified diffs

`unifiedDiff` writes the difference of two texts: the changes with up to three lines around them, cut into hunks where
more than six lines stay, each below a header with its ranges. A range goes from where the first segment of the hunk
starts to where the last one ends, so that it counts the lines of the hunk if the segments tile both texts. A line
without an ending is followed by a note.
-/

namespace DiffSlice.Patch

open DiffSlice.Text

/-- The segments of the change from one text to another. -/
def segmentsBetween (before after : String) : List Segment :=
  (Script.find (terminatedLines before) (terminatedLines after)).compact.segments

def linesDiffer (before after : String) : Bool :=
  (segmentsBetween before after).any Segment.isChange

/-! ## Hunks -/

/-- The number of lines shown around a change. -/
def contextSize : Nat := 3

/-- Segments shown together, with the number of lines before them on either side. -/
structure Block where
  oldBefore : Nat
  newBefore : Nat
  segments : List Segment
deriving DecidableEq, Repr

def Block.old (b : Block) : List String :=
  b.segments.flatMap Segment.old

def Block.new (b : Block) : List String :=
  b.segments.flatMap Segment.new

def Block.oldExtent (b : Block) : Extent :=
  { start := (b.segments.head?.map fun s => (s.oldExtent b.oldBefore).start).getD b.oldBefore
    stop :=
      let stop := b.oldBefore + b.old.length
      (b.segments.getLast?.map fun s => (s.oldExtent (stop - s.old.length)).stop).getD stop }

def Block.newExtent (b : Block) : Extent :=
  { start := (b.segments.head?.map fun s => (s.newExtent b.newBefore).start).getD b.newBefore
    stop :=
      let stop := b.newBefore + b.new.length
      (b.segments.getLast?.map fun s => (s.newExtent (stop - s.new.length)).stop).getD stop }

def Block.push (b : Block) (s : Segment) : Block :=
  { b with segments := b.segments ++ [s] }

def Block.changes (b : Block) : Bool :=
  b.segments.any Segment.isChange

/-- Cuts segments into blocks, after those already in `current`. -/
def blocksFrom (current : Block) : List Segment → List Block
  | [] => if current.changes then [current] else []
  | .same ls :: rest =>
    if 2 * contextSize < ls.length then
      let next : Block :=
        { oldBefore := current.oldBefore + current.old.length + (ls.length - contextSize)
          newBefore := current.newBefore + current.new.length + (ls.length - contextSize)
          segments := [.same (ls.drop (ls.length - contextSize))] }
      current.push (.same (ls.take contextSize)) :: blocksFrom next rest
    else blocksFrom (current.push (.same ls)) rest
  | s :: rest => blocksFrom (current.push s) rest

/-- The segments, where of lines that stay at the end only the first few are left. -/
def trimLast : List Segment → List Segment
  | [] => []
  | [.same ls] => [.same (ls.take contextSize)]
  | s :: rest => s :: trimLast rest

/-- The blocks that show all changes. -/
def blocks (segments : List Segment) : List Block :=
  match trimLast segments with
  | .same ls :: rest =>
    let hidden := ls.length - contextSize
    blocksFrom ⟨hidden, hidden, [.same (ls.drop hidden)]⟩ rest
  | segments => blocksFrom ⟨0, 0, []⟩ segments

/-! ## Text -/

/-- A range in a header; one line goes without a count, and none is named by the line before. -/
def Extent.text (e : Extent) : String :=
  let count := e.stop - e.start
  if count = 1 then s!"{e.start + 1}" else if count = 0 then s!"{e.start},0" else s!"{e.start + 1},{count}"

/-- A line with its mark, and a note if it has no ending. -/
def markedLine (mark : String) (line : String) : String :=
  match line.toList.getLast? with
  | some '\n' => mark ++ line
  | some '\r' => mark ++ line
  | _ => mark ++ line ++ "\n\\ No newline at end of file\n"

/-- The lines of a segment, removed ones before added ones. -/
def Segment.text : Segment → String
  | .same ls => String.join (ls.map (markedLine " "))
  | s => String.join (s.old.map (markedLine "-")) ++ String.join (s.new.map (markedLine "+"))

/-- A block below its header. -/
def Block.text (b : Block) : String :=
  s!"@@ -{b.oldExtent.text} +{b.newExtent.text} @@\n"
    ++ String.join (b.segments.map Segment.text)

/-- The unified diff that turns `before` into `after`, in the file named `path`; empty if nothing changes. -/
def unifiedDiff (before after path : String) : String :=
  if before = after then ""
  else
    s!"diff --git a/{path} b/{path}\n--- a/{path}\n+++ b/{path}\n"
      ++ String.join ((blocks (segmentsBetween before after)).map Block.text)

end DiffSlice.Patch
