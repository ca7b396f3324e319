/-!
# Edit scripts

An edit script turns one list of lines into another: it runs through lines that stay, lines that go and lines that
come (`Run`). Read for what stays and goes it gives the old list (`Script.old`), read for what stays and comes the
new one (`Script.new`). Lines that go have no place of their own in the new list, nor have lines that come in the old
one; there they carry an anchor, the number of lines before the place beside which they were found.
`Script.segments` gathers the changes between two stretches of lines that stay, and segments tile two lists if every
anchor tells the true place (`SegmentsTile`).
-/

namespace DiffSlice.Patch

/-- Consecutive lines with one fate; a deletion is anchored in the new list and an insertion in the old one. -/
inductive Run where
  | equal (lines : List String)
  | delete (anchor : Nat) (lines : List String)
  | insert (anchor : Nat) (lines : List String)
deriving DecidableEq, Repr

def Run.old : Run → List String
  | .equal ls => ls
  | .delete _ ls => ls
  | .insert _ _ => []

def Run.new : Run → List String
  | .equal ls => ls
  | .delete _ _ => []
  | .insert _ ls => ls

abbrev Script := List Run

def Script.old (s : Script) : List String :=
  s.flatMap Run.old

def Script.new (s : Script) : List String :=
  s.flatMap Run.new

@[simp] theorem Script.old_append (s t : Script) : Script.old (s ++ t) = Script.old s ++ Script.old t := by
  simp [Script.old]

@[simp] theorem Script.new_append (s t : Script) : Script.new (s ++ t) = Script.new s ++ Script.new t := by
  simp [Script.new]

/-! ## Segments -/

/-- Lines that stay, lines that only go, lines that only come, or lines that others take the place of. -/
inductive Segment where
  | same (lines : List String)
  | remove (anchor : Nat) (lines : List String)
  | add (anchor : Nat) (lines : List String)
  | replace (removed added : List String)
deriving DecidableEq, Repr

def Segment.old : Segment → List String
  | .same ls => ls
  | .remove _ ls => ls
  | .add _ _ => []
  | .replace removed _ => removed

def Segment.new : Segment → List String
  | .same ls => ls
  | .remove _ _ => []
  | .add _ ls => ls
  | .replace _ added => added

/-- The segment is no stretch of lines that stay. -/
def Segment.isChange : Segment → Bool
  | .same _ => false
  | _ => true

/-- The run joins the segment after it, if both are changes or neither is. The anchor of the first run counts, and a
replacement has a place in both lists and so needs none. -/
def Run.onto : Run → List Segment → List Segment
  | .equal ls, .same later :: rest => .same (ls ++ later) :: rest
  | .equal ls, rest => .same ls :: rest
  | .delete anchor ls, .remove _ later :: rest => .remove anchor (ls ++ later) :: rest
  | .delete _ ls, .add _ added :: rest => .replace ls added :: rest
  | .delete _ ls, .replace removed added :: rest => .replace (ls ++ removed) added :: rest
  | .delete anchor ls, rest => .remove anchor ls :: rest
  | .insert anchor ls, .add _ later :: rest => .add anchor (ls ++ later) :: rest
  | .insert _ ls, .remove _ removed :: rest => .replace removed ls :: rest
  | .insert _ ls, .replace removed added :: rest => .replace removed (ls ++ added) :: rest
  | .insert anchor ls, rest => .add anchor ls :: rest

/-- Stretches of lines that stay and changes, in turn. -/
def Script.segments (s : Script) : List Segment :=
  s.foldr Run.onto []

/-! ## Places -/

/-- The lines from number `start` up to, but without, number `stop`, where the first line has number zero. -/
structure Extent where
  start : Nat
  stop : Nat
deriving DecidableEq, Repr

/-- Where the segment lies in the old list, if `before` old lines come before it. -/
def Segment.oldExtent (before : Nat) : Segment → Extent
  | .add anchor _ => ⟨anchor, anchor⟩
  | s => ⟨before, before + s.old.length⟩

/-- Where the segment lies in the new list, if `before` new lines come before it. -/
def Segment.newExtent (before : Nat) : Segment → Extent
  | .remove anchor _ => ⟨anchor, anchor⟩
  | s => ⟨before, before + s.new.length⟩

/-- After so many old and new lines, every segment starts on either side where the one before it ends. -/
def SegmentsTile (oldBefore newBefore : Nat) : List Segment → Prop
  | [] => True
  | s :: rest =>
    (s.oldExtent oldBefore).start = oldBefore ∧ (s.newExtent newBefore).start = newBefore
      ∧ SegmentsTile (oldBefore + s.old.length) (newBefore + s.new.length) rest

end DiffSlice.Patch
