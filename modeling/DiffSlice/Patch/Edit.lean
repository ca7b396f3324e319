import DiffSlice.Patch.Header
import Std.Data.ExtTreeSet

/-!
# The line edits of a diff

`Edits.ofDiff` reads the added and removed lines of a diff of one file, numbered on their own side, together with the
headers that could not be read. Two counters follow the lines of a hunk (`Counters`); after a header that could not
be read, nothing counts until the next one. `Edits.ofDiff?` reads them only if every number on the way is within the
limit.
-/

namespace DiffSlice.Patch

open DiffSlice.Text

abbrev LineSet := Std.ExtTreeSet Nat

/-- Which way a line was edited. -/
inductive Side where
  | added
  | removed
deriving DecidableEq, Repr

/-- An added line with its number in the new text, or a removed line with its number in the old one. -/
structure LineEdit where
  number : Nat
  text : String
  side : Side
deriving DecidableEq, Repr

/-- A line that starts like a header and is none, with its number in the diff. -/
structure MalformedHeader where
  diffLine : Nat
  text : String
deriving DecidableEq, Repr

def MalformedHeader.message (m : MalformedHeader) : String :=
  s!"malformed hunk header at diff line {m.diffLine}: {m.text}"

/-- The edits of one file. -/
structure Edits where
  added : List LineEdit := []
  removed : List LineEdit := []
  malformed : List MalformedHeader := []
deriving DecidableEq, Repr

/-- The numbers of the lines that the last line read has on the two sides. -/
structure Counters where
  old : Nat
  new : Nat
deriving DecidableEq, Repr

/-- Before the first line of a hunk. -/
def Counters.ofHeader (h : Header) : Counters :=
  { old := h.oldStart - 1, new := h.newStart - 1 }

/-- The edits of the lines from the one at `index`, where `counters` is none outside of hunks. -/
def editsFrom (counters : Option Counters) (index : Nat) : List String → Edits
  | [] => {}
  | line :: rest =>
    if isHeaderLine line then
      match Header.parse? line with
      | some header => editsFrom (some (Counters.ofHeader header)) (index + 1) rest
      | none =>
        let later := editsFrom none (index + 1) rest
        { later with malformed := ⟨index + 1, line⟩ :: later.malformed }
    else
      match counters with
      | none => editsFrom none (index + 1) rest
      | some c =>
        match BodyLine.ofLine? line with
        | some (.added text) =>
          let later := editsFrom (some { c with new := c.new + 1 }) (index + 1) rest
          { later with added := ⟨c.new + 1, text, .added⟩ :: later.added }
        | some (.removed text) =>
          let later := editsFrom (some { c with old := c.old + 1 }) (index + 1) rest
          { later with removed := ⟨c.old + 1, text, .removed⟩ :: later.removed }
        | some .noNewline => editsFrom (some c) (index + 1) rest
        | _ => editsFrom (some ⟨c.old + 1, c.new + 1⟩) (index + 1) rest

/-- The edits that a diff of one file makes. -/
def Edits.ofDiff (diff : String) : Edits :=
  editsFrom none 0 (lines diff)

/-! ## Counting within the limit -/

/-- The number after `n`, which has to be within the limit. -/
def countOn? (n : Nat) : Option Nat :=
  if n < lineLimit then some (n + 1) else none

/-- The counters after a line below a header, which have to be within the limit. -/
def Counters.next? (c : Counters) (line : String) : Option Counters :=
  match BodyLine.ofLine? line with
  | some (.added _) => (countOn? c.new).map fun new => { c with new }
  | some (.removed _) => (countOn? c.old).map fun old => { c with old }
  | some .noNewline => some c
  | _ => do return { old := ← countOn? c.old, new := ← countOn? c.new }

/-- No counter passes the limit on the way through the lines. -/
def countsThrough (counters : Option Counters) : List String → Bool
  | [] => true
  | line :: rest =>
    if isHeaderLine line then countsThrough ((Header.parse? line).map Counters.ofHeader) rest
    else
      match counters with
      | none => countsThrough none rest
      | some c =>
        match c.next? line with
        | some c => countsThrough (some c) rest
        | none => false

/-- The edits that a diff of one file makes, unless a line number passes the limit. -/
def Edits.ofDiff? (diff : String) : Option Edits :=
  if countsThrough none (lines diff) then some (.ofDiff diff) else none

/-! ## What the edits come to -/

/-- The new numbers of the added lines. -/
def Edits.addedLines (e : Edits) : LineSet :=
  .ofList (e.added.map LineEdit.number)

/-- The old numbers of the removed lines. -/
def Edits.removedLines (e : Edits) : LineSet :=
  .ofList (e.removed.map LineEdit.number)

def Edits.isEmpty (e : Edits) : Bool :=
  e.added.isEmpty && e.removed.isEmpty

end DiffSlice.Patch
