import DiffSlice.JavaScript.Derivation
import DiffSlice.JavaScript.State

/-!
# Stacks and versions

A stack holds what has been read so far: derivations that await the rest of their phrase, each with the state after
it. Where a text can be read in several ways, there is a version for each. `Version.compare` tells which of two is
worth keeping, and versions that stand at the same place in the same state are merged (`Version.merge?`): of stacks
that differ only in how a part was read, the better reading remains, and other stacks are kept side by side.
-/

namespace DiffSlice.JavaScript

/-! ## Stacks -/

/-- A part that has been read, with the state after it. -/
structure Frame where
  /-- The state, unless reading is lost. -/
  state : Option State
  /-- The part. There is none at the bottom, nor where reading got lost. -/
  part : Option Derivation
  /-- The place after the part. -/
  place : Cursor
  /-- The weight of all parts up to here. -/
  weight : Int
  /-- What the repairs up to here cost. -/
  cost : Nat
  /-- The number of visible nodes up to here. -/
  count : Nat

/-- The frames are in the same state at the same place. -/
def Frame.same (a b : Frame) : Bool :=
  a.place.offset == b.place.offset &&
    match a.state, b.state with
    | some s, some t => s.same t
    | none, none => true
    | _, _ => false

/-- What has been read so far, the last part on top. -/
structure Stack where
  top : Frame
  below : List Frame

namespace Stack

def initial (c : Cursor) : Stack := ⟨⟨some .initial, none, c, 0, 0, 0⟩, []⟩

def frames (s : Stack) : List Frame := s.top :: s.below

/-- Puts a part on top. -/
def push (s : Stack) (state : Option State) (d : Derivation) : Stack where
  top :=
    { state, part := some d, place := d.stop
      weight := s.top.weight + d.weight
      cost := s.top.cost + d.cost
      count := s.top.count + d.count + (match d.label with | .skipped => 1 | _ => 0) }
  below := s.frames

/-- Gives up the state. -/
def lose (s : Stack) : Stack := ⟨{ s.top with state := none, part := none }, s.frames⟩

/-- The parts, first ones first. -/
def parts (s : Stack) : List Derivation := s.frames.reverse.filterMap (·.part)

/-- The frames of the stacks are the same, whatever the parts are. -/
def same (a b : Stack) : Bool :=
  a.top.same b.top && a.below.length == b.below.length && (a.below.zip b.below).all fun (f, g) => f.same g

/-- The better of two stacks with the same frames: the one of greater weight. Otherwise it is the second if there were
repairs, and else the one whose parts come first. -/
def choose (a b : Stack) : Stack :=
  if a.top.weight < b.top.weight then b
  else if b.top.weight < a.top.weight then a
  else if 0 < a.top.cost || Derivation.compareAll a.parts b.parts == .gt then b
  else a

/-- What remains of two stacks with the same frames that were read apart: the first, if it has no less weight and the
parts are as good as each other, and else the better one. -/
def unite (a b : Stack) : Stack :=
  if b.top.weight ≤ a.top.weight && (a.parts.zip b.parts).all fun (d, e) => d.isEquivalent e then a else choose a b

/-- Adds a stack to a list, or lets `join` decide between it and one of the same frames. -/
def addWith (join : Stack → Stack → Stack) : List Stack → Stack → List Stack
  | [], s => [s]
  | t :: ts, s => if t.same s then join t s :: ts else t :: addWith join ts s

/-- Takes parts from the frames until `n` of them belong to phrases, and puts them before those in `taken`. -/
def popFrames : Nat → List Frame → List Derivation → Option (List Derivation × Stack)
  | 0, top :: below, taken => some (taken, ⟨top, below⟩)
  | n + 1, ⟨_, some d, _, _, _, _⟩ :: below, taken =>
    if d.isExtra then popFrames (n + 1) below (d :: taken) else popFrames n below (d :: taken)
  | _, _, _ => none

/-- Splits off the comments at the end. -/
def splitExtras (parts : List Derivation) : List Derivation × List Derivation :=
  let extras := (parts.reverse.takeWhile (·.isExtra)).reverse
  (parts.take (parts.length - extras.length), extras)

/-- Completes a production: its parts become one. Comments after them stay apart. -/
def reduce? (s : Stack) (p : Production) : Option Stack := do
  let (taken, base) ← popFrames p.steps.length s.frames []
  let state ← base.top.state
  let next := state.after (.phrase p.phrase)
  if next.isEmpty then none
  else
    let (parts, extras) := splitExtras taken
    some (extras.foldl (fun s d => s.push (some next) d)
      (base.push (some next) (.ofProduction p s.top.place parts)))

end Stack

/-! ## Versions -/

/-- A state to go back to when reading is lost. -/
structure Retreat where
  state : State
  place : Cursor
  /-- The number of parts above it. -/
  depth : Nat

/-- A way to read the text so far. -/
structure Version where
  stack : Stack
  /-- Other stacks in the same state at the same place. -/
  others : List Stack := []
  /-- The lexeme that does not fit, if there is one. -/
  stuckAt : Option Lexeme := none
  /-- The number of visible nodes when reading was lost. -/
  mark : Nat := 0
  /-- Where to go back to. -/
  retreats : List Retreat := []
  /-- It is not followed any longer. -/
  isOver : Bool := false

namespace Version

def top (v : Version) : Frame := v.stack.top

def allStacks (v : Version) : List Stack := v.stack :: v.others

def mapStacks (f : Stack → Stack) (v : Version) : Version :=
  { v with stack := f v.stack, others := v.others.map f }

/-- It can read on. -/
def isActive (v : Version) : Bool := !v.isOver && v.stuckAt.isNone

/-- What its repairs cost, those included that are begun. -/
def cost (v : Version) : Nat :=
  if v.stuckAt.isSome || (v.top.state.isNone && v.top.part.isNone) then v.top.cost + recoveryCost else v.top.cost

/-- The number of visible nodes since reading was lost. -/
def countSinceMark (v : Version) : Nat := v.top.count - v.mark

/-- Moves the mark back to the visible nodes that are left. -/
def settleMark (v : Version) : Version := { v with mark := min v.mark v.top.count }

/-- The greatest weight of its stacks. -/
def weight (v : Version) : Int := v.others.foldl (fun w s => max w s.top.weight) v.top.weight

/-- What is compared of versions. -/
structure Status where
  cost : Nat
  count : Nat
  weight : Int
  isLost : Bool

def status (v : Version) : Status where
  cost := if v.stuckAt.isSome then v.cost + nodeCost else v.cost
  count := v.countSinceMark
  weight := v.weight
  isLost := v.stuckAt.isSome || v.top.state.isNone

/-- The outcome of a comparison: a side may be so much better that the other is dropped. -/
inductive Verdict where
  | takeFirst
  | preferFirst
  | even
  | preferSecond
  | takeSecond
deriving DecidableEq

/-- A version is dropped for a cheaper one if the difference, times the nodes that the other has read since, is more
than this. -/
def dropLimit : Nat := 18 * nodeCost

/-- Compares two versions. One that is not lost is preferred, then a cheaper one, then one of greater weight. -/
def Status.compare (a b : Status) : Verdict :=
  if !a.isLost && b.isLost then (if a.cost < b.cost then .takeFirst else .preferFirst)
  else if a.isLost && !b.isLost then (if b.cost < a.cost then .takeSecond else .preferSecond)
  else if a.cost < b.cost then
    (if dropLimit < (b.cost - a.cost) * (1 + a.count) then .takeFirst else .preferFirst)
  else if b.cost < a.cost then
    (if dropLimit < (a.cost - b.cost) * (1 + b.count) then .takeSecond else .preferSecond)
  else if b.weight < a.weight then .preferFirst
  else if a.weight < b.weight then .preferSecond
  else .even

/-- The versions are at the same place in the same state, and their repairs cost the same. -/
def canMerge (a b : Version) : Bool :=
  a.isActive && b.isActive && a.top.same b.top && a.top.cost == b.top.cost

/-- Merges the second version into the first, if they can be merged. -/
def merge? (a b : Version) : Option Version :=
  if a.canMerge b then
    match b.allStacks.foldl (Stack.addWith .unite) a.allStacks with
    | stack :: others =>
      some { a with stack, others, mark := if a.top.state.isNone then stack.top.count else a.mark }
    | [] => none
  else none

/-- Merges a version into the first of a list that it can be merged with. -/
def mergeInto? (v : Version) : List Version → Option (List Version)
  | [] => none
  | u :: us =>
    match u.merge? v with
    | some merged => some (merged :: us)
    | none => (v.mergeInto? us).map (u :: ·)

end Version

end DiffSlice.JavaScript
