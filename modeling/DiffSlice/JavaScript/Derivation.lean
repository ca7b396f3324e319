import DiffSlice.JavaScript.Production
import DiffSlice.JavaScript.Scanner

/-!
# Derivation trees

A derivation says how a part of a source was read: which production each phrase is, down to the tokens, with the
comments between them. It also shows where the source had to be mended to be read at all: a token that is missing, or
a part that fits nowhere. `faultCost` weighs such repairs, and `compare` orders two ways to read the same text.
-/

namespace DiffSlice.JavaScript

/-- What stands at a node of a derivation. -/
inductive Label where
  | token (t : Token)
  /-- A token that should have been there. -/
  | missing (t : Token)
  | phrase (p : Production)
  /-- Parts that fit nowhere. -/
  | fault
  /-- The tokens passed over so far, while reading is lost. -/
  | skipped

namespace Label

/-- The label shows in a tree by itself; otherwise the parts below it do. -/
def isVisible : Label → Bool
  | token t | missing t => !t.isHidden
  | phrase p => !p.phrase.isHidden
  | fault => true
  | skipped => false

/-- The label is for parts that fit nowhere. -/
def isFault : Label → Bool
  | fault | skipped | token .stray => true
  | _ => false

/-- The place of the label's symbol among all. -/
def index : Label → Nat
  | token t | missing t => (Symbol.token t).index
  | phrase p => (Symbol.phrase p.phrase).index
  | fault => Symbol.count
  | skipped => Symbol.count + 1

end Label

/-- How a part of a source was read. -/
structure Derivation where
  label : Label
  start : Cursor
  stop : Cursor
  /-- It belongs to no phrase, like a comment. -/
  isExtra : Bool
  /-- How welcome the reading is. -/
  weight : Int
  /-- What the repairs cost. -/
  cost : Nat
  /-- The number of visible nodes. -/
  count : Nat
  parts : List Derivation

/-! ## What repairs cost -/

/-- What it costs to give up reading once. -/
def recoveryCost : Nat := 500

/-- What a missing token costs in addition. -/
def missingCost : Nat := 110

/-- What each node that fits nowhere costs. -/
def nodeCost : Nat := 100

/-- What each line that fits nowhere costs. Each byte costs one. -/
def lineCost : Nat := 30

/-- What a stretch of text costs that fits nowhere. -/
def spanCost (start stop : Cursor) : Nat :=
  (stop.offset - start.offset) + lineCost * (stop.row - start.row)

namespace Derivation

def ofLexeme (l : Lexeme) : Derivation where
  label := .token l.token
  start := l.start
  stop := l.stop
  isExtra := l.token.isComment
  weight := 0
  cost := if l.token == .stray then recoveryCost + spanCost l.start l.stop else 0
  count := if l.token.isHidden then 0 else 1
  parts := []

def ofMissing (t : Token) (c : Cursor) : Derivation where
  label := .missing t
  start := c
  stop := c
  isExtra := false
  weight := 0
  cost := missingCost + recoveryCost
  count := if t.isHidden then 0 else 1
  parts := []

mutual

/-- The number of visible nodes that a derivation shows on the level of its own. -/
def shownCount : Derivation → Nat
  | ⟨label, _, _, _, _, _, _, parts⟩ => if label.isVisible then 1 else shownCountOfAll parts

/-- The number of visible nodes that some derivations show on their level. -/
def shownCountOfAll : List Derivation → Nat
  | [] => 0
  | d :: ds => d.shownCount + shownCountOfAll ds

end

/-- What a derivation costs as a part of something that fits nowhere. -/
def costWithinFault (d : Derivation) : Nat :=
  if d.isExtra || (d.label.isFault && d.parts.isEmpty) then 0 else nodeCost * d.shownCount

def partsCost (label : Label) (start stop : Cursor) (parts : List Derivation) : Nat :=
  let own := parts.foldl
    (fun sum d => match d.label with
      | .skipped => sum
      | _ => sum + d.cost)
    0
  if label.isFault then
    recoveryCost + spanCost start stop + own + parts.foldl (fun sum d => sum + d.costWithinFault) 0
  else own

/-- The derivation with the given parts; without parts it stands at the place `c`. -/
def ofParts (label : Label) (weight : Int) (isExtra : Bool) (c : Cursor) (parts : List Derivation) : Derivation :=
  let start := match parts.head? with
    | some d => d.start
    | none => c
  let stop := match parts.getLast? with
    | some d => d.stop
    | none => c
  { label, start, stop, isExtra, parts
    weight := parts.foldl (fun sum d => sum + d.weight) weight
    cost := partsCost label start stop parts
    count := parts.foldl (fun sum d => sum + d.count) (if label.isVisible then 1 else 0) }

def ofProduction (p : Production) (c : Cursor) (parts : List Derivation) : Derivation :=
  ofParts (.phrase p) p.weight false c parts

/-! ## The order of readings -/

mutual

/-- Compares two ways to read a text: by their symbols, then by the number of parts, then part by part. -/
def compare : Derivation → Derivation → Ordering
  | ⟨label, _, _, _, _, _, _, parts⟩, e =>
    (Ord.compare label.index e.label.index).then
      ((Ord.compare parts.length e.parts.length).then (compareAll parts e.parts))

/-- Compares two lists of parts from the first on. -/
def compareAll : List Derivation → List Derivation → Ordering
  | d :: ds, e :: es => (d.compare e).then (compareAll ds es)
  | _, _ => .eq

end

/-- Two derivations are as good as each other: of the same symbol, and both with repairs or of the same extent and the
same number of parts. -/
def isEquivalent (d e : Derivation) : Bool :=
  d.label.index == e.label.index && ((0 < d.cost && 0 < e.cost)
    || (d.start.offset == e.start.offset && d.stop.offset == e.stop.offset && d.parts.length == e.parts.length
      && d.isExtra == e.isExtra))

/-! ## The first fault -/

/-- A fault, or a token that is missing. -/
def isWrong (d : Derivation) : Bool :=
  match d.label with
  | .missing _ | .fault | .token .stray => true
  | _ => false

mutual

/-- The row of the first fault below a derivation, if there is one. -/
def faultRow? : Derivation → Option Nat
  | ⟨_, _, _, _, _, _, _, parts⟩ => faultRowOfAll? parts

/-- The row of the first fault in or below some derivations. -/
def faultRowOfAll? : List Derivation → Option Nat
  | [] => none
  | d :: ds =>
    if d.isWrong then some d.start.row
    else
      match d.faultRow? with
      | some row => some row
      | none => faultRowOfAll? ds

end

end Derivation

end DiffSlice.JavaScript
