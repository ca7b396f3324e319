import DiffSlice.JavaScript.Stack

/-!
# Reading a source

A reading follows several versions of what the source may be. `Reading.readLexeme` takes one of them over a lexeme:
it completes the productions that end before the lexeme and then reads it. Where more than one thing can be done,
versions are added; where nothing can, the version is stuck.
-/

namespace DiffSlice.JavaScript

def maxVersions : Nat := 6

/-- The number of versions that may be added between two lexemes. -/
def spareVersions : Nat := 4

/-- How far the versions of a source have come. -/
structure Reading where
  versions : List Version
  /-- The number of bytes that some version has read. -/
  reach : Nat
  /-- The best derivation of the whole source so far. -/
  finished : Option Derivation
  /-- The number of derivations of the whole source so far. -/
  finishes : Nat
  /-- The number of characters of the source, which bounds the work. -/
  size : Nat

/-! ## Versions of a list -/

namespace Version

/-- Merges a version into another than the one at index `i`. -/
def mergeExcept? (v : Version) (i : Nat) (vs : List Version) : Option (List Version) :=
  match v.mergeInto? (vs.take i) with
  | some before => some (before ++ vs.drop i)
  | none => (v.mergeInto? (vs.drop (i + 1))).map (vs.take (i + 1) ++ ·)

/-- Completes a production in the version at index `i`. What comes of it is merged into other versions or added after
them; the result has the index of the first that was added. -/
def reduceAt (p : Production) (i : Nat) (vs : List Version) : List Version × Option Nat :=
  match vs[i]? with
  | none => (vs, none)
  | some v =>
    ((v.allStacks.filterMap (·.reduce? p)).foldl (Stack.addWith .choose) []).foldl
      (fun (vs, added) stack =>
        let w := { v with stack, others := [] }
        match w.mergeExcept? i vs with
        | some vs => (vs, added)
        | none => if vs.length ≤ maxVersions + spareVersions then (vs ++ [w], added.or vs.length) else (vs, added))
      (vs, none)

/-- Completes productions in the version at index `i`; the result has the index of what the last of them added. -/
def reduceAllAt (ps : List Production) (i : Nat) (vs : List Version) : List Version × Option Nat :=
  ps.foldl
    (fun (vs, added) p =>
      let (vs, now) := reduceAt p i vs
      (vs, now.or added))
    (vs, none)

/-- Puts the version at index `k` in the place of the one at index `i`. -/
def promote (k i : Nat) (vs : List Version) : List Version :=
  match vs[k]? with
  | some v => (vs.set i v).eraseIdx k
  | none => vs

end Version

namespace Reading

/-- The reading before anything is read. A byte order mark is passed over. -/
def initial (source : List Char) : Reading where
  versions :=
    let start := Cursor.start source
    [{ stack := .initial (if source.head?.any (·.toNat == 0xFEFF) then start.next else start) }]
  reach := 0
  finished := none
  finishes := 0
  size := source.length

/-- More than the number of steps between two lexemes. -/
def fuel (r : Reading) : Nat := 32 * (r.size + 32)

def modify (r : Reading) (i : Nat) (f : Version → Version) : Reading :=
  { r with versions := r.versions.modify i f }

/-- The second derivation of the source is better than the first: cheaper, or of greater weight, or first in order.
Of two equal ones with repairs the later counts. -/
def isBetter (old new : Derivation) : Bool :=
  new.cost < old.cost || (new.cost == old.cost
    && (old.weight < new.weight || (old.weight == new.weight && (0 < old.cost || old.compare new == .gt))))

/-- Ends the version at index `i`: what it has read is the whole source. -/
def finish (r : Reading) (i : Nat) (label : Label) : Reading :=
  match r.versions[i]? with
  | none => r
  | some v =>
    let finished := v.allStacks.foldl
      (fun found s =>
        let root := Derivation.ofParts label 0 false s.top.place s.parts
        match found with
        | some old => if isBetter old root then some root else some old
        | none => some root)
      r.finished
    { r with finished, finishes := r.finishes + v.allStacks.length }.modify i fun v => { v with isOver := true }

/-- The word of a lexeme taken as a name, where it is not reserved and a name can come. -/
def asName? (state : State) (l : Lexeme) : Option Lexeme :=
  if l.token.isWord && state.expected.has .identifier && !(l.token.isReserved && state.expected.reserves) then
    some { l with token := .identifier }
  else none

/-- Takes the version at index `i`, which is not lost, over a lexeme. -/
def readLexeme (i : Nat) : Nat → Lexeme → Reading → Reading
  | 0, _, r => r.modify i fun v => { v with isOver := true }
  | fuel + 1, l, r =>
    match r.versions[i]?.bind fun v => v.top.state with
    | none => r
    | some state =>
      if l.token.isComment then r.modify i (·.mapStacks fun s => s.push (some state) (.ofLexeme l))
      else
        let decision := state.decision l.token
        match decision.completed.find? (·.phrase == .program) with
        | some p => r.finish i (.phrase p)
        | none =>
          let (versions, added) := Version.reduceAllAt decision.completed i r.versions
          let r' := { r with versions }
          match decision.next, added with
          | some next, _ => r'.modify i (·.mapStacks fun s => s.push (some next) (.ofLexeme l))
          | none, some k => readLexeme i fuel l { r with versions := Version.promote k i versions }
          | none, none =>
            if !decision.completed.isEmpty then r'.modify i fun v => { v with isOver := true }
            else
              match asName? state l with
              | some name => readLexeme i fuel name r
              | none => r.modify i fun v => { v with stuckAt := some l }

end Reading

end DiffSlice.JavaScript
