import DiffSlice.JavaScript.Repair

/-!
# Parsing

A source is read in rounds. In each round every version reads on until it is past the furthest place so far. Then
the versions are compared, those not worth following are dropped, and if none is left that can read on, the best of
them is repaired. `derive` gives the best derivation of the whole source.
-/

namespace DiffSlice.JavaScript

namespace Reading

open Version

/-- Takes the version at index `i` over one lexeme. -/
def advance (r : Reading) (i : Nat) : Reading :=
  match r.versions[i]? with
  | none => r
  | some v =>
    match v.top.state with
    | some state => r.readLexeme i r.fuel (nextLexeme (some state.expected) v.top.place)
    | none =>
      let l := nextLexeme none v.top.place
      if l.token.isComment then r.modify i (·.mapStacks fun s => s.push none (.ofLexeme l)) else r.recover i l

/-- Takes the version at index `i` on until it is past the furthest place, or there for all but the first. -/
def advancePast (i : Nat) : Nat → Reading → Reading
  | 0, r => r
  | fuel + 1, r =>
    if r.versions[i]?.any (·.isActive) then
      let r' := r.advance i
      match r'.versions[i]?.filter (·.isActive) with
      | none => r'
      | some v =>
        let offset := v.top.place.offset
        if r'.reach < offset || (i != 0 && offset == r'.reach) then { r' with reach := offset }
        else advancePast i fuel r'
    else r

/-- Takes all versions from index `i` on over the next part of the source. -/
def advanceAll : Nat → Nat → Reading → Reading
  | 0, _, r => r
  | fuel + 1, i, r => if i < r.versions.length then advanceAll fuel (i + 1) (advancePast i r.fuel r) else r

/-- Adds a version to a list of those worth following, better ones first. Versions that can be are merged. -/
def insertVersion : List Version → Version → List Version
  | [], v => [v]
  | w :: ws, v =>
    match w.status.compare v.status with
    | .takeFirst => w :: ws
    | .preferFirst | .even =>
      match w.merge? v with
      | some merged => merged :: ws
      | none => w :: insertVersion ws v
    | .preferSecond =>
      match w.merge? v with
      | some merged => merged :: ws
      | none => v :: insertVersion ws w
    | .takeSecond => insertVersion ws v

/-- The least cost of the versions that are not lost. -/
def leastCost (vs : List Version) : Option Nat :=
  vs.foldl (fun least v => if v.status.isLost then least else some (least.elim v.cost (min v.cost))) none

/-- Drops the versions not worth following. If the best is stuck, it is repaired, and others that are stuck are
dropped. Gives the least cost of what is left, if it is known. -/
def condense (r : Reading) : Reading × Option Nat :=
  let alive := (r.versions.filter (!·.isOver)).map (·.settleMark)
  let r' := { r with versions := (alive.foldl insertVersion []).take maxVersions }
  match r'.versions.head?.bind fun v => v.stuckAt.map (v, ·) with
  | some (v, l) =>
    if r'.finishes < maxVersions then
      let repaired := r'.repair 0 l
      ({ repaired with versions := repaired.versions.filter (·.stuckAt.isNone) }, some v.cost)
    else ({ r' with versions := r'.versions.filter (·.stuckAt.isNone) }, leastCost alive)
  | none => ({ r' with versions := r'.versions.filter (·.stuckAt.isNone) }, leastCost alive)

/-- Reads round by round until the source has a derivation that no version can outdo. -/
def run : Nat → Reading → Option Derivation
  | 0, r => r.finished
  | fuel + 1, r =>
    let (r', least) := (advanceAll r.fuel 0 r).condense
    if r'.versions.isEmpty || r'.finished.any fun d => least.all (d.cost < ·) then r'.finished
    else run fuel r'

end Reading

/-- The best derivation of a source. -/
def derive? (source : List Char) : Option Derivation :=
  let r := Reading.initial source
  r.run r.fuel

end DiffSlice.JavaScript
