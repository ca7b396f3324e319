import DiffSlice.JavaScript.Reading

/-!
# Repairs

When no version can read on, the source is wrong, and the best version goes on with a repair. A token may be missing
right before the lexeme that does not fit (`Reading.repair`). Otherwise reading is lost: the version goes back to an
earlier state in which the lexeme fits and leaves what it had read since then out of account, and besides it passes
over the lexeme (`Reading.recover`). Of all that comes of it, the cheapest derivation counts in the end.
-/

namespace DiffSlice.JavaScript

/-! ## Completing whatever can be completed -/

namespace State

/-- The productions that could be completed before one of the tokens, and whether one of the tokens could be read. -/
def prospects (s : State) (tokens : List Token) : List Production × Bool :=
  tokens.foldl
    (fun (found, reads) t =>
      let decision := s.decision t
      let more := decision.completed.foldl
        (fun found p =>
          if found.any fun q => q.phrase == p.phrase && q.steps.length == p.steps.length then found
          else found ++ [p])
        found
      (more, reads || decision.next.isSome))
    ([], false)

/-- The tokens that may come next, but for the end and comments. -/
def tokensAhead (s : State) : List Token :=
  let expected := s.expected
  Token.all.filter fun t => expected.has t && t != .endOfText && !t.isComment && t != .anyName

end State

namespace Version

/-- Completes productions in all versions from index `i` on: those that the token may follow or, if none is given,
those that anything may follow. The version at `start` comes first, then what is added at index `base` or later. A
version that leads to another and cannot read the token is replaced by it. The result tells whether some version can
read the token. -/
def completeAll (token : Option Token) (start base : Nat) :
    Nat → Nat → Nat → List Version → Bool → List Version × Bool
  | 0, _, _, vs, reads => (vs, reads)
  | fuel + 1, turn, i, vs, reads =>
    match vs[i]? with
    | none => (vs, reads)
    | some v =>
      match v.mergeInto? ((vs.take i).drop base) with
      | some merged =>
        completeAll token start base fuel (turn + 1) i (vs.take base ++ merged ++ vs.drop (i + 1)) reads
      | none =>
        match v.top.state with
        | none => (vs, reads)
        | some state =>
          let (completed, readsHere) := state.prospects (token.elim state.tokensAhead ([·]))
          let next := if i == start then vs.length else i + 1
          let (vs, added) := reduceAllAt completed i vs
          if readsHere then completeAll token start base fuel (turn + 1) next vs true
          else
            match if turn < maxVersions then added else none with
            | some k => completeAll token start base fuel (turn + 1) i (promote k i vs) reads
            | none =>
              let vs := if token.isSome then vs.eraseIdx i else vs
              completeAll token start base fuel (turn + 1) next vs reads

/-! ## Going back -/

def maxRetreat : Nat := 16

/-- The frames from the top on, each with the number of parts above it. -/
def depths : Nat → List Frame → List (Nat × Frame)
  | _, [] => []
  | depth, frame :: frames =>
    let isExtra := frame.part.any (·.isExtra)
    (depth, frame) :: depths (if isExtra then depth else depth + 1) frames

/-- The states of a version from the nearest on, each once at a depth. -/
def findRetreats (v : Version) : List Retreat :=
  let all := v.allStacks.map fun s => depths 0 s.frames
  (List.range (maxRetreat + 1)).flatMap fun depth =>
    (all.flatMap fun frames => frames.filter (·.1 == depth)).foldl
      (fun found (_, frame) =>
        match frame.state with
        | some state =>
          if found.any fun retreat => retreat.state.same state then found else found ++ [⟨state, frame.place, depth⟩]
        | none => found)
      []

/-- Takes `n` parts from the frames, and those that belong to no phrase with them. A frame without a part counts. -/
def takeParts : Nat → List Frame → List Derivation → Option (List Derivation × Stack)
  | 0, top :: below, taken => some (taken, ⟨top, below⟩)
  | _, [], _ => none
  | n + 1, frame :: below, taken =>
    match frame.part with
    | some d => if d.isExtra then takeParts (n + 1) below (d :: taken) else takeParts n below (d :: taken)
    | none => takeParts n below taken

/-- The parts of a fault on top, with the stack below it; no parts if there is none. -/
def takeFault (s : Stack) : List Derivation × Stack :=
  match s.top.part, s.below with
  | some ⟨.fault, _, _, _, _, _, _, parts⟩, top :: below => (parts, ⟨top, below⟩)
  | _, _ => ([], s)

/-- Goes back to a state: the parts above it become a fault, together with a fault right before them. -/
def retreatTo? (depth : Nat) (goal : State) (s : Stack) : Option Stack := do
  let (taken, base) ← takeParts depth s.frames []
  let state ← base.top.state
  if !state.same goal then none
  else
    let (before, base) := takeFault base
    let (parts, extras) := Stack.splitExtras (before ++ taken)
    let mended := if parts.isEmpty then base
      else base.push (some goal) (.ofParts .fault 0 true s.top.place parts)
    some (extras.foldl (fun s d => s.push (some goal) d) mended)

/-- The versions that come of going back, one for each stack below the parts. -/
def retreatAll (v : Version) (depth : Nat) (goal : State) : List Version :=
  let retreated := (v.allStacks.filterMap (retreatTo? depth goal)).foldl
    (fun found s => if found.any (·.same s) then found else found ++ [s]) []
  retreated.map fun stack => { stack, mark := v.mark }

/-! ## Passing over -/

/-- Adds a lexeme to those passed over on top of a stack. -/
def passOver (l : Lexeme) (isFirst : Bool) (s : Stack) : Stack :=
  let d := Derivation.ofLexeme l
  match if isFirst then none else takeParts 1 s.frames [] with
  | some (taken, base) => base.push none (.ofParts .skipped 0 false l.start (taken ++ [d]))
  | none => s.push none (.ofParts .skipped 0 false l.start [d])

end Version

namespace Reading

open Version

/-- Some other version, as far or further on, makes one of the given cost not worth following. -/
def isOutdone (r : Reading) (i : Nat) (v : Version) (cost : Nat) : Bool :=
  r.finished.any (·.cost ≤ cost) ||
    let status : Status := { cost, count := v.countSinceMark, weight := v.weight, isLost := false }
    r.versions.zipIdx.any fun (w, j) =>
      j != i && w.isActive && v.top.place.offset ≤ w.top.place.offset &&
        match status.compare w.status with
        | .takeSecond => true
        | .preferSecond => w.canMerge v
        | _ => false

/-- Goes back to the nearest state in which the lexeme fits. Gives nothing where there is none, or where the repair
would cost too much. -/
def retreat? (r : Reading) (i : Nat) (v : Version) (l : Lexeme) : List Retreat → Option (List Version)
  | [] => none
  | way :: ways =>
    let place := v.top.place
    if way.place.offset == place.offset || (r.versions.any fun w =>
        w.top.place.offset == place.offset && w.top.state.any way.state.same) then r.retreat? i v l ways
    else if r.isOutdone i v (v.cost + nodeCost * way.depth + spanCost way.place place) then none
    else if way.state.expected.has l.token then
      match v.retreatAll (if 0 < v.countSinceMark then way.depth + 1 else way.depth) way.state with
      | [] => r.retreat? i v l ways
      | found => some found
    else r.retreat? i v l ways

/-- Takes the version at index `i`, which is lost, over a lexeme. -/
def recover (r : Reading) (i : Nat) (l : Lexeme) : Reading :=
  match r.versions[i]? with
  | none => r
  | some v =>
    let found := if l.token == .stray then none else r.retreat? i v l v.retreats
    let r' := { r with versions := r.versions ++ found.getD [] }
    if l.token == .endOfText then r'.finish i .fault
    else if (found.isSome && maxVersions < r'.versions.length)
        || r'.isOutdone i v (v.cost + nodeCost + spanCost v.top.place l.stop) then
      r'.modify i fun v => { v with isOver := true }
    else r'.modify i (·.mapStacks (passOver l (v.countSinceMark == 0)))

/-- Tries to put a missing token before the lexeme into the version: the first that lets a production be completed
before the lexeme and the lexeme be read. -/
def insertMissing? (v : Version) (l : Lexeme) (fuel : Nat) : List Version → List Token → List Version × Bool
  | vs, [] => (vs, false)
  | vs, t :: ts =>
    let next? := v.top.state.bind fun state => (state.decision t).next
    match next?.filter fun next => !(next.decision l.token).completed.isEmpty with
    | none => insertMissing? v l fuel vs ts
    | some next =>
      let w := v.mapStacks fun s => s.push (some next) (.ofMissing t s.top.place)
      let token := if l.token == .endOfText then none else some l.token
      match completeAll token vs.length (vs.length + 1) fuel 0 vs.length (vs ++ [w]) false with
      | (vs, true) => (vs, true)
      | (vs, false) => insertMissing? v l fuel vs ts

/-- Begins to repair the version at index `i`, which is stuck at a lexeme. -/
def repair (r : Reading) (i : Nat) (l : Lexeme) : Reading :=
  let before := r.versions.length
  let (vs, _) := completeAll none i before r.fuel 0 i
    (r.versions.modify i fun v => { v with stuckAt := none }) false
  let group := i :: (List.range vs.length).filter (before ≤ ·)
  let (vs, _) := group.foldl
    (fun (vs, inserted) j =>
      match vs[j]? with
      | none => (vs, inserted)
      | some v =>
        let (vs, inserted) :=
          if inserted then (vs, true)
          else insertMissing? v l r.fuel vs ((v.top.state.map State.tokensAhead).getD [])
        (vs.modify j fun v => { v.mapStacks (·.lose) with mark := v.top.count }, inserted))
    (vs, false)
  let others := (group.drop 1).flatMap fun j => (vs[j]?.map (·.allStacks)).getD []
  let vs := (vs.take before ++ vs.drop (before + (group.length - 1))).modify i fun v =>
    let v := { v with others := v.others ++ others }
    { v with retreats := v.findRetreats }
  { r with versions := vs }.recover i l

end Reading

end DiffSlice.JavaScript
