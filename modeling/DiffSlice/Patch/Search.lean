import DiffSlice.Patch.Script

/-!
# The search for an edit script

A divide-and-conquer search: what both lists start and end with stays, and the rest is split where a path from the
front meets a path from the back (`middle?`). Each path frontier holds, for every diagonal, how far the path has come
(`Frontier`); both frontiers are carried through the whole search. Any split gives a script from the one list to the
other, so the meeting point decides only which of them is found.
-/

namespace DiffSlice.Patch

/-! ## Frontiers -/

/-- How far a path has come on each diagonal; the cells hold the diagonals `0, -1, 1, -2, 2, …`. -/
structure Frontier where
  cells : Array Nat := #[]

def Frontier.cell (k : Int) : Nat :=
  if 0 ≤ k then 2 * k.toNat else 2 * (-k).toNat - 1

/-- The value at a diagonal, at first zero. -/
def Frontier.get (v : Frontier) (k : Int) : Nat :=
  v.cells.getD (cell k) 0

def Frontier.set (v : Frontier) (k : Int) (x : Nat) : Frontier :=
  let cells := v.cells ++ Array.replicate (cell k + 1 - v.cells.size) 0
  ⟨cells.setIfInBounds (cell k) x⟩

/-- Where a path of `d` edits enters diagonal `k`: from the neighbour that has come further. -/
def Frontier.enter (v : Frontier) (d : Nat) (k : Int) : Nat :=
  if k = -d ∨ (k ≠ d ∧ v.get (k - 1) < v.get (k + 1)) then v.get (k + 1) else v.get (k - 1) + 1

structure Frontiers where
  forward : Frontier := {}
  backward : Frontier := {}

/-! ## Meeting in the middle -/

/-- The number of lines that both lists start with. -/
def commonLength : List String → List String → Nat
  | a :: as, b :: bs => if a = b then commonLength as bs + 1 else 0
  | _, _ => 0

/-- How far a path runs along equal lines from `(x, y)`. -/
def slide (old new : Array String) (x y : Nat) : Nat → Nat
  | 0 => x
  | n + 1 =>
    if h : x < old.size ∧ y < new.size then
      if old[x] = new[y] then slide old new (x + 1) (y + 1) n else x
    else x

/-- One sweep of the path from the front over the diagonals `d, d - 2, …, -d`, of which `2 j - d` is the next. -/
def sweepForward (old new : Array String) (d : Nat) (v : Frontiers) : Nat → Frontiers × Option (Nat × Nat)
  | 0 => sweepAt v 0 fun v => (v, none)
  | j + 1 => sweepAt v (j + 1) fun v => sweepForward old new d v j
where
  sweepAt (v : Frontiers) (j : Nat) (next : Frontiers → Frontiers × Option (Nat × Nat)) :
      Frontiers × Option (Nat × Nat) :=
    let k : Int := 2 * j - d
    let delta : Int := old.size - new.size
    let x := v.forward.enter d k
    let y := (x - k).toNat
    let x' := slide old new x y (old.size + 1)
    let v := { v with forward := v.forward.set k x' }
    if delta % 2 ≠ 0 ∧ (k - delta).natAbs + 1 ≤ d ∧ old.size ≤ x' + v.backward.get (delta - k) then (v, some (x, y))
    else next v

/-- One sweep of the path from the back; lists and points are turned around. -/
def sweepBackward (dlo wen : Array String) (d : Nat) (v : Frontiers) : Nat → Frontiers × Option (Nat × Nat)
  | 0 => sweepAt v 0 fun v => (v, none)
  | j + 1 => sweepAt v (j + 1) fun v => sweepBackward dlo wen d v j
where
  sweepAt (v : Frontiers) (j : Nat) (next : Frontiers → Frontiers × Option (Nat × Nat)) :
      Frontiers × Option (Nat × Nat) :=
    let k : Int := 2 * j - d
    let delta : Int := dlo.size - wen.size
    let x := v.backward.enter d k
    let y := (x - k).toNat
    let x' := slide dlo wen x y (dlo.size + 1)
    let v := { v with backward := v.backward.set k x' }
    if delta % 2 = 0 ∧ (k - delta).natAbs ≤ d ∧ dlo.size ≤ x' + v.forward.get (delta - k) then
      (v, some (dlo.size - x', wen.size - (y + (x' - x))))
    else next v

/-- Sweeps with more and more edits, at most `n`, until the paths meet. -/
def meet (old new dlo wen : Array String) (d : Nat) (v : Frontiers) : Nat → Frontiers × Option (Nat × Nat)
  | 0 => (v, none)
  | n + 1 =>
    match sweepForward old new d v d with
    | (v, some point) => (v, some point)
    | (v, none) =>
      match sweepBackward dlo wen d v d with
      | (v, some point) => (v, some point)
      | (v, none) => meet old new dlo wen (d + 1) v n

/-- The point where the search is split. -/
def middle? (v : Frontiers) (old new : List String) : Frontiers × Option (Nat × Nat) :=
  let v := { forward := v.forward.set 1 0, backward := v.backward.set 1 0 }
  meet old.toArray new.toArray old.reverse.toArray new.reverse.toArray 0 v ((old.length + new.length + 1) / 2 + 1)

/-! ## The script -/

/-- The run, unless it has no lines. -/
def runOf (make : List String → Run) (ls : List String) : Script :=
  if ls.isEmpty then [] else [make ls]

/-- All of the old lines go and all of the new ones come, after `o` old and `n` new lines. -/
def exchange (o n : Nat) (old new : List String) : Script :=
  runOf (.delete n) old ++ runOf (.insert (o + old.length)) new

/-- The script of two lists that come after `o` old and `n` new lines, found with at most `fuel` splits on a path. -/
def search (v : Frontiers) (o n : Nat) (old new : List String) : Nat → Frontiers × Script
  | 0 => (v, exchange o n old new)
  | fuel + 1 =>
    let front := commonLength old new
    let old' := old.drop front
    let new' := new.drop front
    let back := commonLength old'.reverse new'.reverse
    let oldMid := old'.take (old'.length - back)
    let newMid := new'.take (new'.length - back)
    let (v, inner) :=
      if oldMid.isEmpty || newMid.isEmpty then (v, exchange (o + front) (n + front) oldMid newMid)
      else
        match middle? v oldMid newMid with
        | (v, some (x, y)) =>
          let (v, first) := search v (o + front) (n + front) (oldMid.take x) (newMid.take y) fuel
          let (v, second) := search v (o + front + (oldMid.take x).length) (n + front + (newMid.take y).length)
            (oldMid.drop x) (newMid.drop y) fuel
          (v, first ++ second)
        | (v, none) => (v, exchange (o + front) (n + front) oldMid newMid)
    (v, runOf .equal (old.take front) ++ inner ++ runOf .equal (old'.drop (old'.length - back)))

/-- A script from one list of lines to another. -/
def Script.find (old new : List String) : Script :=
  (search {} 0 0 old new (old.length + new.length + 1)).2

end DiffSlice.Patch
