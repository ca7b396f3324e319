import DiffSlice.Patch.Search

/-!
# Compacting a script

Changes are moved as far as they go without changing what the script leads to: first every deletion, then every
insertion, each up and then down. An insertion moves past lines that stay when it ends (or starts) with the same
lines; a deletion moves past insertions only; two runs of one kind that meet become one. The anchor of an insertion
moves with it past lines that stay. Where a deletion and an insertion change places both keep their anchors, so a
compacted script need not tile its lists any more, though what it leads to is the same. A script is walked with the
runs behind the walker in reverse order (`Place`).
-/

namespace DiffSlice.Patch

/-- A run of a script, the runs before it from the nearest on, and the runs after it. -/
structure Place where
  before : List Run
  here : Run
  after : List Run

def Run.size : Run → Nat
  | .equal ls => ls.length
  | .delete _ ls => ls.length
  | .insert _ ls => ls.length

/-- The lines and runs of a script, counted together. -/
def scriptWeight (s : Script) : Nat :=
  s.foldr (fun run weight => run.size + 1 + weight) 0

/-- Lines that stay, put before runs. -/
def consEqual (ls : List String) : List Run → List Run
  | .equal later :: rest => .equal (ls ++ later) :: rest
  | rest => .equal ls :: rest

/-- Lines that stay, put after runs that are given from the last on. -/
def snocEqual (ls : List String) : List Run → List Run
  | .equal earlier :: rest => .equal (earlier ++ ls) :: rest
  | rest => .equal ls :: rest

/-- Moves a change up, at most `fuel` times. -/
def Place.up (p : Place) : Nat → Place
  | 0 => p
  | fuel + 1 =>
    match p.before with
    | [] => p
    | prev :: before =>
      match prev, p.here with
      | .equal ls, .insert anchor new =>
        let k := commonLength ls.reverse new.reverse
        if k = 0 then p
        else
          let shared := ls.drop (ls.length - k)
          Place.up
            { before := runOf .equal (ls.take (ls.length - k)) ++ before
              here := .insert (anchor - k) (shared ++ new.take (new.length - k))
              after := consEqual shared p.after } fuel
      | .equal _, _ => p
      | .insert anchor earlier, .insert _ new => Place.up ⟨before, .insert anchor (earlier ++ new), p.after⟩ fuel
      | .delete anchor earlier, .delete _ old => Place.up ⟨before, .delete anchor (earlier ++ old), p.after⟩ fuel
      | prev, here => Place.up ⟨before, here, prev :: p.after⟩ fuel

/-- Moves a change down, at most `fuel` times. -/
def Place.down (p : Place) : Nat → Place
  | 0 => p
  | fuel + 1 =>
    match p.after with
    | [] => p
    | next :: after =>
      match next, p.here with
      | .equal ls, .insert anchor new =>
        let k := commonLength ls new
        if k = 0 then p
        else
          let shared := ls.take k
          Place.down
            { before := snocEqual shared p.before
              here := .insert (anchor + k) (new.drop k ++ shared)
              after := runOf .equal (ls.drop k) ++ after } fuel
      | .equal _, _ => p
      | .insert _ later, .insert anchor new => Place.down ⟨p.before, .insert anchor (new ++ later), after⟩ fuel
      | .delete _ later, .delete anchor old => Place.down ⟨p.before, .delete anchor (old ++ later), after⟩ fuel
      | next, here => Place.down ⟨next :: p.before, here, after⟩ fuel

/-- Moves every run that `moves` selects up and down, from the runs `after` on; `before` is in reverse order. -/
def settle (moves : Run → Bool) (weight : Nat) (before after : List Run) : Nat → Script
  | 0 => before.reverse ++ after
  | fuel + 1 =>
    match after with
    | [] => before.reverse
    | run :: rest =>
      if moves run then
        let p := ((⟨before, run, rest⟩ : Place).up weight).down weight
        settle moves weight (p.here :: p.before) p.after fuel
      else settle moves weight (run :: before) rest fuel

def Run.isDelete : Run → Bool
  | .delete _ _ => true
  | _ => false

def Run.isInsert : Run → Bool
  | .insert _ _ => true
  | _ => false

/-- The script with its changes moved as far down as they go. -/
def Script.compact (s : Script) : Script :=
  let weight := scriptWeight s
  let steps := weight * weight + 1
  let s := settle Run.isDelete weight [] s steps
  settle Run.isInsert weight [] s steps

end DiffSlice.Patch
