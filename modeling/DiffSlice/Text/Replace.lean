/-!
# Replacing parts of a text

`replaceAll` goes through a text from left to right and puts something else in the place of every match it comes to;
it goes on behind the match. How much of the text ahead is repetition is measured by `rowLength`.
-/

namespace DiffSlice.Text

/-- A match at the start of the characters ahead: its length, which is not zero, and what takes its place. -/
structure Replacement where
  length : Nat
  text : List Char
deriving DecidableEq, Repr

/-- Finds the match at the start of the characters ahead; it is told whether a line starts there. -/
abbrev Matcher := Bool → List Char → Option Replacement

/-- The characters with every match replaced; the first `skip` of them belong to a match already replaced. -/
def replaceFrom (match? : Matcher) (atLineStart : Bool) (skip : Nat) : List Char → List Char
  | [] => []
  | c :: rest =>
    match skip with
    | skip + 1 => replaceFrom match? (c == '\n') skip rest
    | 0 =>
      match match? atLineStart (c :: rest) with
      | some found => found.text ++ replaceFrom match? (c == '\n') (found.length - 1) rest
      | none => c :: replaceFrom match? (c == '\n') 0 rest

def replaceAll (match? : Matcher) (text : String) : String :=
  String.ofList (replaceFrom match? true 0 text.toList)

/-- The length of the longest row of units that the characters start with; `unit?` measures one unit. The first `skip`
characters belong to a unit already found. -/
def rowLength (unit? : List Char → Option Nat) (skip : Nat) : List Char → Nat
  | [] => 0
  | c :: rest =>
    match skip with
    | skip + 1 => rowLength unit? skip rest + 1
    | 0 =>
      match unit? (c :: rest) with
      | some n => rowLength unit? (n - 1) rest + 1
      | none => 0

end DiffSlice.Text
