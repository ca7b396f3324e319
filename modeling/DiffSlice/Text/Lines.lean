import DiffSlice.Text.Blank

/-!
# Lines of a text

A text is cut at its newlines into `pieces`, at least one, which `joinLines` puts together again. Its `lines` are the
pieces without the empty one after a final newline, each without a carriage return that stood right before its
newline. `terminatedLines` cuts a text without losing a character: each line keeps its ending, a newline, a carriage
return or both.
-/

namespace DiffSlice.Text

/-! ## Pieces between newlines -/

/-- The character is put before the first of the stretches. -/
def consToFirst (c : Char) : List (List Char) → List (List Char)
  | [] => [[c]]
  | l :: ls => (c :: l) :: ls

/-- The stretches between the marks. -/
def stretches (mark : Char) : List Char → List (List Char)
  | [] => [[]]
  | c :: cs => if c = mark then [] :: stretches mark cs else consToFirst c (stretches mark cs)

/-- The stretches of a text between its newlines. -/
def pieces (s : String) : List String :=
  (stretches '\n' s.toList).map String.ofList

/-- The texts with a newline between neighbours. -/
def joinLines : List String → String
  | [] => ""
  | [l] => l
  | l :: ls => l ++ "\n" ++ joinLines ls

/-- The texts, each followed by a newline. -/
def unlines : List String → String
  | [] => ""
  | l :: ls => l ++ "\n" ++ unlines ls

/-! ## Lines -/

/-- The text without one carriage return at its end. -/
def dropReturn (s : String) : String :=
  match s.toList.reverse with
  | '\r' :: cs => String.ofList cs.reverse
  | _ => s

/-- The text without the carriage returns it ends in. -/
def dropReturns (s : String) : String :=
  String.ofList (dropEndWhile (· == '\r') s.toList)

/-- The lines that the pieces of a text stand for. -/
def linesOfPieces : List String → List String
  | [] => []
  | [last] => if last = "" then [] else [last]
  | p :: ps => dropReturn p :: linesOfPieces ps

/-- The lines of a text, without their endings. -/
def lines (s : String) : List String :=
  linesOfPieces (pieces s)

def endsLine (s : String) : Bool :=
  s.toList.getLast? == some '\n'

/-! ## Lines with their endings -/

/-- The lines, each with its ending: a newline, a carriage return, or both. -/
def splitTerminated : List Char → List (List Char)
  | [] => []
  | c :: cs =>
    if c = '\n' ∨ (c = '\r' ∧ cs.head? ≠ some '\n') then [c] :: splitTerminated cs
    else consToFirst c (splitTerminated cs)

def terminatedLines (s : String) : List String :=
  (splitTerminated s.toList).map String.ofList

/-! ## Beginnings -/

/-- What follows the given beginning of a text. -/
def after? (start s : String) : Option String :=
  (start.toList.isPrefixOf? s.toList).map String.ofList

def startsWith (start s : String) : Bool :=
  start.toList.isPrefixOf s.toList

/-- The text has `part` somewhere inside. -/
def hasPart (part : List Char) : List Char → Bool
  | [] => part.isEmpty
  | c :: cs => part.isPrefixOf (c :: cs) || hasPart part cs

/-- What stands before and after the first occurrence of `part`. -/
def splitOnce? (part : List Char) : List Char → Option (List Char × List Char)
  | [] => if part.isEmpty then some ([], []) else none
  | c :: cs =>
    match part.isPrefixOf? (c :: cs) with
    | some rest => some ([], rest)
    | none => (splitOnce? part cs).map fun (before, rest) => (c :: before, rest)

/-- What stands before and after the last `mark`. -/
def splitLast? (mark : Char) (s : List Char) : Option (List Char × List Char) :=
  if mark ∈ s then
    let tail := (s.reverse.takeWhile (· ≠ mark)).reverse
    some (s.take (s.length - tail.length - 1), tail)
  else none

end DiffSlice.Text
