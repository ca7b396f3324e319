import DiffSlice.Text.Digit
import DiffSlice.Text.Replace

/-!
# Runs of blank lines

What is cut from a source leaves blank lines behind. `collapseBlankRuns` replaces each run by one of them. What a blank
line is depends on how lines are annotated: numbered ones are matched with the newline behind them, and two or more are
a run; others with the newline before them.
-/

namespace DiffSlice

open DiffSlice.Text

/-- How the lines of a slice are shown. -/
inductive LineStyle where
  /-- A line number and a blank before each line. -/
  | lineNumbers
  /-- A plus before edited lines and a blank before others. -/
  | editMarkers
  | plain
deriving DecidableEq, Repr

/-- The length of a line at the start that holds a number and one blank, with the newline behind it. -/
def numberedBlank? (cs : List Char) : Option Nat :=
  let digits := (cs.takeWhile isDigit).length
  if digits != 0 && [' ', '\n'].isPrefixOf (cs.drop digits) then some (digits + 2) else none

/-- The length of a newline at the start, with a blank behind it. -/
def markedBlank? (cs : List Char) : Option Nat :=
  if ['\n', ' '].isPrefixOf cs then some 2 else none

/-- The length of a newline at the start. -/
def newline? (cs : List Char) : Option Nat :=
  if ['\n'].isPrefixOf cs then some 1 else none

/-- A row of two or more numbered blank lines, of which the first is left. -/
def numberedRun? : Matcher := fun atLineStart cs =>
  match numberedBlank? cs with
  | none => none
  | some first =>
    let more := rowLength numberedBlank? 0 (cs.drop first)
    if atLineStart && more != 0 then some ⟨first + more, cs.take first⟩ else none

/-- A row of units, at least so many characters long, for which something else is left. -/
def rowRun? (unit? : List Char → Option Nat) (least : Nat) (left : List Char) : Matcher := fun _ cs =>
  let length := rowLength unit? 0 cs
  if least ≤ length then some ⟨length, left⟩ else none

def markedRun? : Matcher :=
  rowRun? markedBlank? 1 ['\n', ' ']

def plainRun? : Matcher :=
  rowRun? newline? 3 ['\n', '\n']

/-- The run of blank lines at the start of the characters ahead, with what is left of it. -/
def LineStyle.blankRun? : LineStyle → Matcher
  | .lineNumbers => numberedRun?
  | .editMarkers => markedRun?
  | .plain => plainRun?

/-- The text with one blank line left of each run. -/
def collapseBlankRuns (style : LineStyle) (text : String) : String :=
  replaceAll style.blankRun? text

end DiffSlice
