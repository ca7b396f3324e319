import DiffSlice.Insertion.Indent
import DiffSlice.Insertion.Point

/-!
# Splicing a fragment in

The fragment's lines go in at a point, after an empty line and with the indentation of that point. Lines keep the
kind of ending the text uses.
-/

namespace DiffSlice

open DiffSlice.Text

def lineEnding (source : String) : String :=
  if hasPart ['\r', '\n'] source.toList then "\r\n" else "\n"

/-- The line with an indentation, unless it is blank. -/
def indentLine (indent line : String) : String :=
  if isBlankText line then "" else indent ++ line

/-- The lines of a fragment, indented, after an empty line. -/
def fragmentLines (indent fragment : String) : List String :=
  "" :: (lines (dedent fragment)).map (indentLine indent)

/-- The text with the fragment in it at the given point, or at its end if it has fewer lines. -/
def splice (source : String) (lineIndex : Nat) (indent fragment : String) : String :=
  let ls := lines source
  let ending := lineEnding source
  let all := ls.take lineIndex ++ fragmentLines indent fragment ++ ls.drop lineIndex
  ending.intercalate all ++ if endsLine source then ending else ""

/-- The point for a fragment: in the suite with the given description, or where the file ends. -/
def insertionPoint (file : String) (suite : Option String) (language : SourceLanguage) (callees : TestSyntax) :
    Except InsertionError InsertionPoint := do
  let tree ← (SyntaxTree.parse file language).mapError .unparseable
  match suite with
  | some suite => InsertionPoint.findSuite tree callees suite
  | none => InsertionPoint.find tree callees

/-- The file with the fragment in it: in the suite with the given description, or where the file ends. -/
def inject (file fragment : String) (suite : Option String) (language : SourceLanguage) (callees : TestSyntax) :
    Except InsertionError String := do
  let point ← insertionPoint file suite language callees
  return splice file point.lineIndex point.indent fragment

end DiffSlice
