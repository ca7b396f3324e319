import DiffSlice.Text.Blank

/-!
# Descriptions

The description of a suite or a case is written as a string, a template or a sum of such. `cleanDescription` takes
the quotes and plus signs out and leaves one space where blanks were, so that the same words give the same name
however they are broken up.
-/

namespace DiffSlice

open DiffSlice.Text

/-- The character belongs to how a description is written and not to its words. -/
def isDescriptionMark (c : Char) : Bool :=
  c == '"' || c == '\'' || c == '\x60' || c == '+'

/-- The characters with one space for each run of blanks; `afterBlank` is set inside a run. -/
def squeezeBlanks (afterBlank : Bool) : List Char → List Char
  | [] => []
  | c :: rest =>
    if isBlank c then
      if afterBlank then squeezeBlanks true rest else ' ' :: squeezeBlanks true rest
    else c :: squeezeBlanks false rest

/-- A space for the end of a line and for a tab. -/
def spaceForBreak (c : Char) : Char :=
  if c == '\n' || c == '\t' || c == '\r' then ' ' else c

/-- The words of a description, with single spaces between them. -/
def cleanDescription (raw : String) : String :=
  let stripped := String.ofList ((raw.toList.filter fun c => !isDescriptionMark c).map spaceForBreak)
  String.ofList (squeezeBlanks false (trim stripped).toList)

end DiffSlice
