import DiffSlice.Text.Lines

/-!
# Indentation of a fragment

`dedent` takes the indentation of a fragment's first line that is not blank from all its lines, and what blanks there
are from lines that are indented otherwise. Blank lines become empty.
-/

namespace DiffSlice

open DiffSlice.Text

/-- The line without the given indentation. -/
def dedentLine (indent line : String) : String :=
  if isBlankText line then "" else (after? indent line).getD (trimStart line)

/-- The text without the indentation of its first line that is not blank. -/
def dedent (text : String) : String :=
  match (lines text).find? fun line => !isBlankText line with
  | none => ""
  | some first => joinLines ((lines text).map (dedentLine (indentation first)))

end DiffSlice
