import DiffSlice.Text.Range

/-!
# Blank characters and trimming

`isBlank` is the Unicode property White_Space. Trimming removes blank characters from the ends of a text; a blank
line holds nothing else.
-/

namespace DiffSlice.Text

/-- The characters with the Unicode property White_Space. -/
def blanks : Ranges :=
  [(0x9, 0xD), (0x20, 0x20), (0x85, 0x85), (0xA0, 0xA0), (0x1680, 0x1680), (0x2000, 0x200A), (0x2028, 0x2029),
   (0x202F, 0x202F), (0x205F, 0x205F), (0x3000, 0x3000)]

def isBlank (c : Char) : Bool :=
  blanks.has c

/-- The longest end of the list without elements that satisfy `p`, removed. -/
def dropEndWhile {α : Type} (p : α → Bool) (l : List α) : List α :=
  (l.reverse.dropWhile p).reverse

def trimStart (s : String) : String :=
  String.ofList (s.toList.dropWhile isBlank)

def trimEnd (s : String) : String :=
  String.ofList (dropEndWhile isBlank s.toList)

def trim (s : String) : String :=
  trimEnd (trimStart s)

/-- The text has no character but blank ones. -/
def isBlankText (s : String) : Bool :=
  s.toList.all isBlank

/-- The blank characters that a text starts with. -/
def indentation (s : String) : String :=
  String.ofList (s.toList.takeWhile isBlank)

end DiffSlice.Text
