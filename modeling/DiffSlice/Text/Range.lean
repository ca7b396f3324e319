/-!
# Character classes as tables of code point ranges

A class of characters is a list of inclusive ranges of code points (`Ranges`); `Ranges.has` asks for membership.
-/

namespace DiffSlice.Text

/-- Inclusive ranges of code points. -/
abbrev Ranges := List (Nat × Nat)

def Ranges.has (table : Ranges) (c : Char) : Bool :=
  table.any fun r => r.1 ≤ c.toNat && c.toNat ≤ r.2

def isAsciiDigit (c : Char) : Bool :=
  '0' ≤ c && c ≤ '9'

def isAsciiLetter (c : Char) : Bool :=
  ('a' ≤ c && c ≤ 'z') || ('A' ≤ c && c ≤ 'Z')

def isHexDigit (c : Char) : Bool :=
  isAsciiDigit c || ('a' ≤ c && c ≤ 'f') || ('A' ≤ c && c ≤ 'F')

end DiffSlice.Text
