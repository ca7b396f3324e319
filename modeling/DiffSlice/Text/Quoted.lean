import DiffSlice.Text.Shown

/-!
# Quoted texts

`quoted s` is `s` between double quotes, with quotes, backslashes and the common controls escaped by a backslash and
every other character that does not show written by its code point.
-/

namespace DiffSlice.Text

/-- A character inside double quotes. -/
def quotedChar (c : Char) : List Char :=
  match c with
  | '"' => ['\\', '"']
  | '\\' => ['\\', '\\']
  | '\n' => ['\\', 'n']
  | '\r' => ['\\', 'r']
  | '\t' => ['\\', 't']
  | '\x00' => ['\\', '0']
  | c => if isShown c then [c] else ['\\', 'u', '\x7b'] ++ Nat.toDigits 16 c.toNat ++ ['\x7d']

def quoted (s : String) : String :=
  String.ofList (['"'] ++ s.toList.flatMap quotedChar ++ ['"'])

end DiffSlice.Text
