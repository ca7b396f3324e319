/-!
# Places in a source text

A cursor is a place in a source: the characters ahead, and how much is behind, in bytes and in lines.
-/

namespace DiffSlice.JavaScript

/-- A place in a source text. -/
structure Cursor where
  /-- The characters ahead. -/
  rest : List Char
  /-- The number of characters ahead. -/
  left : Nat
  /-- The number of bytes behind, as UTF-8. -/
  offset : Nat
  /-- The number of newlines behind. -/
  row : Nat

namespace Cursor

def start (source : List Char) : Cursor := ⟨source, source.length, 0, 0⟩

def next (c : Cursor) : Cursor :=
  match c.rest with
  | [] => c
  | ch :: rest => ⟨rest, c.left - 1, c.offset + ch.utf8Size, if ch == '\n' then c.row + 1 else c.row⟩

def skip (c : Cursor) : Nat → Cursor
  | 0 => c
  | n + 1 => c.next.skip n

/-- The place after the characters ahead that satisfy the test. -/
def skipWhile (c : Cursor) (p : Char → Bool) : Cursor :=
  c.skip (c.rest.takeWhile p).length

def textUpTo (c d : Cursor) : String :=
  String.ofList (c.rest.take (c.left - d.left))

end Cursor

end DiffSlice.JavaScript
