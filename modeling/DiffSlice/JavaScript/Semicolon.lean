import DiffSlice.JavaScript.Lexeme

/-!
# Automatic semicolons

Where a statement may end, the end of its line can stand for a semicolon. `semicolonAhead` decides it from the
characters ahead: at the end of the source and before a closing brace there is one, and after a line end unless the
next line goes on with the expression. What counts between is comments: one without a line end is passed over, and
where no operator could follow (`operators` is off) one with a line end is a line end.
-/

namespace DiffSlice.JavaScript

open DiffSlice.Text

/-- What came of passing over blanks and comments. -/
inductive Passed where
  /-- A slash that opens no comment. -/
  | slash
  /-- The characters after the blanks and comments. -/
  | to (rest : List Char)
  /-- The characters after a comment on one line. -/
  | oneLine (rest : List Char)

/-- What follows a block comment, and whether it holds a line end. -/
def passBlockComment (lineEnd : Bool) : List Char → Option (List Char × Bool)
  | [] => none
  | '\x00' :: _ => none
  | '*' :: '/' :: rest => some (rest, lineEnd)
  | c :: rest => passBlockComment (lineEnd || isLineEnd c) rest

/-- Passes over blanks and comments; unless `all` is set, a block comment that no slash follows is the last. -/
def pass (all lineEnd : Bool) (s : List Char) : Nat → Passed
  | 0 => .to s
  | fuel + 1 =>
    match s.dropWhile isAsciiBlank with
    | '/' :: '/' :: rest => pass all lineEnd (rest.dropWhile fun c => !(isLineEnd c || isNull c)) fuel
    | '/' :: '*' :: rest =>
      match passBlockComment lineEnd rest with
      | none => .to []
      | some (rest, lineEnd) =>
        if all || rest.head? == some '/' then pass all lineEnd rest fuel
        else if lineEnd then .to rest else .oneLine rest
    | '/' :: _ => .slash
    | s => .to s

/-- The next line, which starts with the given characters, does not go on with an expression. -/
def startsAnew : List Char → Bool
  | '.' :: c :: _ => isAsciiDigit c
  | ['.'] => false
  | '+' :: c :: _ => c == '+'
  | ['+'] => false
  | '-' :: c :: _ => c == '-'
  | ['-'] => false
  | '!' :: c :: _ => c != '='
  | 'i' :: 'n' :: rest =>
    match rest with
    | [] => false
    | c :: _ =>
      if !isAsciiLetter c then false
      else
        match "stanceof".toList.isPrefixOf? rest with
        | some (c :: _) => isAsciiLetter c
        | some [] => false
        | none => true
  | c :: _ => !"`,:;*%><=[(?^|&/".toList.contains c
  | [] => true

/-- A semicolon is understood before the characters ahead, where no comment starts; after a blank, `later` decides. -/
def semicolonAtLineEnd (later : List Char → Bool) (fuel : Nat) : List Char → Bool
  | [] => false
  | c :: rest =>
    if c == '\x7d' then true
    else if isLineEnd c then
      match pass true false rest fuel with
      | .slash => false
      | .to rest => startsAnew rest
      | .oneLine rest => startsAnew rest
    else isAsciiBlank c && later rest

/-- A semicolon is understood at the characters ahead. -/
def semicolonAhead (operators : Bool) (s : List Char) : Nat → Bool
  | 0 => false
  | fuel + 1 =>
    let later := fun rest => semicolonAhead operators rest fuel
    match s with
    | [] => true
    | '\x00' :: _ => true
    | '/' :: _ =>
      match pass false false s fuel with
      | .slash => false
      | .to rest =>
        (!operators && rest.head? != some ',' && rest.head? != some '=') || semicolonAtLineEnd later fuel rest
      | .oneLine rest => semicolonAtLineEnd later fuel rest
    | s => semicolonAtLineEnd later fuel s

end DiffSlice.JavaScript
