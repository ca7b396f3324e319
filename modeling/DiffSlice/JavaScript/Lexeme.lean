import DiffSlice.JavaScript.Cursor
import DiffSlice.Text.Range

/-!
# Lexemes

The texts of the tokens that have no fixed spelling. Each function takes the characters ahead and gives the length of
the lexeme, if there is one. The null character is part of no lexeme.
-/

namespace DiffSlice.JavaScript

open DiffSlice.Text

/-! ## Blanks and comments -/

def isAsciiBlank (c : Char) : Bool :=
  c == ' ' || (9 ≤ c.toNat && c.toNat ≤ 13)

/-- The character may stand between any two lexemes. -/
def isSpace (c : Char) : Bool :=
  isAsciiBlank c || Ranges.has [(0xA0, 0xA0), (0x1680, 0x1680), (0x2000, 0x200B), (0x2028, 0x2029),
    (0x202F, 0x202F), (0x205F, 0x2060), (0x3000, 0x3000), (0xFEFF, 0xFEFF)] c

def isLineEnd (c : Char) : Bool :=
  c == '\n' || c.toNat == 0x2028 || c.toNat == 0x2029

def isNull (c : Char) : Bool :=
  c == '\x00'

/-- The length of the rest of a block comment with its end. -/
def blockCommentTail? : List Char → Option Nat
  | '\x00' :: _ => none
  | '*' :: '/' :: _ => some 2
  | _ :: rest => (blockCommentTail? rest).map (· + 1)
  | [] => none

def comment? : List Char → Option Nat
  | '/' :: '/' :: rest => some (2 + (rest.takeWhile fun c => !(isLineEnd c || c == '\r' || isNull c)).length)
  | '/' :: '*' :: rest => (blockCommentTail? rest).map (· + 2)
  | _ => none

/-- The length of a comment in the style of HTML, which runs to the end of its line. -/
def htmlComment? : List Char → Option Nat
  | '<' :: '!' :: '-' :: '-' :: rest => some (4 + (rest.takeWhile fun c => !(isLineEnd c || isNull c)).length)
  | '-' :: '-' :: '>' :: rest => some (3 + (rest.takeWhile fun c => !(isLineEnd c || isNull c)).length)
  | _ => none

/-- The length of a line that names the program to run the file. -/
def hashBang? : List Char → Option Nat
  | '#' :: '!' :: rest => some (2 + (rest.takeWhile fun c => !(c == '\n' || isNull c)).length)
  | _ => none

/-! ## Words -/

/-- The character cannot be part of a word. -/
def endsWord (c : Char) : Bool :=
  c.toNat ≤ 0x1F || isSpace c || ":;`\"'@#.,|^&<=>+-*/\\%?!~()[]\x7b\x7d".toList.contains c

def wordEscape? : List Char → Option Nat
  | '\\' :: 'u' :: '\x7b' :: rest =>
    let digits := rest.takeWhile isHexDigit
    if digits != [] && (rest.drop digits.length).head? == some '\x7d' then some (digits.length + 4) else none
  | '\\' :: 'u' :: a :: b :: c :: d :: _ => if [a, b, c, d].all isHexDigit then some 6 else none
  | _ => none

/-- The length of the characters of a word, of which there may be none, with `skip` characters before them. -/
def wordTail (skip : Nat) : List Char → Nat
  | [] => 0
  | c :: rest =>
    match skip with
    | skip + 1 => wordTail skip rest + 1
    | 0 =>
      if !endsWord c then wordTail 0 rest + 1
      else
        match wordEscape? (c :: rest) with
        | some length => wordTail (length - 1) rest + 1
        | none => 0

def word? (s : List Char) : Option Nat :=
  match s with
  | [] => none
  | c :: _ =>
    if isAsciiDigit c || (endsWord c && wordEscape? s == none) then none else some (wordTail 0 s)

def privateName? : List Char → Option Nat
  | '#' :: rest => (word? rest).map (· + 1)
  | _ => none

/-- The length of the word `static` with the word `get` and a newline after it. -/
def staticGet? (s : List Char) : Option Nat :=
  match "static".toList.isPrefixOf? s with
  | none => none
  | some rest =>
    let blanks := rest.takeWhile isAsciiBlank
    match blanks, "get".toList.isPrefixOf? (rest.drop blanks.length) with
    | _ :: _, some rest =>
      let toNewline := (rest.takeWhile isAsciiBlank).reverse.dropWhile (· != '\n')
      if toNewline.isEmpty then none else some (9 + blanks.length + toNewline.length)
    | _, _ => none

/-! ## Numbers -/

/-- The length of digits with single underscores between them. -/
def digitsLength (isDigit : Char → Bool) : List Char → Nat
  | '_' :: d :: rest => if isDigit d then digitsLength isDigit rest + 2 else 0
  | d :: rest => if isDigit d then digitsLength isDigit rest + 1 else 0
  | [] => 0

/-- The length of at least one digit. -/
def digitRun? (isDigit : Char → Bool) : List Char → Option Nat
  | d :: rest => if isDigit d then some (digitsLength isDigit rest + 1) else none
  | [] => none

/-- The length of an exponent, if there is one. -/
def exponentLength : List Char → Nat
  | e :: rest =>
    if e == 'e' || e == 'E' then
      match rest with
      | '+' :: r => ((digitRun? isAsciiDigit r).map (· + 2)).getD 0
      | '-' :: r => ((digitRun? isAsciiDigit r).map (· + 2)).getD 0
      | r => ((digitRun? isAsciiDigit r).map (· + 1)).getD 0
    else 0
  | [] => 0

/-- The length of the mark of a big integer, if there is one. -/
def bigLength : List Char → Nat
  | 'n' :: _ => 1
  | _ => 0

/-- The length of a number with a base mark. -/
def basedNumber? : List Char → Option Nat
  | '0' :: b :: rest =>
    let ofClass := fun isDigit => (digitRun? isDigit rest).map fun n => 2 + n + bigLength (rest.drop n)
    if b == 'x' || b == 'X' then ofClass isHexDigit
    else if b == 'b' || b == 'B' then ofClass fun d => d == '0' || d == '1'
    else if b == 'o' || b == 'O' then ofClass fun d => '0' ≤ d && d ≤ '7'
    else none
  | _ => none

/-- Digits before a point or an exponent: a single zero, or at most one zero before another digit. -/
def isWholePart : List Char → Bool
  | ['0'] => true
  | '0' :: d :: _ => isAsciiDigit d && d != '0'
  | _ => true

def decimalNumber? (s : List Char) : Option Nat :=
  let fraction := fun (rest : List Char) (n : Nat) => 1 + n + exponentLength (rest.drop n)
  match digitRun? isAsciiDigit s with
  | some n =>
    match s.drop n with
    | 'n' :: _ => some (n + 1)
    | rest =>
      if !isWholePart (s.take n) then some n
      else
        match rest with
        | '.' :: rest => some (n + fraction rest ((digitRun? isAsciiDigit rest).getD 0))
        | rest => some (n + exponentLength rest)
  | none =>
    match s with
    | '.' :: rest => (digitRun? isAsciiDigit rest).map (fraction rest)
    | _ => none

def number? (s : List Char) : Option Nat :=
  (basedNumber? s).or (decimalNumber? s)

/-! ## Parts of strings, templates and regular expressions -/

/-- The length of the characters ahead that satisfy the test, if there are any. -/
def run? (p : Char → Bool) (s : List Char) : Option Nat :=
  match (s.takeWhile p).length with
  | 0 => none
  | n + 1 => some (n + 1)

/-- The length of a part of a string without escapes. -/
def fragment? (quote : Char) (s : List Char) : Option Nat :=
  run? (fun c => !(c == quote || c == '\\' || c == '\r' || c == '\n' || isNull c)) s

def isOctalDigit (c : Char) : Bool :=
  '0' ≤ c && c ≤ '7'

def escape? : List Char → Option Nat
  | '\\' :: 'x' :: a :: b :: _ => if isHexDigit a && isHexDigit b then some 4 else none
  | '\\' :: 'x' :: _ => none
  | '\\' :: 'u' :: rest => wordEscape? ('\\' :: 'u' :: rest)
  | '\\' :: c :: rest =>
    if isOctalDigit c then some (2 + ((rest.take 2).takeWhile isOctalDigit).length)
    else if isNull c then none
    else if (c == '\r' || c == '?') && rest.head?.any isLineEnd then some 3
    else some 2
  | _ => none

/-- The length of the text of a template up to what ends it: an escape, a substitution or the closing mark. -/
def templateText? : List Char → Option Nat
  | [] => none
  | '\x00' :: _ => none
  | '`' :: _ => some 0
  | '\\' :: _ => some 0
  | '$' :: '\x7b' :: _ => some 0
  | _ :: rest => (templateText? rest).map (· + 1)

/-- The length of the rest of a character class with its bracket. -/
def classTail? : List Char → Option Nat
  | ']' :: _ => some 1
  | '\\' :: c :: rest => if c == '\n' || isNull c then none else (classTail? rest).map (· + 2)
  | c :: rest => if c == '\n' || c == '\\' || isNull c then none else (classTail? rest).map (· + 1)
  | [] => none

/-- The length of the text of a regular expression, of which there may be none, with `skip` characters before it. -/
def regexLength (skip : Nat) : List Char → Nat
  | [] => 0
  | c :: rest =>
    match skip with
    | skip + 1 => regexLength skip rest + 1
    | 0 =>
      if c == '/' || c == '\n' || isNull c then 0
      else if c == '[' then
        match classTail? rest with
        | some length => regexLength length rest + 1
        | none => 0
      else if c == '\\' then
        match rest with
        | d :: _ => if d == '\n' || isNull d then 0 else regexLength 1 rest + 1
        | [] => 0
      else regexLength 0 rest + 1

def regexPattern? (s : List Char) : Option Nat :=
  match regexLength 0 s with
  | 0 => none
  | n + 1 => some (n + 1)

def regexFlags? (s : List Char) : Option Nat :=
  run? (fun c => 'a' ≤ c && c ≤ 'z') s

/-! ## Parts of markup -/

/-- The character can be part of a name in markup, hyphens aside. -/
def isMarkupNameChar (c : Char) : Bool :=
  isAsciiLetter c || isAsciiDigit c || c == '_' || c == '$'

def hyphenatedName? (s : List Char) : Option Nat :=
  let front := s.takeWhile isMarkupNameChar
  let tail := (s.drop front.length).takeWhile fun c => isMarkupNameChar c || c == '-'
  if front.head?.any (!isAsciiDigit ·) && tail.head? == some '-' then some (front.length + tail.length) else none

/-- The length of a character written by its name or number. -/
def characterReference? (s : List Char) : Option Nat :=
  let closed := fun (before limit : Nat) (p : Char → Bool) (rest : List Char) =>
    let n := (rest.takeWhile p).length
    if 1 ≤ n && n ≤ limit && (rest.drop n).head? == some ';' then some (before + n + 1) else none
  match s with
  | '&' :: '#' :: x :: rest =>
    if x == 'x' || x == 'X' then closed 3 6 isHexDigit rest else closed 2 5 isAsciiDigit (x :: rest)
  | '&' :: rest => closed 1 30 isAsciiLetter rest
  | _ => none

/-- The length of a part of a string in markup, of which there may be none: everything but the quote and what could
be a character reference. -/
def markupFragmentLength (quote : Char) : List Char → Nat
  | '&' :: c :: rest =>
    if c == '#' || isAsciiLetter c || isNull c then 0 else markupFragmentLength quote rest + 2
  | c :: rest => if c == quote || c == '&' || isNull c then 0 else markupFragmentLength quote rest + 1
  | [] => 0

/-- The length of a part of a string in markup. -/
def markupFragment? (quote : Char) (s : List Char) : Option Nat :=
  match markupFragmentLength quote s with
  | 0 => none
  | n + 1 => some (n + 1)

def markupTextLength (s : List Char) : Nat :=
  (s.takeWhile fun c => !"<>\x7b\x7d&\x00".toList.contains c).length

/-- The text is more than newlines and the blanks after them; `fresh` tells that only such came before. -/
def hasMarkupText (fresh : Bool) : List Char → Bool
  | [] => false
  | c :: rest =>
    if c == '\n' then hasMarkupText true rest
    else !(fresh && isAsciiBlank c) || hasMarkupText fresh rest

/-- The length of a text between markup elements, if it is more than newlines and indentation. -/
def markupText? (s : List Char) : Option Nat :=
  let length := markupTextLength s
  if hasMarkupText false (s.take length) then some length else none

end DiffSlice.JavaScript
