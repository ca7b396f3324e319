import DiffSlice.Text.Digit
import DiffSlice.Text.Lines
import DiffSlice.Text.Word

/-!
# Decorators in shown lines

Lines are shown behind a margin: an edit mark, a line number, blanks. In them, decorators are told from declarations
and fields by how the line starts after its margin. Decorators that follow one another form a group; a group whose
declaration is not shown is dropped whole (`dropStray`).
-/

namespace DiffSlice.Decorator

open DiffSlice.Text

/-! ## How a line starts -/

/-- The line after its margin: a plus, blanks, digits, blanks, each of which may be missing. -/
def afterMargin (line : String) : List Char :=
  let s := match line.toList with
    | '+' :: rest => rest
    | s => s
  ((s.dropWhile isBlank).dropWhile isDigit).dropWhile isBlank

/-- What follows a word and at least one blank. -/
def afterWord? (word : String) (s : List Char) : Option (List Char) :=
  match word.toList.isPrefixOf? s with
  | some (c :: rest) => if isBlank c then some (rest.dropWhile isBlank) else none
  | _ => none

/-- What follows a word and blanks, or everything if it does not start so. -/
def dropWord (word : String) (s : List Char) : List Char :=
  (afterWord? word s).getD s

/-- The word stands here, and no longer one. -/
def atWord (word : String) (s : List Char) : Bool :=
  match word.toList.isPrefixOf? s with
  | some (c :: _) => !isWordChar c
  | some [] => true
  | none => false

/-- The test holds here, or after some of the words with blanks behind each. -/
def afterWords (words : List String) (test : List Char → Bool) (s : List Char) : Nat → Bool
  | 0 => test s
  | fuel + 1 =>
    test s || match words.findSome? fun word => afterWord? word s with
      | some rest => afterWords words test rest fuel
      | none => false

def startsName (c : Char) : Bool :=
  isAsciiLetter c || c == '_' || c == '$'

/-- What follows a name whose further characters are letters, digits, `_`, `$` and those in `more`. -/
def afterName? (more : List Char) : List Char → Option (List Char)
  | [] => none
  | c :: rest =>
    if startsName c then
      some (rest.dropWhile fun d => startsName d || isAsciiDigit d || more.contains d)
    else none

/-- What is left after one of the marks, if one stands here. -/
def dropMark (marks : List Char) : List Char → List Char
  | [] => []
  | c :: rest => if marks.contains c then rest else c :: rest

/-- A name with parameters starts here. -/
def startsMethod (s : List Char) : Bool :=
  match afterName? [':'] (dropMark ['*', '#'] s) with
  | some rest => (rest.dropWhile isBlank).head? == some '('
  | none => false

/-- A name with a value, a type or nothing behind it starts here. -/
def startsProperty (s : List Char) : Bool :=
  match afterName? [] (dropMark ['#'] s) with
  | some rest =>
    match rest.dropWhile isBlank with
    | [] => true
    | c :: _ => c == '=' || c == ';' || c == ':'
  | none => false

def startsDecorator (line : String) : Bool :=
  (afterMargin line).head? == some '@'

/-- The line starts a function, a class or a method. -/
def startsDeclaration (line : String) : Bool :=
  let s := afterMargin line
  let exported := dropWord "default" (dropWord "export" s)
  atWord "function" (dropWord "async" exported) || atWord "class" (dropWord "abstract" exported) ||
    afterWords ["static", "async", "get", "set", "public", "private", "protected", "readonly", "override"] startsMethod
      s s.length

def startsField (line : String) : Bool :=
  let s := afterMargin line
  afterWords ["static", "readonly", "public", "private", "protected", "declare", "accessor"] startsProperty s s.length

/-- What follows the arguments of a decorator, if it has any, without parentheses inside them. -/
def dropArguments (s : List Char) : Option (List Char) :=
  match s with
  | '(' :: rest =>
    match rest.dropWhile fun c => c != '(' && c != ')' with
    | ')' :: rest => some rest
    | _ => none
  | s => some s

/-- What follows a decorator and the blanks behind it. -/
def afterDecorator? : List Char → Option (List Char)
  | '@' :: c :: rest =>
    if startsName c then
      match dropArguments (rest.dropWhile fun d => isWordChar d || d == '.' || d == '$') with
      | some (d :: rest) => if isBlank d then some (rest.dropWhile isBlank) else none
      | _ => none
    else none
  | _ => none

/-- Decorators and the start of a member are here. -/
def decoratedHere (s : List Char) : Nat → Bool
  | 0 => false
  | fuel + 1 =>
    match afterDecorator? s with
    | some (c :: rest) => c == '#' || c == '*' || startsName c || decoratedHere (c :: rest) fuel
    | _ => false

/-- The line has decorators and the start of their member. -/
def carriesMember (line : String) : Bool :=
  let s := afterMargin line
  decoratedHere s s.length

/-! ## Groups -/

/-- A line outside of decorators, or a group of decorators. -/
inductive Block where
  | line (text : String)
  | group (lines : List String)
deriving DecidableEq, Repr

/-- How many more parentheses the line opens than it closes. -/
def parenBalance (line : String) : Int :=
  (line.toList.count '(' : Int) - line.toList.count ')'

/-- The lines up to the first after which as many parentheses are closed as are open, or all, and the rest. -/
def decoratorLines (depth : Int) : List String → List String × List String
  | [] => ([], [])
  | line :: rest =>
    if depth + parenBalance line = 0 then ([line], rest)
    else
      let (more, after) := decoratorLines (depth + parenBalance line) rest
      (line :: more, after)

/-- The decorators that the lines start with, one right after the other, and the rest. -/
def groupLines : Nat → List String → List String × List String
  | 0, lines => ([], lines)
  | _ + 1, [] => ([], [])
  | fuel + 1, line :: rest =>
    if startsDecorator line then
      let (first, after) := decoratorLines 0 (line :: rest)
      let (more, after) := groupLines fuel after
      (first ++ more, after)
    else ([], line :: rest)

/-- The lines with their decorators in groups. -/
def blocksFrom : Nat → List String → List Block
  | 0, _ => []
  | _ + 1, [] => []
  | fuel + 1, line :: rest =>
    if startsDecorator line then
      let (group, after) := groupLines (rest.length + 1) (line :: rest)
      .group group :: blocksFrom fuel after
    else .line line :: blocksFrom fuel rest

/-- The lines with their decorators in groups. -/
def blocks (lines : List String) : List Block :=
  blocksFrom lines.length lines

/-- The group belongs to something shown: the line after it, or a member on its own last line. -/
def isAttached (group : List String) (after : List Block) : Bool :=
  group.getLast?.any carriesMember || match after with
    | .line next :: _ => startsDeclaration next || startsField next
    | _ => false

/-- The lines of the blocks, without the groups that belong to nothing shown. -/
def keptLines : List Block → List String
  | [] => []
  | .line text :: rest => text :: keptLines rest
  | .group group :: rest => if isAttached group rest then group ++ keptLines rest else keptLines rest

/-- The lines without groups of decorators that belong to nothing shown. -/
def dropStray (lines : List String) : List String :=
  keptLines (blocks lines)

end DiffSlice.Decorator
