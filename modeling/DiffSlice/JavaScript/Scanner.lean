import DiffSlice.JavaScript.Token
import DiffSlice.JavaScript.Semicolon

/-!
# Scanning for the next token

Which token comes next depends on what the grammar expects there: a slash may divide or open a regular expression, a
word may be a name, and the end of a line may be a semicolon. `scan` takes the expected tokens and gives the lexeme at
a place. Where none of them comes, `scanAny` takes any token, and `nextLexeme` in the end even characters that belong
to none.
-/

namespace DiffSlice.JavaScript

open DiffSlice.Text

/-- A token between two places. -/
structure Lexeme where
  token : Token
  start : Cursor
  stop : Cursor

def Lexeme.ofLength (t : Token) (c : Cursor) (n : Nat) : Lexeme := ⟨t, c, c.skip n⟩

/-! ## Tokens that the characters alone do not tell -/

/-- The question mark of a conditional expression after blanks, not one that belongs to a longer punctuator. -/
def questionMark? (c : Cursor) : Option Lexeme :=
  let d := c.skipWhile isAsciiBlank
  match d.rest with
  | '?' :: '?' :: _ => none
  | '?' :: '.' :: digit :: _ => if isAsciiDigit digit then some (.ofLength .questionMark d 1) else none
  | ['?', '.'] => none
  | '?' :: _ => some (.ofLength .questionMark d 1)
  | _ => none

/-- The place past blanks and the end of a line, up to which the end of a statement is looked for. -/
def Cursor.pastLineEnd (c : Cursor) : Cursor :=
  let d := c.skipWhile isAsciiBlank
  if d.rest.head?.any isLineEnd then d.next else d

/-- Scans for a token that needs to know what else is expected. -/
def scanSpecial (expected : TokenSet) (c : Cursor) : Option Lexeme :=
  if expected.has .templateText then
    if expected.has .automaticSemicolon then none
    else
      match templateText? c.rest with
      | some (n + 1) => some (.ofLength .templateText c (n + 1))
      | _ => none
  else
    match if expected.has .markupText then markupText? c.rest else none with
    | some n => some (.ofLength .markupText c n)
    | none =>
      if expected.has .automaticSemicolon && semicolonAhead (expected.has .logicalOr) c.rest (c.left + 2) then
        some (.ofLength .automaticSemicolon c 0)
      else if expected.has .questionMark then
        questionMark? (if expected.has .automaticSemicolon then c.pastLineEnd else c)
      else if expected.has .automaticSemicolon || expected.has .logicalOr || expected.has .escapeSequence
          || expected.has .regexPattern then none
      else
        let d := c.skipWhile fun ch => isAsciiBlank ch || isLineEnd ch
        (htmlComment? d.rest).map (.ofLength .htmlComment d)

/-! ## Tokens that the characters tell -/

/-- A class of texts: the token, the length of the text at the characters ahead, and whether it may only stand right
where the scan begins. Of two texts that fit, the one of higher priority counts, then the longer one. -/
structure Pattern where
  token : Token
  length? : List Char → Option Nat
  isImmediate : Bool := false
  priority : Int := 0

/-- The patterns of tokens that are told by their characters anywhere. -/
def plainPatterns : List Pattern :=
  [{ token := .privateName, length? := privateName? },
   { token := .number, length? := number? },
   { token := .comment, length? := comment? },
   { token := .characterReference, length? := characterReference? },
   { token := .staticGet, length? := staticGet? }]

/-- The patterns of tokens that are told by their characters only where they are expected. -/
def contextPatterns : List Pattern :=
  [{ token := .hashBangLine, length? := hashBang? },
   { token := .hyphenatedName, length? := hyphenatedName? },
   { token := .doubleFragment, length? := fragment? '"', isImmediate := true, priority := 1 },
   { token := .singleFragment, length? := fragment? '\'', isImmediate := true, priority := 1 },
   { token := .markupDoubleFragment, length? := markupFragment? '"', isImmediate := true, priority := 1 },
   { token := .markupSingleFragment, length? := markupFragment? '\'', isImmediate := true, priority := 1 },
   { token := .escapeSequence, length? := escape?, isImmediate := true },
   { token := .regexPattern, length? := regexPattern?, isImmediate := true, priority := -1 },
   { token := .regexEnd, length? := fun s => if s.head? == some '/' then some 1 else none, isImmediate := true,
     priority := 1 },
   { token := .regexFlags, length? := regexFlags?, isImmediate := true }]

/-- A text that fits. -/
structure Candidate where
  lexeme : Lexeme
  length : Nat
  priority : Int
  isFixed : Bool

/-- The second candidate counts rather than the first: by priority, then by length; a fixed spelling is preferred. -/
def Candidate.yields (a b : Candidate) : Bool :=
  a.priority < b.priority || (a.priority == b.priority
    && (a.length < b.length || (a.length == b.length && !a.isFixed && b.isFixed)))

def Candidate.best? : List Candidate → Option Candidate
  | [] => none
  | a :: rest => some (rest.foldl (fun a b => if a.yields b then b else a) a)

/-- The candidate of a pattern at the characters ahead; `d` is the place after the blanks. -/
def Pattern.candidate? (c d : Cursor) (p : Pattern) : Option Candidate :=
  let start := if p.isImmediate then c else d
  match p.length? start.rest with
  | some (n + 1) => some ⟨.ofLength p.token start (n + 1), n + 1, p.priority, false⟩
  | _ => none

/-- The punctuators by their characters. -/
def punctuatorTable : List (List Char × Token) :=
  Token.punctuators.map fun (text, token) => (text.toList, token)

def punctuatorCandidates (allowed : Token → Bool) (d : Cursor) : List Candidate :=
  punctuatorTable.filterMap fun (text, token) =>
    if text.isPrefixOf d.rest && allowed token then
      some ⟨.ofLength token d text.length, text.length, 0, true⟩
    else none

/-- The words with a meaning of their own, by their characters. -/
def wordTable : List (List Char × Token) :=
  Token.words.map fun (text, token) => (text.toList, token)

/-- The word that a name spells, if it is one that satisfies the test. -/
def Lexeme.asWord (allowed : Token → Bool) (l : Lexeme) : Lexeme :=
  if l.token == .identifier then
    let text := l.start.rest.take (l.start.left - l.stop.left)
    match wordTable.find? (·.1 == text) with
    | some (_, word) => if allowed word then { l with token := word } else l
    | none => l
  else l

def wordSet : TokenSet := .ofList (Token.words.map (·.2))

def namePattern : Pattern := { token := .identifier, length? := word? }

/-- Words are reserved where these tokens are expected. -/
def TokenSet.reserves (expected : TokenSet) : Bool :=
  expected.has .identifier && !expected.has .anyName

/-- Scans for one of the expected tokens. -/
def scan (expected : TokenSet) (c : Cursor) : Option Lexeme :=
  match scanSpecial expected c with
  | some l => some l
  | none =>
    let d := c.skipWhile isSpace
    if d.rest.isEmpty then
      if expected.has .endOfText then some (.ofLength .endOfText d 0) else none
    else
      let patterns := (plainPatterns ++ contextPatterns).filter fun p => expected.has p.token
      let names := if expected.has .identifier || expected.bits &&& wordSet.bits != 0 then [namePattern] else []
      let candidates := punctuatorCandidates expected.has d ++ (patterns ++ names).filterMap (Pattern.candidate? c d)
      (Candidate.best? candidates).map fun found =>
        found.lexeme.asWord fun word => expected.has word || (word.isReserved && expected.reserves)

/-- Scans for any token that its characters tell. -/
def scanAny (c : Cursor) : Option Lexeme :=
  let d := c.skipWhile isSpace
  if d.rest.isEmpty then some (.ofLength .endOfText d 0)
  else
    let candidates := punctuatorCandidates (fun _ => true) d
      ++ (namePattern :: plainPatterns).filterMap (Pattern.candidate? c d)
    (Candidate.best? candidates).map fun found => found.lexeme.asWord fun _ => true

/-- The first place, within the given number of characters, from which a token can be scanned. -/
def skipStray (c : Cursor) : Nat → Cursor
  | 0 => c
  | n + 1 => if c.rest.isEmpty || (scanAny c).isSome then c else skipStray c.next n

/-- The next lexeme: one of the expected tokens, or any token, or characters that belong to none. If nothing is
expected, reading is lost and any token will do. -/
def nextLexeme (expected : Option TokenSet) (c : Cursor) : Lexeme :=
  match (expected.bind fun set => scan set c).or (scanAny c) with
  | some l => l
  | none =>
    let d := c.skipWhile isSpace
    ⟨.stray, d, skipStray d.next d.left⟩

end DiffSlice.JavaScript
