/-!
# Tokens

The terminal symbols of the grammar of JavaScript. Words and punctuators have a fixed spelling; the others stand for a
class of texts. A set of tokens (`TokenSet`) says what may come next at a place of a source.
-/

namespace DiffSlice.JavaScript

/-- A terminal symbol. Two of them are never scanned for: `anyName`, which in a set says that no word is reserved,
and `stray`, for characters that belong to no token. -/
inductive Token where
  | endOfText | identifier | hashBangLine | exportWord | star | defaultWord | asWord | braceOpen | comma | braceClose
  | importWord | fromWord | withWord | varWord | letWord | constWord | usingWord | awaitWord | elseWord | ifWord
  | switchWord | forWord | parenOpen | semicolon | parenClose | inWord | ofWord | whileWord | doWord | tryWord
  | breakWord | continueWord | debuggerWord | returnWord | throwWord | colon | caseWord | catchWord | finallyWord
  | number | yieldWord | equals | bracketOpen | bracketClose | characterReference | less | greater | hyphenatedName
  | dot | lessSlash | slashGreater | doubleQuote | markupDoubleFragment | singleQuote | markupSingleFragment
  | classWord | extendsWord | asyncWord | functionWord | arrow | questionDot | newWord | privateName | plusEquals
  | minusEquals | starEquals | slashEquals | percentEquals | caretEquals | ampersandEquals | barEquals
  | shiftRightEquals | unsignedShiftEquals | shiftLeftEquals | powerEquals | andEquals | orEquals | coalesceEquals
  | ellipsis | logicalAnd | logicalOr | shiftRight | unsignedShift | shiftLeft | ampersand | caret | bar | plus
  | minus | slash | percent | power | lessEquals | equal | identical | notEqual | notIdentical | greaterEquals
  | coalesce | instanceofWord | exclamation | tilde | typeofWord | voidWord | deleteWord | increment | decrement
  | doubleFragment | escapeSequence | singleFragment | backtick | dollarBrace | regexPattern | regexEnd | regexFlags
  | targetWord | metaWord | thisWord | superWord | trueWord | falseWord | nullWord | undefinedWord | atSign
  | staticWord | staticGet | getWord | setWord | comment | automaticSemicolon | templateText | questionMark
  | htmlComment | markupText | anyName | stray
deriving DecidableEq, Repr

namespace Token

def count : Nat := Token.stray.ctorIdx + 1

def all : List Token := (List.range count).map Token.ofNat

def words : List (String × Token) :=
  [("export", exportWord), ("default", defaultWord), ("as", asWord), ("import", importWord), ("from", fromWord),
   ("with", withWord), ("var", varWord), ("let", letWord), ("const", constWord), ("using", usingWord),
   ("await", awaitWord), ("else", elseWord), ("if", ifWord), ("switch", switchWord), ("for", forWord),
   ("in", inWord), ("of", ofWord), ("while", whileWord), ("do", doWord), ("try", tryWord), ("break", breakWord),
   ("continue", continueWord), ("debugger", debuggerWord), ("return", returnWord), ("throw", throwWord),
   ("case", caseWord), ("catch", catchWord), ("finally", finallyWord), ("yield", yieldWord), ("class", classWord),
   ("extends", extendsWord), ("async", asyncWord), ("function", functionWord), ("new", newWord),
   ("instanceof", instanceofWord), ("typeof", typeofWord), ("void", voidWord), ("delete", deleteWord),
   ("target", targetWord), ("meta", metaWord), ("this", thisWord), ("super", superWord), ("true", trueWord),
   ("false", falseWord), ("null", nullWord), ("undefined", undefinedWord), ("static", staticWord), ("get", getWord),
   ("set", setWord)]

def punctuators : List (String × Token) :=
  [("*", star), ("\x7b", braceOpen), (",", comma), ("\x7d", braceClose), ("(", parenOpen), (";", semicolon),
   (")", parenClose), (":", colon), ("=", equals), ("[", bracketOpen), ("]", bracketClose), ("<", less),
   (">", greater), (".", dot), ("</", lessSlash), ("/>", slashGreater), ("\"", doubleQuote), ("'", singleQuote),
   ("=>", arrow), ("?.", questionDot), ("+=", plusEquals), ("-=", minusEquals), ("*=", starEquals),
   ("/=", slashEquals), ("%=", percentEquals), ("^=", caretEquals), ("&=", ampersandEquals), ("|=", barEquals),
   (">>=", shiftRightEquals), (">>>=", unsignedShiftEquals), ("<<=", shiftLeftEquals), ("**=", powerEquals),
   ("&&=", andEquals), ("||=", orEquals), ("??=", coalesceEquals), ("...", ellipsis), ("&&", logicalAnd),
   ("||", logicalOr), (">>", shiftRight), (">>>", unsignedShift), ("<<", shiftLeft), ("&", ampersand), ("^", caret),
   ("|", bar), ("+", plus), ("-", minus), ("/", slash), ("%", percent), ("**", power), ("<=", lessEquals),
   ("==", equal), ("===", identical), ("!=", notEqual), ("!==", notIdentical), (">=", greaterEquals),
   ("??", coalesce), ("!", exclamation), ("~", tilde), ("++", increment), ("--", decrement), ("`", backtick),
   ("$\x7b", dollarBrace), ("@", atSign)]

/-- The words that are no names, except where any word is one. -/
def isReserved (t : Token) : Bool :=
  [exportWord, defaultWord, importWord, withWord, varWord, constWord, elseWord, ifWord, switchWord, forWord, inWord,
   whileWord, doWord, tryWord, breakWord, continueWord, debuggerWord, returnWord, throwWord, caseWord, catchWord,
   finallyWord, classWord, extendsWord, functionWord, newWord, instanceofWord, typeofWord, voidWord, deleteWord,
   thisWord, superWord, trueWord, falseWord, nullWord].contains t

def isWord (t : Token) : Bool :=
  words.any fun (_, word) => word == t

/-- The token may stand anywhere and belongs to no phrase. -/
def isComment (t : Token) : Bool :=
  t == comment || t == htmlComment

/-- The token leaves no trace in the tree. -/
def isHidden (t : Token) : Bool :=
  t == automaticSemicolon || t == templateText || t == questionMark

/-- The token is a node of its own, not just a mark. -/
def isNode : Token → Bool
  | identifier | hashBangLine | number | characterReference | hyphenatedName | privateName | escapeSequence
  | regexPattern | regexFlags | comment | templateText | htmlComment | markupText | doubleFragment | singleFragment
  | markupDoubleFragment | markupSingleFragment => true
  | _ => false

end Token

/-- A set of tokens, as the bits of a number. -/
structure TokenSet where
  bits : Nat
deriving DecidableEq, Repr

namespace TokenSet

def empty : TokenSet := ⟨0⟩

def single (t : Token) : TokenSet := ⟨1 <<< t.ctorIdx⟩

def union (a b : TokenSet) : TokenSet := ⟨a.bits ||| b.bits⟩

def has (s : TokenSet) (t : Token) : Bool := s.bits.testBit t.ctorIdx

def ofList (ts : List Token) : TokenSet := ts.foldl (fun s t => s.union (single t)) empty

def unions (sets : List TokenSet) : TokenSet := sets.foldl union empty

end TokenSet

end DiffSlice.JavaScript
