import DiffSlice.Json.Value
import DiffSlice.Text.Digit

/-!
# Reading JSON

A text is one value with blanks around it. Arrays and objects nest fewer than `depthLimit` deep, a number has no
needless leading zero, and a string holds neither control characters nor half of a surrogate pair.
-/

namespace DiffSlice.Json

open DiffSlice.Text (isAsciiDigit isHexDigit lineLimit digitsValue)

/-- Arrays and objects nest less deep than this. -/
def depthLimit : Nat :=
  128

def dropBlanks (s : List Char) : List Char :=
  s.dropWhile fun c => c == ' ' || c == '\n' || c == '\t' || c == '\r'

/-! ## Numbers -/

/-- Splits off digits, of which there is at least one. -/
def digits? (s : List Char) : Option (List Char × List Char) :=
  let digits := s.takeWhile isAsciiDigit
  if digits.isEmpty then none else some (digits, s.drop digits.length)

/-- The rest after the part of a number behind a point, if there is one. -/
def fraction? : List Char → Option (List Char)
  | '.' :: s => (digits? s).map (·.2)
  | s => some s

/-- The rest after an exponent, if there is one. -/
def exponent? : List Char → Option (List Char)
  | [] => some []
  | c :: s =>
    if c == 'e' || c == 'E' then
      let unsigned := match s with
        | '+' :: rest => rest
        | '-' :: rest => rest
        | s => s
      (digits? unsigned).map (·.2)
    else some (c :: s)

def number? (s : List Char) : Option (Json × List Char) := do
  let unsigned := match s with
    | '-' :: rest => rest
    | s => s
  let (digits, afterDigits) ← digits? unsigned
  if digits.head? == some '0' && digits.length != 1 then none
  let rest ← exponent? (← fraction? afterDigits)
  let text := s.take (s.length - rest.length)
  if text == digits && digitsValue 0 digits ≤ lineLimit then some (.natural (digitsValue 0 digits), rest)
  else some (.number (String.ofList text), rest)

/-! ## Strings -/

/-- The value of four hexadecimal digits and the rest. -/
def unit? : List Char → Option (Nat × List Char)
  | a :: b :: c :: d :: rest =>
    if [a, b, c, d].all isHexDigit then
      some ([a, b, c, d].foldl (fun n x => n * 16 + hexValue x) 0, rest)
    else none
  | _ => none
where
  /-- The value of a hexadecimal digit. -/
  hexValue (c : Char) : Nat :=
    if isAsciiDigit c then c.toNat - 48 else if c.toNat < 97 then c.toNat - 55 else c.toNat - 87

/-- The character after a backslash and the rest. -/
def escaped? : List Char → Option (Char × List Char)
  | '"' :: s => some ('"', s)
  | '\\' :: s => some ('\\', s)
  | '/' :: s => some ('/', s)
  | 'b' :: s => some ('\x08', s)
  | 'f' :: s => some ('\x0c', s)
  | 'n' :: s => some ('\n', s)
  | 'r' :: s => some ('\r', s)
  | 't' :: s => some ('\t', s)
  | 'u' :: s => do
    let (high, rest) ← unit? s
    if 0xDC00 ≤ high && high ≤ 0xDFFF then none
    else if 0xD800 ≤ high && high ≤ 0xDBFF then
      match rest with
      | '\\' :: 'u' :: rest =>
        let (low, rest) ← unit? rest
        if 0xDC00 ≤ low && low ≤ 0xDFFF then
          some (Char.ofNat (0x10000 + (high - 0xD800) * 0x400 + (low - 0xDC00)), rest)
        else none
      | _ => none
    else some (Char.ofNat high, rest)
  | _ => none

/-- Reads the characters of a string up to its closing quote. -/
def chars? (acc : List Char) (s : List Char) : Nat → Option (String × List Char)
  | 0 => none
  | fuel + 1 =>
    match s with
    | [] => none
    | '"' :: rest => some (String.ofList acc.reverse, rest)
    | '\\' :: rest => do
      let (c, rest) ← escaped? rest
      chars? (c :: acc) rest fuel
    | c :: rest => if c.toNat < 0x20 then none else chars? (c :: acc) rest fuel

/-- Reads a string, after its opening quote. -/
def text? (s : List Char) : Option (String × List Char) :=
  chars? [] s (s.length + 1)

/-! ## Values -/

/-- Reads the items of an array, with commas between them, up to its closing bracket. -/
def items? (value? : List Char → Option (Json × List Char)) (acc : List Json) (s : List Char) :
    Nat → Option (Json × List Char)
  | 0 => none
  | fuel + 1 => do
    let (item, rest) ← value? (dropBlanks s)
    match dropBlanks rest with
    | ',' :: rest => items? value? (item :: acc) rest fuel
    | ']' :: rest => some (.array (item :: acc).reverse, rest)
    | _ => none

/-- Reads the fields of an object, with commas between them, up to its closing brace. -/
def fields? (value? : List Char → Option (Json × List Char)) (acc : List (String × Json)) (s : List Char) :
    Nat → Option (Json × List Char)
  | 0 => none
  | fuel + 1 =>
    match dropBlanks s with
    | '"' :: s => do
      let (name, rest) ← text? s
      match dropBlanks rest with
      | ':' :: rest =>
        let (item, rest) ← value? (dropBlanks rest)
        match dropBlanks rest with
        | ',' :: rest => fields? value? ((name, item) :: acc) rest fuel
        | '\x7d' :: rest => some (.object ((name, item) :: acc).reverse, rest)
        | _ => none
      | _ => none
    | _ => none

/-- Reads a value that nests less deep than the given depth. -/
def value? : Nat → List Char → Option (Json × List Char)
  | 0, _ => none
  | depth + 1, s =>
    match s with
    | 'n' :: 'u' :: 'l' :: 'l' :: rest => some (.null, rest)
    | 't' :: 'r' :: 'u' :: 'e' :: rest => some (.bool true, rest)
    | 'f' :: 'a' :: 'l' :: 's' :: 'e' :: rest => some (.bool false, rest)
    | '"' :: rest => (text? rest).map fun (text, rest) => (.string text, rest)
    | '[' :: rest =>
      if depth == 0 then none
      else
        match dropBlanks rest with
        | ']' :: rest => some (.array [], rest)
        | _ => items? (value? depth) [] rest (rest.length + 1)
    | '\x7b' :: rest =>
      if depth == 0 then none
      else
        match dropBlanks rest with
        | '\x7d' :: rest => some (.object [], rest)
        | _ => fields? (value? depth) [] rest (rest.length + 1)
    | s => number? s

/-- The value that a text holds. -/
def parse? (text : String) : Option Json :=
  match value? depthLimit (dropBlanks text.toList) with
  | some (value, rest) => if (dropBlanks rest).isEmpty then some value else none
  | none => none

end DiffSlice.Json
