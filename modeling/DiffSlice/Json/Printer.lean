import DiffSlice.Json.Value

/-!
# Writing JSON

A value is written on one line (`render`), or with each item and field on a line of its own, two blanks further in
than what holds it (`pretty`).
-/

namespace DiffSlice.Json

/-- A character as it stands in a string. -/
def escapedChar (c : Char) : String :=
  match c with
  | '"' => "\\\""
  | '\\' => "\\\\"
  | '\x08' => "\\b"
  | '\x0c' => "\\f"
  | '\n' => "\\n"
  | '\r' => "\\r"
  | '\t' => "\\t"
  | c =>
    if c.toNat < 0x20 then "\\u00" ++ String.ofList [Nat.digitChar (c.toNat / 16), Nat.digitChar (c.toNat % 16)]
    else String.singleton c

def quotedText (text : String) : String :=
  "\"" ++ String.join (text.toList.map escapedChar) ++ "\""

mutual

/-- The value on one line. -/
def render : Json → String
  | null => "null"
  | bool true => "true"
  | bool false => "false"
  | natural n => toString n
  | number text => text
  | string text => quotedText text
  | array items => "[" ++ ",".intercalate (renderItems items) ++ "]"
  | object fields => "\x7b" ++ ",".intercalate (renderFields fields) ++ "\x7d"

def renderItems : List Json → List String
  | [] => []
  | item :: rest => render item :: renderItems rest

def renderFields : List (String × Json) → List String
  | [] => []
  | (name, value) :: rest => (quotedText name ++ ":" ++ render value) :: renderFields rest

end

/-- Parts on lines of their own between two brackets, the closing one indented by `indent`. -/
def bracketed (opening closing indent : String) (parts : List String) : String :=
  if parts.isEmpty then opening ++ closing
  else
    opening ++ "\n" ++ ",\n".intercalate (parts.map fun part => indent ++ "  " ++ part) ++ "\n" ++ indent ++ closing

mutual

/-- The value on several lines, of which those after the first are indented by `indent`. -/
def prettyFrom (indent : String) : Json → String
  | null => "null"
  | bool true => "true"
  | bool false => "false"
  | natural n => toString n
  | number text => text
  | string text => quotedText text
  | array items => bracketed "[" "]" indent (prettyItems (indent ++ "  ") items)
  | object fields => bracketed "\x7b" "\x7d" indent (prettyFields (indent ++ "  ") fields)

def prettyItems (indent : String) : List Json → List String
  | [] => []
  | item :: rest => prettyFrom indent item :: prettyItems indent rest

def prettyFields (indent : String) : List (String × Json) → List String
  | [] => []
  | (name, value) :: rest => (quotedText name ++ ": " ++ prettyFrom indent value) :: prettyFields indent rest

end

/-- The value on several lines. -/
def pretty (value : Json) : String :=
  prettyFrom "" value

end DiffSlice.Json
