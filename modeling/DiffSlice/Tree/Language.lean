import DiffSlice.JavaScript.Program

/-!
# Source languages

The language of a file is told by its extension. Only JavaScript can be parsed; `ParseFailure` says why there is no
tree of a text.
-/

namespace DiffSlice

/-- A language that sources are written in. -/
inductive SourceLanguage where
  | javaScript
  | typeScript
  | tsx
deriving DecidableEq, Repr

namespace SourceLanguage

def name : SourceLanguage → String
  | javaScript => "javascript"
  | typeScript => "typescript"
  | tsx => "tsx"

/-- Sources in the language can be parsed. -/
def isAvailable (language : SourceLanguage) : Bool :=
  language == javaScript

/-- The language that files with an extension are in. -/
def ofExtension? (extension : String) : Option SourceLanguage :=
  if ["js", "jsx", "mjs", "cjs"].contains extension then some javaScript
  else if ["ts", "mts", "cts"].contains extension then some typeScript
  else if extension == "tsx" then some tsx
  else none

/-- What follows the last of the given characters, if there is one. -/
def afterLast? (mark : Char) (s : List Char) : Option (List Char) :=
  if s.contains mark then some (s.reverse.takeWhile (· != mark)).reverse else none

/-- The language of a file, by what follows the last point of its name. -/
def ofPath? (path : String) : Option SourceLanguage := do
  let fileName := (afterLast? '/' path.toList).getD path.toList
  let extension ← afterLast? '.' fileName
  ofExtension? (String.ofList (extension.map Char.toLower))

end SourceLanguage

/-- Why a text has no tree. -/
inductive ParseFailure where
  /-- Nothing can parse the language of the file. -/
  | unsupportedLanguage (path : String)
  /-- The text is wrong from the given line on. -/
  | syntaxError (line : Nat)
deriving DecidableEq, Repr

def ParseFailure.message : ParseFailure → String
  | unsupportedLanguage path => s!"no grammar available for {path}"
  | syntaxError line => s!"source has syntax errors starting at line {line}"

namespace SyntaxTree

/-- The tree of a text in the given language. -/
def parse (source : String) (language : SourceLanguage) : Except ParseFailure SyntaxTree :=
  if language.isAvailable then (JavaScript.parse source).mapError .syntaxError
  else .error (.unsupportedLanguage ("<" ++ language.name ++ ">"))

/-- The tree of a file's text, in the language that its path tells. -/
def parsePath (source path : String) : Except ParseFailure SyntaxTree :=
  match SourceLanguage.ofPath? path with
  | some language => parse source language
  | none => .error (.unsupportedLanguage path)

end SyntaxTree

end DiffSlice
