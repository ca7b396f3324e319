import DiffSlice.JavaScript.Parser
import DiffSlice.Tree.Node

/-!
# Programs

The tree of a source is what its derivation shows: hidden phrases are left out, the parts below them take their place,
and of tokens only those count that are nodes of their own. If the source had to be mended, it has no tree, and the
line at fault is that of the first repair.
-/

namespace DiffSlice.JavaScript

/-! ## What a derivation shows -/

/-- A node that a derivation shows. -/
structure Shown where
  label : Label
  role : Option Role
  start : Cursor
  stop : Cursor
  parts : List Shown

namespace Derivation

mutual

/-- The nodes that a derivation shows, before those in `tail`. A word that stands for a name is a node. -/
def shownBefore (role : Option Role) (isName : Bool) : Derivation → List Shown → List Shown
  | ⟨label, start, stop, _, _, _, _, parts⟩, tail =>
    match label with
    | .token t =>
      if isName then ⟨.token .identifier, role, start, stop, []⟩ :: tail
      else if t.isNode then ⟨label, role, start, stop, []⟩ :: tail
      else tail
    | .phrase p =>
      if p.phrase.isHidden then shownParts role p.steps parts tail
      else ⟨label, role, start, stop, shownParts none p.steps parts []⟩ :: tail
    | _ => tail

/-- The nodes that the parts of a phrase show, before those in `tail`. The role of a hidden phrase is that of what it
shows. -/
def shownParts (role : Option Role) : List Step → List Derivation → List Shown → List Shown
  | _, [], tail => tail
  | steps, d :: ds, tail =>
    if d.isExtra then d.shownBefore none false (shownParts role steps ds tail)
    else
      match steps with
      | step :: steps => d.shownBefore (role.or step.role) step.isName (shownParts role steps ds tail)
      | [] => d.shownBefore role false (shownParts role [] ds tail)

end

/-- The nodes at the top of a program. -/
def shownAtTop (d : Derivation) : List Shown := (d.shownBefore none false []).flatMap (·.parts)

end Derivation

namespace Shown

def text (s : Shown) : String := s.start.textUpTo s.stop

def isPhrase (s : Shown) (p : Phrase) : Bool :=
  match s.label with
  | .phrase production => production.phrase == p
  | _ => false

def isToken (s : Shown) (t : Token) : Bool :=
  match s.label with
  | .token token => token == t
  | _ => false

def part? (s : Shown) (role : Role) : Option Shown := s.parts.find? (·.role == some role)

def typeName (s : Shown) : String :=
  match s.label with
  | .phrase production => production.phrase.typeName
  | .token .comment => "comment"
  | .token .htmlComment => "html_comment"
  | .token .hashBangLine => "hash_bang_line"
  | _ => ""

/-- What carries the name and the body: the declaration, if the node exports one. -/
def declaration (s : Shown) : Shown :=
  if s.isPhrase .exportStatement then (s.part? .declaration).getD s else s

/-- The call that a statement is, if it is one. -/
def call? (s : Shown) : Option Shown :=
  if s.isPhrase .expressionStatement then s.parts.find? (·.isPhrase .callExpression) else none

/-- The arguments of a call, comments among them included. -/
def arguments (call : Shown) : List Shown := ((call.part? .arguments).map (·.parts)).getD []

/-- What a call statement shows of its call. -/
def callHead (call : Shown) : CallHead where
  callee := ((call.part? .function).filter (·.isToken .identifier)).map text
  argCount := call.arguments.length
  description := (call.arguments.find? fun a =>
    a.isPhrase .string || a.isPhrase .templateString || a.isPhrase .binaryExpression).map text

/-- The statements of the first function that a call is given. -/
def callback (call : Shown) : List Shown :=
  let function := call.arguments.find? fun a => a.isPhrase .functionExpression || a.isPhrase .arrowFunction
  match function.bind (·.part? .body) with
  | some body => if body.isPhrase .statementBlock then body.parts else []
  | none => []

/-- What a node is that is no call. -/
def plainKind (s : Shown) : Kind :=
  match s.declaration.label with
  | .token .comment => .comment
  | .phrase p =>
    match p.phrase with
    | .importStatement => .importStatement
    | .lexicalDeclaration | .variableDeclaration => .variableDeclaration
    | .functionDeclaration | .generatorFunctionDeclaration => .functionDeclaration
    | .classDeclaration => .classDeclaration
    | .methodDefinition => .methodDefinition
    | .fieldDefinition => .fieldDefinition
    | _ => .other
  | _ => .other

/-- The statements or members of a declaration. -/
def body (s : Shown) : List Shown :=
  match s.plainKind with
  | .functionDeclaration | .classDeclaration | .methodDefinition =>
    ((s.declaration.part? .body).map (·.parts)).getD []
  | _ => []

/-- The nodes of a list, as deep as `depth` allows. -/
def nodes : Nat → List Shown → List Node
  | 0, _ => []
  | depth + 1, shown => shown.map fun s =>
    let call := s.call?
    { kind := call.elim s.plainKind fun c => .call c.callHead
      typeName := s.typeName
      startRow := s.start.row
      endRow := s.stop.row
      text := s.text
      name := (s.declaration.part? .name).map text
      items := nodes depth (call.elim s.body callback) }

end Shown

/-- The tree of a source text, or the line that is at fault. -/
def parse (source : String) : Except Nat SyntaxTree :=
  match derive? source.toList with
  | some d =>
    if d.cost == 0 then .ok { source, nodes := Shown.nodes (d.count + 1) d.shownAtTop }
    else .error (d.faultRow?.getD d.start.row + 1)
  | none => .error 1

end DiffSlice.JavaScript
