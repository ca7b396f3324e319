import DiffSlice.Scope.ChangeSet

/-!
# Slices

A slice keeps some lines of a source with their numbers. Nodes mark their lines to be kept or not; of the marks on a
line the last one counts (`keepsLine`), so a child has its say over its parent. `slice` keeps what a change touched
together with imports, variables and plain comments, and inside a kept class its fields and its constructor.
-/

namespace DiffSlice

/-- A line with its number in the source. -/
structure SlicedLine where
  number : Nat
  text : String
deriving DecidableEq, Repr

/-- The lines kept of a source, in order. -/
structure Slice where
  lines : List SlicedLine
deriving DecidableEq, Repr

namespace Slice

def lineNumbers (s : Slice) : List Nat :=
  s.lines.map (·.number)

def isEmpty (s : Slice) : Bool :=
  s.lines.isEmpty

end Slice

/-! ## Marks -/

/-- Lines, from the first to the last, that are to be kept or not. -/
structure LineMark where
  firstLine : Nat
  lastLine : Nat
  keep : Bool
deriving DecidableEq, Repr

def LineMark.covers (m : LineMark) (line : Nat) : Bool :=
  m.firstLine ≤ line && line ≤ m.lastLine

/-- The line is kept by the last mark on it, or by default. -/
def keepsLine (marks : List LineMark) (default : Bool) (line : Nat) : Bool :=
  match marks.reverse.find? (·.covers line) with
  | some m => m.keep
  | none => default

/-- The lines with their numbers, from `number` on. -/
def numbered (number : Nat) : List String → List SlicedLine
  | [] => []
  | text :: rest => ⟨number, text⟩ :: numbered (number + 1) rest

/-- The lines of a source that the marks keep. -/
def Slice.ofMarks (source : String) (marks : List LineMark) (default : Bool) : Slice :=
  ⟨(numbered 1 (Text.lines source)).filter fun line => keepsLine marks default line.number⟩

namespace Node

def keepMark (n : Node) : LineMark :=
  ⟨n.firstLine, n.lastLine, true⟩

def skipMark (n : Node) : LineMark :=
  ⟨n.firstLine, n.lastLine, false⟩

/-- The node's lines and those of its annotations are kept. -/
def keepMarks (n : Node) (before : List Node) : List LineMark :=
  n.keepMark :: (n.attached before).map keepMark

/-! ## Slices by change set -/

/-- The node of a class is shown when the class is. -/
def keptMember (n : Node) (className : String) (changes : ChangeSet) : Bool :=
  match n.kind with
  | .variableDeclaration => true
  | .fieldDefinition => true
  | .comment => !n.isDocComment
  | .methodDefinition =>
    match n.name with
    | some name => name == "constructor" || changes.keepsMethod className name
    | none => false
  | _ => false

/-- The marks of a node in a shown class, after the nodes `before`. -/
def memberMarks (className : String) (changes : ChangeSet) (before : List Node) (n : Node) : List LineMark :=
  if n.keptMember className changes then
    if n.kind == .methodDefinition then n.keepMarks before else [n.keepMark]
  else [n.skipMark]

/-- The top-level node is shown. -/
def keptTopLevel (n : Node) (changes : ChangeSet) : Bool :=
  match n.kind with
  | .importStatement => true
  | .variableDeclaration => true
  | .functionDeclaration => n.name.any changes.keepsFunction
  | .classDeclaration => n.name.any changes.keepsClass
  | .comment => !n.isDocComment
  | _ => false

/-- The marks of a top-level node, after the nodes `before`. -/
def sliceMarks (changes : ChangeSet) (before : List Node) (n : Node) : List LineMark :=
  if n.keptTopLevel changes then
    match n.kind with
    | .functionDeclaration => n.keepMarks before
    | .classDeclaration =>
      n.keepMarks before ++
        (withEarlier [] n.items).flatMap fun (earlier, member) =>
          member.memberMarks (n.name.getD "") changes earlier
    | _ => [n.keepMark]
  else [n.skipMark]

end Node

/-- The lines of a source that a change set asks for. Lines that no node covers are kept. -/
def slice (tree : SyntaxTree) (changes : ChangeSet) : Slice :=
  .ofMarks tree.source ((withEarlier [] tree.nodes).flatMap fun (before, n) => n.sliceMarks changes before) true

/-! ## Outlines -/

/-- The marks of the nodes that an outline with `limit` more definitions shows, after the nodes `before`. -/
def outlineMarks (before : List Node) (limit : Nat) : List Node → List LineMark
  | [] => []
  | n :: rest =>
    match n.kind, limit with
    | .importStatement, _ => n.keepMark :: outlineMarks (n :: before) limit rest
    | .variableDeclaration, _ => n.keepMark :: outlineMarks (n :: before) limit rest
    | .comment, _ => n.keepMark :: outlineMarks (n :: before) limit rest
    | .functionDeclaration, limit + 1 => n.keepMarks before ++ outlineMarks (n :: before) limit rest
    | .classDeclaration, limit + 1 => n.keepMarks before ++ outlineMarks (n :: before) limit rest
    | _, _ => outlineMarks (n :: before) limit rest

/-- The imports, variables and comments of a source and its first functions or classes, at most `limit` of them.
Lines that no node covers are not kept. -/
def outline (tree : SyntaxTree) (limit : Nat) : Slice :=
  .ofMarks tree.source (outlineMarks [] limit tree.nodes) false

end DiffSlice
