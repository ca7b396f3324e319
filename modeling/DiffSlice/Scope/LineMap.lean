import DiffSlice.Scope.Path
import DiffSlice.Tree.Node

/-!
# Scopes of lines

A walk over a syntax tree gives spans of lines their scopes (`Node.spans`): a function or method gives its own lines
and its annotations' lines its inner scope, a class gives them the scope it stands in, and what stands inside comes
later and so wins. `ScopeMap.scopeOf` is the scope of the last span that covers a line, and global where none does.
-/

namespace DiffSlice

/-- Lines, from the first to the last, that stand in a scope. -/
structure ScopedSpan where
  firstLine : Nat
  lastLine : Nat
  scope : ScopePath
deriving DecidableEq, Repr

def ScopedSpan.covers (s : ScopedSpan) (line : Nat) : Bool :=
  s.firstLine ≤ line && line ≤ s.lastLine

namespace Node

/-- The node's lines, in the given scope. -/
def span (n : Node) (scope : ScopePath) : ScopedSpan :=
  ⟨n.firstLine, n.lastLine, scope⟩

/-- The lines of the node's annotations and then its own, in the given scope. -/
def ownSpans (n : Node) (before : List Node) (scope : ScopePath) : List ScopedSpan :=
  (n.attached before).map (·.span scope) ++ [n.span scope]

mutual

/-- The spans of a node in the given scope, after the nodes `before`. -/
def spans (scope : ScopePath) (before : List Node) : Node → List ScopedSpan
  | .mk kind typeName startRow endRow text name items =>
    let n : Node := .mk kind typeName startRow endRow text name items
    match kind with
    | .functionDeclaration =>
      let inner := scope.inFunction (name.getD "<function>")
      n.ownSpans before inner ++ spansOf inner [] items
    | .methodDefinition =>
      let inner := scope.inFunction (name.getD "<function>")
      n.ownSpans before inner ++ spansOf inner [] items
    | .classDeclaration => n.ownSpans before scope ++ spansOf (scope.inClass (name.getD "<class>")) [] items
    | .comment => if scope.isGlobal && !n.isDocComment then [] else [n.span scope]
    | _ => [n.span scope]

/-- The spans of the nodes of a list in the given scope, after the nodes `before`. -/
def spansOf (scope : ScopePath) (before : List Node) : List Node → List ScopedSpan
  | [] => []
  | n :: rest => spans scope before n ++ spansOf scope (n :: before) rest

end

end Node

/-- The spans of a source's lines; of those that cover a line, the last gives its scope. -/
structure ScopeMap where
  spans : List ScopedSpan
deriving DecidableEq, Repr

namespace ScopeMap

def ofTree (tree : SyntaxTree) : ScopeMap :=
  ⟨Node.spansOf .global [] tree.nodes⟩

/-- The last span that covers a line. -/
def find? (map : ScopeMap) (line : Nat) : Option ScopedSpan :=
  map.spans.reverse.find? (·.covers line)

def scopeOf (map : ScopeMap) (line : Nat) : ScopePath :=
  match map.find? line with
  | some span => span.scope
  | none => .global

/-- The line stands in something, be it in the global scope. -/
def isAssigned (map : ScopeMap) (line : Nat) : Bool :=
  (map.find? line).isSome

end ScopeMap

def SyntaxTree.lineScope (tree : SyntaxTree) (line : Nat) : ScopePath :=
  (ScopeMap.ofTree tree).scopeOf line

end DiffSlice
