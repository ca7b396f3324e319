import DiffSlice.Text.Lines

/-!
# Syntax trees

A source file is seen as a list of top-level nodes, each with its rows and its text. A node knows what it is as far
as scopes, slices and test cases ask (`Kind`), and it holds the nodes that these may enter: the statements or members
of a declaration, or the statements of the function that a call is given. The nodes before a node in its list, from
the nearest on, decide which annotations belong to it (`attached`).
-/

namespace DiffSlice

open DiffSlice.Text

/-- What a call statement shows of its call. -/
structure CallHead where
  /-- The name that is called, if it is a plain name. -/
  callee : Option String
  /-- The number of arguments, comments among them included. -/
  argCount : Nat
  /-- The text of the first argument that is a string, a template or a binary expression. -/
  description : Option String
deriving DecidableEq, Repr

/-- What a node is. -/
inductive Kind where
  | importStatement
  | variableDeclaration
  | functionDeclaration
  | classDeclaration
  | methodDefinition
  | fieldDefinition
  | comment
  | call (head : CallHead)
  | other
deriving DecidableEq, Repr

/-- A node of a syntax tree. Rows count from zero, and the last row is part of the node. -/
structure Node where
  kind : Kind
  /-- The grammar's name for the node. -/
  typeName : String
  startRow : Nat
  endRow : Nat
  text : String
  name : Option String := none
  /-- The statements or members of a declaration, or those of the first function that a call is given. -/
  items : List Node := []

namespace Node

def firstLine (n : Node) : Nat :=
  n.startRow + 1

def lastLine (n : Node) : Nat :=
  n.endRow + 1

def covers (n : Node) (line : Nat) : Bool :=
  n.firstLine ≤ line && line ≤ n.lastLine

/-- The node is a comment that documents what follows. -/
def isDocComment (n : Node) : Bool :=
  n.kind == .comment && startsWith "/**" n.text

/-- The node belongs to the declaration below it. -/
def isAttachable (n : Node) : Bool :=
  n.isDocComment || n.typeName == "decorator"

/-- The annotations, nearest first, that end in the row above `row` or the row above the one after them. The list
holds the nodes before, from the nearest on. -/
def attachedTo (row : Nat) : List Node → List Node
  | [] => []
  | prev :: before =>
    if prev.isAttachable && prev.endRow + 1 == row then prev :: attachedTo prev.startRow before else []

/-- The annotations of a node, given the nodes before it. -/
def attached (n : Node) (before : List Node) : List Node :=
  attachedTo n.startRow before

end Node

/-- Each element of a list with those before it, from the nearest on; `before` stands in front of the list. -/
def withEarlier {α : Type} (before : List α) : List α → List (List α × α)
  | [] => []
  | a :: rest => (before, a) :: withEarlier (a :: before) rest

/-- The elements of a second list have those of the first before them. -/
theorem withEarlier_append {α : Type} (before xs ys : List α) :
    withEarlier before (xs ++ ys) = withEarlier before xs ++ withEarlier (xs.reverse ++ before) ys := by
  induction xs generalizing before with
  | nil => rfl
  | cons x xs ih => simp [withEarlier, ih]

/-- An element comes with those in front of it, from the nearest on. -/
theorem mem_withEarlier_iff {α : Type} {before xs earlier : List α} {x : α} :
    (earlier, x) ∈ withEarlier before xs ↔
      ∃ front rest, xs = front ++ x :: rest ∧ earlier = front.reverse ++ before := by
  constructor
  · intro h
    induction xs generalizing before with
    | nil => cases h
    | cons y xs ih =>
      rcases List.mem_cons.1 h with h | h
      · cases h
        exact ⟨[], xs, rfl, rfl⟩
      · obtain ⟨front, rest, rfl, rfl⟩ := ih h
        exact ⟨y :: front, rest, rfl, by simp⟩
  · rintro ⟨front, rest, rfl, rfl⟩
    rw [withEarlier_append]
    exact List.mem_append_right _ List.mem_cons_self

theorem exists_mem_withEarlier {α : Type} {xs : List α} {x : α} (h : x ∈ xs) :
    ∃ earlier, (earlier, x) ∈ withEarlier [] xs := by
  obtain ⟨front, rest, rfl⟩ := List.append_of_mem h
  exact ⟨_, mem_withEarlier_iff.2 ⟨front, rest, rfl, rfl⟩⟩

theorem mem_of_mem_withEarlier {α : Type} {before xs earlier : List α} {x : α}
    (h : (earlier, x) ∈ withEarlier before xs) : x ∈ xs := by
  induction xs generalizing before with
  | nil => cases h
  | cons y xs ih =>
    rcases List.mem_cons.1 h with h | h
    · cases h
      exact List.mem_cons_self
    · exact List.mem_cons_of_mem _ (ih h)

theorem mem_of_mem_earlier {α : Type} {before xs earlier : List α} {x y : α}
    (h : (earlier, x) ∈ withEarlier before xs) (hy : y ∈ earlier) : y ∈ before ∨ y ∈ xs := by
  induction xs generalizing before with
  | nil => cases h
  | cons z xs ih =>
    rcases List.mem_cons.1 h with h | h
    · cases h
      exact .inl hy
    · rcases ih h with h | h
      · rcases List.mem_cons.1 h with rfl | h
        · exact .inr List.mem_cons_self
        · exact .inl h
      · exact .inr (List.mem_cons_of_mem _ h)

/-- A source text and its top-level nodes. -/
structure SyntaxTree where
  source : String
  nodes : List Node

def SyntaxTree.lines (t : SyntaxTree) : List String :=
  Text.lines t.source

def SyntaxTree.lineCount (t : SyntaxTree) : Nat :=
  t.lines.length

end DiffSlice
