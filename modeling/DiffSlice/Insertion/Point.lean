import DiffSlice.Suite.Case
import DiffSlice.Text.Quoted
import DiffSlice.Tree.Language

/-!
# Insertion points

A fragment goes after the last statement of a file, or, if that is a suite, after the last call inside it; it can
also be asked to go into the suite with a given description. It takes the indentation of what it goes after.
-/

namespace DiffSlice

open DiffSlice.Text

/-- What a fragment is put into. -/
inductive InsertionMode where
  | appendToFile
  /-- The suite at the end of the file. -/
  | appendToLastBlock
  /-- The suite with a given description. -/
  | appendToNamedBlock
deriving DecidableEq, Repr

/-- Where a fragment goes. -/
structure InsertionPoint where
  /-- The number of lines before the fragment. -/
  lineIndex : Nat
  indent : String
  mode : InsertionMode
deriving DecidableEq, Repr

/-- Why a fragment has no place. -/
inductive InsertionError where
  | unparseable (failure : ParseFailure)
  | noInsertionPoint
  | emptySuite (suite : String)
  | suiteNotFound (suite : String)
deriving DecidableEq, Repr

def InsertionError.message : InsertionError → String
  | unparseable failure => s!"cannot inject into unparseable file: {failure.message}"
  | noInsertionPoint => "file has no top-level statement to anchor the fragment"
  | emptySuite suite => s!"suite {quoted suite} has no statements to anchor the fragment"
  | suiteNotFound suite => s!"no top-level suite named {quoted suite}"

namespace Node

/-- The call that the node is, if it is one. -/
def call? (n : Node) : Option CallHead :=
  match n.kind with
  | .call head => some head
  | _ => none

/-- The description of the suite that the node is, if it is one. -/
def suite? (n : Node) (callees : TestSyntax) : Option String :=
  match n.call? with
  | some head => if head.isSuite callees then some head.suiteDescription else none
  | none => none

/-- The last call among the nodes inside. -/
def lastCall? (n : Node) : Option Node :=
  n.items.reverse.find? fun item => item.call?.isSome

end Node

namespace InsertionPoint

/-- The point after a node. -/
def after (tree : SyntaxTree) (anchor : Node) (mode : InsertionMode) : InsertionPoint where
  lineIndex := anchor.endRow + 1
  indent := match tree.lines[anchor.startRow]? with
    | some line => indentation line
    | none => ""
  mode := mode

/-- The point at the end of a file, or at the end of the suite that ends it. -/
def find (tree : SyntaxTree) (callees : TestSyntax) : Except InsertionError InsertionPoint :=
  match tree.nodes.reverse.find? fun n => n.kind != .comment with
  | none => .error .noInsertionPoint
  | some anchor =>
    match anchor.suite? callees with
    | none => .ok (after tree anchor .appendToFile)
    | some description =>
      match anchor.lastCall? with
      | some call => .ok (after tree call .appendToLastBlock)
      | none => .error (.emptySuite description)

/-- The point at the end of the first suite with the given description. -/
def findSuite (tree : SyntaxTree) (callees : TestSyntax) (suite : String) : Except InsertionError InsertionPoint :=
  match tree.nodes.find? fun n => n.suite? callees == some suite with
  | none => .error (.suiteNotFound suite)
  | some target =>
    match target.lastCall? with
    | some call => .ok (after tree call .appendToNamedBlock)
    | none => .error (.emptySuite suite)

end InsertionPoint

end DiffSlice
