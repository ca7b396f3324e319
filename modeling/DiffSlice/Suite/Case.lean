import DiffSlice.Suite.Description
import DiffSlice.Tree.Node

/-!
# Test cases

A test file is calls inside calls: a suite is called with a description and a function, and in that function stand
further suites and cases. `Node.cases` walks them in order and names each case by the suites around it and its own
description; `CaseMap.ofTree` keeps, under each name, the last case, at the place of the first.
-/

namespace DiffSlice

/-- The names by which suites and cases are called. -/
structure TestSyntax where
  suiteCallees : List String := ["describe"]
  caseCallees : List String := ["it"]
deriving DecidableEq, Repr

/-- A test case. -/
structure TestCase where
  /-- The descriptions of the suites around it and its own. -/
  qualifiedName : String
  /-- The descriptions of the suites around it, or `global`. -/
  scope : String
  description : String
  /-- The text of the whole statement. -/
  bodyText : String
deriving DecidableEq, Repr

/-! ## The walk -/

/-- The suite path at the top of a file. -/
def topSuite : String :=
  "global"

/-- The path of what has the description in a suite. -/
def qualify (suite description : String) : String :=
  if suite == topSuite then description else suite ++ " " ++ description

namespace CallHead

def isSuite (head : CallHead) (callees : TestSyntax) : Bool :=
  head.callee.any callees.suiteCallees.contains

def isCase (head : CallHead) (callees : TestSyntax) : Bool :=
  head.callee.any callees.caseCallees.contains

def suiteDescription (head : CallHead) : String :=
  cleanDescription (head.description.getD "<describe>")

def caseDescription (head : CallHead) : String :=
  cleanDescription (head.description.getD "<it>")

end CallHead

namespace Node

mutual

/-- The cases of a node that stands in the given suite. What is called both as a case and as a suite is a case. -/
def cases (callees : TestSyntax) (suite : String) : Node → List TestCase
  | .mk (.call head) _ _ _ text _ items =>
    if head.isCase callees then
      [{ qualifiedName := qualify suite head.caseDescription
         scope := suite
         description := head.caseDescription
         bodyText := text }]
    else if head.isSuite callees then casesOf callees (qualify suite head.suiteDescription) items
    else []
  | _ => []

/-- The cases of nodes that stand in the given suite. -/
def casesOf (callees : TestSyntax) (suite : String) : List Node → List TestCase
  | [] => []
  | n :: rest => cases callees suite n ++ casesOf callees suite rest

end

end Node

/-! ## Cases by name -/

/-- The cases of a file, one for each name, in order. -/
structure CaseMap where
  cases : List TestCase
deriving DecidableEq, Repr

namespace CaseMap

/-- The case takes the place of the one with its name, or the last place. -/
def put (case : TestCase) : List TestCase → List TestCase
  | [] => [case]
  | c :: rest => if c.qualifiedName == case.qualifiedName then case :: rest else c :: put case rest

def insert (map : CaseMap) (case : TestCase) : CaseMap :=
  ⟨put case map.cases⟩

/-- The cases of a walk by name. -/
def ofList (cases : List TestCase) : CaseMap :=
  cases.foldl insert ⟨[]⟩

def ofTree (tree : SyntaxTree) (callees : TestSyntax) : CaseMap :=
  ofList (Node.casesOf callees topSuite tree.nodes)

def get? (map : CaseMap) (name : String) : Option TestCase :=
  map.cases.find? fun c => c.qualifiedName == name

def names (map : CaseMap) : List String :=
  map.cases.map (·.qualifiedName)

end CaseMap

end DiffSlice
