import DiffSlice.Patch.Unified
import DiffSlice.Suite.Case
import DiffSlice.Tree.Language

/-!
# Changed test cases

Between two texts of a test file, a case is reported if it is new or its text is another. Cases that are gone are
not reported, and a file that could not be parsed before had no cases.
-/

namespace DiffSlice

open DiffSlice.Patch

inductive CaseChange where
  | new
  | modified
deriving DecidableEq, Repr

structure ChangedCase where
  qualifiedName : String
  change : CaseChange
deriving DecidableEq, Repr

/-- How a case changed against the old cases, if it did. -/
def CaseMap.change? (old : CaseMap) (case : TestCase) : Option CaseChange :=
  match old.get? case.qualifiedName with
  | none => some .new
  | some previous => if linesDiffer previous.bodyText case.bodyText then some .modified else none

/-- The cases of the new map that changed against the old one, in order. -/
def changedCases (old new : CaseMap) : List ChangedCase :=
  new.cases.filterMap fun case => (old.change? case).map fun change => ⟨case.qualifiedName, change⟩

/-- The cases that changed between two texts of a file. -/
def detectChanges (before after : String) (language : SourceLanguage) (callees : TestSyntax) :
    Except ParseFailure (List ChangedCase) := do
  let newTree ← SyntaxTree.parse after language
  let old := match SyntaxTree.parse before language with
    | .ok tree => CaseMap.ofTree tree callees
    | .error _ => ⟨[]⟩
  return changedCases old (.ofTree newTree callees)

end DiffSlice
