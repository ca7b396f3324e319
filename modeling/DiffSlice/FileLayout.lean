import DiffSlice.Text.Lines

/-!
# File roles

A repository keeps its tests and its sources in directories whose names start in a known way. `FileLayout.role` tells
by its path whether a file is a test, a source or neither.
-/

namespace DiffSlice

open DiffSlice.Text

/-- What a file is for. -/
inductive FileRole where
  | test
  | source
  | other
deriving DecidableEq, Repr

def FileRole.name : FileRole → String
  | test => "test"
  | source => "source"
  | other => "other"

/-- Where a repository keeps its files and how it names them. -/
structure FileLayout where
  /-- How the name of a directory of tests starts. -/
  testDirStart : String := "test"
  /-- What the name of a test has in it. -/
  testNameMarker : String := "spec"
  /-- How the name of a directory of sources starts. -/
  sourceDirStart : String := "src"
  extensions : List String := ["js"]
deriving DecidableEq, Repr

def directories (path : String) : List String :=
  ((stretches '/' path.toList).map String.ofList).dropLast

/-- The last part of a path. -/
def fileName (path : String) : String :=
  (((stretches '/' path.toList).map String.ofList).getLast?).getD ""

namespace FileLayout

def hasExtension (layout : FileLayout) (file : String) : Bool :=
  match splitLast? '.' file.toList with
  | some (_, extension) => layout.extensions.contains (String.ofList extension)
  | none => false

def isTestFile (layout : FileLayout) (path : String) : Bool :=
  (directories path).any (startsWith layout.testDirStart) &&
    hasPart layout.testNameMarker.toList (fileName path).toList && layout.hasExtension (fileName path)

def isSourceFile (layout : FileLayout) (path : String) : Bool :=
  (directories path).any (startsWith layout.sourceDirStart) && layout.hasExtension (fileName path)

/-- What a file is for; one that could be both is a test. -/
def role (layout : FileLayout) (path : String) : FileRole :=
  if layout.isTestFile path then .test else if layout.isSourceFile path then .source else .other

end FileLayout

end DiffSlice
