/-!
# Scope paths

The scope of a line is the chain of functions and classes around it, from the outermost in. `ScopePath.text` writes
it with a point before each function and a colon before each class; the chain hangs off `global`, or off the class it
starts with.
-/

namespace DiffSlice

/-- One step into a scope. -/
inductive ScopeSegment where
  | inFunction (name : String)
  | inClass (name : String)
deriving DecidableEq, Repr

namespace ScopeSegment

def name : ScopeSegment → String
  | inFunction name => name
  | inClass name => name

/-- The step as it is written after others. -/
def text : ScopeSegment → String
  | inFunction name => "." ++ name
  | inClass name => ":" ++ name

end ScopeSegment

/-- The functions and classes around a line, outermost first. -/
structure ScopePath where
  segments : List ScopeSegment
deriving DecidableEq, Repr

namespace ScopePath

/-- The scope outside of every function and class. -/
def global : ScopePath :=
  ⟨[]⟩

def isGlobal (p : ScopePath) : Bool :=
  p.segments.isEmpty

def inFunction (p : ScopePath) (name : String) : ScopePath :=
  ⟨p.segments ++ [.inFunction name]⟩

def inClass (p : ScopePath) (name : String) : ScopePath :=
  ⟨p.segments ++ [.inClass name]⟩

/-- The steps as they are written after others. -/
def segmentsText : List ScopeSegment → String
  | [] => ""
  | s :: rest => s.text ++ segmentsText rest

/-- The scope as it is written. -/
def text (p : ScopePath) : String :=
  match p.segments with
  | .inClass name :: rest => name ++ segmentsText rest
  | segments => "global" ++ segmentsText segments

end ScopePath

end DiffSlice
