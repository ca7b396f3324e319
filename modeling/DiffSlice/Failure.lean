import DiffSlice.Json.Value
import DiffSlice.Patch.Edit
import DiffSlice.Patch.Hunk
import DiffSlice.Tree.Language

/-!
# Failures

Whatever goes wrong is reported as a failure of one of five kinds, with a message of its own.
-/

namespace DiffSlice

/-- What a failure concerns. -/
inductive FailureKind where
  | parse
  | patch
  | injection
  | io
  | configuration
deriving DecidableEq, Repr

/-- A failure as it is reported. -/
structure Failure where
  kind : FailureKind
  message : String
deriving DecidableEq, Repr

namespace FailureKind

/-- The words before a message. -/
def title : FailureKind → String
  | parse => "Parse error"
  | patch => "Patch error"
  | injection => "Injection error"
  | io => "IO error"
  | configuration => "Invalid configuration"

/-- The name of the kind in JSON. -/
def typeName : FailureKind → String
  | parse => "Parse"
  | patch => "Patch"
  | injection => "Inject"
  | io => "Io"
  | configuration => "Config"

/-- Something else can be done after a failure of this kind: show the whole file, take another file, try later. -/
def isRecoverable : FailureKind → Bool
  | parse => true
  | patch => true
  | io => true
  | injection => false
  | configuration => false

end FailureKind

namespace Failure

def text (f : Failure) : String :=
  f.kind.title ++ ": " ++ f.message

def toJson (f : Failure) : Json :=
  .object [("type", .string f.kind.typeName), ("details", .object [("message", .string f.message)])]

end Failure

def ParseFailure.failure (f : ParseFailure) : Failure :=
  ⟨.parse, f.message⟩

def Patch.PatchError.failure (e : Patch.PatchError) : Failure :=
  ⟨.patch, e.message⟩

def Patch.MalformedHeader.failure (h : Patch.MalformedHeader) : Failure :=
  ⟨.patch, h.message⟩

end DiffSlice
