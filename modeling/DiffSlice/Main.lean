import DiffSlice.Cli.Run

/-!
# The command line

Carries out the task of a command on the files of the system and prints what it comes to.
-/

namespace DiffSlice.Cli

/-- The error of the system as a task sees it. -/
def FileError.ofSystem : IO.Error → FileError
  | .noFileOrDirectory .. => .notFound
  | .permissionDenied .. => .permissionDenied
  | .inappropriateType .. => .isDirectory
  | error => .other (toString error)

/-- Carries out a task on the files of the system. -/
def Task.perform {α : Type} : Task α → IO (Except Stop α)
  | .done a => return .ok a
  | .stop reason => return .error reason
  | .read path next => do
    let text ← (IO.FS.readFile path).toBaseIO
    (next (text.mapError .ofSystem)).perform
  | .write path text next => do
    let written ← (IO.FS.writeFile path text).toBaseIO
    (next (written.mapError .ofSystem)).perform

def usage : String :=
  "Usage: [--format text|json] COMMAND\n\n" ++
  "  slice BEFORE DIFF [--after FILE] [--post] [--annotate numbers|markers|plain] [--config FILE]\n" ++
  "  patch DIFF [--root DIR] [--only test|source|other] [--annotate numbers|markers|plain] [--layout FILE]\n" ++
  "  changed-tests BEFORE AFTER [--config FILE]\n" ++
  "  inject FILE FRAGMENT [--suite NAME] [--write | --as-diff]\n" ++
  "  outline FILE [--limit N]\n" ++
  "  scope FILE LINE\n"

end DiffSlice.Cli

open DiffSlice.Cli in
def main (arguments : List String) : IO UInt32 := do
  match Invocation.ofArguments arguments with
  | .error .displayHelp =>
    IO.print usage
    return 0
  | .error _ =>
    IO.eprint usage
    return 2
  | .ok invocation =>
    match ← invocation.task.perform with
    | .ok printed =>
      IO.eprint printed.remarks
      IO.print printed.output
      return 0
    | .error (.failure failure) =>
      IO.eprintln ("Error: " ++ invocation.format.report failure)
      return 1
    | .error .overflow =>
      IO.eprintln "A line number of the diff is too large"
      return 101
