import DiffSlice.Failure

/-!
# Tasks on files

A task reads and writes files and comes to a result. `Task.run` carries one out on a file system that is a value: files,
directories and links by their places, and a working directory. A path leads to a place from there or from the root
(`FileSystem.resolve`), and what is read or written at the place may be refused.
-/

namespace DiffSlice.Cli

open DiffSlice.Text

/-- Why a file cannot be read or written, in the system's words. -/
inductive FileError where
  | notFound
  | permissionDenied
  | notDirectory
  | isDirectory
  | tooManyLinks
  | other (words : String)
deriving DecidableEq, Repr

def FileError.message : FileError → String
  | notFound => "No such file or directory (os error 2)"
  | permissionDenied => "Permission denied (os error 13)"
  | notDirectory => "Not a directory (os error 20)"
  | isDirectory => "Is a directory (os error 21)"
  | tooManyLinks => "Too many levels of symbolic links (os error 40)"
  | other words => words

/-! ## File systems -/

/-- A place in a file system: the names on the way to it from the root. -/
abbrev Place := List String

/-- A file with its text, and with the errors by which the system refuses to read or to write it. -/
structure File where
  text : String
  readError : Option FileError := none
  writeError : Option FileError := none
deriving DecidableEq, Repr

/-- What stands at a place. -/
inductive Entry where
  | file (file : File)
  | directory
  | link (target : String)
deriving DecidableEq, Repr

/-- The entries of a file system by their places, and the directory that relative paths start from. There is a directory
wherever something stands below. -/
structure FileSystem where
  entries : List (Place × Entry)
  workingDirectory : Place := []
deriving DecidableEq, Repr

def pathParts (path : String) : List String :=
  (stretches '/' path.toList).map String.ofList

/-- The place that a path starts from in a directory. -/
def startOf (directory : Place) (path : String) : Place :=
  if startsWith "/" path then [] else directory

/-- Where a walk along the parts of a path ends. -/
inductive Walk where
  | arrived (place : Place)
  /-- A link in a directory, with the parts of the path behind it. -/
  | atLink (directory : Place) (target : String) (rest : List String)
  | failed (error : FileError)

/-- As many links as a path may lead over. -/
def linkLimit : Nat :=
  40

namespace FileSystem

def entryAt? (fs : FileSystem) (place : Place) : Option Entry :=
  (fs.entries.find? fun e => e.1 == place).map (·.2)

def hasDirectory (fs : FileSystem) (place : Place) : Bool :=
  place.isEmpty || fs.entryAt? place == some .directory ||
    fs.entries.any fun e => place.isPrefixOf e.1 && place != e.1

/-- Walks along the parts of a path, up to the first link. Above the root is the root. -/
def walk (fs : FileSystem) (place : Place) : List String → Walk
  | [] => .arrived place
  | part :: rest =>
    if part == "" || part == "." then fs.walk place rest
    else if part == ".." then fs.walk place.dropLast rest
    else
      let next := place ++ [part]
      match fs.entryAt? next with
      | some (.link target) => .atLink place target rest
      | entry =>
        if rest.isEmpty then .arrived next
        else if fs.hasDirectory next then fs.walk next rest
        else if entry.isSome then .failed .notDirectory
        else .failed .notFound

/-- The place that the parts of a path lead to from a directory, over no more than so many links. -/
def follow (fs : FileSystem) (links : Nat) (place : Place) (parts : List String) : Except FileError Place :=
  match fs.walk place parts with
  | .arrived place => .ok place
  | .failed error => .error error
  | .atLink directory target rest =>
    match links with
    | 0 => .error .tooManyLinks
    | links + 1 => fs.follow links (startOf directory target) (pathParts target ++ rest)

/-- The place that a path leads to. There need not be anything yet. -/
def resolve (fs : FileSystem) (path : String) : Except FileError Place :=
  if path == "" then .error .notFound
  else fs.follow linkLimit (startOf fs.workingDirectory path) (pathParts path)

/-- The place of a file, which has to be there. -/
def locate (fs : FileSystem) (path : String) : Except FileError (Place × File) :=
  match fs.resolve path with
  | .error error => .error error
  | .ok place =>
    match fs.entryAt? place with
    | some (.file file) => .ok (place, file)
    | _ => if fs.hasDirectory place then .error .isDirectory else .error .notFound

def read (fs : FileSystem) (path : String) : Except FileError String :=
  match fs.locate path with
  | .error error => .error error
  | .ok (_, file) =>
    match file.readError with
    | some error => .error error
    | none => .ok file.text

def put (fs : FileSystem) (place : Place) (file : File) : FileSystem :=
  if (fs.entryAt? place).isSome then
    { fs with entries := fs.entries.map fun e => if e.1 == place then (place, .file file) else e }
  else { fs with entries := fs.entries ++ [(place, .file file)] }

/-- The file system with another text in a file, which is a new one if nothing is there. -/
def write (fs : FileSystem) (path text : String) : Except FileError FileSystem :=
  match fs.resolve path with
  | .error error => .error error
  | .ok place =>
    match fs.entryAt? place with
    | some (.file file) =>
      match file.writeError with
      | some error => .error error
      | none => .ok (fs.put place { file with text })
    | _ => if fs.hasDirectory place then .error .isDirectory else .ok (fs.put place { text })

end FileSystem

/-! ## Tasks -/

/-- Why a task comes to nothing. -/
inductive Stop where
  | failure (failure : Failure)
  /-- A line number passes the limit. -/
  | overflow
deriving DecidableEq, Repr

/-- Something to be done with files. -/
inductive Task (α : Type) where
  | done (result : α)
  | stop (reason : Stop)
  | read (path : String) (next : Except FileError String → Task α)
  | write (path text : String) (next : Except FileError Unit → Task α)

namespace Task

/-- The task and then what its result asks for. -/
def bind {α β : Type} (t : Task α) (next : α → Task β) : Task β :=
  match t with
  | done a => next a
  | stop reason => stop reason
  | read path k => read path fun text => (k text).bind next
  | write path text k => write path text fun done => (k done).bind next

instance : Monad Task where
  pure := done
  bind := bind

/-- The files after a task and its result. -/
def run {α : Type} (fs : FileSystem) : Task α → FileSystem × Except Stop α
  | done a => (fs, .ok a)
  | stop reason => (fs, .error reason)
  | read path k => (k (fs.read path)).run fs
  | write path text k =>
    match fs.write path text with
    | .ok fs' => (k (.ok ())).run fs'
    | .error e => (k (.error e)).run fs

/-- Nothing comes of the task but a failure. -/
def fail {α : Type} (failure : Failure) : Task α :=
  stop (.failure failure)

/-- The text of a file, which has to be readable. -/
def readFile (path : String) : Task String :=
  read path fun
    | .ok text => done text
    | .error e => fail ⟨.io, path ++ ": " ++ e.message⟩

/-- The text of a file, if it is readable. -/
def readFile? (path : String) : Task (Option String) :=
  read path fun
    | .ok text => done (some text)
    | .error _ => done none

/-- The file has the given text from now on. -/
def writeFile (path text : String) : Task Unit :=
  write path text fun
    | .ok _ => done ()
    | .error e => fail ⟨.io, path ++ ": " ++ e.message⟩

/-- The value, or the failure that stands in its place. -/
def orFail {α ε : Type} (failure : ε → Failure) : Except ε α → Task α
  | .ok a => done a
  | .error e => fail (failure e)

/-- The value, unless a line number passes the limit on the way to it. -/
def orOverflow {α : Type} : Option α → Task α
  | some a => done a
  | none => stop .overflow

end Task

end DiffSlice.Cli
