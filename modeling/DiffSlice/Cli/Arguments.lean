import DiffSlice.Text.Digit
import DiffSlice.Text.Lines

/-!
# Arguments of a command line

A command takes values by position and options by name, written `--name value` or `--name=value`; options without a
value are flags. Arguments are read from left to right. A value is looked at when the next argument has been
recognised, so of two mistakes next to each other an unknown name is reported before a bad value.
-/

namespace DiffSlice.Cli

open DiffSlice.Text

/-- Why a command line is not run. -/
inductive UsageError where
  | displayHelp
  | displayVersion
  | nothingGiven
  | missingSubcommand
  | invalidSubcommand
  | missingRequiredArgument
  | unknownArgument
  | invalidValue
  | valueValidation
  | argumentConflict
  | tooManyValues
deriving DecidableEq, Repr

/-- What a value may be. -/
inductive ValueKind where
  | path
  | text
  | number
  | choice (names : List String)
deriving DecidableEq, Repr

/-- A value that has a name. -/
structure Argument where
  name : String
  kind : ValueKind
deriving DecidableEq, Repr

/-- What a command takes. -/
structure Form where
  positionals : List Argument := []
  options : List Argument := []
  flags : List String := []
  /-- Commands that may follow, with forms of their own. -/
  subcommands : List String := []
  /-- The version can be asked for. -/
  hasVersion : Bool := false

/-- A natural number within the limit, maybe after a plus. -/
def wholeNumber? (value : String) : Option Nat :=
  match value.toList with
  | '+' :: digits => number? digits
  | digits => number? digits

/-- What is wrong with a value. -/
def ValueKind.fault? (kind : ValueKind) (value : String) : Option UsageError :=
  match kind with
  | .path => if value == "" then some .invalidValue else none
  | .text => none
  | .number => if (wholeNumber? value).isSome then none else some .valueValidation
  | .choice names => if names.contains value then none else some .invalidValue

/-! ## Reading -/

/-- What has been read so far. -/
structure Progress where
  /-- The values and flags that are accepted, a flag with the value `true`. -/
  accepted : List (String × String) := []
  /-- An argument whose value is still to be looked at, or still to come. -/
  pending : Option (Argument × Option String) := none
  /-- The values by position that are still to come. -/
  expected : List Argument
  /-- Only values by position follow. -/
  onlyValues : Bool := false

namespace Progress

def value? (p : Progress) (name : String) : Option String :=
  (p.accepted.find? fun a => a.1 == name).map (·.2)

def has (p : Progress) (name : String) : Bool :=
  (p.value? name).isSome

def awaitsValue (p : Progress) : Bool :=
  match p.pending with
  | some (_, none) => true
  | _ => false

/-- A value is accepted under a name that has none yet. -/
def accept (p : Progress) (argument : Argument) (value : String) : Except UsageError Progress :=
  if p.has argument.name then .error .argumentConflict
  else
    match argument.kind.fault? value with
    | some fault => .error fault
    | none => .ok { p with accepted := p.accepted ++ [(argument.name, value)] }

/-- The pending argument is accepted. -/
def settle (p : Progress) : Except UsageError Progress :=
  match p.pending with
  | none => .ok p
  | some (_, none) => .error .invalidValue
  | some (argument, some value) => { p with pending := none }.accept argument value

end Progress

/-- The name of an option and the value attached to it. -/
def splitOption (s : List Char) : String × Option String :=
  match splitOnce? ['='] s with
  | some (name, value) => (String.ofList name, some (String.ofList value))
  | none => (String.ofList s, none)

namespace Form

def readLong (form : Form) (p : Progress) (s : List Char) : Except UsageError Progress := do
  let (name, attached) := splitOption s
  match form.options.find? fun o => o.name == name with
  | some option =>
    let p ← p.settle
    match attached with
    | some value => p.accept option value
    | none => return { p with pending := some (option, none) }
  | none =>
    let isVersion := form.hasVersion && name == "version"
    if form.flags.contains name || name == "help" || isVersion then
      if attached.isSome then throw .tooManyValues
      let p ← p.settle
      if name == "help" then throw .displayHelp
      if isVersion then throw .displayVersion
      p.accept ⟨name, .text⟩ "true"
    else throw .unknownArgument

/-- Reads letters after a single dash. -/
def readShort (form : Form) (p : Progress) (s : List Char) : Except UsageError Progress := do
  match s with
  | 'h' :: _ =>
    let _ ← p.settle
    throw .displayHelp
  | 'V' :: _ =>
    if form.hasVersion then
      let _ ← p.settle
      throw .displayVersion
    else throw .unknownArgument
  | _ => throw .unknownArgument

def readPositional (form : Form) (p : Progress) (value : String) : Except UsageError Progress := do
  match p.expected with
  | argument :: rest =>
    let p ← p.settle
    return { p with pending := some (argument, some value), expected := rest }
  | [] =>
    if form.subcommands.isEmpty || (p.onlyValues && form.subcommands.contains value) then throw .unknownArgument
    else throw .invalidSubcommand

def readArgument (form : Form) (p : Progress) (argument : String) : Except UsageError Progress :=
  if p.onlyValues then form.readPositional p argument
  else
    match argument.toList with
    | ['-', '-'] => .ok { p with onlyValues := true }
    | '-' :: '-' :: s => form.readLong p s
    | ['-'] => valueOf p
    | '-' :: s => form.readShort p s
    | _ => valueOf p
where
  /-- The value of the option that waits for one, or a value by position. -/
  valueOf (p : Progress) : Except UsageError Progress :=
    match p.pending with
    | some (option, none) => .ok { p with pending := some (option, some argument) }
    | _ => form.readPositional p argument

/-- Reads arguments up to the name of a subcommand, and gives it with the arguments after it. -/
def readArguments (form : Form) (p : Progress) :
    List String → Except UsageError (Progress × Option (String × List String))
  | [] => .ok (p, none)
  | argument :: rest =>
    if !p.onlyValues && !p.awaitsValue && form.subcommands.contains argument then .ok (p, some (argument, rest))
    else do readArguments form (← form.readArgument p argument) rest

/-- Reads the arguments of a command without subcommands; of the pairs of `conflicts` only one flag may be given. -/
def read (form : Form) (conflicts : List (String × String)) (arguments : List String) :
    Except UsageError Progress := do
  let (p, _) ← form.readArguments { expected := form.positionals } arguments
  let p ← p.settle
  if conflicts.any fun (a, b) => p.has a && p.has b then throw .argumentConflict
  if !p.expected.isEmpty then throw .missingRequiredArgument
  return p

end Form

end DiffSlice.Cli
