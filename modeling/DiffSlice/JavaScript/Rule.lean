import DiffSlice.JavaScript.Phrase

/-!
# Rules

The rule of a phrase says what it is made of: symbols in a sequence, or one of several options. A rule also settles
what the symbols alone leave open: how strongly a phrase binds (`Rank`), to which side it leans (`Side`), and how
welcome it is when two readings of a text remain (its weight). `Rule.alternatives` unfolds a rule into the plain
sequences of symbols that it allows.
-/

namespace DiffSlice.JavaScript

/-- What a part of a phrase is for. -/
inductive Role where
  | name
  | body
  | declaration
  | function
  | arguments
deriving DecidableEq, Repr

/-- How strongly a phrase binds. The ranks are compared by `standings`. -/
inductive Rank where
  | member | templateCall | construct | call | unary | power | times | sum | shift | relation | equality | bitAnd
  | bitXor | bitOr | logicalAnd | logicalOr | ternary | assign | object | declare | literal
deriving DecidableEq, Repr

/-- The side that a phrase leans to: whether it ends before or goes on with a symbol that could do either. -/
inductive Side where
  | left
  | right
deriving DecidableEq, Repr

/-- A symbol in a phrase. -/
structure Step where
  symbol : Symbol
  role : Option Role := none
  /-- A word here is a name like any other. -/
  isName : Bool := false
  /-- No word is reserved here. -/
  isFree : Bool := false
deriving DecidableEq, Repr

/-- What a phrase is made of. -/
inductive Rule where
  | token (t : Token)
  | phrase (p : Phrase)
  | blank
  | seq (parts : List Rule)
  | choice (options : List Rule)
  | ranked (rank : Option Rank) (side : Option Side) (body : Rule)
  | weighted (weight : Int) (body : Rule)
  | role (role : Role) (body : Rule)
  | naming (body : Rule)
  | free (body : Rule)

instance : Coe Token Rule := ⟨.token⟩

instance : Coe Phrase Rule := ⟨.phrase⟩

/-- A sequence of symbols that a phrase may be. -/
structure Alternative where
  steps : List Step
  rank : Option Rank := none
  side : Option Side := none
  weight : Int := 0

namespace Alternative

/-- The weight that counts of two: the one further from zero. -/
def heavier (a b : Int) : Int :=
  if a.natAbs < b.natAbs then b else a

def append (a b : Alternative) : Alternative where
  steps := a.steps ++ b.steps
  rank := a.rank.or b.rank
  side := a.side.or b.side
  weight := heavier a.weight b.weight

def mapSteps (f : Step → Step) (a : Alternative) : Alternative :=
  { a with steps := a.steps.map f }

end Alternative

namespace Rule

def opt (r : Rule) : Rule := choice [r, blank]

/-- One or more of a part, where `list` is the phrase that the repetition makes. -/
def repeated (list : Phrase) (part : Rule) : Rule := choice [seq [list, part], part]

/-- Binds as strongly as the rank says. -/
def rank (r : Rank) (body : Rule) : Rule := ranked (some r) none body

def rankLeft (r : Rank) (body : Rule) : Rule := ranked (some r) (some .left) body

def rankRight (r : Rank) (body : Rule) : Rule := ranked (some r) (some .right) body

def leftward (body : Rule) : Rule := ranked none (some .left) body

def rightward (body : Rule) : Rule := ranked none (some .right) body

mutual

/-- The sequences of symbols that a rule allows. -/
def alternatives : Rule → List Alternative
  | token t => [{ steps := [{ symbol := .token t }] }]
  | phrase p => [{ steps := [{ symbol := .phrase p }] }]
  | blank => [{ steps := [] }]
  | seq parts => alternativesOfSeq parts
  | choice options => alternativesOfChoice options
  | ranked rank side body => body.alternatives.map fun a => { a with rank, side }
  | weighted weight body => body.alternatives.map fun a => { a with weight := Alternative.heavier weight a.weight }
  | role r body => body.alternatives.map (·.mapSteps fun s => { s with role := some r })
  | naming body => body.alternatives.map (·.mapSteps fun s => { s with isName := true })
  | free body => body.alternatives.map (·.mapSteps fun s => { s with isFree := true })

/-- The sequences that a sequence of rules allows. -/
def alternativesOfSeq : List Rule → List Alternative
  | [] => [{ steps := [] }]
  | part :: parts =>
    let rest := alternativesOfSeq parts
    part.alternatives.flatMap fun a => rest.map a.append

/-- The sequences that one of several rules allows. -/
def alternativesOfChoice : List Rule → List Alternative
  | [] => []
  | option :: options => option.alternatives ++ alternativesOfChoice options

end

end Rule

end DiffSlice.JavaScript
