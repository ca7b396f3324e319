import DiffSlice.Patch.Edit
import DiffSlice.Scope.LineMap

/-!
# Change sets

What a change touched: functions outside of classes, classes, and functions inside classes. A function is named with
those around it, up to the class if there is one, with points between them. `ChangeSet.record` adds the innermost
class of a scope and the functions inside that class, and `locate` does so for the scopes of edited lines.
-/

namespace DiffSlice

open DiffSlice.Patch DiffSlice.Text

abbrev NameSet := Std.ExtTreeSet String

abbrev MemberSet := Std.ExtTreeSet (String × String) lexOrd.compare

/-- The declarations that a change touched. -/
@[ext]
structure ChangeSet where
  /-- Functions outside of classes, each with those around it. -/
  functions : NameSet
  classes : NameSet
  /-- Functions inside a class, each with those around it. -/
  methods : MemberSet
  /-- Where a function was touched, so was its class. -/
  owned : ∀ p, p ∈ methods → p.1 ∈ classes

/-- The innermost class of a scope and the functions inside it, or all functions if there is no class. -/
def ScopePath.innermost (owner : Option String) (names : List String) : List ScopeSegment → Option String × List String
  | [] => (owner, names)
  | .inFunction name :: rest => innermost owner (names ++ [name]) rest
  | .inClass name :: rest => innermost (some name) [] rest

/-- The names with points between them, if there are any. -/
def memberName? (names : List String) : Option String :=
  if names.isEmpty then none else some (".".intercalate names)

def memberParts (member : String) : List String :=
  (stretches '.' member.toList).map String.ofList

namespace ChangeSet

def empty : ChangeSet where
  functions := ∅
  classes := ∅
  methods := ∅
  owned _ h := absurd h Std.ExtTreeSet.not_mem_empty

def isEmpty (s : ChangeSet) : Bool :=
  s.functions.isEmpty && s.classes.isEmpty

/-- A function outside of classes was touched. -/
def addFunction (s : ChangeSet) (name : String) : ChangeSet :=
  { s with functions := s.functions.insert name }

def addClass (s : ChangeSet) (name : String) : ChangeSet :=
  { s with
    classes := s.classes.insert name
    owned p h := Std.ExtTreeSet.mem_insert.2 (.inr (s.owned p h)) }

/-- A function inside a class was touched. -/
def addMethod (s : ChangeSet) (className member : String) : ChangeSet where
  functions := s.functions
  classes := s.classes.insert className
  methods := s.methods.insert (className, member)
  owned p h := by
    rw [Std.ExtTreeSet.mem_insert] at h ⊢
    rcases h with h | h
    · cases Std.LawfulEqCmp.eq_of_compare h
      exact .inl (Std.ReflCmp.compare_self)
    · exact .inr (s.owned p h)

/-- Something in a scope was touched. -/
def record (s : ChangeSet) (scope : ScopePath) : ChangeSet :=
  match ScopePath.innermost none [] scope.segments with
  | (some owner, names) =>
    match memberName? names with
    | some member => s.addMethod owner member
    | none => s.addClass owner
  | (none, names) =>
    match memberName? names with
    | some member => s.addFunction member
    | none => s

/-- What either of two changes touched. -/
def union (s t : ChangeSet) : ChangeSet where
  functions := s.functions ∪ t.functions
  classes := s.classes ∪ t.classes
  methods := s.methods ∪ t.methods
  owned p h := by
    rw [Std.ExtTreeSet.mem_union_iff] at h ⊢
    exact h.imp (s.owned p) (t.owned p)

/-- A function outside of everything was touched, or one inside it. -/
def keepsFunction (s : ChangeSet) (name : String) : Bool :=
  s.functions.toList.any fun member => (memberParts member).head? == some name

def keepsClass (s : ChangeSet) (name : String) : Bool :=
  s.classes.contains name

/-- A method of a class was touched, or a function of that name inside one. -/
def keepsMethod (s : ChangeSet) (className name : String) : Bool :=
  s.methods.toList.any fun (owner, member) => owner == className && (memberParts member).contains name

def membersOf (s : ChangeSet) (className : String) : List String :=
  (s.methods.toList.filter fun p => p.1 == className).map (·.2)

end ChangeSet

/-- The declarations that edited lines stand in. -/
def locate (edits : List LineEdit) (map : ScopeMap) : ChangeSet :=
  edits.foldl (fun s e => s.record (map.scopeOf e.number)) .empty

/-- The declarations that the edits touch: removed lines in the old source and added lines in the new one. A source
that is not there contributes nothing. -/
def locateEdits (before after : Option SyntaxTree) (edits : Edits) : ChangeSet :=
  let inTree := fun (tree : Option SyntaxTree) (es : List LineEdit) =>
    match tree with
    | some tree => locate es (.ofTree tree)
    | none => .empty
  (inTree before edits.removed).union (inTree after edits.added)

end DiffSlice
