import DiffSlice.Proofs.ChangeSetUnion

/-!
# Change sets kept by class

A change set can also be kept as a map that gives every touched class the set of its touched members (`MemberMap`). A class
is entered without members where it is first met, and another map is taken in class after class. The flat sets say the
same (`MemberMap.flat_bijective`): recording, taking in and locating lead to the flat set of what they lead to in the map
(`flat_record`, `flat_extend`, `flat_locate`, `flat_locateEdits`), and both keep the same declarations (`keeps_flat`).
-/

namespace DiffSlice

open DiffSlice.Patch

/-- Touched functions outside of classes, and the touched members of each touched class. -/
@[ext]
structure MemberMap where
  functions : NameSet
  members : Std.ExtTreeMap String NameSet

namespace MemberMap

def empty : MemberMap :=
  ⟨∅, ∅⟩

/-- The touched members of a class, none if the class is not there. -/
def membersOf (m : MemberMap) (className : String) : NameSet :=
  m.members.getD className ∅

/-- What was found of a class is changed; where nothing was, the class is entered without members first. -/
def update (m : MemberMap) (className : String) (change : NameSet → NameSet) : MemberMap :=
  { m with members := m.members.alter className fun found => some (change (found.getD ∅)) }

/-- Something in a scope was touched. -/
def record (m : MemberMap) (scope : ScopePath) : MemberMap :=
  match ScopePath.innermost none [] scope.segments with
  | (some owner, names) =>
    m.update owner fun found =>
      match memberName? names with
      | some member => found.insert member
      | none => found
  | (none, names) =>
    match memberName? names with
    | some member => { m with functions := m.functions.insert member }
    | none => m

/-- Another map is taken in, one class after the other. -/
def extend (m other : MemberMap) : MemberMap :=
  other.members.toList.foldl (fun m (className, members) => m.update className (· ∪ members))
    { m with functions := m.functions ∪ other.functions }

/-- The edited lines are recorded one by one. -/
def locate (edits : List LineEdit) (map : ScopeMap) : MemberMap :=
  edits.foldl (fun m e => m.record (map.scopeOf e.number)) empty

/-- What edits touch in two sources is taken in one after the other. -/
def locateEdits (before after : Option SyntaxTree) (edits : Edits) : MemberMap :=
  let inOld :=
    match before with
    | some tree => empty.extend (locate edits.removed (.ofTree tree))
    | none => empty
  match after with
  | some tree => inOld.extend (locate edits.added (.ofTree tree))
  | none => inOld

def isEmpty (m : MemberMap) : Bool :=
  m.functions.isEmpty && m.members.isEmpty

def keepsFunction (m : MemberMap) (name : String) : Bool :=
  m.functions.toList.any fun member => (memberParts member).head? == some name

def keepsClass (m : MemberMap) (name : String) : Bool :=
  m.members.contains name

def keepsMethod (m : MemberMap) (className name : String) : Bool :=
  match m.members[className]? with
  | some members => members.toList.any fun member => (memberParts member).contains name
  | none => false

variable {m n : MemberMap} {className : String}

/-! ## Members -/

theorem mem_of_mem_membersOf {member : String} (h : member ∈ m.membersOf className) : className ∈ m.members := by
  by_contra hnot
  rw [membersOf, Std.ExtTreeMap.getD_eq_fallback hnot] at h
  exact Std.ExtTreeSet.not_mem_empty h

theorem getElem?_members (h : className ∈ m.members) : m.members[className]? = some (m.membersOf className) :=
  Std.ExtTreeMap.getElem?_eq_some_getD h

/-- A class that is changed is there, and so are all others. -/
theorem mem_members_update {change : NameSet → NameSet} {name : String} :
    name ∈ (m.update className change).members ↔ className = name ∨ name ∈ m.members := by
  rw [update, Std.ExtTreeMap.mem_alter]
  by_cases hname : className = name <;> simp [hname]

/-- Only the members of the class that is changed are others. -/
theorem membersOf_update {change : NameSet → NameSet} {name : String} :
    (m.update className change).membersOf name = if className = name then change (m.membersOf className)
      else m.membersOf name := by
  rw [membersOf, update, Std.ExtTreeMap.getD_alter, Option.getD_some, ← Std.ExtTreeMap.getD_eq_getD_getElem?]
  simp only [Std.LawfulEqCmp.compare_eq_iff_eq, membersOf]

/-! ## The flat sets of a map -/

/-- The members of all classes, each with its class. -/
def pairs (m : MemberMap) : List (String × String) :=
  m.members.toList.flatMap fun (className, members) => members.toList.map (className, ·)

theorem mem_pairs {p : String × String} : p ∈ m.pairs ↔ p.2 ∈ m.membersOf p.1 := by
  obtain ⟨className, member⟩ := p
  simp only [pairs, List.mem_flatMap, List.mem_map, Prod.exists, Prod.mk.injEq, Std.ExtTreeSet.mem_toList,
    Std.ExtTreeMap.mem_toList_iff_getElem?_eq_some]
  constructor
  · rintro ⟨name, members, hfound, found, hmem, rfl, rfl⟩
    rwa [membersOf, Std.ExtTreeMap.getD_eq_getD_getElem?, hfound]
  · intro h
    exact ⟨className, _, getElem?_members (mem_of_mem_membersOf h), member, h, rfl, rfl⟩

/-- The flat sets of a map. -/
def flat (m : MemberMap) : ChangeSet where
  functions := m.functions
  classes := .ofList m.members.keys
  methods := .ofList m.pairs lexOrd.compare
  owned p h := by
    rw [Std.ExtTreeSet.mem_ofList, List.contains_iff_mem, mem_pairs] at h
    rw [Std.ExtTreeSet.mem_ofList, List.contains_iff_mem, Std.ExtTreeMap.mem_keys]
    exact mem_of_mem_membersOf h

theorem mem_classes_flat {name : String} : name ∈ m.flat.classes ↔ name ∈ m.members := by
  rw [flat, Std.ExtTreeSet.mem_ofList, List.contains_iff_mem, Std.ExtTreeMap.mem_keys]

/-- The flat sets have the members of a class together with it. -/
theorem mem_methods_flat {p : String × String} : p ∈ m.flat.methods ↔ p.2 ∈ m.membersOf p.1 := by
  rw [flat, Std.ExtTreeSet.mem_ofList, List.contains_iff_mem, mem_pairs]

/-- The flat sets tell everything about a map. -/
theorem flat_injective : Function.Injective flat := by
  intro m n h
  have hclasses (name : String) : name ∈ m.members ↔ name ∈ n.members := by
    rw [← mem_classes_flat, ← mem_classes_flat, h]
  have hmembers (name : String) : m.membersOf name = n.membersOf name := by
    refine Std.ExtTreeSet.ext_mem fun member => ?_
    rw [← mem_methods_flat (p := (name, member)), ← mem_methods_flat (p := (name, member)), h]
  ext1
  · exact congrArg ChangeSet.functions h
  · refine Std.ExtTreeMap.ext_getElem? fun name => ?_
    by_cases hname : name ∈ m.members
    · rw [getElem?_members hname, getElem?_members ((hclasses name).1 hname), hmembers]
    · rw [Std.ExtTreeMap.getElem?_eq_none hname, Std.ExtTreeMap.getElem?_eq_none (mt (hclasses name).2 hname)]

@[simp] theorem flat_empty : empty.flat = .empty := by
  ext x
  · rfl
  · rw [mem_classes_flat]
    simp [empty, ChangeSet.empty]
  · rw [mem_methods_flat]
    simp [empty, membersOf, ChangeSet.empty]

/-! ## Recording and taking in -/

/-- A class that is entered is in the flat sets too. -/
theorem flat_update_class (m : MemberMap) (owner : String) :
    (m.update owner fun found => found).flat = m.flat.addClass owner := by
  ext x
  · rfl
  · simp [mem_classes_flat, mem_members_update, ChangeSet.addClass]
  · have hsame : (if owner = x.1 then m.membersOf owner else m.membersOf x.1) = m.membersOf x.1 := by
      split <;> simp_all
    rw [mem_methods_flat, membersOf_update, hsame, ← mem_methods_flat]
    rfl

/-- A member that is entered is in the flat sets too. -/
theorem flat_update_member (m : MemberMap) (owner member : String) :
    (m.update owner fun found => found.insert member).flat = m.flat.addMethod owner member := by
  ext x
  · rfl
  · simp [mem_classes_flat, mem_members_update, ChangeSet.addMethod]
  · obtain ⟨name, found⟩ := x
    rw [mem_methods_flat, membersOf_update]
    by_cases hname : owner = name
    · simp [ChangeSet.addMethod, mem_methods_flat, hname]
    · simp [ChangeSet.addMethod, mem_methods_flat, hname]

/-- A scope is recorded alike by class and flat. -/
theorem flat_record (m : MemberMap) (scope : ScopePath) : (m.record scope).flat = m.flat.record scope := by
  unfold record ChangeSet.record
  obtain ⟨owner, names⟩ := ScopePath.innermost none [] scope.segments
  cases hmember : memberName? names with
  | none =>
    cases owner with
    | none => simp only [hmember]
    | some owner =>
      simp only [hmember]
      exact flat_update_class m owner
  | some member =>
    cases owner with
    | none =>
      simp only [hmember]
      rfl
    | some owner =>
      simp only [hmember]
      exact flat_update_member m owner member

/-- Edited lines touch the same in both forms. -/
theorem flat_locate (edits : List LineEdit) (map : ScopeMap) :
    (locate edits map).flat = DiffSlice.locate edits map := by
  suffices h : ∀ m : MemberMap, (edits.foldl (fun m e => m.record (map.scopeOf e.number)) m).flat =
      edits.foldl (fun s e => s.record (map.scopeOf e.number)) m.flat by
    rw [locate, h, flat_empty]
    rfl
  induction edits with
  | nil => exact fun m => rfl
  | cons e edits ih =>
    intro m
    rw [List.foldl_cons, List.foldl_cons, ih, flat_record]

section TakingIn

variable {entries : List (String × NameSet)} {name member : String}

theorem functions_foldl_update :
    (entries.foldl (fun m (className, members) => m.update className (· ∪ members)) m).functions = m.functions := by
  induction entries generalizing m with
  | nil => rfl
  | cons entry entries ih => exact ih

theorem mem_members_foldl_update :
    name ∈ (entries.foldl (fun m (className, members) => m.update className (· ∪ members)) m).members ↔
      name ∈ m.members ∨ ∃ members, (name, members) ∈ entries := by
  induction entries generalizing m with
  | nil => simp
  | cons entry entries ih =>
    obtain ⟨className, members⟩ := entry
    rw [List.foldl_cons, ih, mem_members_update]
    constructor
    · rintro ((rfl | hfound) | ⟨members', hmem⟩)
      · exact .inr ⟨members, List.mem_cons_self⟩
      · exact .inl hfound
      · exact .inr ⟨members', List.mem_cons_of_mem _ hmem⟩
    · rintro (hfound | ⟨members', hmem⟩)
      · exact .inl (.inr hfound)
      · rcases List.mem_cons.1 hmem with heq | hmem
        · exact .inl (.inl (Prod.mk.inj heq).1.symm)
        · exact .inr ⟨members', hmem⟩

/-- Entries that are taken in add their members to those of their class. -/
theorem mem_membersOf_foldl_update :
    member ∈ (entries.foldl (fun m (className, members) => m.update className (· ∪ members)) m).membersOf name ↔
      member ∈ m.membersOf name ∨ ∃ members, (name, members) ∈ entries ∧ member ∈ members := by
  induction entries generalizing m with
  | nil => simp
  | cons entry entries ih =>
    obtain ⟨className, members⟩ := entry
    rw [List.foldl_cons, ih, membersOf_update]
    by_cases hname : className = name
    · subst hname
      simp [Std.ExtTreeSet.mem_union_iff, or_assoc, or_and_right, exists_or]
    · simp [hname, Ne.symm hname]

end TakingIn

/-- Another map is taken in alike class after class and all at once. -/
theorem flat_extend (m other : MemberMap) : (m.extend other).flat = m.flat.union other.flat := by
  ext x
  · show x ∈ (m.extend other).functions ↔ _
    rw [extend, functions_foldl_update]
    rfl
  · rw [mem_classes_flat, extend, mem_members_foldl_update, ChangeSet.mem_classes_union, mem_classes_flat,
      mem_classes_flat, Std.ExtTreeMap.mem_iff_isSome_getElem?, Option.isSome_iff_exists]
    simp only [Std.ExtTreeMap.mem_toList_iff_getElem?_eq_some, Std.ExtTreeMap.mem_iff_isSome_getElem?,
      Option.isSome_iff_exists]
  · rw [mem_methods_flat, extend, mem_membersOf_foldl_update, ChangeSet.mem_methods_union, mem_methods_flat,
      mem_methods_flat]
    refine or_congr Iff.rfl ⟨?_, fun h => ?_⟩
    · rintro ⟨members, hfound, hmem⟩
      rw [Std.ExtTreeMap.mem_toList_iff_getElem?_eq_some] at hfound
      rwa [membersOf, Std.ExtTreeMap.getD_eq_getD_getElem?, hfound]
    · refine ⟨other.membersOf x.1, ?_, h⟩
      rw [Std.ExtTreeMap.mem_toList_iff_getElem?_eq_some]
      exact Std.ExtTreeMap.getElem?_eq_some_getD (mem_of_mem_membersOf h)

/-- The map that is made of the classes, each without members first, and then of the members of each. -/
def ofChangeSet (s : ChangeSet) : MemberMap :=
  let entries : List (String × NameSet) :=
    s.classes.toList.map (·, ∅) ++ s.methods.toList.map fun p : String × String => (p.1, .ofList [p.2])
  entries.foldl (fun m (className, members) => m.update className (· ∪ members)) ⟨s.functions, ∅⟩

/-- The map that is made of flat sets has these sets. -/
theorem flat_ofChangeSet (s : ChangeSet) : (ofChangeSet s).flat = s := by
  have hnone : (⟨s.functions, ∅⟩ : MemberMap).membersOf = fun _ => ∅ := by
    funext name
    exact Std.ExtTreeMap.getD_empty
  ext x
  · show x ∈ (ofChangeSet s).functions ↔ _
    rw [ofChangeSet, functions_foldl_update]
  · rw [mem_classes_flat, ofChangeSet, mem_members_foldl_update]
    simp only [Std.ExtTreeMap.not_mem_empty, false_or, List.mem_append, List.mem_map, Std.ExtTreeSet.mem_toList,
      Prod.mk.injEq]
    constructor
    · rintro ⟨members, ⟨name, hclass, rfl, -⟩ | ⟨p, hmethod, rfl, -⟩⟩
      · exact hclass
      · exact s.owned p hmethod
    · exact fun hclass => ⟨∅, .inl ⟨x, hclass, rfl, rfl⟩⟩
  · rw [mem_methods_flat, ofChangeSet, mem_membersOf_foldl_update, hnone]
    simp only [Std.ExtTreeSet.not_mem_empty, false_or, List.mem_append, List.mem_map, Std.ExtTreeSet.mem_toList,
      Prod.mk.injEq]
    constructor
    · rintro ⟨members, ⟨name, -, -, rfl⟩ | ⟨p, hmethod, hname, rfl⟩, hmem⟩
      · exact absurd hmem Std.ExtTreeSet.not_mem_empty
      · rw [Std.ExtTreeSet.mem_ofList, List.contains_iff_mem, List.mem_singleton] at hmem
        rwa [Prod.ext hname.symm hmem]
    · refine fun hmethod => ⟨.ofList [x.2], .inr ⟨x, hmethod, rfl, rfl⟩, ?_⟩
      rw [Std.ExtTreeSet.mem_ofList, List.contains_iff_mem, List.mem_singleton]

/-- Change sets and maps tell the same: every change set is the flat form of one map. -/
theorem flat_bijective : Function.Bijective flat :=
  ⟨flat_injective, fun s => ⟨ofChangeSet s, flat_ofChangeSet s⟩⟩

/-- What edits touch in two sources is the same by class and flat. -/
theorem flat_locateEdits (before after : Option SyntaxTree) (edits : Edits) :
    (locateEdits before after edits).flat = DiffSlice.locateEdits before after edits := by
  have hold (tree : SyntaxTree) : (empty.extend (locate edits.removed (.ofTree tree))).flat =
      DiffSlice.locate edits.removed (.ofTree tree) := by
    rw [flat_extend, flat_empty, flat_locate]
    exact bot_sup_eq (DiffSlice.locate edits.removed (.ofTree tree))
  unfold locateEdits DiffSlice.locateEdits
  cases before with
  | none =>
    cases after with
    | none => exact flat_empty.trans (sup_idem ChangeSet.empty).symm
    | some tree => simp only [flat_extend, flat_empty, flat_locate]
  | some oldTree =>
    cases after with
    | none => exact (hold oldTree).trans (sup_bot_eq _).symm
    | some tree => simp only [flat_extend _ (locate edits.added _), hold, flat_locate]

/-! ## What is kept -/

theorem isEmpty_flat (m : MemberMap) : m.flat.isEmpty = m.isEmpty := by
  have hclasses : m.flat.classes.isEmpty = m.members.isEmpty := by
    rw [Bool.eq_iff_iff, Std.ExtTreeSet.isEmpty_iff, Std.ExtTreeMap.isEmpty_iff,
      Std.ExtTreeSet.eq_empty_iff_forall_not_mem, Std.ExtTreeMap.eq_empty_iff_forall_not_mem]
    exact forall_congr' fun name => not_congr mem_classes_flat
  rw [ChangeSet.isEmpty, hclasses]
  rfl

theorem keepsClass_flat (m : MemberMap) (name : String) : m.flat.keepsClass name = m.keepsClass name := by
  rw [Bool.eq_iff_iff, ChangeSet.keepsClass_iff, mem_classes_flat, keepsClass, Std.ExtTreeMap.contains_iff_mem]

theorem keepsMethod_flat (m : MemberMap) (className name : String) :
    m.flat.keepsMethod className name = m.keepsMethod className name := by
  rw [Bool.eq_iff_iff, ChangeSet.keepsMethod_iff]
  simp only [mem_methods_flat, membersOf, Std.ExtTreeMap.getD_eq_getD_getElem?, keepsMethod]
  cases m.members[className]? with
  | none => simp
  | some members => simp

/-- Both forms answer alike what is kept. -/
theorem keeps_flat (m : MemberMap) (className name : String) :
    m.flat.isEmpty = m.isEmpty ∧ m.flat.keepsFunction name = m.keepsFunction name ∧
      m.flat.keepsClass name = m.keepsClass name ∧ m.flat.keepsMethod className name = m.keepsMethod className name :=
  ⟨isEmpty_flat m, rfl, keepsClass_flat m name, keepsMethod_flat m className name⟩

end MemberMap

end DiffSlice
