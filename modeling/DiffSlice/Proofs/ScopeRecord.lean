import DiffSlice.Proofs.TextLines
import DiffSlice.Scope.ChangeSet

/-!
# What recording a scope keeps

Recording a scope adds one declaration: the innermost class of the scope, with the functions inside it, or else all
its functions (`mem_functions_record`, `mem_classes_record`, `mem_methods_record`). So the outermost declaration is
kept only where no other class stands below it (`record_keeps_outermost`), and a class inside a function hides the
function (`record_class_in_function`). A member is written with points and taken apart at points, so a recorded method
is kept exactly if its own name has none (`recorded_method_kept_iff`). Nothing that was recorded is lost (`record_le`),
whence what `locate` records of an edit is kept in the end (`record_le_locate`).
-/

namespace DiffSlice

open DiffSlice.Patch DiffSlice.Text

/-! ## Members -/

theorem not_mem_of_mem_memberParts {member part : String} (h : part ∈ memberParts member) : '.' ∉ part.toList := by
  obtain ⟨y, hy, rfl⟩ := List.mem_map.1 h
  simpa using not_mem_of_mem_stretches hy

theorem memberParts_of_not_mem {n : String} (h : '.' ∉ n.toList) : memberParts n = [n] := by
  simp [memberParts, stretches_of_not_mem h]

theorem memberParts_intercalate_cons {n : String} {names : List String} (hn : '.' ∉ n.toList) (hnames : names ≠ []) :
    memberParts (".".intercalate (n :: names)) = n :: memberParts (".".intercalate names) := by
  have hlist : (".".intercalate (n :: names)).toList = n.toList ++ '.' :: (".".intercalate names).toList := by
    simp [String.intercalate_cons_of_ne_nil hnames]
  rw [memberParts, hlist, stretches_append hn, List.map_cons, String.ofList_toList, memberParts]

/-- A name without a point is the first part of what it stands before. -/
theorem mem_memberParts_intercalate {n : String} (hn : '.' ∉ n.toList) (names : List String) :
    n ∈ memberParts (".".intercalate (n :: names)) := by
  by_cases hnames : names = []
  · rw [hnames, String.intercalate_singleton, memberParts_of_not_mem hn]
    exact List.mem_cons_self
  · rw [memberParts_intercalate_cons hn hnames]
    exact List.mem_cons_self

/-- Names without points are read back from the member that they make. -/
theorem memberParts_intercalate {names : List String} (hne : names ≠ []) (h : ∀ n ∈ names, '.' ∉ n.toList) :
    memberParts (".".intercalate names) = names := by
  induction names with
  | nil => exact absurd rfl hne
  | cons n names ih =>
    have hn : '.' ∉ n.toList := h n List.mem_cons_self
    by_cases hnames : names = []
    · rw [hnames, String.intercalate_singleton, memberParts_of_not_mem hn]
    · rw [memberParts_intercalate_cons hn hnames, ih hnames fun m hm => h m (List.mem_cons_of_mem _ hm)]

theorem memberName?_of_ne_nil {names : List String} (h : names ≠ []) :
    memberName? names = some (".".intercalate names) := by
  simp [memberName?, h]

/-! ## The innermost class -/

def ScopeSegment.className? : ScopeSegment → Option String
  | inFunction _ => none
  | inClass name => some name

/-- The class nearest to a line of the scope. -/
def ScopePath.innermostClass? (p : ScopePath) : Option String :=
  (p.segments.filterMap ScopeSegment.className?).getLast?

/-- The innermost class is the last one on the way in. -/
theorem innermost_fst (owner : Option String) (names : List String) (segments : List ScopeSegment) :
    (ScopePath.innermost owner names segments).1 =
      (segments.filterMap ScopeSegment.className?).getLast?.or owner := by
  induction segments generalizing owner names with
  | nil => rfl
  | cons s segments ih =>
    cases s with
    | inFunction name => exact ih owner _
    | inClass name =>
      rw [ScopePath.innermost, ih]
      show _ = (name :: segments.filterMap ScopeSegment.className?).getLast?.or owner
      rw [List.getLast?_cons]
      cases (segments.filterMap ScopeSegment.className?).getLast? <;> rfl

theorem innermost_of_no_class {segments : List ScopeSegment} (h : segments.filterMap ScopeSegment.className? = [])
    (owner : Option String) (names : List String) :
    ScopePath.innermost owner names segments = (owner, names ++ segments.map ScopeSegment.name) := by
  induction segments generalizing names with
  | nil => simp [ScopePath.innermost]
  | cons s segments ih =>
    cases s with
    | inFunction name => simp [ScopePath.innermost, ih h, ScopeSegment.name]
    | inClass name => cases h

/-- Without a class the scope is a chain of functions. -/
theorem segments_eq_of_no_class {segments : List ScopeSegment} (h : segments.filterMap ScopeSegment.className? = []) :
    segments = (segments.map ScopeSegment.name).map .inFunction := by
  induction segments with
  | nil => rfl
  | cons s segments ih =>
    cases s with
    | inFunction name => rw [List.map_cons, List.map_cons, ← ih h]; rfl
    | inClass name => cases h

theorem filterMap_className?_functions (names : List String) :
    (names.map ScopeSegment.inFunction).filterMap ScopeSegment.className? = [] := by
  rw [List.filterMap_map, List.filterMap_eq_nil_iff]
  exact fun _ _ => rfl

theorem innermostClass?_functions (names : List String) :
    ScopePath.innermostClass? ⟨names.map .inFunction⟩ = none := by
  rw [ScopePath.innermostClass?, filterMap_className?_functions]
  rfl

theorem innermostClass?_class (c : String) (names : List String) :
    ScopePath.innermostClass? ⟨.inClass c :: names.map .inFunction⟩ = some c := by
  show (c :: (names.map ScopeSegment.inFunction).filterMap ScopeSegment.className?).getLast? = some c
  rw [filterMap_className?_functions]
  rfl

namespace ChangeSet

variable (s : ChangeSet) (p : ScopePath)

/-! ## Recording -/

/-- Outside of classes the names of a scope make a function. -/
theorem record_of_no_class (h : p.innermostClass? = none) :
    s.record p = (memberName? (p.segments.map ScopeSegment.name)).elim s s.addFunction := by
  have hnone : p.segments.filterMap ScopeSegment.className? = [] := List.getLast?_eq_none_iff.1 h
  rw [record, innermost_of_no_class hnone, List.nil_append]
  cases hm : memberName? (p.segments.map ScopeSegment.name) <;> simp [hm]

/-- Behind the innermost class the names of a scope make a member of it. -/
theorem record_of_class {owner : String} (h : p.innermostClass? = some owner) :
    s.record p = (memberName? (ScopePath.innermost none [] p.segments).2).elim (s.addClass owner)
      (s.addMethod owner) := by
  have hfst := innermost_fst none [] p.segments
  rw [← ScopePath.innermostClass?, h] at hfst
  rw [record]
  generalize ScopePath.innermost none [] p.segments = inner at hfst ⊢
  obtain ⟨_, names⟩ := inner
  cases hfst
  cases hm : memberName? names <;> simp [hm]

variable {s p}

/-- A function is recorded with those around it if no class is around it. -/
theorem mem_functions_record {f : String} : f ∈ (s.record p).functions ↔ f ∈ s.functions ∨
    (p.innermostClass? = none ∧ p.segments ≠ [] ∧ f = ".".intercalate (p.segments.map ScopeSegment.name)) := by
  cases h : p.innermostClass? with
  | none =>
    rw [record_of_no_class s p h]
    by_cases hne : p.segments = []
    · simp [hne, memberName?]
    · rw [memberName?_of_ne_nil (by simpa using hne)]
      simp [addFunction, hne, or_comm, @eq_comm _ f]
  | some owner =>
    rw [record_of_class s p h]
    cases memberName? (ScopePath.innermost none [] p.segments).2 <;> simp [addClass, addMethod]

/-- The innermost class is recorded. -/
theorem mem_classes_record {c : String} :
    c ∈ (s.record p).classes ↔ c ∈ s.classes ∨ p.innermostClass? = some c := by
  cases h : p.innermostClass? with
  | none =>
    rw [record_of_no_class s p h]
    cases memberName? (p.segments.map ScopeSegment.name) <;> simp [addFunction]
  | some owner =>
    rw [record_of_class s p h]
    cases memberName? (ScopePath.innermost none [] p.segments).2 <;> simp [addClass, addMethod, or_comm]

/-- The functions inside the innermost class are recorded with it. -/
theorem mem_methods_record {m : String × String} : m ∈ (s.record p).methods ↔ m ∈ s.methods ∨
    (p.innermostClass? = some m.1 ∧ memberName? (ScopePath.innermost none [] p.segments).2 = some m.2) := by
  cases h : p.innermostClass? with
  | none =>
    rw [record_of_no_class s p h]
    cases memberName? (p.segments.map ScopeSegment.name) <;> simp [addFunction]
  | some owner =>
    rw [record_of_class s p h]
    cases memberName? (ScopePath.innermost none [] p.segments).2 <;>
      simp [addClass, addMethod, or_comm, Prod.ext_iff]

/-- A function is kept if its name is the first in a touched one. -/
theorem keepsFunction_iff {f : String} :
    s.keepsFunction f = true ↔ ∃ member ∈ s.functions, (memberParts member).head? = some f := by
  simp [keepsFunction]

theorem keepsClass_iff {c : String} : s.keepsClass c = true ↔ c ∈ s.classes := by
  simp [keepsClass]

/-- A method is kept if its name is one of those in a touched member of its class. -/
theorem keepsMethod_iff {c f : String} :
    s.keepsMethod c f = true ↔ ∃ member, (c, member) ∈ s.methods ∧ f ∈ memberParts member := by
  simp only [keepsMethod, List.any_eq_true, Std.ExtTreeSet.mem_toList, Bool.and_eq_true, beq_iff_eq,
    List.contains_iff_mem]
  constructor
  · rintro ⟨⟨_, member⟩, hm, rfl, hf⟩
    exact ⟨member, hm, hf⟩
  · rintro ⟨member, hm, hf⟩
    exact ⟨(c, member), hm, rfl, hf⟩

/-- A function at the top is kept by the scopes below it that have no class. -/
theorem keepsFunction_record (hdots : ∀ seg ∈ p.segments, '.' ∉ seg.name.toList) {f : String} :
    (s.record p).keepsFunction f = true ↔ s.keepsFunction f = true ∨
      (p.innermostClass? = none ∧ p.segments.head? = some (.inFunction f)) := by
  simp only [keepsFunction_iff, mem_functions_record, or_and_right, exists_or]
  refine or_congr_right ⟨?_, ?_⟩
  · rintro ⟨_, ⟨hnone, hne, rfl⟩, hhead⟩
    rw [memberParts_intercalate (by simpa using hne) (by simpa using hdots)] at hhead
    refine ⟨hnone, ?_⟩
    rw [segments_eq_of_no_class (List.getLast?_eq_none_iff.1 hnone), List.head?_map, hhead, Option.map_some]
  · rintro ⟨hnone, hhead⟩
    have hne : p.segments ≠ [] := by
      intro h
      rw [h] at hhead
      cases hhead
    refine ⟨_, ⟨hnone, hne, rfl⟩, ?_⟩
    rw [memberParts_intercalate (by simpa using hne) (by simpa using hdots), List.head?_map, hhead]
    rfl

/-- A line of a class is recorded with the functions around it. -/
theorem mem_methods_record_class (s : ChangeSet) (c : String) {names : List String} (hne : names ≠ []) :
    (c, ".".intercalate names) ∈ (s.record ⟨.inClass c :: names.map .inFunction⟩).methods := by
  have hmap : (names.map ScopeSegment.inFunction).map ScopeSegment.name = names := by
    rw [List.map_map]
    exact List.map_id names
  refine mem_methods_record.2 (.inr ⟨innermostClass?_class c names, ?_⟩)
  rw [ScopePath.innermost, innermost_of_no_class (filterMap_className?_functions names), hmap, List.nil_append,
    memberName?_of_ne_nil hne]

/-- The functions around a line of a class are kept with the class. -/
theorem keepsMethod_record (s : ChangeSet) (c : String) {names : List String} (hdots : ∀ n ∈ names, '.' ∉ n.toList)
    {f : String} (hf : f ∈ names) :
    (s.record ⟨.inClass c :: names.map .inFunction⟩).keepsMethod c f = true := by
  have hne : names ≠ [] := List.ne_nil_of_mem hf
  refine keepsMethod_iff.2 ⟨_, mem_methods_record_class s c hne, ?_⟩
  rw [memberParts_intercalate hne hdots]
  exact hf

/-- No name with a point is a part of a member, so no method of such a name is kept. -/
theorem not_mem_of_keepsMethod {c m : String} (h : s.keepsMethod c m = true) : '.' ∉ m.toList := by
  obtain ⟨member, _, hpart⟩ := keepsMethod_iff.1 h
  exact not_mem_of_mem_memberParts hpart

/-- A recorded method is kept exactly if its name has no point, whatever the functions inside it are named and whatever
was recorded before. -/
theorem recorded_method_kept_iff (s : ChangeSet) (c m : String) (inner : List String) :
    (s.record ⟨.inClass c :: (m :: inner).map .inFunction⟩).keepsMethod c m = true ↔ '.' ∉ m.toList := by
  constructor
  · exact not_mem_of_keepsMethod
  · intro hm
    exact keepsMethod_iff.2 ⟨_, mem_methods_record_class s c (List.cons_ne_nil m inner),
      mem_memberParts_intercalate hm inner⟩

/-- A method with a computed name is recorded and not kept. -/
theorem recorded_iterator_not_kept :
    (empty.record ⟨[.inClass "A", .inFunction "[Symbol.iterator]"]⟩).keepsMethod "A" "[Symbol.iterator]" = false := by
  rw [Bool.eq_false_iff]
  intro h
  exact not_mem_of_keepsMethod h (by decide)

/-- After a scope is recorded, the outermost declaration it lies in is kept exactly if it was before or no other class
stands below it: of the classes of a scope, the innermost is the one that is kept. -/
theorem record_keeps_outermost (s : ChangeSet) {p : ScopePath} (hdots : ∀ seg ∈ p.segments, '.' ∉ seg.name.toList) :
    (∀ f, p.segments.head? = some (.inFunction f) →
      ((s.record p).keepsFunction f = true ↔ s.keepsFunction f = true ∨ p.innermostClass? = none)) ∧
    (∀ c, p.segments.head? = some (.inClass c) →
      ((s.record p).keepsClass c = true ↔ s.keepsClass c = true ∨ p.innermostClass? = some c)) ∧
    ∀ c, p.innermostClass? = some c → (s.record p).keepsClass c = true := by
  refine ⟨fun f hf => ?_, fun c _ => ?_, fun c hc => ?_⟩
  · rw [keepsFunction_record hdots, hf, and_iff_left rfl]
  · rw [keepsClass_iff, keepsClass_iff, mem_classes_record]
  · rw [keepsClass_iff, mem_classes_record]
    exact .inr hc

/-- A function inside another one keeps the outer one. -/
theorem record_keeps_outermost_nested :
    (empty.record ⟨[.inFunction "f", .inFunction "g"]⟩).keepsFunction "f" = true :=
  ((record_keeps_outermost empty (p := ⟨[.inFunction "f", .inFunction "g"]⟩) (by decide)).1 "f" rfl).2 (.inr rfl)

/-- A class inside a function hides the function. -/
theorem record_class_in_function :
    (empty.record ⟨[.inFunction "f", .inClass "Inner", .inFunction "m"]⟩).keepsFunction "f" = false := by
  rw [Bool.eq_false_iff, ne_eq, keepsFunction_record (by decide)]
  decide

/-! ## Nothing is lost -/

/-- What the one change touched, so did the other. -/
structure Le (s t : ChangeSet) : Prop where
  functions : ∀ f ∈ s.functions, f ∈ t.functions
  classes : ∀ c ∈ s.classes, c ∈ t.classes
  methods : ∀ m ∈ s.methods, m ∈ t.methods

theorem Le.refl (s : ChangeSet) : s.Le s :=
  ⟨fun _ h => h, fun _ h => h, fun _ h => h⟩

theorem Le.trans {s t u : ChangeSet} (h : s.Le t) (h' : t.Le u) : s.Le u :=
  ⟨fun f hf => h'.functions f (h.functions f hf), fun c hc => h'.classes c (h.classes c hc),
    fun m hm => h'.methods m (h.methods m hm)⟩

theorem Le.keepsFunction {s t : ChangeSet} (h : s.Le t) {f : String} (hf : s.keepsFunction f = true) :
    t.keepsFunction f = true := by
  obtain ⟨member, hm, hhead⟩ := keepsFunction_iff.1 hf
  exact keepsFunction_iff.2 ⟨member, h.functions member hm, hhead⟩

theorem Le.keepsClass {s t : ChangeSet} (h : s.Le t) {c : String} (hc : s.keepsClass c = true) :
    t.keepsClass c = true :=
  keepsClass_iff.2 (h.classes c (keepsClass_iff.1 hc))

theorem Le.keepsMethod {s t : ChangeSet} (h : s.Le t) {c f : String} (hf : s.keepsMethod c f = true) :
    t.keepsMethod c f = true := by
  obtain ⟨member, hm, hpart⟩ := keepsMethod_iff.1 hf
  exact keepsMethod_iff.2 ⟨member, h.methods (c, member) hm, hpart⟩

/-- Recording a scope takes nothing away. -/
theorem record_le (s : ChangeSet) (p : ScopePath) : s.Le (s.record p) :=
  ⟨fun _ hf => mem_functions_record.2 (.inl hf), fun _ hc => mem_classes_record.2 (.inl hc),
    fun _ hm => mem_methods_record.2 (.inl hm)⟩

theorem foldl_record_le (map : ScopeMap) (edits : List LineEdit) (s : ChangeSet) :
    s.Le (edits.foldl (fun s e => s.record (map.scopeOf e.number)) s) := by
  induction edits generalizing s with
  | nil => exact .refl s
  | cons e edits ih => exact (record_le s _).trans (ih _)

/-- The scope of every edit is recorded. -/
theorem record_le_locate {edits : List LineEdit} {e : LineEdit} (he : e ∈ edits) (map : ScopeMap) :
    ∃ s : ChangeSet, (s.record (map.scopeOf e.number)).Le (locate edits map) := by
  obtain ⟨earlier, later, rfl⟩ := List.append_of_mem he
  rw [locate, List.foldl_append, List.foldl_cons]
  exact ⟨_, foldl_record_le map later _⟩

end ChangeSet

end DiffSlice
