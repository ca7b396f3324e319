import DiffSlice.Proofs.ScopeRecord
import Mathlib.Order.BoundedOrder.Lattice

/-!
# Change sets form a semilattice

Change sets are ordered by `ChangeSet.Le`, and the union of two is the least that both are below. A class without
members counts: it is below a union like any other declaration. So the laws of a semilattice hold of `union`, with the
empty set at the bottom.

Recording a scope is a union (`record_eq_union`), so locating edits is one too: a change set is above `locate` exactly
if it is above the scope of each edit (`locate_le_iff`). Hence neither the order nor the number of the edits matters
(`locate_congr`), only which there are. What a union keeps is what either side keeps. All this is
`union_semilattice`.
-/

namespace DiffSlice

open DiffSlice.Patch

namespace ChangeSet

/-! ## The order -/

/-- Change sets that each touch all that the other does are the same. -/
theorem Le.antisymm {s t : ChangeSet} (h : s.Le t) (h' : t.Le s) : s = t := by
  ext x
  · exact ⟨h.functions x, h'.functions x⟩
  · exact ⟨h.classes x, h'.classes x⟩
  · exact ⟨h.methods x, h'.methods x⟩

section Union

variable {s t u : ChangeSet}

@[simp] theorem mem_functions_union {f : String} : f ∈ (s.union t).functions ↔ f ∈ s.functions ∨ f ∈ t.functions :=
  Std.ExtTreeSet.mem_union_iff

@[simp] theorem mem_classes_union {c : String} : c ∈ (s.union t).classes ↔ c ∈ s.classes ∨ c ∈ t.classes :=
  Std.ExtTreeSet.mem_union_iff

@[simp] theorem mem_methods_union {m : String × String} :
    m ∈ (s.union t).methods ↔ m ∈ s.methods ∨ m ∈ t.methods :=
  Std.ExtTreeSet.mem_union_iff

theorem le_union_left (s t : ChangeSet) : s.Le (s.union t) :=
  ⟨fun _ h => mem_functions_union.2 (.inl h), fun _ h => mem_classes_union.2 (.inl h),
    fun _ h => mem_methods_union.2 (.inl h)⟩

theorem le_union_right (s t : ChangeSet) : t.Le (s.union t) :=
  ⟨fun _ h => mem_functions_union.2 (.inr h), fun _ h => mem_classes_union.2 (.inr h),
    fun _ h => mem_methods_union.2 (.inr h)⟩

/-- The union of two change sets is the least that is above both. -/
theorem union_le (hs : s.Le u) (ht : t.Le u) : (s.union t).Le u :=
  ⟨fun f hf => (mem_functions_union.1 hf).elim (hs.functions f) (ht.functions f),
    fun c hc => (mem_classes_union.1 hc).elim (hs.classes c) (ht.classes c),
    fun m hm => (mem_methods_union.1 hm).elim (hs.methods m) (ht.methods m)⟩

end Union

theorem empty_le (s : ChangeSet) : empty.Le s :=
  ⟨fun _ h => absurd h Std.ExtTreeSet.not_mem_empty, fun _ h => absurd h Std.ExtTreeSet.not_mem_empty,
    fun _ h => absurd h Std.ExtTreeSet.not_mem_empty⟩

instance : SemilatticeSup ChangeSet where
  le := Le
  le_refl := Le.refl
  le_trans _ _ _ := Le.trans
  le_antisymm _ _ := Le.antisymm
  sup := union
  le_sup_left := le_union_left
  le_sup_right := le_union_right
  sup_le _ _ _ := union_le

instance : OrderBot ChangeSet where
  bot := empty
  bot_le := empty_le

/-! ## Recording and locating -/

/-- Recording a scope adds what the scope alone would give. -/
theorem record_eq_union (s : ChangeSet) (p : ScopePath) : s.record p = s.union (empty.record p) := by
  ext x
  · simp [mem_functions_record, empty]
  · simp [mem_classes_record, empty]
  · simp [mem_methods_record, empty]

/-- Recording edits one by one adds what they touch to what was touched before. -/
theorem foldl_record_eq (map : ScopeMap) (edits : List LineEdit) (s : ChangeSet) :
    edits.foldl (fun s e => s.record (map.scopeOf e.number)) s = s.union (locate edits map) := by
  induction edits generalizing s with
  | nil => exact (sup_bot_eq s).symm
  | cons e edits ih =>
    -- both sides record the scope of `e` first, from `s` and from nothing
    rw [locate, List.foldl_cons, List.foldl_cons, ih, ih (empty.record _), record_eq_union s]
    exact sup_assoc s _ _

theorem locate_cons (e : LineEdit) (edits : List LineEdit) (map : ScopeMap) :
    locate (e :: edits) map = (empty.record (map.scopeOf e.number)).union (locate edits map) :=
  foldl_record_eq map edits _

/-- Edits in two parts touch what either part touches. -/
theorem locate_append (xs ys : List LineEdit) (map : ScopeMap) :
    locate (xs ++ ys) map = (locate xs map).union (locate ys map) := by
  rw [locate, List.foldl_append]
  exact foldl_record_eq map ys _

/-- What edits touch is the least change set that is above the scope of each of them. -/
theorem locate_le_iff {edits : List LineEdit} {map : ScopeMap} {t : ChangeSet} :
    locate edits map ≤ t ↔ ∀ e ∈ edits, empty.record (map.scopeOf e.number) ≤ t := by
  induction edits with
  | nil => exact iff_of_true bot_le (by simp)
  | cons e edits ih =>
    rw [locate_cons, List.forall_mem_cons, ← ih]
    exact sup_le_iff

/-- Edits in another order, or repeated, touch the same. -/
theorem locate_congr {xs ys : List LineEdit} (h : ∀ e, e ∈ xs ↔ e ∈ ys) (map : ScopeMap) :
    locate xs map = locate ys map :=
  eq_of_forall_ge_iff fun t => by simp only [locate_le_iff, h]

/-! ## What a union keeps -/

/-- A union keeps the functions that one of the two keeps. -/
theorem keepsFunction_union (s t : ChangeSet) (name : String) :
    (s.union t).keepsFunction name = (s.keepsFunction name || t.keepsFunction name) := by
  rw [Bool.eq_iff_iff, Bool.or_eq_true]
  simp only [keepsFunction_iff, mem_functions_union, or_and_right, exists_or]

theorem keepsClass_union (s t : ChangeSet) (name : String) :
    (s.union t).keepsClass name = (s.keepsClass name || t.keepsClass name) := by
  rw [Bool.eq_iff_iff, Bool.or_eq_true]
  simp only [keepsClass_iff, mem_classes_union]

theorem keepsMethod_union (s t : ChangeSet) (className name : String) :
    (s.union t).keepsMethod className name = (s.keepsMethod className name || t.keepsMethod className name) := by
  rw [Bool.eq_iff_iff, Bool.or_eq_true]
  simp only [keepsMethod_iff, mem_methods_union, or_and_right, exists_or]

/-- Union is commutative, associative and idempotent, and the empty set adds nothing. Recording is a union, locating
takes lists of edits to unions and depends only on which edits there are, and a union keeps what either side keeps. -/
theorem union_semilattice (a b c : ChangeSet) (p : ScopePath) (map : ScopeMap) (xs ys : List LineEdit)
    (className name : String) :
    a.union b = b.union a ∧ (a.union b).union c = a.union (b.union c) ∧ a.union a = a ∧
    a.union empty = a ∧ empty.union a = a ∧
    a.record p = a.union (empty.record p) ∧
    locate (xs ++ ys) map = (locate xs map).union (locate ys map) ∧
    ((∀ e, e ∈ xs ↔ e ∈ ys) → locate xs map = locate ys map) ∧
    (a.union b).keepsFunction name = (a.keepsFunction name || b.keepsFunction name) ∧
    (a.union b).keepsClass className = (a.keepsClass className || b.keepsClass className) ∧
    (a.union b).keepsMethod className name = (a.keepsMethod className name || b.keepsMethod className name) := by
  refine ⟨sup_comm a b, sup_assoc a b c, sup_idem a, sup_bot_eq a, bot_sup_eq a, record_eq_union a p, ?_⟩
  refine ⟨locate_append xs ys map, fun h => locate_congr h map, ?_⟩
  exact ⟨keepsFunction_union a b name, keepsClass_union a b className, keepsMethod_union a b className name⟩

/-- Two edits of a method and of its class, in the other order and with one of them twice. -/
theorem locate_repeated_edits :
    let map : ScopeMap := ⟨[⟨1, 3, ⟨[.inClass "A"]⟩⟩, ⟨2, 2, ⟨[.inClass "A", .inFunction "m"]⟩⟩]⟩
    let field : LineEdit := ⟨1, "x = 1;", .added⟩
    let method : LineEdit := ⟨2, "m() {}", .added⟩
    locate [field, method] map = locate [method, field, method] map := by
  intro map field method
  have hsame : ∀ e, e ∈ [field, method] ↔ e ∈ [method, field, method] := by simp [or_comm]
  obtain ⟨_, _, _, _, _, _, _, hcongr, _⟩ :=
    union_semilattice .empty .empty .empty .global map [field, method] [method, field, method] "A" "m"
  exact hcongr hsame

end ChangeSet

end DiffSlice
