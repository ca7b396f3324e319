import DiffSlice.Proofs.ScopeRecord
import DiffSlice.Slice.Basic
import Mathlib.Data.List.Induction

/-!
# Touched code is kept

A line that is edited inside a named function or method is a line of the slice (`touched_line_kept`). Of the spans on
a line the last gives its scope, and of the marks on it the last decides whether it is kept. Both go through the nodes
in the same order, and where the spans of a node do not reach a line, its marks do not skip it
(`keepsLine_flatMap`); so the node that gives the scope also gives the mark that counts.
-/

namespace DiffSlice

open DiffSlice.Patch DiffSlice.Text

/-! ## The last that counts -/

section LastOr

variable {α β : Type} {items : List α} {counts : α → Bool} {value : α → β}

/-- The value of the last item that counts, or the default. -/
def lastOr (items : List α) (counts : α → Bool) (value : α → β) (default : β) : β :=
  match items.reverse.find? counts with
  | some a => value a
  | none => default

/-- Later items decide before earlier ones. -/
theorem lastOr_append (xs ys : List α) (counts : α → Bool) (value : α → β) (default : β) :
    lastOr (xs ++ ys) counts value default = lastOr ys counts value (lastOr xs counts value default) := by
  unfold lastOr
  rw [List.reverse_append, List.find?_append]
  cases ys.reverse.find? counts <;> rfl

/-- Where all that count agree, the order does not matter. -/
theorem lastOr_eq {default b : β} (h : ∀ a ∈ items, counts a = true → value a = b)
    (hd : default = b ∨ ∃ a ∈ items, counts a = true) : lastOr items counts value default = b := by
  unfold lastOr
  split
  · rename_i a ha
    exact h a (List.mem_reverse.1 (List.mem_of_find?_eq_some ha)) (List.find?_some ha)
  · rename_i hnone
    refine hd.resolve_right ?_
    rintro ⟨a, ha, hc⟩
    exact List.find?_eq_none.1 hnone a (List.mem_reverse.2 ha) hc

/-- Where one counts, the default does not. -/
theorem lastOr_congr (h : ∃ a ∈ items, counts a = true) (default default' : β) :
    lastOr items counts value default = lastOr items counts value default' := by
  unfold lastOr
  split
  · rfl
  · rename_i hnone
    obtain ⟨a, ha, hc⟩ := h
    exact absurd hc (List.find?_eq_none.1 hnone a (List.mem_reverse.2 ha))

end LastOr

/-! ## Nested rows -/

namespace Node

mutual

/-- The node's rows are among those from `first` up to, but without, `stop`, and what stands inside a declaration is
among the rows of the declaration. Methods stand in classes, and functions do not. -/
def nested (first stop : Nat) (inClass : Bool) : Node → Bool
  | .mk kind _ startRow endRow _ _ items =>
    first ≤ startRow && endRow < stop &&
      match kind with
      | .functionDeclaration => !inClass && allNested startRow (endRow + 1) false items
      | .methodDefinition => inClass && allNested startRow (endRow + 1) false items
      | .classDeclaration => allNested startRow (endRow + 1) true items
      | _ => true

def allNested (first stop : Nat) (inClass : Bool) : List Node → Bool
  | [] => true
  | n :: rest => nested first stop inClass n && allNested first stop inClass rest

end

variable {first stop : Nat} {inClass : Bool} {n : Node} {before ns : List Node} {p : ScopePath} {line : Nat}

theorem allNested_iff : allNested first stop inClass ns = true ↔ ∀ n ∈ ns, n.nested first stop inClass = true := by
  induction ns with
  | nil => simp [allNested]
  | cons n ns ih => simp [allNested, ih]

theorem nested_rows (h : n.nested first stop inClass = true) : first ≤ n.startRow ∧ n.endRow < stop := by
  obtain ⟨kind, typeName, startRow, endRow, text, name, items⟩ := n
  simp only [nested, Bool.and_eq_true, decide_eq_true_eq] at h
  exact h.1

/-- A node covers the lines from its first row to its last one. -/
theorem covers_iff : n.covers line = true ↔ n.startRow < line ∧ line ≤ n.endRow + 1 := by
  rw [Node.covers, Node.firstLine, Node.lastLine, Bool.and_eq_true, decide_eq_true_eq, decide_eq_true_eq]
  rfl

/-- Annotations are found among the nodes before. -/
theorem mem_of_mem_attachedTo {a : Node} {row : Nat} (h : a ∈ attachedTo row before) : a ∈ before := by
  fun_induction attachedTo row before with
  | case1 => cases h
  | case2 row prev before _ ih =>
    rcases List.mem_cons.1 h with rfl | h
    · exact List.mem_cons_self
    · exact List.mem_cons_of_mem _ (ih h)
  | case3 => cases h

/-! ## Spans -/

/-- The span lies in the rows from `first` up to `stop`, and its scope is in the given one. -/
structure SpanIn (p : ScopePath) (first stop : Nat) (t : ScopedSpan) : Prop where
  scope : p.segments <+: t.scope.segments
  first : first < t.firstLine
  last : t.lastLine ≤ stop

theorem SpanIn.mono {p q : ScopePath} {first stop first' stop' : Nat} {t : ScopedSpan} (h : SpanIn q first' stop' t)
    (hp : p.segments <+: q.segments) (hf : first ≤ first') (hs : stop' ≤ stop) : SpanIn p first stop t :=
  ⟨hp.trans h.scope, Nat.lt_of_le_of_lt hf h.first, Nat.le_trans h.last hs⟩

/-- The spans of a nested node: those of a function or method, those of a class, or at most its own. -/
theorem spans_cases (h : n.nested first stop inClass = true) (p : ScopePath) (before : List Node) :
    (n.kind = (if inClass then .methodDefinition else .functionDeclaration) ∧
      n.spans p before = n.ownSpans before (p.inFunction (n.name.getD "<function>")) ++
        spansOf (p.inFunction (n.name.getD "<function>")) [] n.items ∧
      allNested n.startRow (n.endRow + 1) false n.items = true) ∨
    (n.kind = .classDeclaration ∧
      n.spans p before = n.ownSpans before p ++ spansOf (p.inClass (n.name.getD "<class>")) [] n.items ∧
      allNested n.startRow (n.endRow + 1) true n.items = true) ∨
    (n.kind ≠ .methodDefinition ∧ n.kind ≠ .functionDeclaration ∧ n.kind ≠ .classDeclaration ∧
      n.spans p before =
        if n.kind = .comment ∧ p.isGlobal = true ∧ n.isDocComment = false then [] else [n.span p]) := by
  obtain ⟨kind, typeName, startRow, endRow, text, name, items⟩ := n
  cases kind <;> cases inClass <;> simp_all [nested, spans]

/-- The own spans of a node lie in rows that hold it and the nodes before it. -/
theorem ownSpans_in (hn : first ≤ n.startRow ∧ n.endRow < stop)
    (hb : ∀ b ∈ before, first ≤ b.startRow ∧ b.endRow < stop) {q : ScopePath} (hq : p.segments <+: q.segments) :
    ∀ t ∈ n.ownSpans before q, SpanIn p first stop t := by
  intro t ht
  have hspan : ∃ m : Node, (first ≤ m.startRow ∧ m.endRow < stop) ∧ t = m.span q := by
    rcases List.mem_append.1 ht with ht | ht
    · obtain ⟨a, ha, rfl⟩ := List.mem_map.1 ht
      exact ⟨a, hb a (mem_of_mem_attachedTo ha), rfl⟩
    · exact ⟨n, hn, List.mem_singleton.1 ht⟩
  obtain ⟨m, hm, rfl⟩ := hspan
  refine ⟨hq, ?_, ?_⟩ <;> simp only [span, firstLine, lastLine] <;> omega

mutual

/-- The spans of a nested node lie in its rows and those of the nodes before it. -/
theorem spans_in {first stop : Nat} {inClass : Bool} (p : ScopePath) {before : List Node}
    (hb : ∀ b ∈ before, first ≤ b.startRow ∧ b.endRow < stop) :
    ∀ {n : Node}, n.nested first stop inClass = true → ∀ t ∈ n.spans p before, SpanIn p first stop t
  | .mk kind typeName startRow endRow text name items, hn, t, ht => by
    have hrows := nested_rows hn
    rcases spans_cases hn p before with ⟨_, hs, hitems⟩ | ⟨_, hs, hitems⟩ | ⟨_, _, _, hs⟩
    · rw [hs] at ht
      rcases List.mem_append.1 ht with ht | ht
      · exact ownSpans_in hrows hb (List.prefix_append _ _) t ht
      · exact (spansOf_in _ (by simp) hitems t ht).mono (List.prefix_append _ _) hrows.1 hrows.2
    · rw [hs] at ht
      rcases List.mem_append.1 ht with ht | ht
      · exact ownSpans_in hrows hb (List.prefix_refl _) t ht
      · exact (spansOf_in _ (by simp) hitems t ht).mono (List.prefix_append _ _) hrows.1 hrows.2
    · rw [hs] at ht
      split at ht
      · cases ht
      · exact ownSpans_in hrows hb (List.prefix_refl _) t (List.mem_append_right _ ht)

theorem spansOf_in {first stop : Nat} {inClass : Bool} (p : ScopePath) {before : List Node}
    (hb : ∀ b ∈ before, first ≤ b.startRow ∧ b.endRow < stop) :
    ∀ {ns : List Node}, allNested first stop inClass ns = true → ∀ t ∈ spansOf p before ns, SpanIn p first stop t
  | [], _, t, ht => by cases ht
  | n :: ns, h, t, ht => by
    rw [allNested, Bool.and_eq_true] at h
    rw [spansOf] at ht
    rcases List.mem_append.1 ht with ht | ht
    · exact spans_in p hb h.1 t ht
    · refine spansOf_in p ?_ h.2 t ht
      intro b hm
      rcases List.mem_cons.1 hm with rfl | hm
      · exact nested_rows h.1
      · exact hb b hm

end

theorem spansOf_eq_flatMap (p : ScopePath) (before ns : List Node) :
    spansOf p before ns = (withEarlier before ns).flatMap fun (earlier, n) => n.spans p earlier := by
  induction ns generalizing before with
  | nil => rfl
  | cons n ns ih => rw [spansOf, ih, withEarlier, List.flatMap_cons]

/-- The line is one of the node's or of its annotations'. -/
def Reaches (n : Node) (before : List Node) (line : Nat) : Prop :=
  n.covers line = true ∨ ∃ a ∈ n.attached before, a.covers line = true

/-- A line that a node or its annotations have is a line of the node or of one before it. -/
theorem Reaches.exists_covers (h : n.Reaches before line) : ∃ b, (b = n ∨ b ∈ before) ∧ b.covers line = true := by
  rcases h with h | ⟨a, ha, h⟩
  · exact ⟨n, .inl rfl, h⟩
  · exact ⟨a, .inr (mem_of_mem_attachedTo ha), h⟩

theorem exists_covers_of_reaches (hmem : (before, n) ∈ withEarlier [] ns) (h : n.Reaches before line) :
    ∃ b ∈ ns, b.covers line = true := by
  obtain ⟨b, rfl | hb, hc⟩ := h.exists_covers
  · exact ⟨b, mem_of_mem_withEarlier hmem, hc⟩
  · exact ⟨b, (mem_of_mem_earlier hmem hb).resolve_left List.not_mem_nil, hc⟩

/-- A node reaches the lines of its own spans. -/
theorem reaches_of_mem_ownSpans {q : ScopePath} {t : ScopedSpan} (ht : t ∈ n.ownSpans before q)
    (hc : t.covers line = true) : n.Reaches before line := by
  rcases List.mem_append.1 ht with ht | ht
  · obtain ⟨a, ha, rfl⟩ := List.mem_map.1 ht
    exact .inr ⟨a, ha, hc⟩
  · rw [List.mem_singleton.1 ht] at hc
    exact .inl hc

/-- A span of a nested node is on lines of the node or of its annotations. -/
theorem reaches_of_mem_spans (h : n.nested first stop inClass = true) {t : ScopedSpan} (ht : t ∈ n.spans p before)
    (hc : t.covers line = true) : n.Reaches before line := by
  have hinner : ∀ {q : ScopePath} {k : Bool}, allNested n.startRow (n.endRow + 1) k n.items = true →
      t ∈ spansOf q [] n.items → n.Reaches before line := by
    intro q k hitems ht
    have hin := spansOf_in q (by simp) hitems t ht
    have hfirst := hin.first
    have hlast := hin.last
    rw [ScopedSpan.covers, Bool.and_eq_true, decide_eq_true_eq, decide_eq_true_eq] at hc
    refine .inl (covers_iff.2 ?_)
    omega
  rcases spans_cases h p before with ⟨_, hs, hitems⟩ | ⟨_, hs, hitems⟩ | ⟨_, _, _, hs⟩ <;> rw [hs] at ht
  · rcases List.mem_append.1 ht with ht | ht
    · exact reaches_of_mem_ownSpans ht hc
    · exact hinner hitems ht
  · rcases List.mem_append.1 ht with ht | ht
    · exact reaches_of_mem_ownSpans ht hc
    · exact hinner hitems ht
  · split at ht
    · cases ht
    · exact reaches_of_mem_ownSpans (List.mem_append_right _ ht) hc

/-- The lines of a node have a span, plain comments outside of everything aside. -/
theorem exists_span_of_covers (h : n.nested first stop inClass = true) (hc : n.covers line = true)
    (hplain : ¬ (n.kind = .comment ∧ p.isGlobal = true ∧ n.isDocComment = false)) :
    ∃ t ∈ n.spans p before, t.covers line = true := by
  have hown : ∀ q : ScopePath, n.span q ∈ n.ownSpans before q := fun q =>
    List.mem_append_right _ (List.mem_singleton.2 rfl)
  rcases spans_cases h p before with ⟨_, hs, _⟩ | ⟨_, hs, _⟩ | ⟨_, _, _, hs⟩ <;> rw [hs]
  · exact ⟨_, List.mem_append_left _ (hown _), hc⟩
  · exact ⟨_, List.mem_append_left _ (hown _), hc⟩
  · rw [if_neg hplain]
    exact ⟨_, List.mem_singleton.2 rfl, hc⟩

theorem scope_of_mem_ownSpans {q : ScopePath} {t : ScopedSpan} (ht : t ∈ n.ownSpans before q) : t.scope = q := by
  rcases List.mem_append.1 ht with ht | ht
  · obtain ⟨a, _, rfl⟩ := List.mem_map.1 ht
    rfl
  · rw [List.mem_singleton.1 ht]
    rfl

/-- A scope that goes further than the one a node stands in goes into what the node declares. -/
theorem declares_of_mem_spans (h : n.nested first stop inClass = true) {t : ScopedSpan} (ht : t ∈ n.spans p before)
    {seg : ScopeSegment} {rest : List ScopeSegment} (hscope : t.scope.segments = p.segments ++ seg :: rest) :
    (n.kind = (if inClass then .methodDefinition else .functionDeclaration) ∧
      seg = .inFunction (n.name.getD "<function>")) ∨
    (n.kind = .classDeclaration ∧ seg = .inClass (n.name.getD "<class>")) := by
  have hnext : ∀ {s : ScopeSegment}, p.segments ++ [s] <+: t.scope.segments → seg = s := by
    rintro s ⟨more, hmore⟩
    rw [hscope, List.append_assoc, List.append_cancel_left_eq] at hmore
    exact (List.cons.inj hmore).1.symm
  have hproper : t.scope ≠ p := by
    rintro rfl
    simp at hscope
  rcases spans_cases h p before with ⟨hk, hs, hitems⟩ | ⟨hk, hs, hitems⟩ | ⟨_, _, _, hs⟩ <;> rw [hs] at ht
  · refine .inl ⟨hk, hnext ?_⟩
    rcases List.mem_append.1 ht with ht | ht
    · rw [scope_of_mem_ownSpans ht]
      exact List.prefix_refl _
    · exact (spansOf_in _ (by simp) hitems t ht).scope
  · refine .inr ⟨hk, hnext ?_⟩
    rcases List.mem_append.1 ht with ht | ht
    · exact absurd (scope_of_mem_ownSpans ht) hproper
    · exact (spansOf_in _ (by simp) hitems t ht).scope
  · split at ht
    · cases ht
    · rw [List.mem_singleton.1 ht] at hproper
      exact absurd rfl hproper

end Node

/-! ## Marks -/

theorem keepsLine_eq_lastOr (marks : List LineMark) (default : Bool) (line : Nat) :
    keepsLine marks default line = lastOr marks (·.covers line) LineMark.keep default := by
  unfold keepsLine lastOr
  cases marks.reverse.find? (·.covers line) <;> rfl

/-- Later marks decide before earlier ones. -/
theorem keepsLine_append (xs ys : List LineMark) (default : Bool) (line : Nat) :
    keepsLine (xs ++ ys) default line = keepsLine ys (keepsLine xs default line) line := by
  rw [keepsLine_eq_lastOr, lastOr_append, ← keepsLine_eq_lastOr, ← keepsLine_eq_lastOr]

/-- A line is kept if every mark on it keeps it. -/
theorem keepsLine_of_keep {marks : List LineMark} {default : Bool} {line : Nat}
    (h : ∀ m ∈ marks, m.covers line = true → m.keep = true)
    (hd : default = true ∨ ∃ m ∈ marks, m.covers line = true) : keepsLine marks default line = true := by
  rw [keepsLine_eq_lastOr]
  exact lastOr_eq h hd

/-- Spans and marks go through the same items. If the item of the last span on a line keeps the line, and no item
without a span on the line skips it, then the line is kept. -/
theorem keepsLine_flatMap {α : Type} {items : List α} {spansAt : α → List ScopedSpan} {marksAt : α → List LineMark}
    {line : Nat} {s : ScopedSpan} (hfind : (items.flatMap spansAt).reverse.find? (·.covers line) = some s)
    (hkeep : ∀ a ∈ items, (spansAt a).reverse.find? (·.covers line) = some s →
      ∀ default, keepsLine (marksAt a) default line = true)
    (hlater : ∀ a ∈ items, (∀ t ∈ spansAt a, t.covers line = false) →
      ∀ m ∈ marksAt a, m.covers line = true → m.keep = true) (default : Bool) :
    keepsLine (items.flatMap marksAt) default line = true := by
  -- from the back, so that the items after the one with the last span come first
  induction items using List.reverseRecOn with
  | nil => cases hfind
  | append_singleton items a ih =>
    rw [List.flatMap_append, List.reverse_append, List.find?_append] at hfind
    rw [List.flatMap_append, keepsLine_append]
    simp only [List.flatMap_cons, List.flatMap_nil, List.append_nil] at hfind ⊢
    have ha : a ∈ items ++ [a] := List.mem_append_right _ (List.mem_singleton.2 rfl)
    cases hspan : (spansAt a).reverse.find? (·.covers line) with
    | some t =>
      rw [hspan, Option.some_or] at hfind
      exact hkeep a ha (hspan.trans hfind) _
    | none =>
      rw [hspan, Option.none_or] at hfind
      have hnone : ∀ t ∈ spansAt a, t.covers line = false := fun t ht => by
        simpa using List.find?_eq_none.1 hspan t (List.mem_reverse.2 ht)
      have hbefore := ih hfind (fun b hb => hkeep b (List.mem_append_left _ hb))
        (fun b hb => hlater b (List.mem_append_left _ hb))
      exact keepsLine_of_keep (hlater a ha hnone) (.inl hbefore)

theorem mem_numbers_numbered {l number : Nat} {ls : List String} :
    l ∈ (numbered number ls).map SlicedLine.number ↔ number ≤ l ∧ l < number + ls.length := by
  induction ls generalizing number with
  | nil => simp [numbered]
  | cons text ls ih =>
    show l ∈ number :: (numbered (number + 1) ls).map SlicedLine.number ↔ _
    rw [List.mem_cons, ih, List.length_cons]
    omega

/-- The lines of a slice are those of the source that the marks keep. -/
theorem mem_lineNumbers_ofMarks {source : String} {marks : List LineMark} {default : Bool} {l : Nat} :
    l ∈ (Slice.ofMarks source marks default).lineNumbers ↔
      (1 ≤ l ∧ l < 1 + (lines source).length) ∧ keepsLine marks default l = true := by
  rw [← mem_numbers_numbered, Slice.lineNumbers, Slice.ofMarks]
  simp only [List.mem_map, List.mem_filter]
  constructor
  · rintro ⟨x, ⟨hx, hk⟩, rfl⟩
    exact ⟨⟨x, hx, rfl⟩, hk⟩
  · rintro ⟨⟨x, hx, rfl⟩, hk⟩
    exact ⟨x, ⟨hx, hk⟩, rfl⟩

namespace Node

variable {first stop : Nat} {inClass : Bool} {n : Node} {before ns : List Node} {line : Nat} {changes : ChangeSet}

theorem keep_of_mem_keepMarks {m : LineMark} (h : m ∈ n.keepMarks before) : m.keep = true := by
  rcases List.mem_cons.1 h with rfl | h
  · rfl
  · obtain ⟨a, _, rfl⟩ := List.mem_map.1 h
    rfl

/-- A node that is kept keeps all lines that it reaches. -/
theorem keepsLine_keepMarks (h : n.Reaches before line) (default : Bool) :
    keepsLine (n.keepMarks before) default line = true := by
  refine keepsLine_of_keep (fun m hm _ => keep_of_mem_keepMarks hm) (.inr ?_)
  rcases h with h | ⟨a, ha, h⟩
  · exact ⟨n.keepMark, List.mem_cons_self, h⟩
  · exact ⟨a.keepMark, List.mem_cons_of_mem _ (List.mem_map_of_mem ha), h⟩

/-- A member of a class skips no lines but its own. -/
theorem eq_skipMark_of_mem_memberMarks {className : String} {m : LineMark}
    (h : m ∈ n.memberMarks className changes before) (hm : m.keep ≠ true) : m = n.skipMark := by
  unfold memberMarks at h
  split at h
  · split at h
    · exact absurd (keep_of_mem_keepMarks h) hm
    · rw [List.mem_singleton.1 h] at hm
      exact absurd rfl hm
  · exact List.mem_singleton.1 h

/-- A class has the rows of its members. -/
def HoldsMembers (n : Node) : Prop :=
  n.kind = .classDeclaration → ∀ m ∈ n.items, n.startRow ≤ m.startRow ∧ m.endRow ≤ n.endRow

instance (n : Node) : Decidable n.HoldsMembers :=
  inferInstanceAs (Decidable (_ → _))

/-- Where rows are nested, a class has the rows of its members. -/
theorem holdsMembers_of_nested (h : n.nested first stop inClass = true) : n.HoldsMembers := by
  intro hkind m hm
  obtain ⟨hk, _⟩ | ⟨_, _, hitems⟩ | ⟨_, _, hk, _⟩ := spans_cases h .global []
  · rw [hkind] at hk
    cases inClass <;> cases hk
  · have hrows := nested_rows (allNested_iff.1 hitems m hm)
    omega
  · exact absurd hkind hk

theorem HoldsMembers.covers (h : n.HoldsMembers) (hkind : n.kind = .classDeclaration) {m : Node} (hm : m ∈ n.items)
    (hc : m.covers line = true) : n.covers line = true := by
  have hrows := h hkind m hm
  have hline := covers_iff.1 hc
  exact covers_iff.2 (by omega)

/-- A node at the top skips no lines but its own, and a plain comment skips none. -/
theorem covers_of_mem_sliceMarks (h : n.HoldsMembers) {m : LineMark} (hm : m ∈ n.sliceMarks changes before)
    (hskip : m.keep ≠ true) (hc : m.covers line = true) :
    n.covers line = true ∧ ¬ (n.kind = .comment ∧ n.isDocComment = false) := by
  unfold sliceMarks at hm
  split at hm
  · split at hm
    · exact absurd (keep_of_mem_keepMarks hm) hskip
    · rename_i hkind
      rcases List.mem_append.1 hm with hm | hm
      · exact absurd (keep_of_mem_keepMarks hm) hskip
      · obtain ⟨⟨earlier, member⟩, hmem, hm⟩ := List.mem_flatMap.1 hm
        rw [eq_skipMark_of_mem_memberMarks hm hskip] at hc
        exact ⟨h.covers hkind (mem_of_mem_withEarlier hmem) hc, by simp [hkind]⟩
    · rw [List.mem_singleton.1 hm] at hskip
      exact absurd rfl hskip
  · rename_i hkept
    rw [List.mem_singleton.1 hm] at hc
    refine ⟨hc, ?_⟩
    rintro ⟨hkind, hdoc⟩
    simp [keptTopLevel, hkind, hdoc] at hkept

/-! ## The node that gives the scope -/

theorem eq_some_of_getD {o : Option String} {name placeholder : String} (h : name = o.getD placeholder)
    (hne : name ≠ placeholder) : o = some name := by
  cases o with
  | none => exact absurd h hne
  | some x => rw [h]; rfl

variable {s : ScopedSpan} {f : String} {rest : List ScopeSegment}

/-- A line in a method of a shown class is kept if the method is. -/
theorem keepsLine_members {p : ScopePath} (hp : p.isGlobal = false) (hns : allNested first stop true ns = true)
    (hfind : (spansOf p [] ns).reverse.find? (·.covers line) = some s)
    (hscope : s.scope.segments = p.segments ++ .inFunction f :: rest) (hf : f ≠ "<function>") {className : String}
    (hkeeps : changes.keepsMethod className f = true) (default : Bool) :
    keepsLine ((withEarlier [] ns).flatMap fun (earlier, member) => member.memberMarks className changes earlier)
      default line = true := by
  rw [spansOf_eq_flatMap] at hfind
  refine keepsLine_flatMap hfind ?_ ?_ default
  · rintro ⟨earlier, member⟩ hmem hspan default
    have hn := allNested_iff.1 hns member (mem_of_mem_withEarlier hmem)
    have hs := List.mem_reverse.1 (List.mem_of_find?_eq_some hspan)
    obtain ⟨hkind, hseg⟩ | ⟨_, hseg⟩ := declares_of_mem_spans hn hs hscope
    · have hname := eq_some_of_getD (ScopeSegment.inFunction.inj hseg) hf
      have hmarks : member.memberMarks className changes earlier = member.keepMarks earlier := by
        simp [memberMarks, keptMember, hkind, hname, hkeeps]
      show keepsLine (member.memberMarks className changes earlier) default line = true
      rw [hmarks]
      exact keepsLine_keepMarks (reaches_of_mem_spans hn hs (by simpa using List.find?_some hspan)) default
    · cases hseg
  · rintro ⟨earlier, member⟩ hmem hnone mark hmark hc
    have hn := allNested_iff.1 hns member (mem_of_mem_withEarlier hmem)
    by_contra hskip
    rw [eq_skipMark_of_mem_memberMarks hmark hskip] at hc
    obtain ⟨t, ht, htc⟩ := exists_span_of_covers hn hc (p := p) (by simp [hp])
    rw [hnone t ht] at htc
    cases htc

/-- A line is kept if the top-level node that gives its scope keeps it. -/
theorem keepsLine_topLevel (hns : allNested first stop false ns = true)
    (hfind : (spansOf .global [] ns).reverse.find? (·.covers line) = some s)
    (hkeep : ∀ n ∈ ns, ∀ before, (n.spans .global before).reverse.find? (·.covers line) = some s →
      ∀ default, keepsLine (n.sliceMarks changes before) default line = true) (default : Bool) :
    keepsLine ((withEarlier [] ns).flatMap fun (before, n) => n.sliceMarks changes before) default line = true := by
  rw [spansOf_eq_flatMap] at hfind
  refine keepsLine_flatMap hfind ?_ ?_ default
  · rintro ⟨before, n⟩ hmem hspan
    exact hkeep n (mem_of_mem_withEarlier hmem) before hspan
  · rintro ⟨before, n⟩ hmem hnone mark hmark hc
    have hn := allNested_iff.1 hns n (mem_of_mem_withEarlier hmem)
    by_contra hskip
    obtain ⟨hcovers, hplain⟩ := covers_of_mem_sliceMarks (holdsMembers_of_nested hn) hmark hskip hc
    obtain ⟨t, ht, htc⟩ := exists_span_of_covers hn hcovers (p := .global) fun h => hplain ⟨h.1, h.2.2⟩
    rw [hnone t ht] at htc
    cases htc

section TopLevel

variable (hn : n.nested first stop false = true)
  (hspan : (n.spans .global before).reverse.find? (·.covers line) = some s)

include hn hspan

/-- A line inside a touched function is kept. -/
theorem keepsLine_function (hscope : s.scope.segments = .inFunction f :: rest) (hf : f ≠ "<function>")
    (hkeeps : changes.keepsFunction f = true) (default : Bool) :
    keepsLine (n.sliceMarks changes before) default line = true := by
  have hs := List.mem_reverse.1 (List.mem_of_find?_eq_some hspan)
  obtain ⟨hkind, hseg⟩ | ⟨_, hseg⟩ := declares_of_mem_spans hn hs hscope
  · have hname := eq_some_of_getD (ScopeSegment.inFunction.inj hseg) hf
    have hmarks : n.sliceMarks changes before = n.keepMarks before := by
      simp [sliceMarks, keptTopLevel, hkind, hname, hkeeps]
    rw [hmarks]
    exact keepsLine_keepMarks (reaches_of_mem_spans hn hs (by simpa using List.find?_some hspan)) default
  · cases hseg

/-- A line inside a touched method of a touched class is kept. -/
theorem keepsLine_class {c : String} (hscope : s.scope.segments = .inClass c :: .inFunction f :: rest)
    (hc : c ≠ "<class>") (hf : f ≠ "<function>") (hkeepsClass : changes.keepsClass c = true)
    (hkeepsMethod : changes.keepsMethod c f = true) (default : Bool) :
    keepsLine (n.sliceMarks changes before) default line = true := by
  have hs := List.mem_reverse.1 (List.mem_of_find?_eq_some hspan)
  obtain ⟨_, hseg⟩ | ⟨hkind, hseg⟩ := declares_of_mem_spans hn hs hscope
  · cases hseg
  · have hgetD := ScopeSegment.inClass.inj hseg
    have hname := eq_some_of_getD hgetD hc
    have hmarks : n.sliceMarks changes before = n.keepMarks before ++ (withEarlier [] n.items).flatMap
        fun (earlier, member) => member.memberMarks c changes earlier := by
      simp [sliceMarks, keptTopLevel, hkind, hname, hkeepsClass]
    obtain ⟨hk, _⟩ | ⟨_, hspans, hitems⟩ | ⟨_, _, hk, _⟩ := spans_cases hn .global before
    · rw [hkind] at hk
      cases hk
    · -- the class itself stands in the global scope, so the span is one of a member
      have hinner : (spansOf (ScopePath.global.inClass c) [] n.items).reverse.find? (·.covers line) = some s := by
        rw [hspans, ← hgetD, List.reverse_append, List.find?_append, Option.or_eq_some_iff] at hspan
        rcases hspan with hspan | ⟨_, hspan⟩
        · exact hspan
        · have hglobal := scope_of_mem_ownSpans (List.mem_reverse.1 (List.mem_of_find?_eq_some hspan))
          rw [hglobal] at hscope
          cases hscope
      rw [hmarks, keepsLine_append]
      exact keepsLine_members rfl hitems hinner hscope hf hkeepsMethod _
    · exact absurd hkind hk

end TopLevel

end Node

/-! ## Touched lines -/

/-- The rows of the tree are nested in those of the source. -/
def SyntaxTree.nested (tree : SyntaxTree) : Bool :=
  Node.allNested 0 tree.lineCount false tree.nodes

/-- A line that is edited inside a named function, or inside a named method of a named class, is kept, with functions
inside functions to any depth. -/
theorem touched_line_kept {tree : SyntaxTree} (hrows : tree.nested = true) {edits : List LineEdit} {e : LineEdit}
    (he : e ∈ edits) (f : String) (inner : List String) (hf : f ≠ "<function>")
    (hdots : ∀ name ∈ f :: inner, '.' ∉ name.toList)
    (hscope : (ScopeMap.ofTree tree).scopeOf e.number = ⟨(f :: inner).map .inFunction⟩ ∨
      ∃ c, c ≠ "<class>" ∧
        (ScopeMap.ofTree tree).scopeOf e.number = ⟨.inClass c :: (f :: inner).map .inFunction⟩) :
    e.number ∈ (slice tree (locate edits (.ofTree tree))).lineNumbers := by
  obtain ⟨earlier, hle⟩ := ChangeSet.record_le_locate he (.ofTree tree)
  have hspan : ∃ s, (Node.spansOf .global [] tree.nodes).reverse.find? (·.covers e.number) = some s ∧
      s.scope = (ScopeMap.ofTree tree).scopeOf e.number := by
    rw [ScopeMap.scopeOf] at hscope ⊢
    cases hfind : (ScopeMap.ofTree tree).find? e.number with
    | none =>
      rw [hfind] at hscope
      rcases hscope with h | ⟨c, _, h⟩ <;> cases h
    | some s => exact ⟨s, hfind, rfl⟩
  obtain ⟨s, hfind, hs⟩ := hspan
  have hin := Node.spansOf_in .global (by simp) hrows s (List.mem_reverse.1 (List.mem_of_find?_eq_some hfind))
  refine mem_lineNumbers_ofMarks.2 ⟨?_, Node.keepsLine_topLevel hrows hfind (fun n hn before hspan => ?_) true⟩
  · have hcovers : s.covers e.number = true := by simpa using List.find?_some hfind
    rw [ScopedSpan.covers, Bool.and_eq_true, decide_eq_true_eq, decide_eq_true_eq] at hcovers
    have hfirst := hin.first
    have hlast := hin.last
    rw [SyntaxTree.lineCount, SyntaxTree.lines] at hlast
    omega
  · have hn := Node.allNested_iff.1 hrows n hn
    rcases hscope with hscope | ⟨c, hc, hscope⟩
    · rw [hscope] at hle hs
      refine Node.keepsLine_function hn hspan (congrArg ScopePath.segments hs) hf (hle.keepsFunction ?_)
      rw [ChangeSet.keepsFunction_record (by simpa [ScopeSegment.name] using hdots)]
      exact .inr ⟨innermostClass?_functions _, rfl⟩
    · rw [hscope] at hle hs
      refine Node.keepsLine_class hn hspan (congrArg ScopePath.segments hs) hc hf (hle.keepsClass ?_)
        (hle.keepsMethod (ChangeSet.keepsMethod_record earlier c hdots List.mem_cons_self))
      exact ChangeSet.keepsClass_iff.2 (ChangeSet.mem_classes_record.2 (.inr (innermostClass?_class c _)))

/-- A class with a documented method. -/
def documentedMethod : SyntaxTree where
  source := "class C \x7b\n  /** One. */\n  m() \x7b\n    return 1\n  \x7d\n\x7d\n"
  nodes := [{ kind := .classDeclaration, typeName := "class_declaration", startRow := 0, endRow := 5, text := ""
              name := some "C"
              items := [
                { kind := .comment, typeName := "comment", startRow := 1, endRow := 1, text := "/** One. */" },
                { kind := .methodDefinition, typeName := "method_definition", startRow := 2, endRow := 4, text := ""
                  name := some "m" }] }]

/-- A removed line in the comment above a method touches the method, and so it is kept. -/
theorem touched_documentation_kept :
    documentedMethod.nested = true ∧
      2 ∈ (slice documentedMethod
        (locate [⟨2, "  /** One. */", .removed⟩] (.ofTree documentedMethod))).lineNumbers :=
  ⟨by decide, touched_line_kept (e := ⟨2, "  /** One. */", .removed⟩) (by decide) List.mem_cons_self "m" []
    (by decide) (by decide) (.inr ⟨"C", by decide, by decide⟩)⟩

end DiffSlice
