import DiffSlice.Proofs.SliceContent
import Mathlib.Data.List.Chain

/-!
# What an outline shows

An outline counts down from its limit while it goes through the nodes, and a definition that it shows reaches back over
its annotations. `Outlined` says without a counter which lines are shown: a definition is among the first ones if fewer
definitions than the limit stand before it (`IsLeading`), and an annotation belongs to what follows it if only
annotations stand in between, each right above the next (`Annotates`). An outline shows just these lines, whichever
nodes share rows (`outline_content`). So with a higher limit it shows more, until all definitions are in it.
-/

namespace DiffSlice

/-- Where all marks keep their lines and nothing is kept by default, a line is kept if there is a mark on it. -/
theorem keepsLine_iff_of_keep {marks : List LineMark} {line : Nat} (h : ∀ m ∈ marks, m.keep = true) :
    keepsLine marks false line = true ↔ ∃ m ∈ marks, m.covers line = true := by
  constructor
  · intro hkept
    by_contra hno
    have hnone : ∀ m ∈ marks, m.covers line = false := fun m hm => Bool.eq_false_iff.2 fun hc => hno ⟨m, hm, hc⟩
    rw [keepsLine_of_not_covers hnone] at hkept
    cases hkept
  · exact fun hc => keepsLine_of_keep (fun m hm _ => h m hm) (.inr hc)

namespace Node

variable {n m a : Node} {nodes front before : List Node} {limit line : Nat}

/-! ## First definitions -/

/-- The node is in every outline: an import, a variable or a comment. -/
def isPreliminary (n : Node) : Bool :=
  n.kind == .importStatement || n.kind == .variableDeclaration || n.kind == .comment

def isDefinition (n : Node) : Bool :=
  n.kind == .functionDeclaration || n.kind == .classDeclaration

/-- Behind the nodes `front` stands `n`, which is one of the first `limit` definitions. -/
structure IsLeading (nodes : List Node) (limit : Nat) (front : List Node) (n : Node) : Prop where
  place : front ++ [n] <+: nodes
  definition : n.isDefinition = true
  fewer : front.countP isDefinition < limit

/-- A definition that is among the first stays among more of them. -/
theorem IsLeading.mono {limit' : Nat} (h : IsLeading nodes limit front n) (hle : limit ≤ limit') :
    IsLeading nodes limit' front n :=
  ⟨h.place, h.definition, Nat.lt_of_lt_of_le h.fewer hle⟩

/-- Every definition is one of all of them. -/
theorem IsLeading.of_all (h : IsLeading nodes limit front n) : IsLeading nodes (nodes.countP isDefinition) front n := by
  refine ⟨h.place, h.definition, ?_⟩
  have hcount := h.place.sublist.countP_le (p := isDefinition)
  rw [List.countP_append, List.countP_singleton, if_pos h.definition] at hcount
  exact hcount

theorem not_isLeading_nil : ¬ IsLeading [] limit front n := by
  rintro ⟨hplace, -, -⟩
  simpa using List.prefix_nil.1 hplace

theorem isLeading_nil_iff : IsLeading (m :: nodes) limit [] n ↔ n = m ∧ m.isDefinition = true ∧ 0 < limit := by
  constructor
  · rintro ⟨hplace, hkind, hfewer⟩
    obtain ⟨rfl, -⟩ := List.cons_prefix_cons.1 hplace
    exact ⟨rfl, hkind, hfewer⟩
  · rintro ⟨rfl, hkind, hfewer⟩
    exact ⟨List.cons_prefix_cons.2 ⟨rfl, List.nil_prefix⟩, hkind, hfewer⟩

/-- Behind a definition there is one less to come. -/
theorem isLeading_cons_iff {b : Node} : IsLeading (m :: nodes) limit (b :: front) n ↔
    b = m ∧ IsLeading nodes (if m.isDefinition then limit - 1 else limit) front n := by
  have hcount : (m :: front).countP isDefinition < limit ↔
      front.countP isDefinition < if m.isDefinition then limit - 1 else limit := by
    rw [List.countP_cons]
    split
    · omega
    · rfl
  constructor
  · rintro ⟨hplace, hkind, hfewer⟩
    obtain ⟨rfl, hlater⟩ := List.cons_prefix_cons.1 hplace
    exact ⟨rfl, hlater, hkind, hcount.1 hfewer⟩
  · rintro ⟨rfl, hplace, hkind, hfewer⟩
    exact ⟨List.cons_prefix_cons.2 ⟨rfl, hplace⟩, hkind, hcount.2 hfewer⟩

/-- What holds of one of the first definitions holds of the first node, if that is a definition, or of one of those
behind it. -/
theorem exists_isLeading_cons_iff {P : List Node → Node → Prop} :
    (∃ front n, IsLeading (m :: nodes) limit front n ∧ P front n) ↔
      ((m.isDefinition = true ∧ 0 < limit) ∧ P [] m) ∨
        ∃ front n, IsLeading nodes (if m.isDefinition then limit - 1 else limit) front n ∧ P (m :: front) n := by
  constructor
  · rintro ⟨front, n, hn, h⟩
    cases front with
    | nil =>
      obtain ⟨rfl, hfirst⟩ := isLeading_nil_iff.1 hn
      exact .inl ⟨hfirst, h⟩
    | cons b front =>
      obtain ⟨rfl, hn⟩ := isLeading_cons_iff.1 hn
      exact .inr ⟨front, n, hn, h⟩
  · rintro (⟨hfirst, h⟩ | ⟨front, n, hn, h⟩)
    · exact ⟨[], m, isLeading_nil_iff.2 ⟨rfl, hfirst⟩, h⟩
    · exact ⟨m :: front, n, isLeading_cons_iff.2 ⟨rfl, hn⟩, h⟩

/-! ## Annotations -/

/-- The annotation belongs to `n`, with the nodes `between` the two: all these are annotations too, and each ends in the
row above the next. -/
structure Annotates (a : Node) (between : List Node) (n : Node) : Prop where
  attachable : ∀ b ∈ a :: between, b.isAttachable = true
  adjacent : (a :: (between ++ [n])).IsChain fun b c => b.endRow + 1 = c.startRow

/-- The nearest node belongs to what follows it, if it is an annotation and ends in the row above. -/
theorem annotates_nil_iff : a.Annotates [] n ↔ a.isAttachable = true ∧ a.endRow + 1 = n.startRow := by
  constructor
  · rintro ⟨hattachable, hadjacent⟩
    exact ⟨hattachable a List.mem_cons_self, by simpa using hadjacent⟩
  · rintro ⟨hattachable, hadjacent⟩
    exact ⟨by simpa using hattachable, by simpa using hadjacent⟩

/-- An annotation further up belongs to the nearest node, which belongs to what follows it. -/
theorem annotates_concat_iff {between : List Node} :
    a.Annotates (between ++ [m]) n ↔ a.Annotates between m ∧ m.Annotates [] n := by
  have hchain : (a :: (between ++ [m] ++ [n])).IsChain (fun b c => b.endRow + 1 = c.startRow) ↔
      (a :: (between ++ [m])).IsChain (fun b c => b.endRow + 1 = c.startRow) ∧ m.endRow + 1 = n.startRow := by
    rw [List.append_assoc, List.singleton_append, List.isChain_cons_append_cons_cons]
    simp
  rw [annotates_nil_iff]
  constructor
  · rintro ⟨hattachable, hadjacent⟩
    obtain ⟨habove, hm⟩ := List.forall_mem_append.1 (List.cons_append ▸ hattachable)
    exact ⟨⟨habove, (hchain.1 hadjacent).1⟩, hm m List.mem_cons_self, (hchain.1 hadjacent).2⟩
  · rintro ⟨⟨habove, hadjacent⟩, hm, hrow⟩
    refine ⟨?_, hchain.2 ⟨hadjacent, hrow⟩⟩
    rw [← List.cons_append, List.forall_mem_append]
    exact ⟨habove, List.forall_mem_singleton.2 hm⟩

/-- The annotations that a node reaches back to are those that belong to it. -/
theorem mem_attached_iff :
    a ∈ n.attached front.reverse ↔ ∃ top between, front = top ++ a :: between ∧ a.Annotates between n := by
  -- from the back, since the walk goes up from `n`
  induction front using List.reverseRecOn generalizing n with
  | nil => simp [attached, attachedTo]
  | append_singleton front prev ih =>
    have hstep : a ∈ n.attached (front ++ [prev]).reverse ↔
        prev.Annotates [] n ∧ (a = prev ∨ a ∈ prev.attached front.reverse) := by
      rw [annotates_nil_iff, List.reverse_append, attached, List.reverse_singleton, List.singleton_append, attachedTo]
      split <;> simp_all [attached]
    rw [hstep, ih]
    constructor
    · rintro ⟨hprev, rfl | ⟨top, between, rfl, habove⟩⟩
      · exact ⟨front, [], rfl, hprev⟩
      · exact ⟨top, between ++ [prev], by simp, annotates_concat_iff.2 ⟨habove, hprev⟩⟩
    · rintro ⟨top, between, hfront, hannotates⟩
      rcases List.eq_nil_or_concat' between with rfl | ⟨between, m, rfl⟩
      · obtain ⟨-, hlast⟩ := List.append_inj' hfront rfl
        cases hlast
        exact ⟨hannotates, .inl rfl⟩
      · rw [← List.cons_append, ← List.append_assoc] at hfront
        obtain ⟨rfl, hlast⟩ := List.append_inj' hfront rfl
        cases hlast
        obtain ⟨habove, hprev⟩ := annotates_concat_iff.1 hannotates
        exact ⟨hprev, .inr ⟨top, between, rfl, habove⟩⟩

/-! ## Marks of an outline -/

/-- The line is in an outline with up to `limit` definitions: an import, a variable, a comment, one of the first
definitions or an annotation of such a definition has it. -/
inductive Outlined (nodes : List Node) (limit line : Nat) : Prop
  | preliminary {n : Node} (mem : n ∈ nodes) (kind : n.isPreliminary = true) (on : n.covers line = true)
  | definition {front : List Node} {n : Node} (leading : IsLeading nodes limit front n) (on : n.covers line = true)
  | annotated {top between : List Node} {a n : Node} (leading : IsLeading nodes limit (top ++ a :: between) n)
    (above : a.Annotates between n) (on : a.covers line = true)

/-- The marks of a node behind the nodes `before`, where `limit` more definitions are shown. -/
def ownMarks (before : List Node) (limit : Nat) (n : Node) : List LineMark :=
  if n.isPreliminary then [n.keepMark] else if n.isDefinition ∧ 0 < limit then n.keepMarks before else []

theorem outlineMarks_cons (before : List Node) (limit : Nat) (n : Node) (nodes : List Node) :
    outlineMarks before limit (n :: nodes) =
      n.ownMarks before limit ++ outlineMarks (n :: before) (if n.isDefinition then limit - 1 else limit) nodes := by
  cases hkind : n.kind <;> cases limit <;> simp [outlineMarks, ownMarks, isPreliminary, isDefinition, hkind]

theorem keep_of_mem_outlineMarks {mark : LineMark} (h : mark ∈ outlineMarks before limit nodes) : mark.keep = true := by
  induction nodes generalizing before limit with
  | nil => cases h
  | cons n nodes ih =>
    rw [outlineMarks_cons, ownMarks] at h
    rcases List.mem_append.1 h with h | h
    · split at h
      · rw [List.mem_singleton.1 h]
        rfl
      · split at h
        · exact keep_of_mem_keepMarks h
        · cases h
    · exact ih h

theorem exists_mem_ownMarks_iff : (∃ mark ∈ n.ownMarks before limit, mark.covers line = true) ↔
    (n.isPreliminary = true ∧ n.covers line = true) ∨
      ((n.isDefinition = true ∧ 0 < limit) ∧ n.Reaches before line) := by
  by_cases hpre : n.isPreliminary = true
  · have hdef : n.isDefinition = false := by
      simp only [isPreliminary, Bool.or_eq_true, beq_iff_eq] at hpre
      rcases hpre with (h | h) | h <;> simp [isDefinition, h]
    rw [ownMarks, if_pos hpre, exists_mem_keepMark_iff rfl]
    simp [hpre, hdef]
  · rw [ownMarks, if_neg hpre]
    split
    · rename_i hdef
      rw [exists_mem_keepMarks_iff]
      simp [hpre, hdef]
    · rename_i hdef
      simp [hpre, hdef]

/-- There is a mark on a line if a preliminary node has it, or one of the first definitions or its annotations. -/
theorem exists_mem_outlineMarks_iff :
    (∃ mark ∈ outlineMarks before limit nodes, mark.covers line = true) ↔
      (∃ n ∈ nodes, n.isPreliminary = true ∧ n.covers line = true) ∨
        ∃ front n, IsLeading nodes limit front n ∧ n.Reaches (front.reverse ++ before) line := by
  -- the marks count the limit down, and the first definitions are counted anew behind each node
  induction nodes generalizing before limit with
  | nil => simp [outlineMarks, not_isLeading_nil]
  | cons m nodes ih =>
    have hmarks : (∃ mark ∈ outlineMarks before limit (m :: nodes), mark.covers line = true) ↔
        (∃ mark ∈ m.ownMarks before limit, mark.covers line = true) ∨
          ∃ mark ∈ outlineMarks (m :: before) (if m.isDefinition then limit - 1 else limit) nodes,
            mark.covers line = true := by
      rw [outlineMarks_cons]
      simp only [List.mem_append, or_and_right, exists_or]
    rw [hmarks, exists_mem_ownMarks_iff, ih, exists_isLeading_cons_iff]
    simp only [List.mem_cons, exists_eq_or_imp, List.reverse_nil, List.nil_append, List.reverse_cons, List.append_assoc,
      List.singleton_append]
    exact or_or_or_comm

/-- The marks of an outline keep what `Outlined` says. -/
theorem keepsLine_outlineMarks_iff :
    keepsLine (outlineMarks [] limit nodes) false line = true ↔ Outlined nodes limit line := by
  rw [keepsLine_iff_of_keep fun mark hmark => keep_of_mem_outlineMarks hmark, exists_mem_outlineMarks_iff]
  constructor
  · rintro (⟨n, hmem, hkind, hc⟩ | ⟨front, n, hn, hc | ⟨a, ha, hc⟩⟩)
    · exact .preliminary hmem hkind hc
    · exact .definition hn hc
    · rw [List.append_nil, mem_attached_iff] at ha
      obtain ⟨top, between, rfl, habove⟩ := ha
      exact .annotated hn habove hc
  · rintro (⟨hmem, hkind, hc⟩ | ⟨hn, hc⟩ | ⟨hn, habove, hc⟩)
    · exact .inl ⟨_, hmem, hkind, hc⟩
    · exact .inr ⟨_, _, hn, .inl hc⟩
    · refine .inr ⟨_, _, hn, .inr ⟨_, ?_, hc⟩⟩
      rw [List.append_nil, mem_attached_iff]
      exact ⟨_, _, rfl, habove⟩

theorem Outlined.mono {limit' : Nat} (h : Outlined nodes limit line) (hle : limit ≤ limit') :
    Outlined nodes limit' line := by
  cases h with
  | preliminary mem kind on => exact .preliminary mem kind on
  | definition leading on => exact .definition (leading.mono hle) on
  | annotated leading above on => exact .annotated (leading.mono hle) above on

/-- What is in any outline is in the one with all definitions. -/
theorem Outlined.of_all (h : Outlined nodes limit line) : Outlined nodes (nodes.countP isDefinition) line := by
  cases h with
  | preliminary mem kind on => exact .preliminary mem kind on
  | definition leading on => exact .definition leading.of_all on
  | annotated leading above on => exact .annotated leading.of_all above on

end Node

/-! ## Outlines -/

section

variable {tree : SyntaxTree} {limit limit' : Nat}

/-- An outline has the lines of the source that are outlined, under their own numbers. -/
theorem mem_outline_iff {x : SlicedLine} : x ∈ (outline tree limit).lines ↔
    (1 ≤ x.number ∧ tree.lines[x.number - 1]? = some x.text) ∧ Node.Outlined tree.nodes limit x.number := by
  rw [outline, Slice.ofMarks, List.mem_filter, mem_numbered_iff, Node.keepsLine_outlineMarks_iff]
  rfl

theorem outline_sublist (h : ∀ line, Node.Outlined tree.nodes limit line → Node.Outlined tree.nodes limit' line) :
    (outline tree limit).lines.Sublist (outline tree limit').lines := by
  refine List.monotone_filter_right _ fun x hx => ?_
  exact Node.keepsLine_outlineMarks_iff.2 (h x.number (Node.keepsLine_outlineMarks_iff.1 hx))

end

/-- The lines of an outline stand in order, and are just the lines of the source that `Outlined` names. An outline with
a higher limit has all of them, and from the number of all definitions on it stays the same. -/
theorem outline_content (tree : SyntaxTree) :
    (∀ limit, (outline tree limit).lines.Pairwise (fun x y => x.number < y.number) ∧
      ∀ x, x ∈ (outline tree limit).lines ↔
        (1 ≤ x.number ∧ tree.lines[x.number - 1]? = some x.text) ∧ Node.Outlined tree.nodes limit x.number) ∧
    (∀ limit limit', limit ≤ limit' → (outline tree limit).lines.Sublist (outline tree limit').lines) ∧
    ∀ limit, tree.nodes.countP Node.isDefinition ≤ limit →
      outline tree limit = outline tree (tree.nodes.countP Node.isDefinition) := by
  refine ⟨fun limit => ⟨?_, fun x => mem_outline_iff⟩, fun limit limit' hle => ?_, fun limit hle => ?_⟩
  · exact (pairwise_numbered 1 _).sublist List.filter_sublist
  · exact outline_sublist fun line h => h.mono hle
  · have hless : (outline tree limit).lines.Sublist (outline tree (tree.nodes.countP Node.isDefinition)).lines :=
      outline_sublist fun line h => h.of_all
    have hmore : (outline tree (tree.nodes.countP Node.isDefinition)).lines.Sublist (outline tree limit).lines :=
      outline_sublist fun line h => h.mono hle
    exact congrArg Slice.mk (hless.antisymm hmore)

/-- A decorator above two functions that share a row, and a class below them. -/
def decoratedFunctions : SyntaxTree where
  source := "@d\nf g\nh\n"
  nodes := [{ kind := .other, typeName := "decorator", startRow := 0, endRow := 0, text := "@d" },
            { kind := .functionDeclaration, typeName := "function_declaration", startRow := 1, endRow := 1
              text := "f" },
            { kind := .functionDeclaration, typeName := "function_declaration", startRow := 1, endRow := 1
              text := "g" },
            { kind := .classDeclaration, typeName := "class_declaration", startRow := 2, endRow := 2, text := "h" }]

/-- A decorator is outlined together with the function below it. -/
theorem decorator_outlined_with_first :
    Node.Outlined decoratedFunctions.nodes 1 1 ∧ ¬ Node.Outlined decoratedFunctions.nodes 0 1 ∧
      outline decoratedFunctions 7 = outline decoratedFunctions 3 := by
  obtain ⟨hlines, -, hall⟩ := outline_content decoratedFunctions
  refine ⟨?_, fun h => ?_, hall 7 (by decide)⟩
  · exact (((hlines 1).2 ⟨1, "@d"⟩).1 (by decide)).2
  · exact absurd (((hlines 0).2 ⟨1, "@d"⟩).2 ⟨by decide, h⟩) (by decide)

end DiffSlice
