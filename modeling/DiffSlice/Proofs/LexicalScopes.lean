import DiffSlice.JavaScript.Program
import DiffSlice.Proofs.TouchedCode

/-!
# Scopes are lexical

The scope of a line is read off a list of spans: the last that covers the line gives it. `StandsIn` finds it without
such an order. It goes from a list of siblings into the declaration that has the line, and ends where there is none.
Where declarations hold the rows of what stands in them and siblings follow one another (`LaidOut`), both give the
same scope (`scopeOf_eq_iff_standsIn`).

The descent always ends in a scope (`exists_standsIn`), and that is the scope of the last span
(`StandsIn.scopeIn_spansOf`), because no sibling after a declaration reaches back to the declaration's lines or to
those of its annotations (`LaidOut.not_covers_later`).
-/

namespace DiffSlice

/-! ## The scope that spans give -/

/-- The scope that the last of the spans gives a line, or the one around them. -/
def scopeIn (spans : List ScopedSpan) (outer : ScopePath) (line : Nat) : ScopePath :=
  lastOr spans (·.covers line) ScopedSpan.scope outer

theorem scopeOf_eq_scopeIn (map : ScopeMap) (line : Nat) : map.scopeOf line = scopeIn map.spans .global line := by
  unfold ScopeMap.scopeOf ScopeMap.find? scopeIn lastOr
  cases map.spans.reverse.find? (·.covers line) <;> rfl

/-- Later spans decide before earlier ones. -/
theorem scopeIn_append (xs ys : List ScopedSpan) (outer : ScopePath) (line : Nat) :
    scopeIn (xs ++ ys) outer line = scopeIn ys (scopeIn xs outer line) line :=
  lastOr_append xs ys (·.covers line) ScopedSpan.scope outer

theorem scopeIn_of_not_covers {spans : List ScopedSpan} {line : Nat} (h : ∀ s ∈ spans, s.covers line = false)
    (outer : ScopePath) : scopeIn spans outer line = outer :=
  lastOr_eq (fun s hs hc => by rw [h s hs] at hc; cases hc) (.inl rfl)

namespace Node

/-! ## Walks -/

def isFunction (n : Node) : Bool :=
  n.kind = .functionDeclaration || n.kind = .methodDefinition

/-- The node is a function, a method or a class. -/
def declares (n : Node) : Bool :=
  n.isFunction || n.kind = .classDeclaration

/-- What stands in a declaration. -/
def body (n : Node) : List Node :=
  if n.declares then n.items else []

mutual

/-- The node and what stands in it, at any depth. -/
def visited : Node → List Node
  | .mk kind typeName startRow endRow text name items =>
    let n : Node := .mk kind typeName startRow endRow text name items
    n :: if n.declares then visitedIn items else []

/-- The nodes of a list and what stands in them, at any depth. -/
def visitedIn : List Node → List Node
  | [] => []
  | n :: rest => visited n ++ visitedIn rest

end

theorem visited_eq (n : Node) : n.visited = n :: visitedIn n.body := by
  obtain ⟨kind, typeName, startRow, endRow, text, name, items⟩ := n
  rw [visited, body]
  split <;> rfl

theorem mem_visitedIn {v : Node} {ns : List Node} : v ∈ visitedIn ns ↔ ∃ n ∈ ns, v ∈ n.visited := by
  induction ns with
  | nil => simp [visitedIn]
  | cons n ns ih => simp [visitedIn, ih]

theorem mem_visitedIn_of_mem {n : Node} {ns : List Node} (h : n ∈ ns) : n ∈ visitedIn ns :=
  mem_visitedIn.2 ⟨n, h, by rw [visited_eq]; exact List.mem_cons_self⟩

theorem mem_visitedIn_of_body {n v : Node} {ns : List Node} (h : n ∈ ns) (hv : v ∈ visitedIn n.body) :
    v ∈ visitedIn ns :=
  mem_visitedIn.2 ⟨n, h, by rw [visited_eq]; exact List.mem_cons_of_mem _ hv⟩

/-- Induction over what stands in a node. -/
theorem body_induction {motive : Node → Prop} (step : ∀ n, (∀ m ∈ n.body, motive m) → motive n) (n : Node) :
    motive n :=
  step n fun m _ => body_induction step m
termination_by n
decreasing_by
  rename_i hm
  obtain ⟨kind, typeName, startRow, endRow, text, name, items⟩ := n
  have hitems : m ∈ items := by
    rw [body] at hm
    split at hm
    · exact hm
    · cases hm
  have := List.sizeOf_lt_of_mem hitems
  simp only [Node.mk.sizeOf_spec]
  omega

/-- A declaration holds the rows of what stands in it, siblings follow one another without sharing a row, and a
decorator declares nothing. -/
structure LaidOut (siblings : List Node) : Prop where
  order : siblings.Pairwise fun a b => a.endRow < b.startRow
  nested : ∀ n ∈ visitedIn siblings, ∀ m ∈ n.body, n.startRow ≤ m.startRow ∧ m.endRow ≤ n.endRow
  bodies : ∀ n ∈ visitedIn siblings, n.body.Pairwise fun a b => a.endRow < b.startRow
  decorators : ∀ n ∈ visitedIn siblings, n.typeName = "decorator" → n.declares = false

variable {n m a : Node} {siblings front rest before earlier : List Node} {scope p q : ScopePath} {line : Nat}

theorem LaidOut.body (h : LaidOut siblings) (hn : n ∈ siblings) : LaidOut n.body where
  order := h.bodies n (mem_visitedIn_of_mem hn)
  nested v hv := h.nested v (mem_visitedIn_of_body hn hv)
  bodies v hv := h.bodies v (mem_visitedIn_of_body hn hv)
  decorators v hv := h.decorators v (mem_visitedIn_of_body hn hv)

theorem declares_of_isFunction (h : n.isFunction = true) : n.declares = true := by
  simp [declares, h]

theorem declares_of_class (h : n.kind = .classDeclaration) : n.declares = true := by
  simp [declares, h]

theorem body_of_declares (h : n.declares = true) : n.body = n.items := by
  simp [Node.body, h]

/-- A declaration is no annotation of another one. -/
theorem LaidOut.isAttachable (h : LaidOut siblings) (hn : n ∈ siblings) (hd : n.declares = true) :
    n.isAttachable = false := by
  have hname : n.typeName ≠ "decorator" := fun hname => by
    rw [h.decorators n (mem_visitedIn_of_mem hn) hname] at hd
    cases hd
  have hcomment : n.isDocComment = false := by
    rw [Bool.eq_false_iff]
    intro hdoc
    simp only [isDocComment, Bool.and_eq_true, beq_iff_eq] at hdoc
    simp [declares, isFunction, hdoc.1] at hd
  simp [Node.isAttachable, hcomment, hname]

/-! ## Spans of nodes -/

/-- The lines of a function and of its annotations are inside the function. -/
theorem spans_function (h : n.isFunction = true) (scope : ScopePath) (before : List Node) :
    n.spans scope before = n.ownSpans before (scope.inFunction (n.name.getD "<function>")) ++
      spansOf (scope.inFunction (n.name.getD "<function>")) [] n.items := by
  obtain ⟨kind, typeName, startRow, endRow, text, name, items⟩ := n
  cases kind <;> simp_all [isFunction, spans]

/-- The lines of a class are in the scope around it, and only what stands in it is inside. -/
theorem spans_class (h : n.kind = .classDeclaration) (scope : ScopePath) (before : List Node) :
    n.spans scope before = n.ownSpans before scope ++ spansOf (scope.inClass (n.name.getD "<class>")) [] n.items := by
  obtain ⟨kind, typeName, startRow, endRow, text, name, items⟩ := n
  cases h
  rfl

/-- Other nodes have one span, but plain comments at the top have none. -/
theorem spans_plain (h : n.declares = false) (scope : ScopePath) (before : List Node) :
    n.spans scope before =
      if n.kind = .comment ∧ scope.isGlobal = true ∧ n.isDocComment = false then [] else [n.span scope] := by
  obtain ⟨kind, typeName, startRow, endRow, text, name, items⟩ := n
  cases kind <;> simp_all [declares, isFunction, spans]

/-- A node is a function or method, a class, or declares nothing. -/
theorem kind_cases (n : Node) : n.isFunction = true ∨ n.kind = .classDeclaration ∨ n.declares = false := by
  by_cases hf : n.isFunction = true
  · exact .inl hf
  · by_cases hc : n.kind = .classDeclaration
    · exact .inr (.inl hc)
    · exact .inr (.inr (by simp [declares, hf, hc]))

theorem spansOf_append (scope : ScopePath) (before xs ys : List Node) :
    spansOf scope before (xs ++ ys) = spansOf scope before xs ++ spansOf scope (xs.reverse ++ before) ys := by
  rw [spansOf_eq_flatMap, withEarlier_append, List.flatMap_append, ← spansOf_eq_flatMap, ← spansOf_eq_flatMap]

theorem mem_spansOf {t : ScopedSpan} : t ∈ spansOf scope before siblings ↔
    ∃ earlier m, (earlier, m) ∈ withEarlier before siblings ∧ t ∈ m.spans scope earlier := by
  rw [spansOf_eq_flatMap, List.mem_flatMap, Prod.exists]

/-- What stands in a node has spans on the node's lines only, if nodes have spans on their own and their annotations'
lines only. -/
theorem covers_of_mem_spansOf_body (hrows : ∀ m ∈ n.body, n.startRow ≤ m.startRow ∧ m.endRow ≤ n.endRow)
    (hreach : ∀ m ∈ n.body, ∀ earlier, ∀ t ∈ m.spans q earlier, t.covers line = true → m.Reaches earlier line)
    {t : ScopedSpan} (ht : t ∈ spansOf q [] n.body) (hc : t.covers line = true) : n.covers line = true := by
  obtain ⟨earlier, m, hm, ht⟩ := mem_spansOf.1 ht
  obtain ⟨b, hb, hbc⟩ := exists_covers_of_reaches hm (hreach m (mem_of_mem_withEarlier hm) earlier t ht hc)
  have hin := hrows b hb
  have hline := covers_iff.1 hbc
  exact covers_iff.2 (by omega)

/-- The spans of a node are on its own lines or those of its annotations. -/
theorem LaidOut.reaches (h : LaidOut siblings) (hn : n ∈ siblings) {t : ScopedSpan} (ht : t ∈ n.spans scope before)
    (hc : t.covers line = true) : n.Reaches before line := by
  induction n using body_induction generalizing siblings scope before t with
  | step n ih =>
    have hinner : ∀ {q : ScopePath}, n.declares = true → t ∈ spansOf q [] n.items → n.Reaches before line := by
      intro q hd ht
      rw [← body_of_declares hd] at ht
      exact .inl (covers_of_mem_spansOf_body (h.nested n (mem_visitedIn_of_mem hn))
        (fun m hm _ _ ht hc => ih m hm (h.body hn) hm ht hc) ht hc)
    rcases n.kind_cases with hk | hk | hk
    · rw [spans_function hk] at ht
      rcases List.mem_append.1 ht with ht | ht
      · exact reaches_of_mem_ownSpans ht hc
      · exact hinner (declares_of_isFunction hk) ht
    · rw [spans_class hk] at ht
      rcases List.mem_append.1 ht with ht | ht
      · exact reaches_of_mem_ownSpans ht hc
      · exact hinner (declares_of_class hk) ht
    · rw [spans_plain hk] at ht
      split at ht
      · cases ht
      · exact reaches_of_mem_ownSpans (List.mem_append_right _ ht) hc

/-- What stands in a declaration has no spans outside of it. -/
theorem LaidOut.not_covers_inside (h : LaidOut siblings) (hn : n ∈ siblings) (hd : n.declares = true)
    (hc : n.covers line = false) (q : ScopePath) : ∀ t ∈ spansOf q [] n.items, t.covers line = false := by
  intro t ht
  rw [Bool.eq_false_iff]
  intro htc
  rw [← body_of_declares hd] at ht
  rw [covers_of_mem_spansOf_body (h.nested n (mem_visitedIn_of_mem hn))
    (fun m hm _ _ => (h.body hn).reaches hm) ht htc] at hc
  cases hc

/-- The annotations of a node stand after the last declaration before it. -/
theorem mem_of_mem_attachedTo_append {row : Nat} (hn : n.isAttachable = false)
    (ha : a ∈ attachedTo row (front ++ n :: before)) : a ∈ front := by
  induction front generalizing row with
  | nil => simp [attachedTo, hn] at ha
  | cons b front ih =>
    rw [List.cons_append, attachedTo] at ha
    split at ha
    · rcases List.mem_cons.1 ha with rfl | ha
      · exact List.mem_cons_self
      · exact List.mem_cons_of_mem _ (ih ha)
    · cases ha

/-- Siblings after a declaration have no spans on its lines or those of its annotations. -/
theorem LaidOut.not_covers_later (h : LaidOut (front ++ n :: rest)) (hd : n.declares = true)
    (hn : n.Reaches front.reverse line) (scope : ScopePath) :
    ∀ t ∈ spansOf scope (n :: front.reverse) rest, t.covers line = false := by
  intro t ht
  rw [Bool.eq_false_iff]
  intro hc
  obtain ⟨later, m, hm, ht⟩ := mem_spansOf.1 ht
  obtain ⟨between, after, rfl, rfl⟩ := mem_withEarlier_iff.1 hm
  have hm : m.Reaches (between.reverse ++ n :: front.reverse) line := h.reaches (by simp) ht hc
  -- the line is one of a sibling up to the declaration, and of one after it
  obtain ⟨b, hb, hbc⟩ := hn.exists_covers
  have hlater : ∃ c ∈ between ++ m :: after, c.covers line = true := by
    rcases hm with hm | ⟨a, ha, hac⟩
    · exact ⟨m, by simp, hm⟩
    · have ha := mem_of_mem_attachedTo_append (h.isAttachable (by simp) hd) ha
      exact ⟨a, List.mem_append_left _ (List.mem_reverse.1 ha), hac⟩
  obtain ⟨c, hcm, hcc⟩ := hlater
  have hbc' : b.endRow < c.startRow := by
    have horder := List.pairwise_append.1 h.order
    rcases hb with rfl | hb
    · exact List.rel_of_pairwise_cons horder.2.1 hcm
    · exact horder.2.2 b (List.mem_reverse.1 hb) c (List.mem_cons_of_mem _ hcm)
  have hbl := covers_iff.1 hbc
  have hcl := covers_iff.1 hcc
  omega

/-- A line that a declaration reaches has its scope from the spans of the declaration. -/
theorem LaidOut.scopeIn_eq_of_reaches (h : LaidOut siblings) (hmem : (earlier, n) ∈ withEarlier [] siblings)
    (hd : n.declares = true) (hn : n.Reaches earlier line) (scope outer : ScopePath) :
    ∃ outer', scopeIn (spansOf scope [] siblings) outer line = scopeIn (n.spans scope earlier) outer' line := by
  obtain ⟨front, rest, rfl, rfl⟩ := mem_withEarlier_iff.1 hmem
  rw [List.append_nil] at hn ⊢
  rw [spansOf_append, spansOf, scopeIn_append, scopeIn_append, List.append_nil]
  exact ⟨_, scopeIn_of_not_covers (h.not_covers_later hd hn scope) _⟩

/-! ## Descent -/

/-- Among siblings that stand in `scope`, the line stands in the last scope: in a function or method if it is one of
its lines or of its annotations' lines, and further in if it is one of its own; in a class if it is also one of a
member's or of a member's annotations; else in `scope` itself. -/
inductive StandsIn : ScopePath → List Node → Nat → ScopePath → Prop
  | function {scope p : ScopePath} {siblings : List Node} {line : Nat} {n : Node} (mem : n ∈ siblings)
    (kind : n.isFunction = true) (on : n.covers line = true)
    (deeper : StandsIn (scope.inFunction (n.name.getD "<function>")) n.items line p) :
    StandsIn scope siblings line p
  | annotated {scope : ScopePath} {siblings earlier : List Node} {line : Nat} {n a : Node}
    (mem : (earlier, n) ∈ withEarlier [] siblings) (kind : n.isFunction = true) (off : n.covers line = false)
    (attached : a ∈ n.attached earlier) (on : a.covers line = true) :
    StandsIn scope siblings line (scope.inFunction (n.name.getD "<function>"))
  | member {scope p : ScopePath} {siblings earlier : List Node} {line : Nat} {n m : Node} (mem : n ∈ siblings)
    (kind : n.kind = .classDeclaration) (on : n.covers line = true) (inside : (earlier, m) ∈ withEarlier [] n.items)
    (reached : m.Reaches earlier line)
    (deeper : StandsIn (scope.inClass (n.name.getD "<class>")) n.items line p) :
    StandsIn scope siblings line p
  | classLine {scope : ScopePath} {siblings : List Node} {line : Nat} {n : Node} (mem : n ∈ siblings)
    (kind : n.kind = .classDeclaration) (on : n.covers line = true)
    (between : ∀ earlier m, (earlier, m) ∈ withEarlier [] n.items → ¬ m.Reaches earlier line) :
    StandsIn scope siblings line scope
  | outside {scope : ScopePath} {siblings : List Node} {line : Nat}
    (functions : ∀ earlier n, (earlier, n) ∈ withEarlier [] siblings → n.isFunction = true → ¬ n.Reaches earlier line)
    (classes : ∀ n ∈ siblings, n.kind = .classDeclaration → n.covers line = false) :
    StandsIn scope siblings line scope

/-- The descent goes on as long as it does in what stands inside. -/
theorem exists_standsIn_of_bodies
    (h : ∀ n ∈ siblings, ∀ scope, ∃ p, StandsIn scope n.body line p) (scope : ScopePath) :
    ∃ p, StandsIn scope siblings line p := by
  by_cases hf : ∃ n ∈ siblings, n.isFunction = true ∧ n.covers line = true
  · obtain ⟨n, hn, hk, hc⟩ := hf
    obtain ⟨p, hp⟩ := h n hn (scope.inFunction (n.name.getD "<function>"))
    rw [body_of_declares (declares_of_isFunction hk)] at hp
    exact ⟨p, .function hn hk hc hp⟩
  by_cases ha : ∃ earlier n, (earlier, n) ∈ withEarlier [] siblings ∧ n.isFunction = true ∧ n.Reaches earlier line
  · obtain ⟨earlier, n, hn, hk, hr⟩ := ha
    have hoff : n.covers line ≠ true := fun hc => hf ⟨n, mem_of_mem_withEarlier hn, hk, hc⟩
    obtain ⟨a, hattached, hac⟩ := hr.resolve_left hoff
    exact ⟨_, .annotated hn hk (Bool.eq_false_iff.2 hoff) hattached hac⟩
  by_cases hcl : ∃ n ∈ siblings, n.kind = .classDeclaration ∧ n.covers line = true
  · obtain ⟨n, hn, hk, hc⟩ := hcl
    by_cases hm : ∃ earlier m, (earlier, m) ∈ withEarlier [] n.items ∧ m.Reaches earlier line
    · obtain ⟨earlier, m, hm, hr⟩ := hm
      obtain ⟨p, hp⟩ := h n hn (scope.inClass (n.name.getD "<class>"))
      rw [body_of_declares (declares_of_class hk)] at hp
      exact ⟨p, .member hn hk hc hm hr hp⟩
    · exact ⟨scope, .classLine hn hk hc fun earlier m hmem hr => hm ⟨earlier, m, hmem, hr⟩⟩
  · refine ⟨scope, .outside (fun earlier n hn hk hr => ha ⟨earlier, n, hn, hk, hr⟩) fun n hn hk => ?_⟩
    exact Bool.eq_false_iff.2 fun hc => hcl ⟨n, hn, hk, hc⟩

/-- The descent ends in a scope. -/
theorem exists_standsIn (scope : ScopePath) (siblings : List Node) (line : Nat) :
    ∃ p, StandsIn scope siblings line p := by
  have hbody : ∀ n : Node, ∀ scope, ∃ p, StandsIn scope n.body line p := fun n => by
    induction n using body_induction with
    | step n ih => exact exists_standsIn_of_bodies ih
  exact exists_standsIn_of_bodies (fun n _ => hbody n) scope

/-- A line of a member has a span: in a class no node is passed over. -/
theorem exists_span_of_reaches (hp : scope.isGlobal = false) (hmem : (earlier, m) ∈ withEarlier [] siblings)
    (hr : m.Reaches earlier line) : ∃ t ∈ spansOf scope [] siblings, t.covers line = true := by
  obtain ⟨b, hb, hbc⟩ := exists_covers_of_reaches hmem hr
  obtain ⟨before, hb⟩ := exists_mem_withEarlier hb
  have hspan : ∃ q, b.span q ∈ b.spans scope before := by
    rcases b.kind_cases with hk | hk | hk
    · rw [spans_function hk]
      exact ⟨_, List.mem_append_left _ (List.mem_append_right _ (List.mem_singleton.2 rfl))⟩
    · rw [spans_class hk]
      exact ⟨_, List.mem_append_left _ (List.mem_append_right _ (List.mem_singleton.2 rfl))⟩
    · rw [spans_plain hk, if_neg (by simp [hp])]
      exact ⟨_, List.mem_singleton.2 rfl⟩
  obtain ⟨q, hq⟩ := hspan
  exact ⟨_, mem_spansOf.2 ⟨before, b, hb, hq⟩, hbc⟩

/-- The own spans of a node give the lines it reaches their scope. -/
theorem scopeIn_ownSpans (hr : n.Reaches before line) (scope outer : ScopePath) :
    scopeIn (n.ownSpans before scope) outer line = scope := by
  refine lastOr_eq (fun t ht _ => scope_of_mem_ownSpans ht) (.inr ?_)
  rcases hr with hc | ⟨a, ha, hc⟩
  · exact ⟨n.span scope, by simp [ownSpans], hc⟩
  · exact ⟨a.span scope, List.mem_append_left _ (List.mem_map_of_mem ha), hc⟩

/-- The scope where the descent ends is the one that the last span gives. -/
theorem StandsIn.scopeIn_spansOf (h : StandsIn scope siblings line p) (hlaid : LaidOut siblings) :
    scopeIn (spansOf scope [] siblings) scope line = p := by
  induction h with
  | @function scope p siblings line n mem kind on deeper ih =>
    have hd := declares_of_isFunction kind
    obtain ⟨earlier, hmem⟩ := exists_mem_withEarlier mem
    obtain ⟨outer, houter⟩ := hlaid.scopeIn_eq_of_reaches hmem hd (.inl on) scope scope
    rw [houter, spans_function kind, scopeIn_append, scopeIn_ownSpans (.inl on)]
    exact ih (body_of_declares hd ▸ hlaid.body mem)
  | @annotated scope siblings earlier line n a mem kind off attached on =>
    have hd := declares_of_isFunction kind
    have hr : n.Reaches earlier line := .inr ⟨a, attached, on⟩
    obtain ⟨outer, houter⟩ := hlaid.scopeIn_eq_of_reaches mem hd hr scope scope
    rw [houter, spans_function kind, scopeIn_append, scopeIn_ownSpans hr]
    exact scopeIn_of_not_covers (hlaid.not_covers_inside (mem_of_mem_withEarlier mem) hd off _) _
  | @member scope p siblings earlier line n m mem kind on inside reached deeper ih =>
    have hd := declares_of_class kind
    obtain ⟨before, hmem⟩ := exists_mem_withEarlier mem
    obtain ⟨outer, houter⟩ := hlaid.scopeIn_eq_of_reaches hmem hd (.inl on) scope scope
    have hclass : (scope.inClass (n.name.getD "<class>")).isGlobal = false := by
      simp [ScopePath.isGlobal, ScopePath.inClass]
    have hspan := exists_span_of_reaches hclass inside reached
    rw [houter, spans_class kind, scopeIn_append, scopeIn, lastOr_congr hspan]
    exact ih (body_of_declares hd ▸ hlaid.body mem)
  | @classLine scope siblings line n mem kind on between =>
    have hd := declares_of_class kind
    obtain ⟨earlier, hmem⟩ := exists_mem_withEarlier mem
    obtain ⟨outer, houter⟩ := hlaid.scopeIn_eq_of_reaches hmem hd (.inl on) scope scope
    have hnone : ∀ t ∈ spansOf (scope.inClass (n.name.getD "<class>")) [] n.items, t.covers line = false := by
      intro t ht
      obtain ⟨before, m, hm, ht⟩ := mem_spansOf.1 ht
      have hbody : m ∈ n.body := body_of_declares hd ▸ mem_of_mem_withEarlier hm
      exact Bool.eq_false_iff.2 fun hc => between before m hm ((hlaid.body mem).reaches hbody ht hc)
    rw [houter, spans_class kind, scopeIn_append, scopeIn_ownSpans (.inl on)]
    exact scopeIn_of_not_covers hnone _
  | @outside scope siblings line functions classes =>
    refine lastOr_eq (fun t ht hc => ?_) (.inl rfl)
    obtain ⟨earlier, n, hn, ht⟩ := mem_spansOf.1 ht
    have hmem := mem_of_mem_withEarlier hn
    rcases n.kind_cases with hk | hk | hk
    · exact absurd (hlaid.reaches hmem ht hc) (functions earlier n hn hk)
    · rw [spans_class hk] at ht
      rcases List.mem_append.1 ht with ht | ht
      · exact scope_of_mem_ownSpans ht
      · rw [hlaid.not_covers_inside hmem (declares_of_class hk) (classes n hmem hk) _ t ht] at hc
        cases hc
    · rw [spans_plain hk] at ht
      split at ht
      · cases ht
      · rw [List.mem_singleton.1 ht]
        rfl

end Node

/-! ## Decorators of programs -/

namespace JavaScript

theorem Phrase.eq_decorator {p : Phrase} (h : p.typeName = "decorator") : p = .decorator := by
  revert h
  cases p <;> decide

/-- A decorator is no call and declares nothing. -/
theorem Shown.plainKind_of_decorator {s : Shown} (h : s.typeName = "decorator") :
    s.call? = none ∧ s.plainKind = .other := by
  obtain ⟨label, role, start, stop, parts⟩ := s
  cases label with
  | token t => revert h; cases t <;> simp [typeName]
  | phrase p =>
    have hp : p.phrase = .decorator := Phrase.eq_decorator h
    have hexport : (⟨.phrase p, role, start, stop, parts⟩ : Shown).isPhrase .exportStatement = false := by
      simp [isPhrase, hp]
    constructor
    · simp [call?, isPhrase, hp]
    · simp [plainKind, declaration, hexport, hp]
  | _ => simp [typeName] at h

/-- What is called a decorator declares nothing. -/
theorem Shown.declares_of_decorator (depth : Nat) (shown : List Shown) :
    ∀ n ∈ Node.visitedIn (nodes depth shown), n.typeName = "decorator" → n.declares = false := by
  induction depth generalizing shown with
  | zero => simp [nodes, Node.visitedIn]
  | succ depth ih =>
    intro v hv hname
    obtain ⟨n, hn, hv⟩ := Node.mem_visitedIn.1 hv
    obtain ⟨s, _, rfl⟩ := List.mem_map.1 hn
    rw [Node.visited_eq] at hv
    rcases List.mem_cons.1 hv with rfl | hv
    · obtain ⟨hcall, hkind⟩ := plainKind_of_decorator hname
      simp [Node.declares, Node.isFunction, hcall, hkind]
    · rw [Node.body] at hv
      split at hv
      · exact ih _ v hv hname
      · cases hv

/-- In a program a decorator declares nothing, which is what `Node.LaidOut` asks besides the rows. -/
theorem declares_of_parse {source : String} {tree : SyntaxTree} (h : parse source = .ok tree) :
    ∀ n ∈ Node.visitedIn tree.nodes, n.typeName = "decorator" → n.declares = false := by
  unfold parse at h
  split at h
  · split at h
    · cases h
      exact Shown.declares_of_decorator _ _
    · cases h
  · cases h

end JavaScript

/-! ## Scopes of lines -/

open Node in
/-- The scope of a line is the one where the descent to it ends, and lines before and after the source stand in the
global scope. -/
theorem scopeOf_eq_iff_standsIn {tree : SyntaxTree} (hlaid : LaidOut tree.nodes)
    (hrows : ∀ n ∈ tree.nodes, n.endRow < tree.lineCount) (line : Nat) :
    (∀ p, (ScopeMap.ofTree tree).scopeOf line = p ↔ StandsIn .global tree.nodes line p) ∧
    (line = 0 ∨ tree.lineCount < line → (ScopeMap.ofTree tree).scopeOf line = .global) := by
  have hsound : ∀ {p}, StandsIn .global tree.nodes line p → (ScopeMap.ofTree tree).scopeOf line = p :=
    fun h => (scopeOf_eq_scopeIn _ line).trans (h.scopeIn_spansOf hlaid)
  refine ⟨fun p => ⟨?_, hsound⟩, fun hline => ?_⟩
  · rintro rfl
    obtain ⟨q, hq⟩ := exists_standsIn .global tree.nodes line
    rw [hsound hq]
    exact hq
  · have hoff : ∀ n ∈ tree.nodes, n.covers line = false := by
      intro n hn
      have hend := hrows n hn
      rw [Bool.eq_false_iff, ne_eq, covers_iff]
      omega
    refine hsound (.outside (fun earlier n hn _ hr => ?_) fun n hn _ => hoff n hn)
    obtain ⟨b, hb, hbc⟩ := exists_covers_of_reaches hn hr
    rw [hoff b hb] at hbc
    cases hbc

/-- The comment above a method stands in the method. -/
theorem standsIn_documentation :
    Node.LaidOut documentedMethod.nodes ∧
      Node.StandsIn .global documentedMethod.nodes 2 ⟨[.inClass "C", .inFunction "m"]⟩ := by
  have hlaid : Node.LaidOut documentedMethod.nodes := ⟨by decide, by decide, by decide, by decide⟩
  exact ⟨hlaid, ((scopeOf_eq_iff_standsIn hlaid (by decide) 2).1 _).1 (by decide)⟩

end DiffSlice
