import DiffSlice.Insertion.Point
import DiffSlice.Proofs.NodeRows

/-!
# The rows a fragment comes between

A fragment goes in below the last row of what it is put after. In a suite this is the last call, whose rows are among
those of the suite: the fragment stays inside unless the call ends in the very row in which the suite does, and then it
comes right below the suite. At the end of a file, the one thing that a fragment can come into the middle of is a
comment that starts in the row in which the last statement ends (`findPoint_rows`).
-/

namespace DiffSlice

open JavaScript

/-- What is put in before the line comes between rows of the node. -/
def Node.CutBefore (n : Node) (line : Nat) : Prop :=
  n.startRow < line ∧ line ≤ n.endRow

/-- The point is below the last call of the suite: in the suite if there is a row left for its end, and otherwise right
below it. -/
def InsertionPoint.EndsCalls (point : InsertionPoint) (suite : Node) : Prop :=
  ∃ call, suite.lastCall? = some call ∧ point.lineIndex = call.endRow + 1 ∧
    suite.startRow < point.lineIndex ∧ point.lineIndex ≤ suite.endRow + 1 ∧
    (suite.CutBefore point.lineIndex ↔ call.endRow < suite.endRow)

namespace InsertionPoint

variable {tree : SyntaxTree} {lastRow : Nat}

/-! ## Calls of a suite -/

/-- What is below the last call of a suite comes below the suite's first row and at most right below its last. -/
theorem endsCalls_after (h : InOrder 0 tree.nodes lastRow) {suite call : Node} (hsuite : suite ∈ tree.nodes)
    (hcall : suite.lastCall? = some call) (mode : InsertionMode) : (after tree call mode).EndsCalls suite := by
  obtain ⟨-, hitems, -⟩ := h.mem hsuite
  have hmem : call ∈ suite.items := List.mem_reverse.1 (List.mem_of_find?_eq_some hcall)
  obtain ⟨hstart, hrows, hend⟩ := hitems.mem hmem
  have hle : suite.startRow ≤ call.endRow := hstart.trans hrows.le
  have hbelow : call.endRow ≤ suite.endRow := hend
  refine ⟨call, hcall, rfl, Nat.lt_succ_of_le hle, Nat.succ_le_succ hbelow, ?_⟩
  show suite.startRow < call.endRow + 1 ∧ call.endRow + 1 ≤ suite.endRow ↔ _
  omega

/-! ## The end of a file -/

/-- Below a node, only what comes after it and starts in its last row can be cut. -/
theorem cutBefore_iff {front rest : List Node} {anchor : Node} (h : InOrder 0 (front ++ anchor :: rest) lastRow)
    {n : Node} (hn : n ∈ front ++ anchor :: rest) :
    n.CutBefore (anchor.endRow + 1) ↔ n ∈ rest ∧ n.startRow = anchor.endRow ∧ anchor.endRow < n.endRow := by
  obtain ⟨row, hfront, h⟩ := h.exists_of_append
  cases h with
  | cons hstart hitems hrest =>
    have hanchor : row ≤ anchor.endRow := hstart.trans hitems.le
    unfold Node.CutBefore
    constructor
    · rintro ⟨hlow, hhigh⟩
      rcases List.mem_append.1 hn with hmem | hmem
      · have hend : n.endRow ≤ row := (hfront.mem hmem).2.2
        omega
      · rcases List.mem_cons.1 hmem with rfl | hmem
        · omega
        · have hbelow : anchor.endRow ≤ n.startRow := (hrest.mem hmem).1
          exact ⟨hmem, by omega, by omega⟩
    · rintro ⟨-, hrow, hhigh⟩
      omega

/-! ## What a point is for -/

/-- A point in a file is below its last statement, or below the last call in it if that is a suite. -/
theorem find_cases {callees : TestSyntax} {point : InsertionPoint} (h : find tree callees = .ok point) :
    ∃ front anchor rest, tree.nodes = front ++ anchor :: rest ∧ anchor.kind ≠ .comment ∧
      (∀ n ∈ rest, n.kind = .comment) ∧
      (anchor.suite? callees = none ∧ point = after tree anchor .appendToFile ∨
        (anchor.suite? callees).isSome = true ∧
          ∃ call, anchor.lastCall? = some call ∧ point = after tree call .appendToLastBlock) := by
  unfold find at h
  split at h
  · cases h
  · rename_i anchor hanchor
    obtain ⟨hkind, later, earlier, hnodes, hlater⟩ := List.find?_eq_some_iff_append.1 hanchor
    have hsplit : tree.nodes = earlier.reverse ++ anchor :: later.reverse := by
      rw [← List.reverse_reverse tree.nodes, hnodes]
      simp
    refine ⟨earlier.reverse, anchor, later.reverse, hsplit, by simpa using hkind, fun n hn => ?_, ?_⟩
    · simpa using hlater n (List.mem_reverse.1 hn)
    · split at h
      · rename_i hsuite
        cases h
        exact .inl ⟨hsuite, rfl⟩
      · rename_i description hsuite
        split at h
        · rename_i call hcall
          cases h
          exact .inr ⟨by rw [hsuite]; rfl, call, hcall, rfl⟩
        · cases h

/-- A point in a suite of a given description is below the last call of the first such suite. -/
theorem findSuite_cases {callees : TestSyntax} {name : String} {point : InsertionPoint}
    (h : findSuite tree callees name = .ok point) :
    ∃ front suite rest call, tree.nodes = front ++ suite :: rest ∧ (∀ n ∈ front, n.suite? callees ≠ some name) ∧
      suite.suite? callees = some name ∧ suite.lastCall? = some call ∧
      point = after tree call .appendToNamedBlock := by
  unfold findSuite at h
  split at h
  · cases h
  · rename_i suite hsuite
    obtain ⟨hname, front, rest, hnodes, hfront⟩ := List.find?_eq_some_iff_append.1 hsuite
    split at h
    · rename_i call hcall
      cases h
      exact ⟨front, suite, rest, call, hnodes, fun n hn => by simpa using hfront n hn, by simpa using hname, hcall, rfl⟩
    · cases h

/-- The rows of the nodes of a source, and the point in it. -/
def rowsAndPoint (file : String) : Option (List (Nat × Nat) × Option InsertionPoint) :=
  (SyntaxTree.parse file .javaScript).toOption.map fun tree =>
    (tree.nodes.map fun n => (n.startRow, n.endRow), (find tree {}).toOption)

theorem exists_parsed {file : String} {rows : List (Nat × Nat)} {point : InsertionPoint}
    (h : rowsAndPoint file = some (rows, some point)) :
    ∃ tree, SyntaxTree.parse file .javaScript = .ok tree ∧
      tree.nodes.map (fun n => (n.startRow, n.endRow)) = rows ∧ find tree {} = .ok point := by
  unfold rowsAndPoint at h
  cases hparse : SyntaxTree.parse file .javaScript with
  | error failure =>
    rw [hparse] at h
    cases h
  | ok tree =>
    rw [hparse] at h
    obtain ⟨hrows, hpoint⟩ := Prod.mk.inj (Option.some.inj h)
    refine ⟨tree, rfl, hrows, ?_⟩
    cases hfind : find tree {} with
    | error e =>
      rw [hfind] at hpoint
      cases hpoint
    | ok found =>
      rw [hfind] at hpoint
      exact congrArg Except.ok (Option.some.inj hpoint)

end InsertionPoint

/-! ## Where fragments land -/

/-- In the suite that ends a file, or in the first suite of a description, a fragment comes below the row in which the
suite starts and above the row in which it ends, but right below the suite if its last call ends in that row. At the
end of a file, it comes into the middle of no node, but for a comment that starts in the row in which the last statement
ends and goes on. -/
theorem findPoint_rows {file : String} {language : SourceLanguage} {tree : SyntaxTree}
    (hparse : SyntaxTree.parse file language = .ok tree) (callees : TestSyntax) :
    (∀ point, InsertionPoint.find tree callees = .ok point → point.mode = .appendToLastBlock →
      ∃ front suite rest, tree.nodes = front ++ suite :: rest ∧ (∀ n ∈ rest, n.kind = .comment) ∧
        (suite.suite? callees).isSome = true ∧ point.EndsCalls suite) ∧
    (∀ name point, InsertionPoint.findSuite tree callees name = .ok point →
      point.mode = .appendToNamedBlock ∧
      ∃ front suite rest, tree.nodes = front ++ suite :: rest ∧ (∀ n ∈ front, n.suite? callees ≠ some name) ∧
        suite.suite? callees = some name ∧ point.EndsCalls suite) ∧
    (∀ point, InsertionPoint.find tree callees = .ok point → point.mode = .appendToFile →
      ∃ front anchor rest, tree.nodes = front ++ anchor :: rest ∧ anchor.kind ≠ .comment ∧
        (∀ n ∈ rest, n.kind = .comment) ∧ point.lineIndex = anchor.endRow + 1 ∧
        ∀ n ∈ tree.nodes, n.CutBefore point.lineIndex ↔
          n ∈ rest ∧ n.startRow = anchor.endRow ∧ anchor.endRow < n.endRow) := by
  obtain ⟨lastRow, hrows⟩ := SyntaxTree.parse_inOrder hparse
  refine ⟨fun point hpoint hmode => ?_, fun name point hpoint => ?_, fun point hpoint hmode => ?_⟩
  · obtain ⟨front, anchor, rest, hnodes, -, hrest, ⟨-, rfl⟩ | ⟨hsuite, call, hcall, rfl⟩⟩ :=
      InsertionPoint.find_cases hpoint
    · cases hmode
    · exact ⟨front, anchor, rest, hnodes, hrest, hsuite,
        InsertionPoint.endsCalls_after hrows (by simp [hnodes]) hcall _⟩
  · obtain ⟨front, suite, rest, call, hnodes, hfront, hsuite, hcall, rfl⟩ := InsertionPoint.findSuite_cases hpoint
    exact ⟨rfl, front, suite, rest, hnodes, hfront, hsuite,
      InsertionPoint.endsCalls_after hrows (by simp [hnodes]) hcall _⟩
  · obtain ⟨front, anchor, rest, hnodes, hkind, hrest, ⟨-, rfl⟩ | ⟨-, call, -, rfl⟩⟩ :=
      InsertionPoint.find_cases hpoint
    · refine ⟨front, anchor, rest, hnodes, hkind, hrest, rfl, fun n hn => ?_⟩
      rw [hnodes] at hrows hn
      exact InsertionPoint.cutBefore_iff hrows hn
    · cases hmode

/-- A suite on three rows has the point above its last one. -/
theorem findPoint_rows_of_suite : ∃ tree suite,
    SyntaxTree.parse "describe(() => \x7b\nit()\n\x7d)" .javaScript = .ok tree ∧ tree.nodes = [suite] ∧
      InsertionPoint.find tree {} = .ok ⟨2, "", .appendToLastBlock⟩ ∧ suite.CutBefore 2 ∧
      InsertionPoint.EndsCalls ⟨2, "", .appendToLastBlock⟩ suite := by
  have hparsed : InsertionPoint.rowsAndPoint "describe(() => \x7b\nit()\n\x7d)" =
      some ([(0, 2)], some ⟨2, "", .appendToLastBlock⟩) := by
    decide +kernel
  obtain ⟨tree, hparse, hrows, hpoint⟩ := InsertionPoint.exists_parsed hparsed
  obtain ⟨suite, hnodes, hsuite⟩ := List.map_eq_singleton_iff.1 hrows
  obtain ⟨hstart, hend⟩ := Prod.mk.inj hsuite
  obtain ⟨front, target, rest, htarget, -, -, hends⟩ := (findPoint_rows hparse {}).1 _ hpoint rfl
  have hmem : target ∈ [suite] := by simp [← hnodes, htarget]
  rw [List.mem_singleton.1 hmem] at hends
  exact ⟨tree, suite, hparse, hnodes, hpoint, ⟨by omega, by omega⟩, hends⟩

/-- A suite that ends in the row of its last call does not get the fragment, and a comment that goes on behind the last
statement is torn apart. -/
theorem findPoint_misplaced :
    (∃ tree suite, SyntaxTree.parse "describe(\"s\", () => \x7b\n  it(\"a\"); \x7d);\n" .javaScript = .ok tree ∧
      tree.nodes = [suite] ∧ InsertionPoint.find tree {} = .ok ⟨2, "  ", .appendToLastBlock⟩ ∧
      ¬ suite.CutBefore 2) ∧
    ∃ tree call comment, SyntaxTree.parse "f(); /* a\n b */\n" .javaScript = .ok tree ∧
      tree.nodes = [call, comment] ∧ InsertionPoint.find tree {} = .ok ⟨1, "", .appendToFile⟩ ∧
      comment.CutBefore 1 := by
  -- one evaluation, so that what the two readings share is computed once
  obtain ⟨hsuite, hcomment⟩ : InsertionPoint.rowsAndPoint "describe(\"s\", () => \x7b\n  it(\"a\"); \x7d);\n" =
        some ([(0, 1)], some ⟨2, "  ", .appendToLastBlock⟩) ∧
      InsertionPoint.rowsAndPoint "f(); /* a\n b */\n" = some ([(0, 0), (0, 1)], some ⟨1, "", .appendToFile⟩) := by
    decide +kernel
  constructor
  · obtain ⟨tree, hparse, hrows, hpoint⟩ := InsertionPoint.exists_parsed hsuite
    obtain ⟨suite, hnodes, hsuite⟩ := List.map_eq_singleton_iff.1 hrows
    obtain ⟨-, hend⟩ := Prod.mk.inj hsuite
    refine ⟨tree, suite, hparse, hnodes, hpoint, ?_⟩
    rintro ⟨-, hcut⟩
    omega
  · obtain ⟨tree, hparse, hrows, hpoint⟩ := InsertionPoint.exists_parsed hcomment
    obtain ⟨call, rest, hnodes, -, hrest⟩ := List.map_eq_cons_iff.1 hrows
    obtain ⟨comment, rfl, hcomment⟩ := List.map_eq_singleton_iff.1 hrest
    obtain ⟨hstart, hend⟩ := Prod.mk.inj hcomment
    exact ⟨tree, call, comment, hparse, hnodes, hpoint, by omega, by omega⟩

end DiffSlice
