import DiffSlice.Insertion.Splice
import DiffSlice.Proofs.HunkApplication
import DiffSlice.Proofs.TextLines

/-!
# Texts with a fragment in them

A text gets longer when a fragment is put into it (`length_lt_splice`), even if the fragment is empty and whatever the
text's lines end in: the lines with the ending that the new text has are no shorter than the old text
(`length_le_of_lines`), and an empty line is added. So a fragment that has a place changes the file (`inject_ne`).
-/

namespace DiffSlice

open DiffSlice.Text
open DiffSlice.Patch (bind_eq_ok_iff)

/-! ## Lengths -/

theorem length_intercalate (ending : String) {ls : List String} (h : ls ≠ []) :
    (ending.intercalate ls).length + ending.length = (String.join ls).length + ls.length * ending.length := by
  induction ls with
  | nil => exact absurd rfl h
  | cons l ls ih =>
    by_cases hls : ls = []
    · subst hls
      simp
    · have hlater := ih hls
      rw [String.intercalate_cons_of_ne_nil hls, String.join_cons, List.length_cons, Nat.succ_mul]
      simp only [String.length_append]
      omega

/-- A line has at most one character more than what is left of it without a carriage return at its end. -/
theorem length_le_dropReturn {x : List Char} {e : Nat} (he : 1 ≤ e) (hreturn : x.getLast? = some '\r' → 2 ≤ e) :
    x.length + 1 ≤ (dropReturn (String.ofList x)).length + e := by
  by_cases hx : x.getLast? = some '\r'
  · obtain ⟨y, rfl⟩ := List.getLast?_eq_some_iff.1 hx
    have hdrop : dropReturn (String.ofList (y ++ ['\r'])) = String.ofList y := by
      simp [dropReturn]
    have htwo := hreturn hx
    rw [hdrop]
    simp
    omega
  · rw [dropReturn_eq_self_iff.2 hx]
    simp
    omega

/-- A text is no longer than its lines, each with an ending of `e` characters, where `e` is more than one if some line
ended in more than one. -/
theorem length_le_of_lines {s : String} (hs : s ≠ "") {e : Nat} (he : 1 ≤ e)
    (hreturn : hasPart ['\r', '\n'] s.toList = true → 2 ≤ e) :
    s.length + (if endsLine s then 0 else e) ≤ (String.join (lines s)).length + (lines s).length * e := by
  suffices ∀ x : List Char, x ≠ [] → (hasPart ['\r', '\n'] x = true → 2 ≤ e) →
      x.length + (if endsLine (String.ofList x) then 0 else e) ≤
        (String.join (lines (String.ofList x))).length + (lines (String.ofList x)).length * e by
    have hlist := this s.toList (by simpa using hs) hreturn
    rw [String.ofList_toList, String.length_toList] at hlist
    exact hlist
  refine line_induction ?_ ?_
  · intro x hn hx _
    rw [lines_last hx hn, endsLine_ofList_of_not_mem hn]
    simp
  · intro x rest hn ih _ hpart
    rw [hasPart_newline hn] at hpart
    have hline : x.length + 1 ≤ (dropReturn (String.ofList x)).length + e :=
      length_le_dropReturn he fun hx => hpart (by simp [hx])
    rw [lines_more hn, String.join_cons, List.length_cons, Nat.succ_mul, String.length_append]
    by_cases hrest : rest = []
    · subst hrest
      rw [endsLine_ofList_append, if_pos rfl]
      simp only [List.length_append, List.length_cons, List.length_nil]
      omega
    · have hlater := ih hrest fun hp => hpart (by simp [hp])
      rw [endsLine_ofList_newline x hrest]
      simp only [List.length_append, List.length_cons]
      omega

/-! ## Fragments -/

theorem length_lineEnding (source : String) : 1 ≤ (lineEnding source).length ∧
    (hasPart ['\r', '\n'] source.toList = true → 2 ≤ (lineEnding source).length) := by
  unfold lineEnding
  by_cases hpart : hasPart ['\r', '\n'] source.toList = true
  · rw [if_pos hpart]
    exact ⟨by decide, fun _ => by decide⟩
  · rw [if_neg hpart]
    exact ⟨by decide, fun hp => absurd hp hpart⟩

/-- A text with a fragment in it is longer than it was. -/
theorem length_lt_splice {source : String} (h : source ≠ "") (lineIndex : Nat) (indent fragment : String) :
    source.length < (splice source lineIndex indent fragment).length := by
  obtain ⟨hone, htwo⟩ := length_lineEnding source
  have hsource := length_le_of_lines h hone htwo
  have hall :
      ((lines source).take lineIndex ++ fragmentLines indent fragment ++ (lines source).drop lineIndex) ≠ [] := by
    simp [fragmentLines]
  have hlength := length_intercalate (lineEnding source) hall
  have hlines : (String.join ((lines source).take lineIndex)).length +
      (String.join ((lines source).drop lineIndex)).length = (String.join (lines source)).length := by
    rw [← String.length_append, ← String.join_append, List.take_append_drop]
  have hcount : ((lines source).take lineIndex).length + ((lines source).drop lineIndex).length =
      (lines source).length := by
    rw [← List.length_append, List.take_append_drop]
  have hending : (if endsLine source then lineEnding source else "").length +
      (if endsLine source then 0 else (lineEnding source).length) = (lineEnding source).length := by
    split <;> simp
  have hadded : 1 ≤ (fragmentLines indent fragment).length := by simp [fragmentLines]
  rw [String.join_append, String.join_append, String.length_append, String.length_append, List.length_append,
    List.length_append] at hlength
  show source.length < (_ ++ _ : String).length
  rw [String.length_append]
  -- the fragment brings at least one more line
  have hmore : (lines source).length * (lineEnding source).length + (lineEnding source).length ≤
      (((lines source).take lineIndex).length + (fragmentLines indent fragment).length +
        ((lines source).drop lineIndex).length) * (lineEnding source).length := by
    rw [← Nat.succ_mul]
    exact Nat.mul_le_mul_right _ (by omega)
  omega

section Places

variable {file fragment : String} {suite : Option String} {language : SourceLanguage} {callees : TestSyntax}

/-- A fragment goes after a node. -/
theorem exists_node_of_insertionPoint {point : InsertionPoint}
    (h : insertionPoint file suite language callees = .ok point) :
    ∃ tree, SyntaxTree.parse file language = .ok tree ∧ tree.nodes ≠ [] := by
  obtain ⟨tree, htree, hpoint⟩ := bind_eq_ok_iff.1 h
  cases hparse : SyntaxTree.parse file language with
  | error failure =>
    rw [hparse] at htree
    cases htree
  | ok parsed =>
    rw [hparse] at htree
    cases htree
    refine ⟨_, rfl, fun hnone => ?_⟩
    cases suite with
    | none => simp [InsertionPoint.find, hnone] at hpoint
    | some suite => simp [InsertionPoint.findSuite, hnone] at hpoint

/-- There is no place for a fragment in an empty file. -/
theorem ne_empty_of_insertionPoint {point : InsertionPoint}
    (h : insertionPoint file suite language callees = .ok point) : file ≠ "" := by
  have hempty : ((SyntaxTree.parse "" .javaScript).toOption.map fun t => t.nodes.isEmpty) = some true := by
    decide +kernel
  rintro rfl
  obtain ⟨tree, hparse, hnodes⟩ := exists_node_of_insertionPoint h
  cases language with
  | javaScript =>
    rw [hparse] at hempty
    exact hnodes (List.isEmpty_iff.1 (Option.some.inj hempty))
  | typeScript => cases hparse
  | tsx => cases hparse

/-- A fragment that has a place changes the file. -/
theorem inject_ne {new : String} (h : inject file fragment suite language callees = .ok new) : new ≠ file := by
  obtain ⟨point, hpoint, hnew⟩ := bind_eq_ok_iff.1 h
  cases hnew
  have hlonger := length_lt_splice (ne_empty_of_insertionPoint hpoint) point.lineIndex point.indent fragment
  intro hsame
  rw [hsame] at hlonger
  exact Nat.lt_irrefl _ hlonger

end Places

end DiffSlice
