import DiffSlice.Proofs.RunReplacement
import DiffSlice.Slice.Render

/-!
# One line of each blank run

A run of blank lines between two other lines is collapsed on its own, whatever stands before and after those
(`collapsedPieces_append`, `leftAfterFirst_run`). Its first line is left, in every style but one: before an unedited
line, whose margin is a blank too, edit marks leave nothing of the run (`inner_run_left`, `unedited_run_lost`).
-/

namespace DiffSlice

open DiffSlice.Text

/-- What is left of the lines of a text that stand after its first one. -/
def LineStyle.leftAfterFirst : LineStyle → List String → List String
  | .lineNumbers => dropRepeatedBlanks isNumberedBlank false
  | .editMarkers => dropMarkedBlanks
  | .plain => dropRepeatedBlanks (· == "") false

section

variable {style : LineStyle} {a b : String} {xs run ys : List String}

theorem collapsedPieces_ne_nil (h : xs ≠ []) : collapsedPieces style xs ≠ [] := by
  obtain ⟨x, xs, rfl⟩ := List.exists_cons_of_ne_nil h
  cases style with
  | lineNumbers => exact dropRepeatedBlanks_ne_nil h
  | editMarkers => exact List.cons_ne_nil _ _
  | plain => exact List.cons_ne_nil _ _

/-- A first line that is not blank is treated like the lines after it. -/
theorem collapsedPieces_of_other (hb : style.isBlankLine b = false) (ys : List String) :
    collapsedPieces style (b :: ys) = style.leftAfterFirst (b :: ys) := by
  cases style with
  | lineNumbers => rfl
  | editMarkers => exact (dropMarkedBlanks_of_other (by simpa [LineStyle.isBlankLine] using hb) ys).symm
  | plain => exact (dropRepeatedBlanks_of_other hb false ys).symm

theorem head?_collapsedPieces (hb : style.isBlankLine b = false) (ys : List String) :
    (collapsedPieces style (b :: ys)).head? = some b := by
  cases style with
  | lineNumbers => exact congrArg List.head? (dropRepeatedBlanks_of_other hb false ys)
  | editMarkers => rfl
  | plain => rfl

/-- A line that is not blank divides what is left of a text. -/
theorem collapsedPieces_append (ha : style.isBlankLine a = false) (xs rest : List String) :
    collapsedPieces style (xs ++ a :: rest) = collapsedPieces style (xs ++ [a]) ++ style.leftAfterFirst rest := by
  cases style with
  | lineNumbers => exact dropRepeatedBlanks_append ha false xs rest
  | editMarkers =>
    cases xs with
    | nil => rfl
    | cons x xs =>
      have hne : a ≠ " " := by simpa [LineStyle.isBlankLine] using ha
      exact congrArg (x :: ·) (dropMarkedBlanks_append hne xs rest)
  | plain =>
    cases xs with
    | nil => rfl
    | cons x xs => exact congrArg (x :: ·) (dropRepeatedBlanks_append ha false xs rest)

/-- The last line stays. -/
theorem getLast?_collapsedPieces (style : LineStyle) (xs : List String) :
    (collapsedPieces style xs).getLast? = xs.getLast? := by
  cases style with
  | lineNumbers => exact getLast?_dropRepeatedBlanks _ _ xs
  | editMarkers =>
    cases xs with
    | nil => rfl
    | cons x xs => rw [collapsedPieces, List.getLast?_cons, List.getLast?_cons, getLast?_dropMarkedBlanks]
  | plain =>
    cases xs with
    | nil => rfl
    | cons x xs => rw [collapsedPieces, List.getLast?_cons, List.getLast?_cons, getLast?_dropRepeatedBlanks]

/-- What is left of a run of blank lines before another line. -/
theorem leftAfterFirst_run (hrun : ∀ l ∈ run, style.isBlankLine l = true) (hsome : run ≠ [])
    (hb : style.isBlankLine b = false) (ys : List String) :
    style.leftAfterFirst (run ++ b :: ys) =
      (if style = .editMarkers ∧ startsWith " " b = true then [] else run.take 1) ++
        style.leftAfterFirst (b :: ys) := by
  cases style with
  | lineNumbers => exact dropRepeatedBlanks_first_run hrun hsome hb ys
  | editMarkers =>
    have hblank : ∀ l ∈ run, l = " " := fun l hl => eq_of_beq (hrun l hl)
    simpa [LineStyle.leftAfterFirst] using dropMarkedBlanks_run hblank hsome b ys
  | plain => exact dropRepeatedBlanks_first_run hrun hsome hb ys

/-- The pieces of a collapsed text are the collapsed pieces of the text. -/
theorem pieces_collapseBlankRuns (style : LineStyle) (text : String) :
    pieces (collapseBlankRuns style text) = collapsedPieces style (pieces text) := by
  rw [collapseBlankRuns_eq]
  refine pieces_joinLines (collapsedPieces_ne_nil (pieces_ne_nil text)) fun l hl => ?_
  exact not_mem_of_mem_pieces ((omits_collapsedPieces style (pieces text)).sublist.subset hl)

/-- The lines that are left of a text of lines. -/
def LineStyle.collapsedLines (style : LineStyle) (ls : List String) : List String :=
  pieces (collapseBlankRuns style (joinLines ls))

/-- Lines without newlines in them are collapsed like the pieces of the text that they make. -/
theorem collapsedLines_eq (hne : xs ≠ []) (h : ∀ l ∈ xs, '\n' ∉ l.toList) :
    style.collapsedLines xs = collapsedPieces style xs := by
  rw [LineStyle.collapsedLines, pieces_collapseBlankRuns, pieces_joinLines hne h]

/-- A run of blank lines between two other lines is left as its first line, whatever stands before and after those. With
edit marks, nothing is left of it if the line after it is not edited. -/
theorem inner_run_left (style : LineStyle) (xs run ys : List String) (a b : String)
    (hlines : ∀ l ∈ xs ++ a :: (run ++ b :: ys), '\n' ∉ l.toList) (ha : style.isBlankLine a = false)
    (hrun : ∀ l ∈ run, style.isBlankLine l = true) (hsome : run ≠ []) (hb : style.isBlankLine b = false) :
    style.collapsedLines (xs ++ a :: (run ++ b :: ys)) =
        style.collapsedLines (xs ++ [a]) ++
          (if style = .editMarkers ∧ startsWith " " b = true then [] else run.take 1) ++
          style.collapsedLines (b :: ys) ∧
      (style.collapsedLines (xs ++ [a])).getLast? = some a ∧ (style.collapsedLines (b :: ys)).head? = some b := by
  obtain ⟨hxs, hrest⟩ := List.forall_mem_append.1 hlines
  obtain ⟨hna, hrest⟩ := List.forall_mem_cons.1 hrest
  have hback := (List.forall_mem_append.1 hrest).2
  have hfront := List.forall_mem_append.2 ⟨hxs, List.forall_mem_singleton.2 hna⟩
  rw [collapsedLines_eq (by simp) hlines, collapsedLines_eq (by simp) hfront, collapsedLines_eq (by simp) hback]
  refine ⟨?_, ?_, head?_collapsedPieces hb ys⟩
  · rw [collapsedPieces_append ha, leftAfterFirst_run hrun hsome hb, collapsedPieces_of_other hb, List.append_assoc]
  · rw [getLast?_collapsedPieces, List.getLast?_concat]

/-- Two runs with edit marks: before an edited line one blank is left, and before an unedited one none. -/
theorem inner_run_left_edited :
    LineStyle.editMarkers.collapsedLines [" a", " ", " ", "+b", " ", " c"] = [" a", " ", "+b", " c"] := by
  obtain ⟨hleft, -, -⟩ := inner_run_left .editMarkers [] [" ", " "] [" ", " c"] " a" "+b" (by decide) rfl (by decide)
    (by decide) rfl
  refine hleft.trans ?_
  decide

/-- A blank line between two unedited lines is shown as none. -/
theorem unedited_run_lost :
    [⟨1, "a"⟩, ⟨2, ""⟩, ⟨3, "b"⟩].map (SlicedLine.annotated .editMarkers ∅) = [" a", " ", " b"] ∧
      collapseBlankRuns .editMarkers (joinLines [" a", " ", " b"]) = joinLines [" a", " b"] := by
  decide

end

end DiffSlice
