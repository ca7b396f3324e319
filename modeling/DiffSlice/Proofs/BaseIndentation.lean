import DiffSlice.Insertion.Splice
import DiffSlice.Proofs.TextLines
import Mathlib.Data.List.Forall2

/-!
# The indentation of a fragment as a whole does not matter

A fragment may be written further in or further out: blanks before each of its lines that are not blank
(`indentedBy`) become part of the indentation of the first such line, and go with it. Each line goes the same way as
before (`dedentLine_indented`), also one that is indented less than the first or in another way. So a fragment gives
the same text wherever it is put (`dedent_indentedBy`).
-/

namespace DiffSlice

open DiffSlice.Text

def indented (w line : String) : String :=
  if isBlankText line then line else w ++ line

/-- The text with blanks before each of its lines that are not blank. -/
def indentedBy (w text : String) : String :=
  joinLines ((pieces text).map (indented w))

/-! ## Carriage returns at the end of a line -/

theorem dropReturn_append_of_ne {s : String} (w : String) (h : s ≠ "") : dropReturn (w ++ s) = w ++ dropReturn s := by
  rcases dropReturn_cases s with ⟨hs, hlast⟩ | ⟨y, rfl, hs⟩
  · have hlast' : (w.toList ++ s.toList).getLast? ≠ some '\r' := by
      cases hc : s.toList.getLast? with
      | none => exact absurd (List.getLast?_eq_none_iff.1 hc) (by simpa using h)
      | some c => simpa [List.getLast?_append, hc] using hlast
    have hdrop := dropReturn_eq_self_iff.2 hlast'
    rw [String.ofList_append, String.ofList_toList, String.ofList_toList] at hdrop
    rw [hs, hdrop]
  · have happend : w ++ String.ofList (y ++ ['\r']) = String.ofList ((w.toList ++ y) ++ ['\r']) := by
      rw [← String.toList_inj]
      simp
    rw [hs, happend, ← String.toList_inj]
    simp [dropReturn]

section Indented

variable {w : String} (hw : ∀ c ∈ w.toList, isBlank c = true)

/-! ## Lines -/

theorem isBlankText_eq_false_of_ne {s : String} (h : ¬ isBlankText s = true) : s ≠ "" := by
  rintro rfl
  exact h rfl

theorem indented_eq_empty_iff (w s : String) : indented w s = "" ↔ s = "" := by
  unfold indented
  split
  · exact Iff.rfl
  · rename_i h
    have hs := isBlankText_eq_false_of_ne h
    simp [hs]

/-- A carriage return at the end has nothing to do with the indentation. -/
theorem dropReturn_indented (w s : String) : dropReturn (indented w s) = indented w (dropReturn s) := by
  unfold indented
  rw [isBlankText_dropReturn]
  split
  · rfl
  · rename_i h
    exact dropReturn_append_of_ne w (isBlankText_eq_false_of_ne h)

theorem linesOfPieces_map_indented (w : String) (ps : List String) :
    linesOfPieces (ps.map (indented w)) = (linesOfPieces ps).map (indented w) := by
  fun_induction linesOfPieces ps with
  | case1 => rfl
  | case2 => simp [linesOfPieces, indented_eq_empty_iff]
  | case3 last h => simp [linesOfPieces, indented_eq_empty_iff, h]
  | case4 p ps h ih =>
    have hps : ps.map (indented w) ≠ [] := by simpa using h
    rw [List.map_cons, linesOfPieces_cons hps, ih, dropReturn_indented, List.map_cons]

/-- The lines of the indented text are the lines, indented. -/
theorem lines_indentedBy (hn : '\n' ∉ w.toList) (text : String) :
    lines (indentedBy w text) = (lines text).map (indented w) := by
  have hpieces : pieces (indentedBy w text) = (pieces text).map (indented w) := by
    refine pieces_joinLines (by simp [pieces_ne_nil]) ?_
    intro l hl
    obtain ⟨p, hp, rfl⟩ := List.mem_map.1 hl
    have hp' := not_mem_of_mem_pieces hp
    unfold indented
    split
    · exact hp'
    · simp [hn, hp']
  rw [lines, hpieces, linesOfPieces_map_indented, lines]

/-! ## Taking the indentation away -/

include hw in
/-- Indenting a line makes no difference to whether it is blank. -/
theorem isBlankText_indented (s : String) : isBlankText (indented w s) = isBlankText s := by
  unfold indented
  split
  · rfl
  · have hall : w.toList.all isBlank = true := List.all_eq_true.2 hw
    simp [isBlankText, hall]

include hw in
/-- Blanks before a text are part of its indentation. -/
theorem indentation_append (s : String) : indentation (w ++ s) = w ++ indentation s := by
  rw [indentation, String.toList_append, List.takeWhile_append_of_pos hw, String.ofList_append, String.ofList_toList,
    indentation]

include hw in
theorem trimStart_append (s : String) : trimStart (w ++ s) = trimStart s := by
  rw [trimStart, String.toList_append, List.dropWhile_append_of_pos hw, trimStart]

theorem after?_append_append (w start s : String) : after? (w ++ start) (w ++ s) = after? start s := by
  rw [after?, after?, String.toList_append, String.toList_append]
  congr 1
  apply Option.ext
  intro rest
  rw [List.isPrefixOf?_eq_some_iff_append_eq, List.isPrefixOf?_eq_some_iff_append_eq, List.append_assoc,
    List.append_cancel_left_eq]

include hw in
/-- A line that is further in goes the same way as before, if what is taken from it is further in too. -/
theorem dedentLine_indented (indent s : String) : dedentLine (w ++ indent) (indented w s) = dedentLine indent s := by
  rw [dedentLine, isBlankText_indented hw, dedentLine]
  split
  · rfl
  · rename_i h
    rw [indented, if_neg h, after?_append_append, trimStart_append hw]

end Indented

/-- The lines of a fragment depend only on the fragment without its own indentation. -/
theorem fragmentLines_congr {fragment fragment' : String} (h : dedent fragment = dedent fragment') (indent : String) :
    fragmentLines indent fragment = fragmentLines indent fragment' := by
  rw [fragmentLines, h, fragmentLines]

/-- Blanks before all lines of a fragment change nothing: not what is left when the indentation is gone, and not what
becomes of a text that the fragment is put into. -/
theorem dedent_indentedBy {w : String} (hw : ∀ c ∈ w.toList, isBlank c = true ∧ c ≠ '\n') (text : String) :
    dedent (indentedBy w text) = dedent text ∧
    (∀ source lineIndex indent,
      splice source lineIndex indent (indentedBy w text) = splice source lineIndex indent text) ∧
    ∀ file suite language callees,
      inject file (indentedBy w text) suite language callees = inject file text suite language callees := by
  have hblank : ∀ c ∈ w.toList, isBlank c = true := fun c hc => (hw c hc).1
  have hn : '\n' ∉ w.toList := fun h => (hw _ h).2 rfl
  have hdedent : dedent (indentedBy w text) = dedent text := by
    have hfirst : (fun line => !isBlankText line) ∘ indented w = fun line => !isBlankText line :=
      funext fun line => by rw [Function.comp_apply, isBlankText_indented hblank]
    rw [dedent, dedent, lines_indentedBy hn, List.find?_map, hfirst]
    cases hfind : (lines text).find? fun line => !isBlankText line with
    | none => rfl
    | some first =>
      have hne : ¬ isBlankText first = true := by simpa using List.find?_some hfind
      have hindent : indentation (indented w first) = w ++ indentation first := by
        rw [indented, if_neg hne, indentation_append hblank]
      simp only [Option.map_some, hindent, List.map_map]
      exact congrArg joinLines (List.map_congr_left fun line _ => dedentLine_indented hblank _ line)
  have hsplice : ∀ source lineIndex indent,
      splice source lineIndex indent (indentedBy w text) = splice source lineIndex indent text := by
    intro source lineIndex indent
    rw [splice, splice, fragmentLines_congr hdedent]
  refine ⟨hdedent, hsplice, fun file suite language callees => ?_⟩
  simp only [inject, hsplice]

/-- Lines that are indented more, less and in another way than the first. -/
theorem dedent_indentedBy_tab :
    indentedBy "\t\r" "  a\n   b\r\n\n\tc\nd" = "\t\r  a\n\t\r   b\r\n\n\t\r\tc\n\t\rd" ∧
      dedent "\t\r  a\n\t\r   b\r\n\n\t\r\tc\n\t\rd" = "a\n b\n\nc\nd" := by
  have htext : indentedBy "\t\r" "  a\n   b\r\n\n\tc\nd" = "\t\r  a\n\t\r   b\r\n\n\t\r\tc\n\t\rd" := by decide
  have hindent : ∀ c ∈ "\t\r".toList, isBlank c = true ∧ c ≠ '\n' := by
    intro c hc
    have hcases : c = '\t' ∨ c = '\r' := by simpa using hc
    rcases hcases with rfl | rfl
    · decide
    · decide
  have hsame := (dedent_indentedBy hindent "  a\n   b\r\n\n\tc\nd").1
  refine ⟨htext, ?_⟩
  rw [← htext, hsame]
  decide

end DiffSlice
