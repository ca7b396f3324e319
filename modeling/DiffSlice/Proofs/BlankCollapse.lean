import DiffSlice.Proofs.BlankRuns
import Mathlib.Data.List.Chain

/-!
# Texts without runs of blank lines

What is left of a text has no run of blank lines any more (`collapsed_collapsedPieces`), and nothing is left out of
lines without one (`collapsedPieces_eq_self`). So a text is collapsed once and for all, and it loses nothing but blank
lines (`collapse_blanks_only`), whatever text it is.
-/

namespace DiffSlice

open DiffSlice.Text

/-! ## Blank lines of a style -/

/-- The line is blank in the style: a number and one space, one space, or nothing. -/
def LineStyle.Blank : LineStyle → String → Prop
  | .lineNumbers, line => ∃ digits : List Char, digits ≠ [] ∧ (∀ c ∈ digits, isDigit c = true) ∧
      line.toList = digits ++ [' ']
  | .editMarkers, line => line = " "
  | .plain, line => line = ""

/-- What the test takes for a blank line is one in the sense of the style. -/
theorem LineStyle.isBlankLine_iff {style : LineStyle} {line : String} :
    style.isBlankLine line = true ↔ style.Blank line := by
  cases style with
  | lineNumbers => exact isNumberedBlank_iff
  | editMarkers => exact beq_iff_eq
  | plain => exact beq_iff_eq

instance (style : LineStyle) : DecidablePred style.Blank := fun _ =>
  decidable_of_iff _ style.isBlankLine_iff

/-! ## Lines without runs -/

/-- No blank line stands right after another. -/
def NoneRepeated (isBlankLine : String → Bool) (ls : List String) : Prop :=
  ls.IsChain fun l next => isBlankLine l = true → isBlankLine next = false

/-- There is no run of blank lines among the lines of a text. A numbered or empty line counts if a newline ends it, and
an empty one or one with a mark if it is not the first. -/
def LineStyle.Collapsed : LineStyle → List String → Prop
  | .lineNumbers, ls => NoneRepeated isNumberedBlank ls.dropLast
  | .editMarkers, ls => ls.tail.IsChain fun l next => l = " " → startsWith " " next = false
  | .plain, ls => NoneRepeated (· == "") ls.tail.dropLast

section RepeatedBlanks

variable {isBlankLine : String → Bool} {afterBlank : Bool} {ls : List String}

/-- Of the lines that are left none repeats a blank line, also not the one before them. -/
theorem noneRepeated_dropRepeatedBlanks (isBlankLine : String → Bool) (afterBlank : Bool) (ls : List String) :
    NoneRepeated isBlankLine (dropRepeatedBlanks isBlankLine afterBlank ls).dropLast ∧
      ∀ l ∈ (dropRepeatedBlanks isBlankLine afterBlank ls).dropLast.head?,
        afterBlank = true → isBlankLine l = false := by
  fun_induction dropRepeatedBlanks isBlankLine afterBlank ls with
  | case1 => exact ⟨.nil, by simp⟩
  | case2 => exact ⟨.nil, by simp⟩
  | case3 afterBlank line rest _ hblank ih => exact ⟨ih.1, fun l hl _ => ih.2 l hl rfl⟩
  | case4 afterBlank line rest hrest hblank ih =>
    rw [List.dropLast_cons_of_ne_nil (dropRepeatedBlanks_ne_nil fun hnil => hrest hnil)]
    refine ⟨List.isChain_cons.2 ⟨ih.2, ih.1⟩, ?_⟩
    rintro l ⟨⟩ rfl
    simpa using hblank

/-- Lines of which none repeats a blank line are all left. -/
theorem dropRepeatedBlanks_eq_self (h : NoneRepeated isBlankLine ls.dropLast)
    (hfirst : ∀ l ∈ ls.dropLast.head?, afterBlank = true → isBlankLine l = false) :
    dropRepeatedBlanks isBlankLine afterBlank ls = ls := by
  fun_induction dropRepeatedBlanks isBlankLine afterBlank ls with
  | case1 => rfl
  | case2 => rfl
  | case3 afterBlank line rest hrest hblank ih =>
    rw [List.dropLast_cons_of_ne_nil fun hnil => hrest hnil] at hfirst
    rw [Bool.and_eq_true] at hblank
    rw [hfirst line rfl hblank.1] at hblank
    cases hblank.2
  | case4 afterBlank line rest hrest _ ih =>
    rw [List.dropLast_cons_of_ne_nil fun hnil => hrest hnil] at h
    obtain ⟨hnext, hlater⟩ := List.isChain_cons.1 h
    rw [ih hlater hnext]

end RepeatedBlanks

section MarkedBlanks

variable {ls : List String}

theorem head?_dropMarkedBlanks_of_ne {next : String} (h : startsWith " " next = false) (rest : List String) :
    (dropMarkedBlanks (next :: rest)).head? = some next := by
  have hne : next ≠ " " := by
    rintro rfl
    cases h
  rw [dropMarkedBlanks_of_other hne, List.head?_cons]

/-- Among the lines that are left no blank one stands before one that starts with a blank. -/
theorem isChain_dropMarkedBlanks (ls : List String) :
    (dropMarkedBlanks ls).IsChain fun l next => l = " " → startsWith " " next = false := by
  fun_induction dropMarkedBlanks ls with
  | case1 => exact .nil
  | case2 => exact .singleton _
  | case3 line next rest _ ih => exact ih
  | case4 line next rest hkept ih =>
    refine List.isChain_cons.2 ⟨?_, ih⟩
    rintro l hl rfl
    -- a blank line was left because of the next line, which is left then too
    have hnext : startsWith " " next = false := by simpa using hkept
    rw [head?_dropMarkedBlanks_of_ne hnext] at hl
    cases hl
    exact hnext

/-- Nothing is dropped if no line that is one blank stands before a line that starts with a blank. -/
theorem dropMarkedBlanks_eq_self (h : ls.IsChain fun l next => l = " " → startsWith " " next = false) :
    dropMarkedBlanks ls = ls := by
  fun_induction dropMarkedBlanks ls with
  | case1 => rfl
  | case2 => rfl
  | case3 line next rest hblank ih =>
    rw [Bool.and_eq_true, beq_iff_eq] at hblank
    rw [(List.isChain_cons_cons.1 h).1 hblank.1] at hblank
    cases hblank.2
  | case4 line next rest _ ih => rw [ih (List.isChain_cons_cons.1 h).2]

end MarkedBlanks

section

variable {style : LineStyle} {ls : List String}

/-- No run is left. -/
theorem collapsed_collapsedPieces (style : LineStyle) (ls : List String) :
    style.Collapsed (collapsedPieces style ls) := by
  cases style with
  | lineNumbers => exact (noneRepeated_dropRepeatedBlanks _ _ ls).1
  | editMarkers =>
    cases ls with
    | nil => exact .nil
    | cons _ ls => exact isChain_dropMarkedBlanks ls
  | plain =>
    cases ls with
    | nil => exact .nil
    | cons _ ls => exact (noneRepeated_dropRepeatedBlanks _ _ ls).1

/-- Lines without a run are all left. -/
theorem collapsedPieces_eq_self (h : style.Collapsed ls) : collapsedPieces style ls = ls := by
  cases style with
  | lineNumbers => exact dropRepeatedBlanks_eq_self h (by simp)
  | editMarkers =>
    cases ls with
    | nil => rfl
    | cons l ls => exact congrArg (l :: ·) (dropMarkedBlanks_eq_self h)
  | plain =>
    cases ls with
    | nil => rfl
    | cons l ls => exact congrArg (l :: ·) (dropRepeatedBlanks_eq_self h (by simp))

/-- Collapsing the lines again changes nothing. -/
theorem collapsedPieces_collapsedPieces (style : LineStyle) (ls : List String) :
    collapsedPieces style (collapsedPieces style ls) = collapsedPieces style ls :=
  collapsedPieces_eq_self (collapsed_collapsedPieces style ls)

end

/-- A text that is collapsed loses blank lines only, no run of them is left, and collapsing it again changes nothing. -/
theorem collapse_blanks_only (style : LineStyle) (text : String) :
    (pieces (collapseBlankRuns style text)).Sublist (pieces text) ∧
    Omits (fun line => decide (style.Blank line)) (pieces text) (pieces (collapseBlankRuns style text)) ∧
    style.Collapsed (pieces (collapseBlankRuns style text)) ∧
    collapseBlankRuns style (collapseBlankRuns style text) = collapseBlankRuns style text := by
  have homits := omits_collapsedPieces style (pieces text)
  have hpieces := pieces_collapseBlankRuns style text
  refine ⟨?_, ?_, ?_, ?_⟩
  · rw [hpieces]
    exact homits.sublist
  · rw [hpieces]
    exact homits.mono fun line hblank => decide_eq_true (style.isBlankLine_iff.1 hblank)
  · rw [hpieces]
    exact collapsed_collapsedPieces style (pieces text)
  · rw [collapseBlankRuns_eq style (collapseBlankRuns style text), hpieces, collapsedPieces_collapsedPieces,
      ← collapseBlankRuns_eq]

end DiffSlice
