import DiffSlice.Proofs.BlankCollapse
import DiffSlice.Proofs.StrayDecorators
import DiffSlice.Proofs.TextLines
import DiffSlice.Proofs.TouchedCode
import DiffSlice.Slice.Render
import DiffSlice.Tree.Language

/-!
# Slicing a slice

A slice that is shown plain can be parsed and sliced by the same changes again. The text stays the same exactly if it
does not end in a newline, has no carriage return before a newline, and loses no line the second time
(`render_resliced_iff`). What is done to the lines that are kept is never at fault: stray decorators and runs of blank
lines are gone after the first time (`dropStray_of_thinned`, `collapsedPieces_collapsedPieces`).
-/

namespace DiffSlice

open DiffSlice.Text

/-! ## Kept lines -/

theorem map_text_numbered (number : Nat) (ls : List String) : (numbered number ls).map SlicedLine.text = ls := by
  induction ls generalizing number with
  | nil => rfl
  | cons l ls ih => simp [numbered, ih]

def Slice.texts (s : Slice) : List String :=
  s.lines.map SlicedLine.text

section Marks

variable (source : String) (marks : List LineMark) (default : Bool)

/-- The texts that are kept are lines of the source, in order. -/
theorem texts_sublist : (Slice.ofMarks source marks default).texts.Sublist (lines source) := by
  have hkept := (List.filter_sublist (p := fun line => keepsLine marks default line.number)
    (l := numbered 1 (lines source))).map SlicedLine.text
  rw [map_text_numbered] at hkept
  exact hkept

/-- All texts are kept if every line is one of the slice. -/
theorem texts_eq_iff : (Slice.ofMarks source marks default).texts = lines source ↔
    ∀ n, 1 ≤ n → n ≤ (lines source).length → n ∈ (Slice.ofMarks source marks default).lineNumbers := by
  have hall : (Slice.ofMarks source marks default).texts = lines source ↔
      ∀ line ∈ numbered 1 (lines source), keepsLine marks default line.number = true := by
    rw [← List.filter_eq_self]
    refine ⟨fun h => ?_, fun h => ?_⟩
    · refine List.filter_sublist.eq_of_length ?_
      have hlength := congrArg List.length h
      rw [← map_text_numbered 1 (lines source), List.length_map] at hlength
      rw [← hlength, Slice.texts, List.length_map]
      rfl
    · rw [Slice.texts, Slice.ofMarks, h, map_text_numbered]
  rw [hall]
  refine ⟨fun h n h1 hn => ?_, fun h line hline => ?_⟩
  · obtain ⟨line, hline, rfl⟩ := List.mem_map.1 (mem_numbers_numbered.2 ⟨h1, Nat.lt_one_add_iff.2 hn⟩)
    exact mem_lineNumbers_ofMarks.2 ⟨⟨h1, Nat.lt_one_add_iff.2 hn⟩, h line hline⟩
  · obtain ⟨h1, hn⟩ := mem_numbers_numbered.1 (List.mem_map_of_mem hline)
    exact (mem_lineNumbers_ofMarks.1 (h line.number h1 (Nat.lt_one_add_iff.1 hn))).2

end Marks

/-! ## Shown plain -/

/-- The lines that are shown plain. -/
def Slice.shown (s : Slice) : List String :=
  collapsedPieces .plain (Decorator.dropStray s.texts)

namespace Slice

variable (s : Slice)

theorem thinned_shown : Thinned (Decorator.dropStray s.texts) s.shown :=
  thinned_collapsedPieces _

theorem shown_sublist : s.shown.Sublist s.texts :=
  s.thinned_shown.sublist.trans (Decorator.stripped_dropStray s.texts).sublist

/-- A slice that is shown plain is made of its shown lines. -/
theorem render_plain (hs : ∀ l ∈ s.texts, '\n' ∉ l.toList) : s.render .plain ∅ = joinLines s.shown := by
  have hrender : s.render .plain ∅ = collapseBlankRuns .plain (joinLines (Decorator.dropStray s.texts)) := rfl
  rw [hrender, collapseBlankRuns_eq, shown]
  by_cases hnone : Decorator.dropStray s.texts = []
  · rw [hnone]
    rfl
  · rw [pieces_joinLines hnone fun l hl => hs l ((Decorator.stripped_dropStray s.texts).sublist.subset hl)]

variable {s}

/-- Lines that were shown are all shown again. -/
theorem shown_eq_of_texts_eq {t : Slice} (h : t.texts = s.shown) : t.shown = s.shown := by
  rw [shown, h, Decorator.dropStray_of_thinned s.thinned_shown, shown, collapsedPieces_collapsedPieces]

/-- Some lines of what was shown are shown as before if they are all its lines and its pieces are lines. -/
theorem joinLines_shown_iff {t : Slice} (hs : ∀ l ∈ s.texts, '\n' ∉ l.toList)
    (ht : t.texts.Sublist (Text.lines (joinLines s.shown))) :
    joinLines t.shown = joinLines s.shown ↔ endsLine (joinLines s.shown) = false ∧
      hasPart ['\r', '\n'] (joinLines s.shown).toList = false ∧ t.texts = Text.lines (joinLines s.shown) := by
  have hsub := t.shown_sublist.trans ht
  by_cases hempty : joinLines s.shown = ""
  · rw [hempty, lines_empty] at ht hsub ⊢
    rw [List.sublist_nil.1 ht, List.sublist_nil.1 hsub]
    exact iff_of_true rfl ⟨rfl, rfl, rfl⟩
  · have hpieces : pieces (joinLines s.shown) = s.shown :=
      pieces_joinLines_of_ne hempty fun l hl => hs l (s.shown_sublist.subset hl)
    rw [← and_assoc, ← lines_eq_pieces_iff hempty, hpieces]
    constructor
    · intro heq
      have hshown : t.shown = s.shown := by
        rw [← hpieces, ← heq]
        rw [← heq] at hempty
        exact (pieces_joinLines_of_ne hempty fun l hl => not_mem_of_mem_lines (hsub.subset hl)).symm
      -- the shown lines are among the texts, the texts among the lines, and there are no fewer of the first
      have hlength := length_lines_le (joinLines s.shown)
      have htexts := t.shown_sublist.length_le
      rw [hpieces] at hlength
      rw [hshown] at hsub htexts
      exact ⟨(hsub.eq_of_length_le hlength).symm, ht.eq_of_length_le (Nat.le_trans hlength htexts)⟩
    · rintro ⟨hlines, htexts⟩
      rw [shown_eq_of_texts_eq (htexts.trans hlines)]

end Slice

/-! ## Parsed again -/

theorem JavaScript.source_of_parse {source : String} {tree : SyntaxTree} (h : JavaScript.parse source = .ok tree) :
    tree.source = source := by
  unfold JavaScript.parse at h
  split at h
  · split at h
    · cases h
      rfl
    · cases h
  · cases h

theorem SyntaxTree.source_of_parse {source : String} {language : SourceLanguage} {tree : SyntaxTree}
    (h : SyntaxTree.parse source language = .ok tree) : tree.source = source := by
  unfold SyntaxTree.parse at h
  split at h
  · cases hparse : JavaScript.parse source with
    | error line =>
      rw [hparse] at h
      cases h
    | ok t =>
      rw [hparse] at h
      cases h
      exact JavaScript.source_of_parse hparse
  · cases h

theorem exists_parse (source : String) (changes : ChangeSet) (shown : String)
    (h : ((SyntaxTree.parse source .javaScript).toOption.map fun t => (slice t changes).render .plain ∅) = some shown) :
    ∃ tree, SyntaxTree.parse source .javaScript = .ok tree ∧ (slice tree changes).render .plain ∅ = shown := by
  cases hparse : SyntaxTree.parse source .javaScript with
  | error failure =>
    rw [hparse] at h
    cases h
  | ok tree =>
    rw [hparse] at h
    exact ⟨tree, rfl, Option.some.inj h⟩

/-- A slice shown plain and sliced again by the same changes is the same text exactly if it does not end in a newline,
no carriage return stands before a newline in it, and no line of it is dropped the second time. -/
theorem render_resliced_iff {tree again : SyntaxTree} {changes : ChangeSet} {language : SourceLanguage}
    (hparse : SyntaxTree.parse ((slice tree changes).render .plain ∅) language = .ok again) :
    (slice again changes).render .plain ∅ = (slice tree changes).render .plain ∅ ↔
      endsLine ((slice tree changes).render .plain ∅) = false ∧
        hasPart ['\r', '\n'] ((slice tree changes).render .plain ∅).toList = false ∧
        ∀ n, 1 ≤ n → n ≤ again.lineCount → n ∈ (slice again changes).lineNumbers := by
  have hlines : ∀ t : SyntaxTree, ∀ l ∈ (slice t changes).texts, '\n' ∉ l.toList :=
    fun t l hl => not_mem_of_mem_lines ((texts_sublist t.source _ true).subset hl)
  have hsource := SyntaxTree.source_of_parse hparse
  have hall : (slice again changes).texts = lines again.source ↔ _ := texts_eq_iff again.source _ true
  have hsub : (slice again changes).texts.Sublist (lines again.source) := texts_sublist again.source _ true
  rw [Slice.render_plain _ (hlines tree)] at hsource ⊢
  rw [Slice.render_plain _ (hlines again), Slice.joinLines_shown_iff (hlines tree) (hsource ▸ hsub), ← hsource, hall]
  rfl

/-- Of a comment and a call the comment is left, and it stays. -/
theorem render_resliced_without_call : ∃ tree again,
    SyntaxTree.parse "// a\nf();\n" .javaScript = .ok tree ∧
      SyntaxTree.parse ((slice tree .empty).render .plain ∅) .javaScript = .ok again ∧
      (slice again .empty).render .plain ∅ = (slice tree .empty).render .plain ∅ ∧
      endsLine ((slice tree .empty).render .plain ∅) = false ∧
        hasPart ['\r', '\n'] ((slice tree .empty).render .plain ∅).toList = false ∧
        ∀ n, 1 ≤ n → n ≤ again.lineCount → n ∈ (slice again .empty).lineNumbers := by
  obtain ⟨tree, htree, honce⟩ := exists_parse "// a\nf();\n" .empty "// a" (by decide +kernel)
  obtain ⟨again, hagain, htwice⟩ := exists_parse "// a" .empty "// a" (by decide +kernel)
  rw [← honce] at hagain htwice
  exact ⟨tree, again, htree, hagain, htwice, (render_resliced_iff hagain).1 htwice⟩

/-- The slice of a source that ends in a blank line ends in a newline, which is lost when it is sliced again. -/
theorem render_resliced_blank_end : ∃ tree again,
    SyntaxTree.parse "// setup\n\n" .javaScript = .ok tree ∧ (slice tree .empty).render .plain ∅ = "// setup\n" ∧
      SyntaxTree.parse "// setup\n" .javaScript = .ok again ∧ (slice again .empty).render .plain ∅ = "// setup" := by
  obtain ⟨tree, htree, honce⟩ := exists_parse "// setup\n\n" .empty "// setup\n" (by decide +kernel)
  obtain ⟨again, hagain, htwice⟩ := exists_parse "// setup\n" .empty "// setup" (by decide +kernel)
  exact ⟨tree, again, htree, honce, hagain, htwice⟩

end DiffSlice
