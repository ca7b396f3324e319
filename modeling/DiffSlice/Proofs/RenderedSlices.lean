import DiffSlice.Proofs.AnnotatedLines
import DiffSlice.Proofs.Reslicing

/-!
# What is shown of a slice

Of the lines of a slice that are not blank, those outside of stray groups of decorators are shown, in order
(`render_shows_all_but_stray`). Groups are told by the lines alone: a line of a template or a comment that starts like
a decorator is dropped as one, also where the syntax tree has no decorator at all (`template_line_not_shown`).
-/

namespace DiffSlice

open DiffSlice.Text
open DiffSlice.Patch (LineSet)

theorem not_mem_of_mem_slice {tree : SyntaxTree} {changes : ChangeSet} {line : SlicedLine}
    (h : line ∈ (slice tree changes).lines) : '\n' ∉ line.text.toList := by
  have htext : line.text ∈ (slice tree changes).texts := List.mem_map_of_mem h
  exact not_mem_of_mem_lines ((texts_sublist tree.source _ true).subset htext)

/-- The lines that are shown of a slice, blank ones aside, are its lines without the stray groups of decorators among
them; so all are shown if none starts like a decorator. -/
theorem render_shows_all_but_stray (tree : SyntaxTree) (changes : ChangeSet) (style : LineStyle) (edited : LineSet) :
    ∃ kept : List SlicedLine, kept.Sublist (slice tree changes).lines ∧
      Decorator.Stripped ((slice tree changes).lines.map (·.annotated style edited))
        (kept.map (·.annotated style edited)) ∧
      (pieces ((slice tree changes).render style edited)).filter (fun p => !isBlankText (style.sourceText p)) =
        (kept.filter fun l => !isBlankText l.text).map (·.annotated style edited) ∧
      ((∀ l ∈ (slice tree changes).lines, Decorator.startsDecorator (l.annotated style edited) = false) →
        kept = (slice tree changes).lines) := by
  obtain ⟨kept, hsub, hkept, -⟩ :=
    Decorator.exists_dropStray_map (·.annotated style edited) (slice tree changes).lines
  have hstripped := Decorator.stripped_dropStray ((slice tree changes).lines.map (·.annotated style edited))
  rw [hkept] at hstripped
  refine ⟨kept, hsub, hstripped, ?_, ?_⟩
  · exact Slice.filter_pieces_render (fun l hl => not_mem_of_mem_slice (hsub.subset hl)) hkept
  · intro hnone
    have hall : ∀ l ∈ (slice tree changes).lines.map (·.annotated style edited),
        Decorator.startsDecorator l = false := by
      intro l hl
      obtain ⟨line, hline, rfl⟩ := List.mem_map.1 hl
      exact hnone line hline
    have hlength := congrArg List.length (hstripped.eq_self hall)
    rw [List.length_map, List.length_map] at hlength
    exact hsub.eq_of_length hlength

/-! ## Lines that only look like decorators -/

namespace JavaScript.Shown

mutual

/-- The node, or one inside it, is the given phrase. -/
def hasPhrase (p : Phrase) : Shown → Bool
  | ⟨label, _, _, _, parts⟩ =>
    (match label with
      | .phrase production => production.phrase == p
      | _ => false) || anyHasPhrase p parts

/-- One of the nodes, or one inside them, is the given phrase. -/
def anyHasPhrase (p : Phrase) : List Shown → Bool
  | [] => false
  | s :: rest => s.hasPhrase p || anyHasPhrase p rest

end

end JavaScript.Shown

/-- The source is read as a tree without decorators. -/
def JavaScript.decoratorFree (source : String) : Bool :=
  (JavaScript.derive? source.toList).any fun d => !Shown.anyHasPhrase .decorator d.shownAtTop

/-- A line of a template that starts with an at sign is in the slice and is not shown. -/
theorem template_line_not_shown : ∃ tree, SyntaxTree.parse "const a = `\n@x\n`;\n" .javaScript = .ok tree ∧
    JavaScript.decoratorFree "const a = `\n@x\n`;\n" = true ∧ ⟨2, "@x"⟩ ∈ (slice tree .empty).lines ∧
      (slice tree .empty).render .plain ∅ = "const a = `\n`;" := by
  obtain ⟨hslice, hfree⟩ : ((SyntaxTree.parse "const a = `\n@x\n`;\n" .javaScript).toOption.map fun t =>
      ((slice t .empty).lines, (slice t .empty).render .plain ∅)) =
        some ([⟨1, "const a = `"⟩, ⟨2, "@x"⟩, ⟨3, "`;"⟩], "const a = `\n`;") ∧
      JavaScript.decoratorFree "const a = `\n@x\n`;\n" = true := by
    decide +kernel
  cases hparse : SyntaxTree.parse "const a = `\n@x\n`;\n" .javaScript with
  | error failure =>
    rw [hparse] at hslice
    cases hslice
  | ok tree =>
    rw [hparse] at hslice
    obtain ⟨hlines, hrender⟩ := Prod.mk.inj (Option.some.inj hslice)
    exact ⟨tree, rfl, hfree, by simp [hlines], hrender⟩

end DiffSlice
