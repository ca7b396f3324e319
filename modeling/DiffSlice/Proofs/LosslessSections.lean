import DiffSlice.Proofs.FileSections
import Mathlib.Data.List.Infix

/-!
# Sections lose nothing

Lines are cut before each line that opens a section (`cutInto_sectionLines`), so the sections of a diff, put together
again, have all its lines, and in each section only the first line may open one (`split_lossless`). A last section that
is blank is left out. In a diff that is not blank there is none (`CutInto.not_isBlankText_getLast`): a section that a
line opens is never blank, and what stands before all of these is the last section only if it is the whole diff.
-/

namespace DiffSlice.Patch

open DiffSlice.Text

/-! ## Lines of sections -/

/-- The lines are cut into the sections, none of them empty: every section but the first starts with a line that opens
one, and no further line of a section does. -/
structure CutInto (ls : List String) (sections : List (List String)) : Prop where
  flatten_eq : sections.flatten = ls
  opening : ∀ s ∈ sections.tail, s.head?.any opensSection = true
  nonempty : ∀ s ∈ sections, s ≠ []
  further : ∀ s ∈ sections, ∀ l ∈ s.tail, opensSection l = false

theorem cutInto_sectionLines (ls : List String) : CutInto ls (sectionLines ls) := by
  induction ls with
  | nil => exact ⟨rfl, by simp [sectionLines], by simp [sectionLines], by simp [sectionLines]⟩
  | cons line rest ih =>
    rw [sectionLines]
    split
    · rename_i hnone
      rw [hnone] at ih
      have hrest : rest = [] := ih.flatten_eq.symm
      exact ⟨by simp [hrest], by simp, by simp, by simp⟩
    · rename_i first others hfirst
      rw [hfirst] at ih
      obtain ⟨hflatten, hopening, hnonempty, hfurther⟩ := ih
      split
      · -- the line is a section of its own
        rename_i hopens
        refine ⟨by simp [← hflatten], ?_, ?_, ?_⟩
        · exact List.forall_mem_cons.2 ⟨hopens, hopening⟩
        · exact List.forall_mem_cons.2 ⟨by simp, hnonempty⟩
        · exact List.forall_mem_cons.2 ⟨by simp, hfurther⟩
      · -- the line goes to the first section behind it, whose own first line does not open one
        rename_i hopens
        obtain ⟨next, body, rfl⟩ := List.exists_cons_of_ne_nil (hnonempty first List.mem_cons_self)
        refine ⟨by simp [← hflatten], hopening, ?_, ?_⟩
        · exact List.forall_mem_cons.2 ⟨by simp, (List.forall_mem_cons.1 hnonempty).2⟩
        · refine List.forall_mem_cons.2 ⟨?_, (List.forall_mem_cons.1 hfurther).2⟩
          refine List.forall_mem_cons.2 ⟨by simpa using hopens, ?_⟩
          exact hfurther _ List.mem_cons_self

section

variable {ls s : List String} {sections : List (List String)}

theorem CutInto.mem {l : String} (h : CutInto ls sections) (hs : s ∈ sections) (hl : l ∈ s) : l ∈ ls := by
  rw [← h.flatten_eq]
  exact List.mem_flatten.2 ⟨s, hs, hl⟩

theorem not_isBlankText_of_opens (h : s.head?.any opensSection = true) : isBlankText (unlines s) = false := by
  obtain ⟨line, hline, hopens⟩ := (Option.any_eq_true _ _).1 h
  obtain ⟨body, rfl⟩ := List.head?_eq_some_iff.1 hline
  obtain ⟨rest, hrest⟩ := startsWith_iff.1 hopens
  have hd : isBlank 'd' = false := by decide
  have hblank : isBlankText line = false := by simp [isBlankText, ← hrest, hd]
  rw [isBlankText_unlines, List.all_cons, hblank, Bool.false_and]

/-- The last section has something in it if the lines have: a line opens it, or it has all lines. -/
theorem CutInto.not_isBlankText_getLast (h : CutInto ls sections) (hls : ls.all isBlankText = false)
    (hs : s ∈ sections.getLast?) : isBlankText (unlines s) = false := by
  obtain ⟨front, rfl⟩ := List.getLast?_eq_some_iff.1 hs
  cases front with
  | nil => rw [isBlankText_unlines, ← hls, ← h.flatten_eq, List.nil_append, List.flatten_singleton]
  | cons first front => exact not_isBlankText_of_opens (h.opening s (by simp))

/-- Blank lines are at most one section. -/
theorem CutInto.tail_eq_nil (h : CutInto ls sections) (hls : ls.all isBlankText = true) : sections.tail = [] := by
  rw [List.eq_nil_iff_forall_not_mem]
  intro s hs
  have hblank : isBlankText (unlines s) = true := by
    rw [isBlankText_unlines, List.all_eq_true]
    exact fun l hl => List.all_eq_true.1 hls l (h.mem (List.mem_of_mem_tail hs) hl)
  rw [not_isBlankText_of_opens (h.opening s hs)] at hblank
  cases hblank

end

/-! ## Sections of a diff -/

theorem FileSection.text_ofText (t : String) : (FileSection.ofText t).text = t := by
  unfold FileSection.ofText
  split
  · split <;> rfl
  · rfl

theorem isPrefix_dropBlankLast (texts : List String) : dropBlankLast texts <+: texts := by
  fun_induction dropBlankLast texts with
  | case1 => exact List.prefix_rfl
  | case2 => exact List.nil_prefix
  | case3 => exact List.prefix_rfl
  | case4 text rest _ ih => exact List.cons_prefix_cons.2 ⟨rfl, ih⟩

section Split

variable {diff : String} {f : FileSection}

theorem map_text_split (diff : String) :
    (FileSection.split diff).map FileSection.text = dropBlankLast ((sectionLines (lines diff)).map unlines) := by
  rw [FileSection.split, List.map_map]
  exact List.map_id'' FileSection.text_ofText _

/-- The sections, and those after the first `k`, have the texts of what the lines are cut into. -/
theorem exists_of_mem_split {k : Nat} (h : f ∈ (FileSection.split diff).drop k) :
    ∃ s ∈ (sectionLines (lines diff)).drop k, unlines s = f.text := by
  have hfront : ((FileSection.split diff).map FileSection.text).drop k <+:
      ((sectionLines (lines diff)).map unlines).drop k := by
    rw [map_text_split]
    exact (isPrefix_dropBlankLast _).drop k
  rw [← List.map_drop, ← List.map_drop] at hfront
  exact List.mem_map.1 (hfront.subset (List.mem_map_of_mem h))

/-- The sections of a diff that is not blank have all its lines. -/
theorem join_split (h : isBlankText diff = false) :
    String.join ((FileSection.split diff).map FileSection.text) = unlines (lines diff) := by
  have hcut := cutInto_sectionLines (lines diff)
  have hall : dropBlankLast ((sectionLines (lines diff)).map unlines) = (sectionLines (lines diff)).map unlines := by
    refine dropBlankLast_eq_self fun t ht => ?_
    rw [List.getLast?_map] at ht
    obtain ⟨s, hs, rfl⟩ := Option.map_eq_some_iff.1 ht
    exact hcut.not_isBlankText_getLast (by rw [all_isBlankText_lines, h]) hs
  rw [map_text_split, hall, join_map_eq_unlines fun _ _ => rfl, List.flatMap_id', hcut.flatten_eq]

/-- A blank diff has no section. -/
theorem split_eq_nil (h : isBlankText diff = true) : FileSection.split diff = [] := by
  have hcut := cutInto_sectionLines (lines diff)
  have hls : (lines diff).all isBlankText = true := by rw [all_isBlankText_lines, h]
  have hnone : dropBlankLast ((sectionLines (lines diff)).map unlines) = [] := by
    have htail := hcut.tail_eq_nil hls
    cases hsections : sectionLines (lines diff) with
    | nil => rfl
    | cons first others =>
      rw [hsections] at hcut htail
      obtain rfl : others = [] := htail
      have hfirst : first = lines diff := by simpa using hcut.flatten_eq
      rw [List.map_singleton, dropBlankLast, if_pos (by rw [hfirst, isBlankText_unlines, hls])]
  rw [FileSection.split, hnone, List.map_nil]

/-- Every section but the first starts with the line that opens it. -/
theorem startsWith_of_mem_tail (h : f ∈ (FileSection.split diff).tail) : startsWith "diff --git " f.text = true := by
  rw [← List.drop_one] at h
  obtain ⟨s, hs, htext⟩ := exists_of_mem_split h
  rw [List.drop_one] at hs
  obtain ⟨line, hline, hopens⟩ := (Option.any_eq_true _ _).1 ((cutInto_sectionLines (lines diff)).opening s hs)
  obtain ⟨body, rfl⟩ := List.head?_eq_some_iff.1 hline
  rw [← htext, startsWith_iff]
  refine (startsWith_iff.1 hopens).trans ?_
  simp [unlines]

/-- No line of a section but its first opens one, also not once it has lost a carriage return. -/
theorem not_startsWith_of_mem_split (h : f ∈ FileSection.split diff) :
    ∀ l ∈ (lines f.text).tail, startsWith "diff --git " l = false := by
  have hcut := cutInto_sectionLines (lines diff)
  obtain ⟨s, hs, htext⟩ := exists_of_mem_split (k := 0) h
  have hnewline : ∀ l ∈ s, '\n' ∉ l.toList := fun l hl => not_mem_of_mem_lines (hcut.mem hs hl)
  intro l hl
  rw [← htext, lines_unlines hnewline, ← List.map_tail] at hl
  obtain ⟨m, hm, rfl⟩ := List.mem_map.1 hl
  have hno : opensSection m = false := hcut.further s hs m hm
  rw [Bool.eq_false_iff] at hno ⊢
  exact fun hopens => hno (startsWith_iff.2 ((startsWith_iff.1 hopens).trans (toList_dropReturn_isPrefix m)))

end Split

/-- Cutting a diff loses nothing and repeats nothing. If anything in it is not blank, its sections together are its
lines, each with one newline; else it has no section. Every section but the first starts with a line that opens one, and
no other line of a section does. -/
theorem split_lossless (diff : String) :
    ((∃ c ∈ diff.toList, isBlank c = false) →
      String.join ((FileSection.split diff).map FileSection.text) = unlines (lines diff)) ∧
    (∀ f ∈ (FileSection.split diff).tail, startsWith "diff --git " f.text = true) ∧
    (∀ f ∈ FileSection.split diff, ∀ l ∈ (lines f.text).tail, startsWith "diff --git " l = false) ∧
    ((∀ c ∈ diff.toList, isBlank c = true) → FileSection.split diff = []) := by
  refine ⟨?_, fun f => startsWith_of_mem_tail, fun f => not_startsWith_of_mem_split, ?_⟩
  · rintro ⟨c, hc, hblank⟩
    refine join_split (Bool.eq_false_iff.2 fun hall => ?_)
    rw [List.all_eq_true.1 hall c hc] at hblank
    cases hblank
  · exact fun hblank => split_eq_nil (List.all_eq_true.2 hblank)

/-- A blank line before two lines that open sections, one with two carriage returns, and no newline at the end. -/
theorem split_lossless_preamble :
    String.join ((FileSection.split "\ndiff --git a\r\r\ndiff --git b").map FileSection.text) =
      "\ndiff --git a\r\ndiff --git b\n" := by
  rw [(split_lossless _).1 ⟨'d', by decide, by decide⟩]
  decide

end DiffSlice.Patch
