import DiffSlice.Proofs.DiffText
import DiffSlice.Proofs.RunReplacement
import DiffSlice.Proofs.StrayDecorators
import DiffSlice.Slice.Render
import Mathlib.Data.List.DropRight

/-!
# The lines that are shown

What is shown of a slice is what is left of its lines without stray decorators, less some empty ones
(`Slice.exists_shown`). Decorators are told by how a line starts after its margin and by its parentheses, and lines in
which these are the same are kept or dropped alike (`Decorator.Alike`, `Decorator.exists_dropStray_map`). A margin hides
neither, unless the line itself starts like one (`SlicedLine.alike_annotated`). So the styles show the same code
(`styles_show_same_code`).
-/

namespace DiffSlice

open DiffSlice.Text
open DiffSlice.Patch (LineSet)

namespace Decorator

/-! ## Lines that look alike -/

/-- The lines start alike after their margins and have the same parentheses. -/
structure Alike (a b : String) : Prop where
  start : afterMargin a = afterMargin b
  parens : parenBalance a = parenBalance b

namespace Alike

variable {a b : String} (h : Alike a b)

include h

/-- Of two lines that are alike, both start a decorator or neither does. -/
theorem startsDecorator_eq : startsDecorator a = startsDecorator b := by
  rw [startsDecorator, startsDecorator, h.start]

theorem carriesMember_eq : carriesMember a = carriesMember b := by
  rw [carriesMember, carriesMember, h.start]

/-- Of two lines that are alike, both start a declaration or a field, or neither does. -/
theorem startsMember_eq : (startsDeclaration a || startsField a) = (startsDeclaration b || startsField b) := by
  simp only [startsDeclaration, startsField, h.start]

end Alike

section Map

variable {α : Type} {f : α → String} {xs : List α}

/-- A decorator takes as many lines as one that looks like it. -/
theorem exists_decoratorLines_map (depth : Int) (f : α → String) (xs : List α) : ∃ first rest, first ++ rest = xs ∧
    ∀ g : α → String, (∀ x ∈ xs, Alike (f x) (g x)) →
      decoratorLines depth (xs.map g) = (first.map g, rest.map g) := by
  induction xs generalizing depth with
  | nil => exact ⟨[], [], rfl, fun g _ => rfl⟩
  | cons x xs ih =>
    by_cases hend : depth + parenBalance (f x) = 0
    · refine ⟨[x], xs, rfl, fun g hg => ?_⟩
      rw [(hg x List.mem_cons_self).parens] at hend
      simp [decoratorLines, hend]
    · obtain ⟨first, rest, rfl, hmap⟩ := ih (depth + parenBalance (f x))
      refine ⟨x :: first, rest, rfl, fun g hg => ?_⟩
      have hlater := hmap g fun y hy => hg y (List.mem_cons_of_mem _ hy)
      rw [(hg x List.mem_cons_self).parens] at hend hlater
      simp only [List.map_cons, decoratorLines, if_neg hend, hlater]

/-- Whether a group belongs to something does not depend on how its lines are shown. -/
theorem belongs_map {g : α → String} {group after : List α} (hg : ∀ x ∈ group ++ after, Alike (f x) (g x)) :
    belongs (group.map g) (after.map g).head? = belongs (group.map f) (after.map f).head? := by
  have hlast : (group.map g).getLast?.any carriesMember = (group.map f).getLast?.any carriesMember := by
    rw [List.getLast?_map, List.getLast?_map]
    cases hx : group.getLast? with
    | none => rfl
    | some x => exact (hg x (List.mem_append_left _ (List.mem_of_getLast? hx))).carriesMember_eq.symm
  have hnext : ((after.map g).head?.any fun l => startsDeclaration l || startsField l) =
      (after.map f).head?.any fun l => startsDeclaration l || startsField l := by
    rw [List.head?_map, List.head?_map]
    cases hx : after.head? with
    | none => rfl
    | some x => exact (hg x (List.mem_append_right _ (List.mem_of_head? hx))).startsMember_eq.symm
  rw [belongs, belongs, hlast, hnext]

/-- Lines that look alike are in the same groups. -/
theorem Grouped.exists_map {group after : List String} (h : Grouped (xs.map f) group after) :
    ∃ members later, members ++ later = xs ∧ group = members.map f ∧ after = later.map f ∧
      ∀ g : α → String, (∀ x ∈ xs, Alike (f x) (g x)) → Grouped (xs.map g) (members.map g) (later.map g) := by
  generalize hls : xs.map f = ls at h
  induction h generalizing xs with
  | stop noDecorator =>
    refine ⟨[], xs, rfl, rfl, hls.symm, fun g hg => .stop ?_⟩
    cases xs with
    | nil => simp
    | cons x xs =>
      have hx := noDecorator (f x) (by rw [← hls]; rfl)
      rw [(hg x List.mem_cons_self).startsDecorator_eq] at hx
      simpa using hx
  | @decorator line rest more after start later ih =>
    cases xs with
    | nil => cases hls
    | cons x xs =>
      obtain ⟨first, second, hsplit, hmap⟩ := exists_decoratorLines_map 0 f (x :: xs)
      have hself := hmap f fun y _ => ⟨rfl, rfl⟩
      rw [hls] at hself
      obtain ⟨members, last, rfl, rfl, rfl, hgrouped⟩ := @ih second (by rw [hself])
      refine ⟨first ++ members, last, by rw [List.append_assoc, hsplit], by rw [List.map_append, hself], rfl, ?_⟩
      intro g hg
      have hstart : startsDecorator (g x) = true := by
        obtain ⟨rfl, -⟩ := List.cons.inj hls
        rw [← (hg x List.mem_cons_self).startsDecorator_eq]
        exact start
      have hlater : Grouped ((members ++ last).map g) (members.map g) (last.map g) := by
        apply hgrouped
        intro y hy
        apply hg
        rw [← hsplit]
        exact List.mem_append_right _ hy
      have hfirst := hmap g hg
      rw [List.map_cons] at hfirst ⊢
      have hgroup := @Grouped.decorator (g x) (xs.map g) (members.map g) (last.map g) hstart
      rw [hfirst] at hgroup
      rw [List.map_append]
      exact hgroup hlater

/-- Lines that look alike are stripped alike. -/
theorem Stripped.exists_map {kept : List String} (h : Stripped (xs.map f) kept) :
    ∃ ys : List α, ys.Sublist xs ∧ kept = ys.map f ∧
      ∀ g : α → String, (∀ x ∈ xs, Alike (f x) (g x)) → Stripped (xs.map g) (ys.map g) := by
  generalize hls : xs.map f = ls at h
  induction h generalizing xs with
  | nil =>
    obtain rfl := List.map_eq_nil_iff.1 hls
    exact ⟨[], .slnil, rfl, fun g _ => .nil⟩
  | line noDecorator _ ih =>
    cases xs with
    | nil => cases hls
    | cons x xs =>
      obtain ⟨rfl, hrest⟩ := List.cons.inj hls
      obtain ⟨ys, hsub, rfl, hys⟩ := ih hrest
      refine ⟨x :: ys, hsub.cons_cons x, rfl, fun g hg => .line ?_ (hys g fun y hy => hg y (List.mem_cons_of_mem _ hy))⟩
      rw [← (hg x List.mem_cons_self).startsDecorator_eq]
      exact noDecorator
  | attached grouped some attached _ ih =>
    subst hls
    obtain ⟨members, later, rfl, rfl, rfl, hgrouped⟩ := grouped.exists_map
    obtain ⟨ys, hsub, rfl, hys⟩ := ih rfl
    refine ⟨members ++ ys, hsub.append_left _, by rw [List.map_append], fun g hg => ?_⟩
    rw [← belongs_map hg] at attached
    have hstripped := Stripped.attached (hgrouped g hg) (by simpa using some) attached
      (hys g fun y hy => hg y (List.mem_append_right _ hy))
    rw [← List.map_append] at hstripped
    exact hstripped
  | stray grouped some stray _ ih =>
    subst hls
    obtain ⟨members, later, rfl, rfl, rfl, hgrouped⟩ := grouped.exists_map
    obtain ⟨ys, hsub, rfl, hys⟩ := ih rfl
    refine ⟨ys, hsub.trans (List.sublist_append_right _ _), rfl, fun g hg => ?_⟩
    rw [← belongs_map hg] at stray
    exact .stray (hgrouped g hg) (by simpa using some) stray (hys g fun y hy => hg y (List.mem_append_right _ hy))

/-- Lines that look alike are dropped alike. -/
theorem exists_dropStray_map (f : α → String) (xs : List α) : ∃ kept : List α, kept.Sublist xs ∧
    dropStray (xs.map f) = kept.map f ∧
      ∀ g : α → String, (∀ x ∈ xs, Alike (f x) (g x)) → dropStray (xs.map g) = kept.map g := by
  obtain ⟨kept, hsub, hkept, hmap⟩ := (stripped_dropStray (xs.map f)).exists_map
  exact ⟨kept, hsub, hkept, fun g hg => (hmap g hg).dropStray_eq⟩

end Map

/-! ## Margins -/

theorem afterMargin_of_plus {line : String} {rest : List Char} (h : line.toList = '+' :: rest) :
    afterMargin line = ((rest.dropWhile isBlank).dropWhile isDigit).dropWhile isBlank := by
  unfold afterMargin
  rw [h]
  rfl

theorem afterMargin_of_ne_plus {line : String} (h : ∀ rest, line.toList ≠ '+' :: rest) :
    afterMargin line = ((line.toList.dropWhile isBlank).dropWhile isDigit).dropWhile isBlank := by
  unfold afterMargin
  split
  · exact absurd ‹_› (h _)
  · rfl

/-- The first character that is not blank is neither a plus nor a digit. -/
def startsPlain (text : String) : Bool :=
  (text.toList.dropWhile isBlank).head?.all fun c => c != '+' && !isDigit c

section Plain

variable {text : String} (h : startsPlain text = true)

include h

theorem ne_plus_of_startsPlain (rest : List Char) : text.toList ≠ '+' :: rest := by
  intro hrest
  have hblank : isBlank '+' = false := by decide
  unfold startsPlain at h
  rw [hrest, List.dropWhile_cons_of_neg (by simp [hblank])] at h
  simp at h

/-- Such a text has nothing but blanks before what it starts with. -/
theorem dropWhile_of_startsPlain : ((text.toList.dropWhile isBlank).dropWhile isDigit).dropWhile isBlank =
    text.toList.dropWhile isBlank := by
  have hdigit : (text.toList.dropWhile isBlank).dropWhile isDigit = text.toList.dropWhile isBlank := by
    unfold startsPlain at h
    cases hs : text.toList.dropWhile isBlank with
    | nil => rfl
    | cons c cs =>
      rw [hs, List.head?_cons, Option.all_some, Bool.and_eq_true, Bool.not_eq_true'] at h
      rw [List.dropWhile_cons_of_neg (by simp [h.2])]
  rw [hdigit, List.dropWhile_idempotent]

end Plain

end Decorator

namespace SlicedLine

open Decorator

variable (line : SlicedLine) (edited : LineSet)

/-- A numbered line is its number, a blank and the text. -/
theorem toList_numbered :
    (line.annotated .lineNumbers edited).toList = Nat.toDigits 10 line.number ++ ' ' :: line.text.toList := by
  simp [annotated, toString]

/-- A marked line is a plus or a blank, and the text. -/
theorem toList_marked : (line.annotated .editMarkers edited).toList =
    (if edited.contains line.number then '+' else ' ') :: line.text.toList := by
  by_cases hmark : edited.contains line.number = true
  · simp [annotated, hmark]
  · simp [annotated, hmark]

theorem isDigit_of_mem_toDigits {n : Nat} {c : Char} (h : c ∈ Nat.toDigits 10 n) : isDigit c = true := by
  rw [isDigit, Patch.isAsciiDigit_of_mem_toDigits h, Bool.true_or]

theorem isBlank_of_mem_toDigits {n : Nat} {c : Char} (h : c ∈ Nat.toDigits 10 n) : isBlank c = false := by
  have hdigit := Char.isDigit_iff_toNat.1 (Nat.isDigit_of_mem_toDigits (by decide) (by decide) h)
  have hlow : 48 ≤ c.toNat := hdigit.1
  have hhigh : c.toNat ≤ 57 := hdigit.2
  simp [isBlank, blanks, Ranges.has]
  omega

/-- A line number and its blank are a margin, whatever the line is. -/
theorem afterMargin_numbered :
    afterMargin (line.annotated .lineNumbers edited) = line.text.toList.dropWhile isBlank := by
  have hspace : isDigit ' ' = false ∧ isBlank ' ' = true := by decide
  have hdigits : ∀ c ∈ Nat.toDigits 10 line.number, isDigit c = true := fun c hc => isDigit_of_mem_toDigits hc
  obtain ⟨c, cs, hn⟩ := List.exists_cons_of_ne_nil (@Nat.toDigits_ne_nil line.number 10)
  have hc : c ∈ Nat.toDigits 10 line.number := by simp [hn]
  have hplus : ∀ rest, (line.annotated .lineNumbers edited).toList ≠ '+' :: rest := by
    intro rest hrest
    rw [toList_numbered, hn] at hrest
    obtain ⟨rfl, -⟩ := List.cons.inj hrest
    exact absurd (isDigit_of_mem_toDigits hc) (by decide)
  have hstart : (Nat.toDigits 10 line.number ++ ' ' :: line.text.toList).dropWhile isBlank =
      Nat.toDigits 10 line.number ++ ' ' :: line.text.toList := by
    rw [hn, List.cons_append, List.dropWhile_cons_of_neg (by simp [isBlank_of_mem_toDigits hc])]
  rw [afterMargin_of_ne_plus hplus, toList_numbered, hstart, List.dropWhile_append_of_pos hdigits,
    List.dropWhile_cons_of_neg (by simp [hspace.1]), List.dropWhile_cons_of_pos hspace.2]

/-- An annotation has no parentheses in it. -/
theorem parenBalance_annotated (style : LineStyle) :
    parenBalance (line.annotated style edited) = parenBalance line.text := by
  cases style with
  | lineNumbers =>
    have hnone : ∀ c, isAsciiDigit c = false → (Nat.toDigits 10 line.number).count c = 0 := by
      intro c hc
      rw [List.count_eq_zero]
      intro hmem
      rw [Patch.isAsciiDigit_of_mem_toDigits hmem] at hc
      cases hc
    simp [parenBalance, toList_numbered, hnone '(' (by decide), hnone ')' (by decide)]
  | editMarkers =>
    simp only [parenBalance, toList_marked]
    split <;> simp
  | plain => rfl

/-- An annotation does not hide how a line starts, unless the line starts like one. -/
theorem alike_annotated (style : LineStyle) (h : startsPlain line.text = true) :
    Alike line.text (line.annotated style edited) where
  parens := (line.parenBalance_annotated edited style).symm
  start := by
    rw [afterMargin_of_ne_plus (ne_plus_of_startsPlain h), dropWhile_of_startsPlain h]
    cases style with
    | lineNumbers => exact (line.afterMargin_numbered edited).symm
    | editMarkers =>
      have hmark := line.toList_marked edited
      by_cases hedited : edited.contains line.number = true
      · rw [if_pos hedited] at hmark
        rw [afterMargin_of_plus hmark, dropWhile_of_startsPlain h]
      · have hspace : isBlank ' ' = true := by decide
        rw [if_neg hedited] at hmark
        rw [afterMargin_of_ne_plus (by simp [hmark]), hmark, List.dropWhile_cons_of_pos hspace,
          dropWhile_of_startsPlain h]
    | plain =>
      show _ = afterMargin line.text
      rw [afterMargin_of_ne_plus (ne_plus_of_startsPlain h), dropWhile_of_startsPlain h]

end SlicedLine

/-! ## Shown lines -/

/-- The text of a line that is shown. -/
def LineStyle.sourceText (style : LineStyle) (shown : String) : String :=
  match style with
  | .lineNumbers => String.ofList ((shown.toList.dropWhile isAsciiDigit).drop 1)
  | .editMarkers => String.ofList (shown.toList.drop 1)
  | .plain => shown

namespace SlicedLine

variable (line : SlicedLine) (style : LineStyle) (edited : LineSet)

/-- The text of a line can be told from the line as it is shown. -/
theorem sourceText_annotated : style.sourceText (line.annotated style edited) = line.text := by
  cases style with
  | lineNumbers =>
    have hdigits : ∀ c ∈ Nat.toDigits 10 line.number, isAsciiDigit c = true :=
      fun c hc => Patch.isAsciiDigit_of_mem_toDigits hc
    have hspace : isAsciiDigit ' ' = false := by decide
    rw [LineStyle.sourceText, toList_numbered, List.dropWhile_append_of_pos hdigits,
      List.dropWhile_cons_of_neg (by simp [hspace]), List.drop_one, List.tail_cons, String.ofList_toList]
  | editMarkers =>
    rw [LineStyle.sourceText, toList_marked, List.drop_one, List.tail_cons, String.ofList_toList]
  | plain => rfl

variable {line style edited}

theorem not_mem_annotated (h : '\n' ∉ line.text.toList) : '\n' ∉ (line.annotated style edited).toList := by
  cases style with
  | lineNumbers =>
    rw [toList_numbered, List.mem_append, List.mem_cons]
    rintro (hmem | hmem | hmem)
    · exact absurd (Patch.isAsciiDigit_of_mem_toDigits hmem) (by decide)
    · exact absurd hmem (by decide)
    · exact h hmem
  | editMarkers =>
    rw [toList_marked, List.mem_cons]
    rintro (hmem | hmem)
    · split at hmem <;> exact absurd hmem (by decide)
    · exact h hmem
  | plain => exact h

/-- Only empty lines are shown as blank ones of a style. -/
theorem text_of_isBlankLine (h : style.isBlankLine (line.annotated style edited) = true) : line.text = "" := by
  rw [← String.toList_eq_nil_iff]
  cases style with
  | lineNumbers =>
    have hdigits : ∀ c ∈ Nat.toDigits 10 line.number, isDigit c = true := fun c hc => isDigit_of_mem_toDigits hc
    have hspace : isDigit ' ' = false := by decide
    have hnumber : (line.annotated .lineNumbers edited).toList.takeWhile isDigit = Nat.toDigits 10 line.number := by
      rw [toList_numbered, List.takeWhile_append_of_pos hdigits, List.takeWhile_cons_of_neg (by simp [hspace]),
        List.append_nil]
    simp only [LineStyle.isBlankLine, isNumberedBlank, hnumber, Bool.and_eq_true, beq_iff_eq] at h
    have hrest := h.2
    rw [toList_numbered, List.drop_left] at hrest
    exact (List.cons.inj hrest).2
  | editMarkers =>
    have hline : line.annotated .editMarkers edited = " " := eq_of_beq h
    have hchars := congrArg String.toList hline
    rw [toList_marked] at hchars
    exact (List.cons.inj hchars).2
  | plain =>
    have hline : line.text = "" := eq_of_beq h
    rw [hline]
    rfl

end SlicedLine

namespace Slice

variable {s : Slice} {style : LineStyle} {edited : LineSet} {kept : List SlicedLine}

/-- What is shown are the lines that are left without stray decorators, less some empty ones. -/
theorem exists_shown (hlines : ∀ l ∈ kept, '\n' ∉ l.text.toList)
    (hkept : Decorator.dropStray (s.lines.map (·.annotated style edited)) = kept.map (·.annotated style edited)) :
    ∃ shown, Omits (fun l : SlicedLine => l.text == "") kept shown ∧
      s.render style edited = joinLines (shown.map (·.annotated style edited)) := by
  rw [render, collapseBlankRuns_eq, hkept]
  by_cases hnone : kept = []
  · subst hnone
    refine ⟨[], .nil, ?_⟩
    cases style <;> rfl
  · have hpieces : pieces (joinLines (kept.map (·.annotated style edited))) = kept.map (·.annotated style edited) := by
      refine pieces_joinLines (by simpa using hnone) ?_
      intro l hl
      obtain ⟨line, hline, rfl⟩ := List.mem_map.1 hl
      exact SlicedLine.not_mem_annotated (hlines line hline)
    obtain ⟨shown, hshown, homits⟩ := (omits_collapsedPieces style (kept.map (·.annotated style edited))).exists_map
    refine ⟨shown, homits.mono fun line hline => ?_, ?_⟩
    · rw [beq_iff_eq]
      exact SlicedLine.text_of_isBlankLine hline
    · rw [hpieces, hshown]

/-- The lines of the shown text whose source is not blank are those that are left without stray decorators. -/
theorem filter_pieces_render (hlines : ∀ l ∈ kept, '\n' ∉ l.text.toList)
    (hkept : Decorator.dropStray (s.lines.map (·.annotated style edited)) = kept.map (·.annotated style edited)) :
    (pieces (s.render style edited)).filter (fun p => !isBlankText (style.sourceText p)) =
      (kept.filter fun l => !isBlankText l.text).map (·.annotated style edited) := by
  obtain ⟨shown, homits, hrender⟩ := exists_shown hlines hkept
  have hfilter : shown.filter (fun l => !isBlankText l.text) = kept.filter fun l => !isBlankText l.text := by
    apply homits.filter_eq
    intro line hline
    rw [eq_of_beq hline]
    rfl
  rw [hrender, ← hfilter]
  by_cases hnone : shown = []
  · subst hnone
    cases style <;> rfl
  · rw [pieces_joinLines (by simpa using hnone), List.filter_map]
    · congr 1
      apply List.filter_congr
      intro line _
      simp [SlicedLine.sourceText_annotated]
    · intro l hl
      obtain ⟨line, hline, rfl⟩ := List.mem_map.1 hl
      exact SlicedLine.not_mem_annotated (hlines line (homits.sublist.subset hline))

end Slice

/-- If no line starts like a margin, then whatever the style and whatever lines are edited, the lines of the shown text
whose source is not blank are those of one and the same list, annotated in that style. The list is what is left of the
plain lines without stray decorators. -/
theorem styles_show_same_code (s : Slice) (hlines : ∀ l ∈ s.lines, '\n' ∉ l.text.toList)
    (hstart : ∀ l ∈ s.lines, Decorator.startsPlain l.text = true) :
    ∃ kept : List SlicedLine, kept.Sublist s.lines ∧
      kept.map SlicedLine.text = Decorator.dropStray (s.lines.map SlicedLine.text) ∧
      ∀ (style : LineStyle) (edited : LineSet),
        (pieces (s.render style edited)).filter (fun p => !isBlankText (style.sourceText p)) =
          (kept.filter fun l => !isBlankText l.text).map (·.annotated style edited) := by
  obtain ⟨kept, hsub, hplain, hkept⟩ := Decorator.exists_dropStray_map SlicedLine.text s.lines
  refine ⟨kept, hsub, hplain.symm, fun style edited => ?_⟩
  apply Slice.filter_pieces_render fun l hl => hlines l (hsub.subset hl)
  exact hkept _ fun l hl => l.alike_annotated edited style (hstart l hl)

/-- Two variables are left around a decorator that belongs to nothing and a blank line. -/
theorem styles_show_same_variables : ∃ kept : List SlicedLine,
    kept.Sublist [⟨1, "let a;"⟩, ⟨3, " @x("⟩, ⟨4, "  y)"⟩, ⟨6, "\t"⟩, ⟨9, "let b;"⟩] ∧
      kept.map SlicedLine.text = ["let a;", "\t", "let b;"] ∧
      ∀ (style : LineStyle) (edited : LineSet),
        (pieces (Slice.render ⟨[⟨1, "let a;"⟩, ⟨3, " @x("⟩, ⟨4, "  y)"⟩, ⟨6, "\t"⟩, ⟨9, "let b;"⟩]⟩ style edited)).filter
            (fun p => !isBlankText (style.sourceText p)) =
          (kept.filter fun l => !isBlankText l.text).map (·.annotated style edited) :=
  styles_show_same_code ⟨[⟨1, "let a;"⟩, ⟨3, " @x("⟩, ⟨4, "  y)"⟩, ⟨6, "\t"⟩, ⟨9, "let b;"⟩]⟩ (by decide) (by decide)

end DiffSlice
