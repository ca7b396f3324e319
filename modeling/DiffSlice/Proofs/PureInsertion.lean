import DiffSlice.Insertion.Splice
import DiffSlice.Proofs.HunkApplication
import DiffSlice.Proofs.TextLines
import Mathlib.Data.String.Basic

/-!
# A fragment is only inserted

A text is cut into lines, which loses their endings, and the lines are joined again around the fragment. Where all
lines end alike (`LinesEndIn`) and the last of them ends too, nothing is lost: the lines, each with that ending, are
the text (`closed_lines`). So the text with a fragment in it is the text up to a line, the fragment, and the rest of
the text, byte for byte (`splice_inserts`).
-/

namespace DiffSlice

open DiffSlice.Text
open DiffSlice.Patch (bind_eq_ok_iff)

/-! ## Lines that end alike -/

/-- Every line that ends does so in `nl`: a newline, never after a carriage return, or one that always is. -/
def LinesEndIn (nl source : String) : Prop :=
  (nl = "\n" ∧ ¬ ['\r', '\n'] <:+: source.toList) ∨
  (nl = "\r\n" ∧ ∀ front rest, source.toList = front ++ '\n' :: rest → front.getLast? = some '\r')

/-- The lines, each with the ending. -/
def closed (nl : String) (ls : List String) : String :=
  String.join (ls.map (· ++ nl))

@[simp] theorem closed_nil (nl : String) : closed nl [] = "" := rfl

@[simp] theorem closed_cons (nl l : String) (ls : List String) : closed nl (l :: ls) = l ++ nl ++ closed nl ls := by
  simp [closed]

@[simp] theorem closed_append (nl : String) (ls ms : List String) :
    closed nl (ls ++ ms) = closed nl ls ++ closed nl ms := by
  simp [closed]

theorem intercalate_append_ending (nl : String) {ls : List String} (h : ls ≠ []) :
    nl.intercalate ls ++ nl = closed nl ls := by
  induction ls with
  | nil => exact absurd rfl h
  | cons l ls ih =>
    by_cases hls : ls = []
    · subst hls
      simp
    · rw [String.intercalate_cons_of_ne_nil hls, String.append_assoc, ih hls, closed_cons]

theorem hasPart_iff {part s : List Char} : hasPart part s = true ↔ part <:+: s := by
  induction s with
  | nil => simp [hasPart]
  | cons c s ih => rw [hasPart, Bool.or_eq_true, ih, List.isPrefixOf_iff_prefix, List.infix_cons_iff]

namespace LinesEndIn

variable {nl : String} {x rest : List Char}

/-- A line without its ending, and the ending. -/
theorem dropReturn_append (h : LinesEndIn nl (String.ofList (x ++ '\n' :: rest))) :
    dropReturn (String.ofList x) ++ nl = String.ofList (x ++ ['\n']) := by
  rw [LinesEndIn, String.toList_ofList] at h
  rcases h with ⟨rfl, hpart⟩ | ⟨rfl, hreturn⟩
  · have hx : x.getLast? ≠ some '\r' := by
      intro hx
      obtain ⟨y, rfl⟩ := List.getLast?_eq_some_iff.1 hx
      exact hpart ⟨y, rest, by simp⟩
    rw [dropReturn_eq_self_iff.2 hx, ← String.toList_inj]
    simp
  · obtain ⟨y, rfl⟩ := List.getLast?_eq_some_iff.1 (hreturn x rest rfl)
    rw [← String.toList_inj]
    simp [dropReturn]

/-- The lines that follow end like the first. -/
theorem tail (h : LinesEndIn nl (String.ofList (x ++ '\n' :: rest))) : LinesEndIn nl (String.ofList rest) := by
  rw [LinesEndIn, String.toList_ofList] at h ⊢
  rcases h with ⟨hnl, hpart⟩ | ⟨hnl, hreturn⟩
  · refine .inl ⟨hnl, fun hinside => hpart (hinside.trans ?_)⟩
    exact (List.suffix_cons '\n' rest).isInfix.trans (List.suffix_append x _).isInfix
  · refine .inr ⟨hnl, fun front more hrest => ?_⟩
    have hlast : (x ++ '\n' :: front).getLast? = some '\r' :=
      hreturn (x ++ '\n' :: front) more (by rw [hrest]; simp)
    cases hfront : front.getLast? with
    | none =>
      -- the newline before an empty line is no carriage return
      rw [List.getLast?_eq_none_iff.1 hfront] at hlast
      simp at hlast
    | some c =>
      rw [List.getLast?_append, List.getLast?_cons, hfront] at hlast
      simpa using hlast

/-- The ending is the one that is chosen for the text. -/
theorem lineEnding_eq {source : String} (h : LinesEndIn nl source) (hend : endsLine source = true) :
    lineEnding source = nl := by
  rw [lineEnding]
  rcases h with ⟨rfl, hpart⟩ | ⟨rfl, hreturn⟩
  · rw [if_neg fun hp => hpart (hasPart_iff.1 hp)]
  · rw [endsLine, beq_iff_eq] at hend
    obtain ⟨front, hfront⟩ := List.getLast?_eq_some_iff.1 hend
    obtain ⟨y, rfl⟩ := List.getLast?_eq_some_iff.1 (hreturn front [] hfront)
    rw [if_pos (hasPart_iff.2 ⟨y, [], by rw [hfront]; simp⟩)]

end LinesEndIn

/-- Induction over the lines of a text that all end in `nl`. -/
theorem closed_induction {nl : String} {P : List Char → Prop} (empty : P [])
    (more : ∀ x rest, '\n' ∉ x → dropReturn (String.ofList x) ++ nl = String.ofList (x ++ ['\n']) → P rest →
      P (x ++ '\n' :: rest))
    {source : String} (h : LinesEndIn nl source) (hend : endsLine source = true) : P source.toList := by
  suffices ∀ s : List Char, (s = [] ∨ endsLine (String.ofList s) = true) → LinesEndIn nl (String.ofList s) → P s from
    this source.toList (.inr (by simpa using hend)) (by simpa using h)
  refine line_induction ?_ ?_
  · intro x hn hx _
    rcases hx with rfl | hx
    · exact empty
    · rw [endsLine_ofList_of_not_mem hn] at hx
      cases hx
  · intro x rest hn ih hx hnl
    refine more x rest hn hnl.dropReturn_append (ih ?_ hnl.tail)
    by_cases hrest : rest = []
    · exact .inl hrest
    · rw [endsLine_ofList_newline x hrest] at hx
      exact .inr (hx.resolve_left (by simp))

/-! ## Places between lines -/

/-- The number of bytes before line `n`, where lines count from zero. -/
def lineOffset : Nat → List Char → Nat
  | 0, _ => 0
  | _ + 1, [] => 0
  | n + 1, c :: cs => c.utf8Size + lineOffset (if c = '\n' then n else n + 1) cs

theorem lineOffset_newline {x : List Char} (hn : '\n' ∉ x) (n : Nat) (rest : List Char) :
    lineOffset (n + 1) (x ++ '\n' :: rest) = (String.ofList (x ++ ['\n'])).utf8ByteSize + lineOffset n rest := by
  induction x with
  | nil =>
    rw [List.nil_append, List.nil_append, lineOffset, if_pos rfl, String.utf8ByteSize_ofList]
    rfl
  | cons c x ih =>
    rw [List.mem_cons, not_or] at hn
    rw [List.cons_append, lineOffset, if_neg (Ne.symm hn.1), ih hn.2]
    simp only [String.utf8ByteSize_ofList, List.cons_append, String.utf8Len]
    omega

section Closed

variable {nl source : String} (h : LinesEndIn nl source) (hend : endsLine source = true)
include h hend

/-- The lines with their endings are the text. -/
theorem closed_lines : closed nl (lines source) = source := by
  suffices closed nl (lines (String.ofList source.toList)) = String.ofList source.toList by
    simpa using this
  refine closed_induction (P := fun s => closed nl (lines (String.ofList s)) = String.ofList s) rfl ?_ h hend
  intro x rest hn hline ih
  rw [lines_more hn, closed_cons, hline, ih, ← String.ofList_append]
  simp

/-- The first lines with their endings are the bytes before the line after them. -/
theorem utf8ByteSize_closed_take (n : Nat) :
    (closed nl ((lines source).take n)).utf8ByteSize = lineOffset n source.toList := by
  suffices ∀ n, (closed nl ((lines (String.ofList source.toList)).take n)).utf8ByteSize =
      lineOffset n source.toList by
    simpa using this n
  refine closed_induction
    (P := fun s => ∀ n, (closed nl ((lines (String.ofList s)).take n)).utf8ByteSize = lineOffset n s) ?_ ?_ h hend
  · intro n
    cases n <;> simp [lineOffset]
  · intro x rest hn hline ih n
    cases n with
    | zero => simp [lineOffset]
    | succ n => rw [lines_more hn, List.take_succ_cons, closed_cons, hline, String.utf8ByteSize_append, ih,
        lineOffset_newline hn]

end Closed

/-! ## The text with the fragment -/

/-- The new text is the old one with `part` put in after `offset` bytes. -/
def InsertedAt (offset : Nat) (part old new : String) : Prop :=
  ∃ before after, old = before ++ after ∧ before.utf8ByteSize = offset ∧ new = before ++ part ++ after

/-- What goes into a text for a fragment: an empty line, and the lines of the fragment without their own indentation
and with the given one. Blank lines get none. -/
def insertedText (nl indent fragment : String) : String :=
  nl ++ closed nl ((lines (dedent fragment)).map fun line => if isBlankText line then "" else indent ++ line)

/-- The lines of a fragment make the text that goes in. -/
theorem closed_fragmentLines (nl indent fragment : String) :
    closed nl (fragmentLines indent fragment) = insertedText nl indent fragment := by
  rw [fragmentLines, closed_cons, String.empty_append]
  rfl

/-- A fragment that is put into a text whose lines all end alike leaves every byte of the text as it was, wherever it
goes; also where the place is found by reading the text. -/
theorem splice_inserts {nl source : String} (h : LinesEndIn nl source) (hend : endsLine source = true)
    (fragment : String) :
    (∀ lineIndex indent, InsertedAt (lineOffset (min lineIndex (lines source).length) source.toList)
      (insertedText nl indent fragment) source (splice source lineIndex indent fragment)) ∧
    ∀ suite language callees new, inject source fragment suite language callees = .ok new →
      ∃ point, insertionPoint source suite language callees = .ok point ∧
        InsertedAt (lineOffset (min point.lineIndex (lines source).length) source.toList)
          (insertedText nl point.indent fragment) source new := by
  have hsplice : ∀ lineIndex indent, InsertedAt (lineOffset (min lineIndex (lines source).length) source.toList)
      (insertedText nl indent fragment) source (splice source lineIndex indent fragment) := by
    intro lineIndex indent
    have hall : (lines source).take lineIndex ++ fragmentLines indent fragment ++ (lines source).drop lineIndex ≠ [] := by
      simp [fragmentLines]
    refine ⟨closed nl ((lines source).take lineIndex), closed nl ((lines source).drop lineIndex), ?_, ?_, ?_⟩
    · rw [← closed_append, List.take_append_drop, closed_lines h hend]
    · rw [← utf8ByteSize_closed_take h hend, ← List.take_eq_take_min]
    · rw [splice, h.lineEnding_eq hend, if_pos hend, intercalate_append_ending nl hall, closed_append, closed_append,
        closed_fragmentLines]
  refine ⟨hsplice, fun suite language callees new hnew => ?_⟩
  obtain ⟨point, hpoint, hnew⟩ := bind_eq_ok_iff.1 hnew
  cases hnew
  exact ⟨point, hpoint, hsplice point.lineIndex point.indent⟩

/-- A line of a text with carriage returns stands between them, one of them within a line. -/
theorem splice_inserts_after_first :
    InsertedAt 4 "\r\n  b();\r\n" "a;\r\nc\r;\r\n" (splice "a;\r\nc\r;\r\n" 1 "  " "b();") := by
  have hends : LinesEndIn "\r\n" "a;\r\nc\r;\r\n" := by
    have hcuts : ∀ k < "a;\r\nc\r;\r\n".toList.length, "a;\r\nc\r;\r\n".toList[k]? = some '\n' →
        ("a;\r\nc\r;\r\n".toList.take k).getLast? = some '\r' := by decide
    refine .inr ⟨rfl, fun front rest hsource => ?_⟩
    have hfront := hcuts front.length
    rw [hsource] at hfront
    simpa using hfront
  have hinserted := (splice_inserts hends (by decide) "b();").1 1 "  "
  have hoffset : lineOffset (min 1 (lines "a;\r\nc\r;\r\n").length) "a;\r\nc\r;\r\n".toList = 4 := by decide
  have htext : insertedText "\r\n" "  " "b();" = "\r\n  b();\r\n" := by decide
  rwa [hoffset, htext] at hinserted

end DiffSlice
