import DiffSlice.Proofs.BlockLayout
import DiffSlice.Proofs.HunkReading
import DiffSlice.Proofs.TextLines

/-!
# A printed diff is read back

The blocks of a diff are printed as lines (`unifiedDiff_eq_unlines`), and reading these lines gives each block's hunk
(`Block.readFrom`, `hunks_unifiedDiff`). A header that is read back names the place where its block lies
(`Block.header_oldPosition`), also where the count is too large to be read.
-/

namespace DiffSlice.Patch

open DiffSlice.Text

/-! ## Numbers -/

section Numbers

variable {n : Nat} {c : Char}

theorem isAsciiDigit_of_mem_toDigits (h : c ∈ Nat.toDigits 10 n) : isAsciiDigit c = true := by
  have h := Nat.isDigit_of_mem_toDigits (by decide) (by decide) h
  rw [Char.isDigit_iff_toNat] at h
  simp only [isAsciiDigit, Bool.and_eq_true, decide_eq_true_eq]
  exact ⟨Char.le_def.2 h.1, Char.le_def.2 h.2⟩

/-- Digits have the value that the standard library gives them. -/
theorem digitsValue_eq_ofDigitChars (n : Nat) (cs : List Char) : digitsValue n cs = Nat.ofDigitChars 10 cs n := by
  induction cs generalizing n with
  | nil => rfl
  | cons c cs ih =>
    unfold digitsValue
    rw [ih]
    exact Nat.ofDigitChars_cons.symm

/-- A number within the limit is read back from its digits. -/
theorem number?_toDigits (n : Nat) : number? (Nat.toDigits 10 n) = if n ≤ lineLimit then some n else none := by
  have hdigits : (Nat.toDigits 10 n).all isAsciiDigit = true :=
    List.all_eq_true.2 fun c hc => isAsciiDigit_of_mem_toDigits hc
  simp [number?, digitsValue_eq_ofDigitChars, Nat.ofDigitChars_ten_toDigits, hdigits, Nat.toDigits_ne_nil]

/-- The digits of a number are split off from what follows. -/
theorem digits?_toDigits (n : Nat) {rest : List Char} (h : ∀ c, rest.head? = some c → isDigit c = false) :
    digits? (Nat.toDigits 10 n ++ rest) = some (Nat.toDigits 10 n, rest) := by
  have hdigits : ∀ c ∈ Nat.toDigits 10 n, isDigit c = true := fun c hc => by
    rw [isDigit, isAsciiDigit_of_mem_toDigits hc, Bool.true_or]
  have hrest : rest.takeWhile isDigit = [] ∧ rest.dropWhile isDigit = rest := by
    cases rest with
    | nil => exact ⟨rfl, rfl⟩
    | cons c rest => simp [h c rfl]
  rw [digits?, List.takeWhile_append_of_pos hdigits, List.dropWhile_append_of_pos hdigits, hrest.1, hrest.2,
    List.append_nil, if_neg (by simp [Nat.toDigits_ne_nil])]

end Numbers

/-! ## Ranges and headers -/

/-- The ways to write a range of lines; the count may be left out if it is one. -/
def rangeTexts (start count : Nat) : List String :=
  s!"{start},{count}" :: if count = 1 then [s!"{start}"] else []

/-- The count that is read from a range; what is too large is read as one. -/
def countRead (count : Nat) : Nat :=
  if count ≤ lineLimit then count else 1

theorem toList_of_mem_rangeTexts {start count : Nat} {text : String} (h : text ∈ rangeTexts start count) :
    text.toList = Nat.toDigits 10 start ++ ',' :: Nat.toDigits 10 count ∨
      (count = 1 ∧ text.toList = Nat.toDigits 10 start) := by
  rcases List.mem_cons.1 h with rfl | h
  · left
    simp [toString]
  · right
    split at h
    · rename_i h1
      rw [List.mem_singleton.1 h]
      simp [h1, toString]
    · cases h

/-- A range that is written is read back up to the blank after it. -/
theorem read_range {start count : Nat} {text : String} (h : text ∈ rangeTexts start count) (rest : List Char) : ∃ w c,
    digits? (text.toList ++ ' ' :: rest) = some (Nat.toDigits 10 start, w) ∧ countPart w = (c, ' ' :: rest)
      ∧ countOr1 c = countRead count := by
  obtain htext | ⟨rfl, htext⟩ := toList_of_mem_rangeTexts h
  · refine ⟨',' :: (Nat.toDigits 10 count ++ ' ' :: rest), some (Nat.toDigits 10 count), ?_, ?_, ?_⟩
    · rw [htext, List.append_assoc]
      exact digits?_toDigits _ fun c hc => by cases hc; decide
    · rw [countPart, digits?_toDigits _ fun c hc => by cases hc; decide]
    · rw [countOr1, Option.bind_some, number?_toDigits, countRead]
      split <;> rfl
  · refine ⟨' ' :: rest, none, ?_, rfl, rfl⟩
    rw [htext]
    exact digits?_toDigits _ fun c hc => by cases hc; decide

/-- A header that is written is read back, whatever follows it. -/
theorem parse?_header {oldStart oldCount newStart newCount : Nat} {oldText newText : String}
    (hold : oldText ∈ rangeTexts oldStart oldCount) (hnew : newText ∈ rangeTexts newStart newCount)
    (ho : oldStart ≤ lineLimit) (hn : newStart ≤ lineLimit) (heading : String) :
    Header.parse? s!"@@ -{oldText} +{newText} @@{heading}" =
      some ⟨oldStart, countRead oldCount, newStart, countRead newCount⟩ := by
  have htop : s!"@@ -{oldText} +{newText} @@{heading}".toList = "@@ -".toList ++ (oldText.toList ++
      ' ' :: '+' :: (newText.toList ++ ' ' :: '@' :: '@' :: heading.toList)) := by
    simp [toString]
  obtain ⟨w, c, hw, hc, hcount⟩ := read_range hold ('+' :: (newText.toList ++ ' ' :: '@' :: '@' :: heading.toList))
  obtain ⟨w', c', hw', hc', hcount'⟩ := read_range hnew ('@' :: '@' :: heading.toList)
  simp [Header.parse?, htop, hw, hc, hw', hc', hcount, hcount', number?_toDigits, ho, hn, List.isPrefixOf?]

/-- The line number that a range is written with. -/
def Extent.number (e : Extent) : Nat :=
  if e.stop - e.start = 0 then e.start else e.start + 1

/-- The text of an extent is one of the ways to write its range. -/
theorem Extent.text_mem_rangeTexts (e : Extent) : e.text ∈ rangeTexts e.number (e.stop - e.start) := by
  unfold Extent.text Extent.number rangeTexts
  by_cases h1 : e.stop - e.start = 1
  · simp [h1]
  · by_cases h0 : e.stop - e.start = 0
    · simp [h0, ← String.toList_inj, toString]
    · simp [h0, h1]

def Block.topLine (b : Block) : String :=
  s!"@@ -{b.oldExtent.text} +{b.newExtent.text} @@"

def Block.header (b : Block) : Header where
  oldStart := b.oldExtent.number
  oldCount := countRead (b.oldExtent.stop - b.oldExtent.start)
  newStart := b.newExtent.number
  newCount := countRead (b.newExtent.stop - b.newExtent.start)

/-- The line above a block is read as its header. -/
theorem Block.parse?_topLine {b : Block} (ho : b.oldExtent.number ≤ lineLimit) (hn : b.newExtent.number ≤ lineLimit) :
    Header.parse? b.topLine = some b.header := by
  have hread := parse?_header b.oldExtent.text_mem_rangeTexts b.newExtent.text_mem_rangeTexts ho hn ""
  rw [Block.topLine, Block.header, ← hread]
  simp [toString]

/-- A range that is read back names the place where it starts. -/
theorem Extent.position_number (e : Extent) :
    (if countRead (e.stop - e.start) = 0 then e.number else e.number - 1) = e.start := by
  by_cases h : e.stop - e.start = 0
  · simp [Extent.number, countRead, h]
  · have hcount : countRead (e.stop - e.start) ≠ 0 := by
      unfold countRead
      split <;> omega
    simp [Extent.number, h, hcount]

/-- The header of a block stands for the place where the block starts. -/
theorem Block.header_oldPosition (b : Block) : b.header.oldPosition = b.oldExtent.start :=
  b.oldExtent.position_number

/-! ## Printed lines -/

/-- What becomes of a line. -/
inductive Fate where
  | stays
  | goes
  | comes
deriving DecidableEq

def Fate.mark : Fate → String
  | stays => " "
  | goes => "-"
  | comes => "+"

/-- What a marked line says. -/
def Fate.bodyLine : Fate → String → BodyLine
  | stays => .context
  | goes => .removed
  | comes => .added

/-- A line of one or both texts, with its ending. -/
structure Entry where
  fate : Fate
  line : String

/-- The line after one that has no newline at its end. -/
def bareNote : String := "\\ No newline at end of file"

/-- The lines that are printed. -/
def Entry.printed (e : Entry) : List String :=
  (e.fate.mark ++ bare e.line) :: if endsLine e.line then [] else [bareNote]

/-- What the printed lines say. -/
def Entry.body (e : Entry) : List BodyLine :=
  e.fate.bodyLine (bare e.line) :: if endsLine e.line then [] else [.noNewline]

def oldOf (es : List Entry) : List String :=
  (es.filter (·.fate ≠ .comes)).map Entry.line

def newOf (es : List Entry) : List String :=
  (es.filter (·.fate ≠ .goes)).map Entry.line

/-- The lines of a segment in the order they are printed. -/
def Segment.entries : Segment → List Entry
  | .same ls => ls.map (Entry.mk .stays)
  | s => s.old.map (Entry.mk .goes) ++ s.new.map (Entry.mk .comes)

/-- The lines of a block in the order they are printed. -/
def Block.entries (b : Block) : List Entry :=
  b.segments.flatMap Segment.entries

theorem oldOf_append (es fs : List Entry) : oldOf (es ++ fs) = oldOf es ++ oldOf fs := by
  simp [oldOf]

theorem newOf_append (es fs : List Entry) : newOf (es ++ fs) = newOf es ++ newOf fs := by
  simp [newOf]

/-- The entries of a segment have its old lines. -/
theorem Segment.oldOf_entries (s : Segment) : oldOf s.entries = s.old := by
  cases s <;> simp [Segment.entries, oldOf, Segment.old, Segment.new, List.filter_map, Function.comp_def]

theorem Segment.newOf_entries (s : Segment) : newOf s.entries = s.new := by
  cases s <;> simp [Segment.entries, newOf, Segment.old, Segment.new, List.filter_map, Function.comp_def]

theorem Block.oldOf_entries (b : Block) : oldOf b.entries = b.old := by
  unfold Block.entries Block.old
  induction b.segments with
  | nil => rfl
  | cons s rest ih => rw [List.flatMap_cons, List.flatMap_cons, oldOf_append, Segment.oldOf_entries, ih]

theorem Block.newOf_entries (b : Block) : newOf b.entries = b.new := by
  unfold Block.entries Block.new
  induction b.segments with
  | nil => rfl
  | cons s rest ih => rw [List.flatMap_cons, List.flatMap_cons, newOf_append, Segment.newOf_entries, ih]

/-! ## Printing -/

theorem join_map_eq_unlines {α : Type} {f : α → String} {g : α → List String} {xs : List α}
    (h : ∀ x ∈ xs, f x = unlines (g x)) : String.join (xs.map f) = unlines (xs.flatMap g) := by
  induction xs with
  | nil => rfl
  | cons x xs ih =>
    rw [List.map_cons, String.join_cons, List.flatMap_cons, unlines_append, h x List.mem_cons_self,
      ih fun y hy => h y (List.mem_cons_of_mem _ hy)]

/-- A marked line makes the printed lines of its entry. -/
theorem Entry.markedLine_eq (e : Entry) (h : '\r' ∉ e.line.toList) :
    markedLine e.fate.mark e.line = unlines e.printed := by
  unfold markedLine Entry.printed
  by_cases hend : endsLine e.line = true
  · have hlast : e.line.toList.getLast? = some '\n' := by simpa [endsLine] using hend
    have hline : e.fate.mark ++ bare e.line ++ "\n" = e.fate.mark ++ e.line := by
      rw [String.append_assoc, bare_append_newline hend]
    rw [hlast, if_pos hend, unlines, unlines, String.append_empty, hline]
    rfl
  · have hlast : e.line.toList.getLast? ≠ some '\n' := by simpa [endsLine] using hend
    have hreturn : e.line.toList.getLast? ≠ some '\r' := fun hl => h (List.mem_of_getLast? hl)
    rw [if_neg hend, bare_of_not_endsLine (Bool.eq_false_iff.2 hend)]
    split
    · exact absurd ‹_› hlast
    · exact absurd ‹_› hreturn
    · simp [unlines, bareNote, ← String.toList_inj]

/-- A segment is printed entry by entry. -/
theorem Segment.text_eq (s : Segment) :
    s.text = String.join (s.entries.map fun e => markedLine e.fate.mark e.line) := by
  cases s <;> simp [Segment.text, Segment.entries, Function.comp_def, Fate.mark, String.join_append]

/-- The lines of a block, as a header and what is below it. -/
def Block.cut (b : Block) : String × List String :=
  (b.topLine, b.entries.flatMap Entry.printed)

def Block.hunk (b : Block) : Hunk where
  header := b.header
  body := b.entries.flatMap Entry.body

/-- A block is printed as its header and the lines below it. -/
theorem Block.text_eq {b : Block} (h : ∀ e ∈ b.entries, '\r' ∉ e.line.toList) :
    b.text = unlines (b.cut.1 :: b.cut.2) := by
  have hbody : String.join (b.segments.map Segment.text) = unlines b.cut.2 := by
    have hsegments : ∀ s ∈ b.segments, s.text = unlines (s.entries.flatMap Entry.printed) := by
      intro s hs
      rw [s.text_eq]
      exact join_map_eq_unlines fun e he => e.markedLine_eq (h e (List.mem_flatMap.2 ⟨s, hs, he⟩))
    rw [join_map_eq_unlines hsegments, Block.cut, Block.entries, List.flatMap_assoc]
  rw [Block.text, hbody, unlines]
  simp [Block.cut, Block.topLine, ← String.toList_inj, toString]

/-! ## Reading -/

/-- The printed line is one line. -/
structure Entry.OneLine (e : Entry) : Prop where
  noReturn : '\r' ∉ e.line.toList
  noNewline : '\n' ∉ (bare e.line).toList

/-- The printed line is one line, and no name of a file. -/
structure Entry.Readable (e : Entry) : Prop extends e.OneLine where
  notOldName : e.fate = .goes → startsWith "--" (bare e.line) = false
  notNewName : e.fate = .comes → startsWith "++" (bare e.line) = false

/-- The lines of the block can be read back, and so can the numbers above them. -/
structure Block.Readable (b : Block) : Prop where
  entries : ∀ e ∈ b.entries, e.Readable
  old : b.oldExtent.number ≤ lineLimit
  new : b.newExtent.number ≤ lineLimit

/-- A marked line says what its fate is. -/
theorem Entry.ofLine?_mark {e : Entry} (h : e.Readable) :
    BodyLine.ofLine? (e.fate.mark ++ bare e.line) = some (e.fate.bodyLine (bare e.line)) := by
  cases hf : e.fate with
  | stays => simp [BodyLine.ofLine?, Fate.mark, Fate.bodyLine]
  | goes =>
    have := h.notOldName hf
    simp_all [BodyLine.ofLine?, Fate.mark, Fate.bodyLine, startsWith]
  | comes =>
    have := h.notNewName hf
    simp_all [BodyLine.ofLine?, Fate.mark, Fate.bodyLine, startsWith]

theorem Entry.map_ofLine?_printed {e : Entry} (h : e.Readable) :
    e.printed.map BodyLine.ofLine? = e.body.map some := by
  rw [Entry.printed, Entry.body, List.map_cons, List.map_cons, ofLine?_mark h]
  split <;> rfl

/-- The lines of a block are read as its hunk. -/
theorem Block.readFrom {b : Block} (h : b.Readable) : b.hunk.ReadFrom b.cut where
  header := Block.parse?_topLine h.old h.new
  body := by
    rw [Block.cut, Block.hunk, List.map_flatMap, List.map_flatMap]
    exact List.flatMap_congr fun e he => e.map_ofLine?_printed (h.entries e he)

/-- No printed line has a line ending in it. -/
theorem Entry.not_mem_printed {e : Entry} (h : e.OneLine) :
    ∀ l ∈ e.printed, '\n' ∉ l.toList ∧ '\r' ∉ l.toList := by
  have hreturn : '\r' ∉ (bare e.line).toList := fun hm => h.noReturn (mem_of_mem_bare hm)
  have hmark : '\n' ∉ e.fate.mark.toList ∧ '\r' ∉ e.fate.mark.toList := by
    cases e.fate <;> decide
  intro l hl
  rcases List.mem_cons.1 hl with rfl | hl
  · simp [hmark, hreturn, h.noNewline]
  · split at hl
    · cases hl
    · rw [List.mem_singleton.1 hl]
      decide

theorem Extent.not_mem_text {e : Extent} {c : Char} (hc : isAsciiDigit c = false) (hcomma : c ≠ ',') :
    c ∉ e.text.toList := by
  have hdigit : ∀ n, c ∉ Nat.toDigits 10 n := fun n h => by
    rw [isAsciiDigit_of_mem_toDigits h] at hc
    cases hc
  obtain htext | ⟨_, htext⟩ := toList_of_mem_rangeTexts e.text_mem_rangeTexts <;> simp [htext, hdigit, hcomma]

theorem Block.not_mem_cut {b : Block} (h : ∀ e ∈ b.entries, e.OneLine) :
    ∀ l ∈ b.cut.1 :: b.cut.2, '\n' ∉ l.toList ∧ '\r' ∉ l.toList := by
  intro l hl
  rcases List.mem_cons.1 hl with rfl | hl
  · have hn : ∀ e : Extent, '\n' ∉ e.text.toList := fun e => Extent.not_mem_text (by decide) (by decide)
    have hr : ∀ e : Extent, '\r' ∉ e.text.toList := fun e => Extent.not_mem_text (by decide) (by decide)
    simp [Block.cut, Block.topLine, hn, hr, toString]
  · obtain ⟨e, he, hl⟩ := List.mem_flatMap.1 hl
    exact e.not_mem_printed (h e he) l hl

/-- The lines above the first block. -/
def preamble (path : String) : List String :=
  [s!"diff --git a/{path} b/{path}", s!"--- a/{path}", s!"+++ b/{path}"]

/-- None of the lines above the first block is a header. -/
theorem isHeaderLine_preamble {path l : String} (h : l ∈ (preamble path).map dropReturn) : isHeaderLine l = false := by
  obtain ⟨m, hm, rfl⟩ := List.mem_map.1 h
  rw [Bool.eq_false_iff, isHeaderLine, ne_eq, startsWith_iff]
  intro hat
  have hat := hat.trans (toList_dropReturn_isPrefix m)
  rw [← startsWith_iff] at hat
  simp only [preamble, List.mem_cons, List.not_mem_nil, or_false] at hm
  rcases hm with rfl | rfl | rfl <;> simp [startsWith, toString] at hat

theorem not_mem_preamble {path : String} (h : '\n' ∉ path.toList) : ∀ l ∈ preamble path, '\n' ∉ l.toList := by
  simp [preamble, h, toString]

theorem not_mem_cuts {bs : List Block} (h : ∀ b ∈ bs, ∀ e ∈ b.entries, e.OneLine) :
    ∀ l ∈ cutLines (bs.map Block.cut), '\n' ∉ l.toList ∧ '\r' ∉ l.toList := by
  intro l hl
  obtain ⟨_, hc, hl⟩ := List.mem_flatMap.1 hl
  obtain ⟨b, hb, rfl⟩ := List.mem_map.1 hc
  exact Block.not_mem_cut (h b hb) l hl

/-- The lines of a printed diff. -/
theorem lines_cuts {path : String} {bs : List Block} (hpath : '\n' ∉ path.toList)
    (h : ∀ b ∈ bs, ∀ e ∈ b.entries, e.OneLine) :
    lines (unlines (preamble path ++ cutLines (bs.map Block.cut)))
      = (preamble path).map dropReturn ++ cutLines (bs.map Block.cut) := by
  have hcuts := not_mem_cuts h
  have hkept : (cutLines (bs.map Block.cut)).map dropReturn = cutLines (bs.map Block.cut) := by
    conv_rhs => rw [← List.map_id (cutLines (bs.map Block.cut))]
    exact List.map_congr_left fun l hl => dropReturn_of_not_mem (hcuts l hl).2
  rw [lines_unlines, List.map_append, hkept]
  intro l hl
  rcases List.mem_append.1 hl with hl | hl
  · exact not_mem_preamble hpath l hl
  · exact (hcuts l hl).1

theorem readFrom_cuts {bs : List Block} (h : ∀ b ∈ bs, b.Readable) :
    List.Forall₂ (fun cut h => Hunk.ReadFrom h cut) (bs.map Block.cut) (bs.map Block.hunk) := by
  rw [List.forall₂_map_left_iff, List.forall₂_map_right_iff, List.forall₂_same]
  exact fun b hb => Block.readFrom (h b hb)

section Diff

variable {before after path : String}

/-- A diff is made of the lines above its blocks and the lines of the blocks. -/
theorem unifiedDiff_eq_unlines (hne : before ≠ after)
    (h : ∀ b ∈ blocks (segmentsBetween before after), ∀ e ∈ b.entries, e.OneLine) :
    unifiedDiff before after path =
      unlines (preamble path ++ cutLines ((blocks (segmentsBetween before after)).map Block.cut)) := by
  have hblocks := join_map_eq_unlines fun b hb => Block.text_eq fun e he => (h b hb e he).noReturn
  rw [unifiedDiff, if_neg hne, hblocks, unlines_append, cutLines, List.flatMap_map]
  simp [preamble, unlines, ← String.toList_inj, toString]

/-- The hunks of a printed diff are those of its blocks. -/
theorem hunks_unifiedDiff (hpath : '\n' ∉ path.toList) (hne : before ≠ after)
    (h : ∀ b ∈ blocks (segmentsBetween before after), b.Readable) :
    Hunk.ofDiff (unifiedDiff before after path) = (blocks (segmentsBetween before after)).map Block.hunk := by
  have hone := fun b hb e he => ((h b hb).entries e he).toOneLine
  rw [Hunk.ofDiff, unifiedDiff_eq_unlines hne hone, lines_cuts hpath hone,
    hunksFrom_preamble fun l hl => isHeaderLine_preamble hl, hunksFrom_cuts (readFrom_cuts h)]

section Entries

variable {b : Block} (hm : b ∈ blocks (segmentsBetween before after)) {e : Entry} (he : e ∈ b.entries)

include hm he

/-- A line that goes or stays is one of the old text, and a line that comes or stays is one of the new text. -/
theorem mem_terminatedLines_of_mem_entries :
    (e.fate ≠ .comes → e.line ∈ terminatedLines before) ∧ (e.fate ≠ .goes → e.line ∈ terminatedLines after) := by
  have hlaid := blocks_laid (segmentsBetween before after)
  rw [segmentsBetween_old, segmentsBetween_new] at hlaid
  obtain ⟨hold, hnew⟩ := hlaid.mem b hm
  constructor
  · intro hf
    apply hold
    rw [← b.oldOf_entries]
    exact List.mem_map_of_mem (List.mem_filter.2 ⟨he, by simpa using hf⟩)
  · intro hf
    apply hnew
    rw [← b.newOf_entries]
    exact List.mem_map_of_mem (List.mem_filter.2 ⟨he, by simpa using hf⟩)

theorem oneLine_of_mem_entries (hb : '\r' ∉ before.toList) (ha : '\r' ∉ after.toList) : e.OneLine := by
  obtain ⟨hold, hnew⟩ := mem_terminatedLines_of_mem_entries hm he
  have hplain : '\n' ∉ (bare e.line).toList ∧ '\r' ∉ e.line.toList := by
    by_cases hf : e.fate = .comes
    · exact not_mem_bare_of_mem ha _ (hnew (by simp [hf]))
    · exact not_mem_bare_of_mem hb _ (hold hf)
  exact ⟨hplain.2, hplain.1⟩

end Entries

/-- The blocks between two texts can be read back if no removed line looks like the name of an old file and no added
one like that of a new file. -/
theorem blocks_readable (hb : '\r' ∉ before.toList) (ha : '\r' ∉ after.toList)
    (hold : ∀ l ∈ lines before, startsWith "--" l = false) (hnew : ∀ l ∈ lines after, startsWith "++" l = false)
    (hob : (lines before).length < lineLimit) (hna : (lines after).length < lineLimit) :
    ∀ b ∈ blocks (segmentsBetween before after), b.Readable := by
  intro b hm
  have hlaid := blocks_laid (segmentsBetween before after)
  rw [segmentsBetween_old, segmentsBetween_new] at hlaid
  have hle := (hlaid.end_le b hm).1
  rw [lines_eq_map_bare hb] at hold hob
  rw [lines_eq_map_bare ha] at hnew hna
  rw [List.length_map] at hob hna
  rw [Nat.zero_add] at hle
  refine ⟨fun e he => ?_, ?_, ?_⟩
  · obtain ⟨heo, hen⟩ := mem_terminatedLines_of_mem_entries hm he
    refine ⟨oneLine_of_mem_entries hm he hb ha, fun hf => ?_, fun hf => ?_⟩
    · exact hold _ (List.mem_map_of_mem (heo (by simp [hf])))
    · exact hnew _ (List.mem_map_of_mem (hen (by simp [hf])))
  · have := oldExtent_start hm
    rw [Extent.number]
    split <;> omega
  · have := newExtent_start_le hm
    rw [Extent.number]
    split <;> omega

end Diff

end DiffSlice.Patch
