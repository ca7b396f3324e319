import DiffSlice.Proofs.DiffText
import DiffSlice.Proofs.EditAgreement
import DiffSlice.Tree.Node

/-!
# The edits of a standard diff

A standard diff (`StandardDiff`) is made of hunks whose headers count the lines below them, and the first character of
such a line alone tells its side. Its edits (`StandardDiff.edits`) are said without counters: an added or removed line
has as its number the start of its range and the number of earlier lines of its side in the hunk. Reading a diff gives
these edits exactly if no line below a header starts with `+++` or `---` (`edits_of_standard`): such a line is taken for
the name of a file, which is no edit and counts for both sides. The ranges of headers are within the limit, but with such
lines the count can pass it.
-/

namespace DiffSlice.Patch

open DiffSlice.Text

/-! ## Standard diffs -/

def isAdded (line : String) : Bool :=
  line.toList.head? = some '+'

def isRemoved (line : String) : Bool :=
  line.toList.head? = some '-'

def afterMark (line : String) : String :=
  String.ofList line.toList.tail

/-- A range of so many lines as a header writes it. Lines are numbered from one, and numbers stay within the limit. -/
structure WrittenRange (count : Nat) where
  start : Nat
  text : String
  written : text ∈ rangeTexts start count
  first : count ≠ 0 → 1 ≤ start
  fits : start + (count - 1) ≤ lineLimit

/-- A header and the lines below it, which are as many on either side as the header says. -/
structure StandardHunk where
  body : List String
  marked : ∀ l ∈ body, isMarked l = true
  old : WrittenRange (body.countP onOldSide)
  new : WrittenRange (body.countP onNewSide)
  /-- What follows the ranges in the header line. -/
  heading : String

/-- A diff of one file: hunks below some lines that are no headers. -/
structure StandardDiff where
  preamble : List String
  above : ∀ l ∈ preamble, isHeaderLine l = false
  hunks : List StandardHunk

def StandardHunk.cut (h : StandardHunk) : String × List String :=
  (s!"@@ -{h.old.text} +{h.new.text} @@{h.heading}", h.body)

def StandardDiff.lines (d : StandardDiff) : List String :=
  d.preamble ++ cutLines (d.hunks.map StandardHunk.cut)

/-- The lines that are edits, without their first character. The number of a line is `start` and the number of earlier
lines that count. -/
def editsBy (isEdit counts : String → Bool) (side : Side) (start : Nat) (body : List String) : List LineEdit :=
  (withEarlier [] body).filterMap fun (earlier, line) =>
    if isEdit line then some ⟨start + earlier.countP counts, afterMark line, side⟩ else none

def StandardDiff.edits (d : StandardDiff) : Edits where
  added := d.hunks.flatMap fun h => editsBy isAdded onNewSide .added h.new.start h.body
  removed := d.hunks.flatMap fun h => editsBy isRemoved onOldSide .removed h.old.start h.body

/-- The line looks like the name of a file. -/
def namesFile (line : String) : Bool :=
  startsWith "+++" line || startsWith "---" line

/-- The line is added and does not look like the name of a file. -/
def readsAdded (line : String) : Bool :=
  isAdded line && !namesFile line

/-- The line is removed and does not look like the name of a file. -/
def readsRemoved (line : String) : Bool :=
  isRemoved line && !namesFile line

/-- The line counts for the new side, as what looks like the name of a file does. -/
def countsNew (line : String) : Bool :=
  onNewSide line || namesFile line

/-- The line counts for the old side, as what looks like the name of a file does. -/
def countsOld (line : String) : Bool :=
  onOldSide line || namesFile line

/-- The edits without the lines that look like names of files, which count for both sides. -/
def StandardDiff.editsRead (d : StandardDiff) : Edits where
  added := d.hunks.flatMap fun h => editsBy readsAdded countsNew .added h.new.start h.body
  removed := d.hunks.flatMap fun h => editsBy readsRemoved countsOld .removed h.old.start h.body

/-! ## Numbered edits -/

section EditsBy

variable {isEdit counts isEdit' counts' : String → Bool} {side : Side} {body : List String}

theorem editsBy_congr {start start' : Nat} (hedit : ∀ l ∈ body, isEdit l = isEdit' l)
    (hcounts : ∀ l ∈ body, counts l = counts' l) (hstart : ∀ l ∈ body, isEdit l = true → start = start') :
    editsBy isEdit counts side start body = editsBy isEdit' counts' side start' body := by
  refine List.filterMap_congr fun ⟨earlier, line⟩ hmem => ?_
  have hline := mem_of_mem_withEarlier hmem
  have hcount : earlier.countP counts = earlier.countP counts' := by
    refine List.countP_congr fun l hl => ?_
    rcases mem_of_mem_earlier hmem hl with h | h
    · cases h
    · rw [hcounts l h]
  by_cases he : isEdit line = true
  · simp [← hedit line hline, he, hcount, hstart line hline he]
  · simp [← hedit line hline, he]

/-- Each line that is an edit makes one. -/
theorem length_editsBy (start : Nat) : (editsBy isEdit counts side start body).length = body.countP isEdit := by
  suffices ∀ before, ((withEarlier before body).filterMap fun (x : List String × String) =>
      if isEdit x.2 then some (⟨start + x.1.countP counts, afterMark x.2, side⟩ : LineEdit) else none).length
        = body.countP isEdit from this []
  induction body with
  | nil => exact fun _ => rfl
  | cons l body ih =>
    intro before
    by_cases he : isEdit l = true <;> simp [withEarlier, he, ih]

end EditsBy

/-! ## Reading -/

theorem isHeaderLine_of_isMarked {l : String} (h : isMarked l = true) : isHeaderLine l = false := by
  refine startsWith_eq_false (c := '@') rfl fun hc => ?_
  simp [isMarked, hc] at h

/-- What a line below a header counts as. -/
theorem counted_cases {l : String} (h : isMarked l = true) :
    (namesFile l = true ∧ BodyLine.counted l = .context l) ∨
    namesFile l = false ∧
      (l.toList.head? = some '+' ∧ BodyLine.counted l = .added (afterMark l) ∨
        l.toList.head? = some '-' ∧ BodyLine.counted l = .removed (afterMark l) ∨
        l.toList.head? = some '\\' ∧ BodyLine.counted l = .noNewline ∨
        (l.toList.head? = some ' ' ∨ l.toList.head? = none) ∧ ∃ t, BodyLine.counted l = .context t) := by
  unfold isMarked at h
  unfold namesFile BodyLine.counted BodyLine.ofLine? afterMark
  cases hl : l.toList with
  | nil => simp [startsWith, hl]
  | cons c cs =>
    simp only [hl, List.head?_cons, List.mem_cons, reduceCtorEq, Option.some.injEq, List.not_mem_nil, or_false,
      false_or, decide_eq_true_eq] at h
    rcases h with rfl | rfl | rfl | rfl
    · simp [startsWith, hl, List.isPrefixOf]
    · cases hplus : startsWith "+++" l <;> simp [startsWith, hl, List.isPrefixOf]
    · cases hminus : startsWith "---" l <;> simp [startsWith, hl, List.isPrefixOf]
    · simp [startsWith, hl, List.isPrefixOf]

section Counting

variable {body : List String} (hmarked : ∀ l ∈ body, isMarked l = true)

/-- Edits that are found with a running count are numbered by the lines before them. -/
theorem countedEdits_eq {edits : Nat → List BodyLine → List LineEdit} {isEdit counts : String → Bool} {side : Side}
    (hnil : ∀ n, edits n [] = [])
    (hcons : ∀ l ∈ body, ∀ n bs, edits n (BodyLine.counted l :: bs) =
      (if isEdit l then [⟨n + 1, afterMark l, side⟩] else []) ++ edits (n + if counts l then 1 else 0) bs) (n : Nat) :
    edits n (body.map BodyLine.counted) = editsBy isEdit counts side (n + 1) body := by
  suffices ∀ before : List String, edits (n + before.countP counts) (body.map BodyLine.counted) =
      (withEarlier before body).filterMap fun x =>
        if isEdit x.2 then some ⟨n + 1 + x.1.countP counts, afterMark x.2, side⟩ else none from this []
  induction body with
  | nil => exact fun _ => hnil _
  | cons l body ih =>
    intro before
    have ih := ih (fun m hm => hcons m (List.mem_cons_of_mem _ hm)) (l :: before)
    rw [List.countP_cons, ← Nat.add_assoc] at ih
    rw [List.map_cons, hcons l List.mem_cons_self, ih, withEarlier, List.filterMap_cons]
    by_cases he : isEdit l = true
    · simp [he, Nat.add_right_comm n 1]
    · simp [he]

include hmarked

/-- The added lines are those read as added, numbered by the lines that count for the new side. -/
theorem addedIn_counted (n : Nat) :
    addedIn n (body.map BodyLine.counted) = editsBy readsAdded countsNew .added (n + 1) body := by
  refine countedEdits_eq (fun _ => rfl) (fun l hl n bs => ?_) n
  rcases counted_cases (hmarked l hl) with
    ⟨hname, hc⟩ | ⟨hname, ⟨hh, hc⟩ | ⟨hh, hc⟩ | ⟨hh, hc⟩ | ⟨hh | hh, t, hc⟩⟩
  · simp [hc, addedIn, readsAdded, countsNew, hname]
  all_goals simp [hc, addedIn, readsAdded, countsNew, hname, isAdded, onNewSide, hh]

theorem removedIn_counted (n : Nat) :
    removedIn n (body.map BodyLine.counted) = editsBy readsRemoved countsOld .removed (n + 1) body := by
  refine countedEdits_eq (fun _ => rfl) (fun l hl n bs => ?_) n
  rcases counted_cases (hmarked l hl) with
    ⟨hname, hc⟩ | ⟨hname, ⟨hh, hc⟩ | ⟨hh, hc⟩ | ⟨hh, hc⟩ | ⟨hh | hh, t, hc⟩⟩
  · simp [hc, removedIn, readsRemoved, countsOld, hname]
  all_goals simp [hc, removedIn, readsRemoved, countsOld, hname, isRemoved, onOldSide, hh]

end Counting

namespace StandardHunk

variable (h : StandardHunk)

/-- What the reader of edits takes the hunk for. -/
def counted : Hunk where
  header := ⟨h.old.start, countRead (h.body.countP onOldSide), h.new.start, countRead (h.body.countP onNewSide)⟩
  body := h.body.map BodyLine.counted

/-- A standard hunk is read as what its lines count as. -/
theorem countedFrom : h.counted.CountedFrom h.cut where
  header := parse?_header h.old.written h.new.written (Nat.le_trans (Nat.le_add_right _ _) h.old.fits)
    (Nat.le_trans (Nat.le_add_right _ _) h.new.fits) h.heading
  body := rfl
  noHeader l hl := isHeaderLine_of_isMarked (h.marked l hl)

theorem addedLines_counted :
    h.counted.addedLines = editsBy readsAdded countsNew .added h.new.start h.body := by
  rw [Hunk.addedLines, counted, addedIn_counted h.marked]
  refine editsBy_congr (fun _ _ => rfl) (fun _ _ => rfl) fun l hl he => ?_
  have hside : onNewSide l = true := by simp_all [readsAdded, isAdded, onNewSide]
  have hcount : h.body.countP onNewSide ≠ 0 := Nat.ne_of_gt (List.countP_pos_iff.2 ⟨l, hl, hside⟩)
  exact Nat.sub_add_cancel (h.new.first hcount)

theorem removedLines_counted :
    h.counted.removedLines = editsBy readsRemoved countsOld .removed h.old.start h.body := by
  rw [Hunk.removedLines, counted, removedIn_counted h.marked]
  refine editsBy_congr (fun _ _ => rfl) (fun _ _ => rfl) fun l hl he => ?_
  have hside : onOldSide l = true := by simp_all [readsRemoved, isRemoved, onOldSide]
  have hcount : h.body.countP onOldSide ≠ 0 := Nat.ne_of_gt (List.countP_pos_iff.2 ⟨l, hl, hside⟩)
  exact Nat.sub_add_cancel (h.old.first hcount)

end StandardHunk

theorem StandardDiff.countedFrom (d : StandardDiff) : List.Forall₂ (fun cut h => Hunk.CountedFrom h cut)
    (d.hunks.map StandardHunk.cut) (d.hunks.map StandardHunk.counted) := by
  rw [List.forall₂_map_left_iff, List.forall₂_map_right_iff, List.forall₂_same]
  exact fun h _ => h.countedFrom

/-- Of a standard diff those edits are read that do not look like names of files. -/
theorem ofDiff_eq_editsRead {diff : String} {d : StandardDiff} (hd : lines diff = d.lines) :
    Edits.ofDiff diff = d.editsRead := by
  rw [Edits.ofDiff, hd, StandardDiff.lines, editsFrom_preamble d.above, editsFrom_cuts d.countedFrom,
    StandardDiff.editsRead, List.flatMap_map, List.flatMap_map]
  simp only [StandardHunk.addedLines_counted, StandardHunk.removedLines_counted]

/-! ## Lines that look like names of files -/

/-- What looks like the name of a file is marked as added or removed. -/
theorem isAdded_or_isRemoved_of_namesFile {l : String} (h : namesFile l = true) :
    isAdded l = true ∨ isRemoved l = true := by
  rw [namesFile, Bool.or_eq_true] at h
  rcases h with h | h
  · left
    obtain ⟨t, ht⟩ := startsWith_iff.1 h
    simp [isAdded, ← ht]
  · right
    obtain ⟨t, ht⟩ := startsWith_iff.1 h
    simp [isRemoved, ← ht]

/-- If no fewer elements satisfy a test than satisfy it without another one, no element satisfies both. -/
theorem eq_false_of_countP_eq {α : Type} {p q : α → Bool} {xs : List α}
    (h : (xs.countP fun x => p x && !q x) = xs.countP p) : ∀ x ∈ xs, p x = true → q x = false := by
  have hsplit := List.countP_eq_countP_filter_add xs p q
  rw [List.countP_filter, List.countP_filter, h] at hsplit
  have hzero : (xs.countP fun x => p x && q x) = 0 := by omega
  intro x hx hp
  simpa [hp] using List.countP_eq_zero.1 hzero x hx

/-- All edits are read exactly if none of the lines looks like the name of a file. -/
theorem editsRead_eq_edits_iff (d : StandardDiff) :
    d.editsRead = d.edits ↔ ∀ h ∈ d.hunks, ∀ l ∈ h.body, namesFile l = false := by
  constructor
  · intro heq h hh l hl
    have hmem : l ∈ d.hunks.flatMap StandardHunk.body := List.mem_flatMap.2 ⟨h, hh, hl⟩
    -- a line that is no edit makes the list of edits shorter
    have hadded : (d.hunks.flatMap StandardHunk.body).countP readsAdded =
        (d.hunks.flatMap StandardHunk.body).countP isAdded := by
      have hlength := congrArg (fun e : Edits => e.added.length) heq
      simpa [StandardDiff.editsRead, StandardDiff.edits, List.length_flatMap, length_editsBy, List.countP_flatMap,
        Function.comp_def] using hlength
    have hremoved : (d.hunks.flatMap StandardHunk.body).countP readsRemoved =
        (d.hunks.flatMap StandardHunk.body).countP isRemoved := by
      have hlength := congrArg (fun e : Edits => e.removed.length) heq
      simpa [StandardDiff.editsRead, StandardDiff.edits, List.length_flatMap, length_editsBy, List.countP_flatMap,
        Function.comp_def] using hlength
    by_contra hname
    rw [Bool.not_eq_false] at hname
    rcases isAdded_or_isRemoved_of_namesFile hname with hside | hside
    · rw [eq_false_of_countP_eq hadded l hmem hside] at hname
      cases hname
    · rw [eq_false_of_countP_eq hremoved l hmem hside] at hname
      cases hname
  · intro hnames
    unfold StandardDiff.editsRead StandardDiff.edits
    congr 1
    · refine List.flatMap_congr fun h hh => editsBy_congr ?_ ?_ fun _ _ _ => rfl
      · exact fun l hl => by simp [readsAdded, hnames h hh l hl]
      · exact fun l hl => by simp [countsNew, hnames h hh l hl]
    · refine List.flatMap_congr fun h hh => editsBy_congr ?_ ?_ fun _ _ _ => rfl
      · exact fun l hl => by simp [readsRemoved, hnames h hh l hl]
      · exact fun l hl => by simp [countsOld, hnames h hh l hl]

/-! ## Numbers within the limit -/

/-- The start of each side and the lines that count for it come to no more than the limit. -/
def StandardHunk.CountsWithin (h : StandardHunk) : Prop :=
  h.old.start - 1 + h.body.countP countsOld ≤ lineLimit ∧ h.new.start - 1 + h.body.countP countsNew ≤ lineLimit

theorem counted_sides {l : String} (h : isMarked l = true) :
    (BodyLine.counted l).isOld = countsOld l ∧ (BodyLine.counted l).isNew = countsNew l := by
  rcases counted_cases h with ⟨hname, hc⟩ | ⟨hname, ⟨hh, hc⟩ | ⟨hh, hc⟩ | ⟨hh, hc⟩ | ⟨hh | hh, t, hc⟩⟩
  · simp [hc, BodyLine.isOld, BodyLine.isNew, countsOld, countsNew, hname]
  all_goals simp [hc, BodyLine.isOld, BodyLine.isNew, countsOld, countsNew, hname, onOldSide, onNewSide, hh]

theorem StandardHunk.countsWithin_counted (h : StandardHunk) : h.counted.CountsWithin ↔ h.CountsWithin := by
  have hcount {side : BodyLine → Bool} {counts : String → Bool}
      (hside : ∀ l ∈ h.body, side (.counted l) = counts l) : h.counted.body.countP side = h.body.countP counts := by
    rw [counted, List.countP_map]
    exact List.countP_congr fun l hl => by rw [Function.comp, hside l hl]
  rw [Hunk.CountsWithin, hcount fun l hl => (counted_sides (h.marked l hl)).1,
    hcount fun l hl => (counted_sides (h.marked l hl)).2]
  rfl

/-- A hunk stays within the limit if it counts its own lines only, as its ranges do. -/
theorem StandardHunk.countsWithin_of_names {h : StandardHunk} (hnames : ∀ l ∈ h.body, namesFile l = false) :
    h.CountsWithin := by
  have hold : h.body.countP countsOld = h.body.countP onOldSide :=
    List.countP_congr fun l hl => by simp [countsOld, hnames l hl]
  have hnew : h.body.countP countsNew = h.body.countP onNewSide :=
    List.countP_congr fun l hl => by simp [countsNew, hnames l hl]
  have := h.old.first
  have := h.old.fits
  have := h.new.first
  have := h.new.fits
  rw [CountsWithin, hold, hnew]
  omega

/-- The edits of a standard diff can be numbered exactly if the lines that count stay within the limit in every hunk. -/
theorem isSome_ofDiff?_iff {diff : String} {d : StandardDiff} (hd : lines diff = d.lines) :
    (Edits.ofDiff? diff).isSome ↔ ∀ h ∈ d.hunks, h.CountsWithin := by
  have hthrough : countsThrough none (lines diff) = true ↔ ∀ h ∈ d.hunks, h.CountsWithin := by
    rw [hd, StandardDiff.lines, countsThrough_preamble d.above, countsThrough_cuts d.countedFrom, List.forall_mem_map]
    exact forall₂_congr fun h _ => h.countsWithin_counted
  rw [← hthrough, Edits.ofDiff?]
  split <;> simp_all

/-- Of a standard diff every edit is read, with its text and its number, except that a line that looks like the name of
a file is no edit and counts for both sides. So the edits are those that the diff stands for exactly if no line below a
header looks like one. A line that counts for both sides can also take a number past the limit, and then there are no
edits at all. -/
theorem edits_of_standard {diff : String} {d : StandardDiff} (hd : lines diff = d.lines) :
    Edits.ofDiff diff = d.editsRead ∧
      (Edits.ofDiff diff = d.edits ↔ ∀ h ∈ d.hunks, ∀ l ∈ h.body, namesFile l = false) ∧
      ((Edits.ofDiff? diff).isSome ↔ ∀ h ∈ d.hunks, h.CountsWithin) ∧
      (Edits.ofDiff? diff = some d.edits ↔ ∀ h ∈ d.hunks, ∀ l ∈ h.body, namesFile l = false) := by
  have hread := ofDiff_eq_editsRead hd
  have hsome := isSome_ofDiff?_iff hd
  have hnames := editsRead_eq_edits_iff d
  rw [← hread] at hnames
  refine ⟨hread, hnames, hsome, ?_⟩
  constructor
  · intro hedits
    refine hnames.1 ?_
    rw [Edits.ofDiff?] at hedits
    exact Option.some.inj (Option.ite_none_right_eq_some.1 hedits).2
  · intro hplain
    obtain ⟨edits, hedits⟩ := Option.isSome_iff_exists.1 (hsome.2 fun h hh => h.countsWithin_of_names (hplain h hh))
    have hall := hedits
    rw [Edits.ofDiff?] at hall
    rw [hedits, ← (Option.ite_none_right_eq_some.1 hall).2, hnames.2 hplain]

/-- Changes in the middle and at the end of a file that has no newline at its end. -/
def changeAndAppend : StandardDiff where
  preamble := ["+++ b/f"]
  above := by decide
  hunks :=
    [{ body := [" a", "-b", "+-b"]
       marked := by decide
       old := ⟨1, "1,2", by decide, by decide, by decide⟩
       new := ⟨1, "1,2", by decide, by decide, by decide⟩
       heading := " f()" },
     { body := ["-x", "\\", "+x", "+", "\\"]
       marked := by decide
       old := ⟨9, "9", by decide, by decide, by decide⟩
       new := ⟨9, "9,2", by decide, by decide, by decide⟩
       heading := "" }]

/-- A line is changed, and one is added at an end without newline. -/
theorem edits_of_change_and_append :
    Edits.ofDiff? "+++ b/f\n@@ -1,2 +1,2 @@ f()\n a\n-b\n+-b\n@@ -9 +9,2 @@\n-x\n\\\n+x\n+\n\\\n" =
      some changeAndAppend.edits :=
  (edits_of_standard (d := changeAndAppend) (by decide +kernel)).2.2.2.2 (by decide)

/-- The ranges end at the limit, but the name of a file is counted after them. -/
example : Edits.ofDiff? "@@ -18446744073709551615 +1,2 @@\n a\n+++n\n" = none := by
  decide

/-- The statement `--n;` becomes `++n;`. -/
def decrementToIncrement : StandardDiff where
  preamble := []
  above := by decide
  hunks :=
    [{ body := [" let n = 0;", "---n;", "+++n;"]
       marked := by decide
       old := ⟨1, "1,2", by decide, by decide, by decide⟩
       new := ⟨1, "1,2", by decide, by decide, by decide⟩
       heading := "" }]

/-- Of the two edits that a diff stands for none is read. -/
theorem edits_of_decrement_missed :
    lines "@@ -1,2 +1,2 @@\n let n = 0;\n---n;\n+++n;\n" = decrementToIncrement.lines ∧
      decrementToIncrement.edits = { added := [⟨2, "++n;", .added⟩], removed := [⟨2, "--n;", .removed⟩] } ∧
      Edits.ofDiff "@@ -1,2 +1,2 @@\n let n = 0;\n---n;\n+++n;\n" ≠ decrementToIncrement.edits := by
  decide

end DiffSlice.Patch
