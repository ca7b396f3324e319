import DiffSlice.Proofs.DiffText
import DiffSlice.Slice.File
import Mathlib.Data.List.TakeWhile

/-!
# Diffs of several files

The diffs of several files, one after the other, are cut into just these diffs again, each with the path of its file
(`diffs_of_files`). Lines that open sections are told apart from all others (`sectionLines_flatMap`), above its hunks a
diff names its file on both sides (`ofText_diff`), and no line of a hunk names a file that is written to
(`writtenPath?_of_mem_cuts`).
-/

namespace DiffSlice.Patch

open DiffSlice.Text

/-! ## Sections -/

/-- The first section starts with the first line. -/
theorem exists_sectionLines_cons (line : String) (rest : List String) :
    ∃ first others, sectionLines (line :: rest) = (line :: first) :: others := by
  rw [sectionLines]
  split
  · exact ⟨[], [], rfl⟩
  · split
    · exact ⟨[], _, rfl⟩
    · exact ⟨_, _, rfl⟩

/-- A section ends before the line that opens the next one. -/
theorem sectionLines_append {body rest : List String} (line : String) (hbody : ∀ l ∈ body, opensSection l = false)
    (hrest : ∀ l ∈ rest.head?, opensSection l = true) :
    sectionLines (line :: (body ++ rest)) = (line :: body) :: sectionLines rest := by
  induction body generalizing line with
  | nil =>
    cases rest with
    | nil => rfl
    | cons next rest =>
      have hnext := hrest next rfl
      obtain ⟨first, others, hcut⟩ := exists_sectionLines_cons next rest
      rw [List.nil_append, sectionLines, hcut]
      simp [hnext]
  | cons next body ih =>
    have hnext := hbody next List.mem_cons_self
    have hlater := ih next fun l hl => hbody l (List.mem_cons_of_mem _ hl)
    rw [List.cons_append, sectionLines, hlater]
    simp [hnext]

/-- Lines that each open with a section of their own are cut into these. -/
theorem sectionLines_flatMap {α : Type} {xs : List α} {f : α → List String} (h : ∀ x ∈ xs, ∃ line body,
    f x = line :: body ∧ opensSection line = true ∧ ∀ l ∈ body, opensSection l = false) :
    sectionLines (xs.flatMap f) = xs.map f := by
  induction xs with
  | nil => rfl
  | cons x xs ih =>
    obtain ⟨line, body, hx, -, hbody⟩ := h x List.mem_cons_self
    have hrest : ∀ l ∈ (xs.flatMap f).head?, opensSection l = true := by
      cases xs with
      | nil => simp
      | cons y ys =>
        obtain ⟨next, more, hy, hnext, -⟩ := h y (List.mem_cons_of_mem _ List.mem_cons_self)
        simp [hy, hnext]
    rw [List.flatMap_cons, hx, List.cons_append, sectionLines_append line hbody hrest, List.map_cons, hx,
      ih fun y hy => h y (List.mem_cons_of_mem _ hy)]

theorem dropBlankLast_eq_self {texts : List String} (h : ∀ t ∈ texts.getLast?, isBlankText t = false) :
    dropBlankLast texts = texts := by
  fun_induction dropBlankLast texts with
  | case1 => rfl
  | case2 last hblank =>
    rw [h last rfl] at hblank
    cases hblank
  | case3 => rfl
  | case4 text rest hrest ih =>
    obtain ⟨next, rest, rfl⟩ := List.exists_cons_of_ne_nil fun hnil => hrest hnil
    rw [List.getLast?_cons_cons] at h
    rw [ih h]

/-! ## Paths -/

theorem after?_append (start rest : String) : after? start (start ++ rest) = some rest := by
  have hrest : start.toList.isPrefixOf? (start ++ rest).toList = some rest.toList := by
    rw [List.isPrefixOf?_eq_some_iff_append_eq, String.toList_append]
  rw [after?, hrest, Option.map_some, String.ofList_toList]

theorem after?_eq_none {start line : String} (h : startsWith start line = false) : after? start line = none := by
  rw [after?, Option.map_eq_none_iff]
  cases hrest : start.toList.isPrefixOf? line.toList with
  | none => rfl
  | some rest =>
    rw [List.isPrefixOf?_eq_some_iff_append_eq] at hrest
    rw [startsWith_iff.2 ⟨rest, hrest⟩] at h
    cases h

/-- The path can be written on a line of its own and is read back from there. -/
structure PlainPath (path : String) : Prop where
  ne_empty : path ≠ ""
  noNewline : '\n' ∉ path.toList
  noReturn : '\r' ∉ path.toList
  noTab : '\t' ∉ path.toList
  noBlankEnd : ∀ c ∈ path.toList.getLast?, isBlank c = false

theorem PlainPath.trimEnd_append {path : String} (h : PlainPath path) (start : String) :
    trimEnd (start ++ path) = start ++ path := by
  have hne : path.toList ≠ [] := by simpa using h.ne_empty
  obtain ⟨init, last, hpath⟩ := (List.eq_nil_or_concat path.toList).resolve_left hne
  have hlast : isBlank last = false := h.noBlankEnd last (by simp [hpath])
  rw [← String.toList_inj]
  simp [trimEnd, dropEndWhile, hpath, hlast]

/-- The path of a side is read back from behind the letter of the side. -/
theorem PlainPath.pathOfSide {path : String} (h : PlainPath path) {side : String} (hside : side = "a/" ∨ side = "b/") :
    Patch.pathOfSide side (side ++ path) = some path := by
  have htabs : (side ++ path).toList.takeWhile (· ≠ '\t') = (side ++ path).toList := by
    rw [List.takeWhile_eq_self_iff]
    intro c hc
    have hside : '\t' ∉ side.toList := by rcases hside with rfl | rfl <;> decide
    rw [decide_eq_true_eq]
    rintro rfl
    rw [String.toList_append, List.mem_append] at hc
    exact hc.elim hside h.noTab
  have hnull : side ++ path ≠ "/dev/null" := by
    intro heq
    have hhead := congrArg (fun s => s.toList.head?) heq
    rcases hside with rfl | rfl <;> simp at hhead
  rw [Patch.pathOfSide, htabs, String.ofList_toList, h.trimEnd_append, if_neg hnull, after?_append, Option.getD_some]

/-! ## Names above the hunks -/

section Mentions

variable {old new : Mention} {line : String} {rest : List String}

/-- A line that names no file mentions nothing. -/
theorem mentions_other (hheader : startsWith "@@" line = false) (hold : startsWith "--- " line = false)
    (hnew : startsWith "+++ " line = false) : mentions old new (line :: rest) = mentions old new rest := by
  rw [mentions, isHeaderLine, hheader, after?_eq_none hold, after?_eq_none hnew]
  rfl

/-- A line with the old path mentions it. -/
theorem mentions_old (written : String) :
    mentions old new (("--- " ++ written) :: rest) = mentions (some (pathOfSide "a/" written)) new rest := by
  have hheader : isHeaderLine ("--- " ++ written) = false := startsWith_eq_false (c := '@') rfl (by simp)
  rw [mentions, hheader, after?_append]
  rfl

theorem mentions_new (written : String) :
    mentions old new (("+++ " ++ written) :: rest) = mentions old (some (pathOfSide "b/" written)) rest := by
  have hheader : isHeaderLine ("+++ " ++ written) = false := startsWith_eq_false (c := '@') rfl (by simp)
  have hold : startsWith "--- " ("+++ " ++ written) = false := startsWith_eq_false (c := '-') rfl (by simp)
  rw [mentions, hheader, after?_eq_none hold, after?_append]
  rfl

/-- Nothing is mentioned from the first header on. -/
theorem mentions_cuts (bs : List Block) : mentions old new (cutLines (bs.map Block.cut)) = (old, new) := by
  cases bs with
  | nil => rfl
  | cons b bs =>
    have hheader : isHeaderLine b.topLine = true := by
      simp [isHeaderLine, startsWith, Block.topLine, toString]
    rw [List.map_cons, cutLines, List.flatMap_cons, Block.cut, List.cons_append, mentions, if_pos hheader]

end Mentions

/-! ## Lines of hunks -/

section Cuts

variable {bs : List Block} {l : String} (hl : l ∈ cutLines (bs.map Block.cut))

include hl

/-- A line of hunks is a header, a marked line or a note. -/
theorem mem_cuts_cases : (∃ b ∈ bs, l = b.topLine) ∨
    (∃ b ∈ bs, ∃ e ∈ b.entries, l = e.fate.mark ++ bare e.line) ∨ l = bareNote := by
  obtain ⟨_, hcut, hl⟩ := List.mem_flatMap.1 hl
  obtain ⟨b, hb, rfl⟩ := List.mem_map.1 hcut
  rcases List.mem_cons.1 hl with rfl | hl
  · exact .inl ⟨b, hb, rfl⟩
  · obtain ⟨e, he, hl⟩ := List.mem_flatMap.1 hl
    rcases List.mem_cons.1 hl with rfl | hl
    · exact .inr (.inl ⟨b, hb, e, he, rfl⟩)
    · split at hl
      · cases hl
      · exact .inr (.inr (List.mem_singleton.1 hl))

/-- A line of a hunk starts like a header or with a mark. -/
theorem head?_of_mem_cuts : l.toList.head? ∈ [some '@', some ' ', some '-', some '+', some '\\'] := by
  obtain ⟨b, -, rfl⟩ | ⟨b, -, e, -, rfl⟩ | rfl := mem_cuts_cases hl
  · simp [Block.topLine, toString]
  · cases e.fate <;> simp [Fate.mark]
  · decide

/-- No line of a hunk opens a section. -/
theorem opensSection_of_mem_cuts : opensSection l = false := by
  have hhead := head?_of_mem_cuts hl
  apply startsWith_eq_false (c := 'd') rfl
  intro hd
  simp [hd] at hhead

end Cuts

/-! ## Printed changes -/

/-- A file with its texts before and after a change. -/
structure FileChange where
  before : String
  after : String
  path : String

namespace FileChange

def diff (c : FileChange) : String :=
  unifiedDiff c.before c.after c.path

/-- The file changes, its lines end in newlines, its path is plain, and no added line can be taken for the name of a
file that is written to. -/
structure Separable (c : FileChange) : Prop where
  changed : c.before ≠ c.after
  noReturnBefore : '\r' ∉ c.before.toList
  noReturnAfter : '\r' ∉ c.after.toList
  noNewName : ∀ l ∈ lines c.after, startsWith "++ b/" l = false
  plainPath : PlainPath c.path

def blocks (c : FileChange) : List Block :=
  Patch.blocks (segmentsBetween c.before c.after)

def printed (c : FileChange) : List String :=
  preamble c.path ++ cutLines (c.blocks.map Block.cut)

variable {c : FileChange} (h : c.Separable)

include h

theorem Separable.oneLine : ∀ b ∈ c.blocks, ∀ e ∈ b.entries, e.OneLine :=
  fun _ hb _ he => oneLine_of_mem_entries hb he h.noReturnBefore h.noReturnAfter

/-- The diff of a file is made of its printed lines. -/
theorem diff_eq : c.diff = unlines c.printed :=
  unifiedDiff_eq_unlines h.changed h.oneLine

theorem not_mem_printed : ∀ l ∈ c.printed, '\n' ∉ l.toList ∧ '\r' ∉ l.toList := by
  intro l hl
  rcases List.mem_append.1 hl with hl | hl
  · have hn := h.plainPath.noNewline
    have hr := h.plainPath.noReturn
    simp only [preamble, List.mem_cons, List.not_mem_nil, or_false] at hl
    rcases hl with rfl | rfl | rfl <;> simp [hn, hr, toString]
  · exact not_mem_cuts h.oneLine l hl

omit h in
theorem printed_eq (c : FileChange) : c.printed = ("diff --git " ++ ("a/" ++ c.path ++ " b/" ++ c.path)) ::
    ("--- " ++ ("a/" ++ c.path)) :: ("+++ " ++ ("b/" ++ c.path)) :: cutLines (c.blocks.map Block.cut) := by
  simp [printed, preamble, ← String.toList_inj, toString]

omit h in
/-- The diff of a file is a section. -/
theorem exists_printed_eq (c : FileChange) : ∃ line body, c.printed = line :: body ∧ opensSection line = true ∧
    ∀ l ∈ body, opensSection l = false := by
  refine ⟨_, _, c.printed_eq, startsWith_iff.2 (by simp), ?_⟩
  intro l hl
  rcases List.mem_cons.1 hl with rfl | hl
  · exact startsWith_eq_false (c := 'd') rfl (by simp)
  · rcases List.mem_cons.1 hl with rfl | hl
    · exact startsWith_eq_false (c := 'd') rfl (by simp)
    · exact opensSection_of_mem_cuts hl

/-- The diff of a file that changes is not blank. -/
theorem isBlankText_diff : isBlankText c.diff = false := by
  have hd : isBlank 'd' = false := by decide
  rw [diff_eq h, printed_eq]
  simp [unlines, isBlankText, hd]

/-- Above its hunks a diff names its file on both sides. -/
theorem mentions_printed : mentions none none c.printed = (some (some c.path), some (some c.path)) := by
  rw [printed_eq, mentions_other, mentions_old, mentions_new, mentions_cuts, h.plainPath.pathOfSide (.inl rfl),
    h.plainPath.pathOfSide (.inr rfl)]
  · exact startsWith_eq_false (c := '@') rfl (by simp)
  · exact startsWith_eq_false (c := '-') rfl (by simp)
  · exact startsWith_eq_false (c := '+') rfl (by simp)

/-- The section of a file's diff has the path of the file on both sides. -/
theorem ofText_diff :
    FileSection.ofText c.diff = { oldPath := some c.path, newPath := some c.path, text := c.diff } := by
  have hlines : lines c.diff = c.printed := by
    rw [diff_eq h]
    exact lines_unlines_of_not_mem (not_mem_printed h)
  rw [FileSection.ofText, hlines, mentions_printed h]
  rfl

/-- No line of a hunk names a file that is written to. -/
theorem writtenPath?_of_mem_cuts {l : String} (hl : l ∈ cutLines (c.blocks.map Block.cut)) : writtenPath? l = none := by
  have hother : startsWith "+++ b/" l = false := by
    obtain ⟨b, -, rfl⟩ | ⟨b, hb, e, he, rfl⟩ | rfl := mem_cuts_cases hl
    · exact startsWith_eq_false (c := '+') rfl (by simp [Block.topLine, toString])
    · cases hfate : e.fate with
      | stays => exact startsWith_eq_false (c := '+') rfl (by simp [Fate.mark])
      | goes => exact startsWith_eq_false (c := '+') rfl (by simp [Fate.mark])
      | comes =>
        have hmem := (mem_terminatedLines_of_mem_entries hb he).2 (by simp [hfate])
        have hline : bare e.line ∈ lines c.after := by
          rw [lines_eq_map_bare h.noReturnAfter]
          exact List.mem_map_of_mem hmem
        have hname := h.noNewName _ hline
        simp_all [startsWith, Fate.mark]
    · decide
  rw [writtenPath?, after?_eq_none hother]

/-- The diff of a file writes to that file only. -/
theorem filterMap_writtenPath?_printed : c.printed.filterMap writtenPath? = [c.path] := by
  have hcuts : (cutLines (c.blocks.map Block.cut)).filterMap writtenPath? = [] := by
    rw [List.filterMap_eq_nil_iff]
    exact fun l hl => writtenPath?_of_mem_cuts h hl
  have hgit : writtenPath? ("diff --git " ++ ("a/" ++ c.path ++ " b/" ++ c.path)) = none := by
    rw [writtenPath?, after?_eq_none (startsWith_eq_false (c := '+') rfl (by simp))]
  have hold : writtenPath? ("--- " ++ ("a/" ++ c.path)) = none := by
    rw [writtenPath?, after?_eq_none (startsWith_eq_false (c := '+') rfl (by simp))]
  have hnew : writtenPath? ("+++ " ++ ("b/" ++ c.path)) = some c.path := by
    have hjoin : "+++ " ++ ("b/" ++ c.path) = "+++ b/" ++ c.path := by
      rw [← String.toList_inj]
      simp
    rw [hjoin, writtenPath?, after?_append]
    simp [h.plainPath.ne_empty, dropReturn_of_not_mem h.plainPath.noReturn]
  simp [printed_eq, hgit, hold, hnew, hcuts]

end FileChange

/-! ## Several changes -/

section Changes

variable {changes : List FileChange} (h : ∀ c ∈ changes, c.Separable)

include h

theorem join_diffs_eq : String.join (changes.map FileChange.diff) = unlines (changes.flatMap FileChange.printed) :=
  join_map_eq_unlines fun c hc => FileChange.diff_eq (h c hc)

theorem not_mem_diffs : ∀ l ∈ changes.flatMap FileChange.printed, '\n' ∉ l.toList ∧ '\r' ∉ l.toList := by
  intro l hl
  obtain ⟨c, hc, hl⟩ := List.mem_flatMap.1 hl
  exact FileChange.not_mem_printed (h c hc) l hl

/-- The diffs of several files are cut into the diff of each. -/
theorem split_diffs : FileSection.split (String.join (changes.map FileChange.diff)) =
    changes.map fun c => { oldPath := some c.path, newPath := some c.path, text := c.diff } := by
  have hsections : (sectionLines (changes.flatMap FileChange.printed)).map unlines = changes.map FileChange.diff := by
    rw [sectionLines_flatMap fun c _ => c.exists_printed_eq, List.map_map]
    exact List.map_congr_left fun c hc => (FileChange.diff_eq (h c hc)).symm
  have hsome : ∀ t ∈ changes.map FileChange.diff, isBlankText t = false := by
    intro t ht
    obtain ⟨c, hc, rfl⟩ := List.mem_map.1 ht
    exact FileChange.isBlankText_diff (h c hc)
  rw [FileSection.split, join_diffs_eq h, lines_unlines_of_not_mem (not_mem_diffs h), hsections,
    dropBlankLast_eq_self fun t ht => hsome t (List.mem_of_getLast? ht), List.map_map]
  exact List.map_congr_left fun c hc => FileChange.ofText_diff (h c hc)

/-- A diff of files writes to these files, in order. -/
theorem editedFiles_diffs :
    editedFiles (String.join (changes.map FileChange.diff)) = changes.map FileChange.path := by
  have hpaths : (changes.flatMap FileChange.printed).filterMap writtenPath? = changes.map FileChange.path := by
    rw [List.filterMap_flatMap, List.flatMap_congr fun c hc => FileChange.filterMap_writtenPath?_printed (h c hc),
      List.map_eq_flatMap]
  rw [editedFiles, join_diffs_eq h, pieces_unlines fun l hl => (not_mem_diffs h l hl).1, List.filterMap_append, hpaths]
  simp [writtenPath?, after?, List.isPrefixOf?]

end Changes

/-- The diffs of several files, one after the other, are read as the diffs of just these files, and sliced as such, one
after the other. -/
theorem diffs_of_files (changes : List FileChange) (h : ∀ c ∈ changes, c.Separable) :
    FileSection.split (String.join (changes.map FileChange.diff)) =
        changes.map (fun c => { oldPath := some c.path, newPath := some c.path, text := c.diff }) ∧
      editedFiles (String.join (changes.map FileChange.diff)) = changes.map FileChange.path ∧
      ∀ (known : String → Option String) (options : SliceOptions),
        slicePatch known (String.join (changes.map FileChange.diff)) options =
          (changes.filterMap fun c => (known c.path).map fun text => (c, text)).mapM fun (c, text) =>
            (sliceFile text none c.diff c.path options).map fun outcome => { path := c.path, outcome } := by
  refine ⟨split_diffs h, editedFiles_diffs h, fun known options => ?_⟩
  have hsections : knownSections known (String.join (changes.map FileChange.diff)) =
      (changes.filterMap fun c => (known c.path).map fun text => (c, text)).map fun (c, text) =>
        (c.path, text, c.diff) := by
    rw [knownSections, split_diffs h, List.filterMap_map, List.map_filterMap]
    refine List.filterMap_congr fun c _ => ?_
    cases hknown : known c.path with
    | none => simp [FileSection.path, FileSection.textBefore?, hknown]
    | some text => simp [FileSection.path, FileSection.textBefore?, hknown]
  rw [slicePatch, hsections, List.mapM_map]
  rfl

/-- One file gets a line that starts with dashes, and another is new and has a blank in its path. -/
theorem diffs_of_two_files :
    FileSection.split (String.join ([⟨"a\n", "--a", "x.js"⟩, ⟨"", "++ b\n", "y z"⟩].map FileChange.diff)) =
        [⟨"x.js", "x.js", unifiedDiff "a\n" "--a" "x.js"⟩, ⟨"y z", "y z", unifiedDiff "" "++ b\n" "y z"⟩] ∧
      editedFiles (String.join ([⟨"a\n", "--a", "x.js"⟩, ⟨"", "++ b\n", "y z"⟩].map FileChange.diff)) =
        ["x.js", "y z"] ∧
      ∀ (known : String → Option String) (options : SliceOptions),
        slicePatch known (String.join ([⟨"a\n", "--a", "x.js"⟩, ⟨"", "++ b\n", "y z"⟩].map FileChange.diff)) options =
          ([⟨"a\n", "--a", "x.js"⟩, ⟨"", "++ b\n", "y z"⟩].filterMap fun c : FileChange =>
            (known c.path).map fun text => (c, text)).mapM fun (c, text) =>
              (sliceFile text none c.diff c.path options).map fun outcome => { path := c.path, outcome } :=
  diffs_of_files [⟨"a\n", "--a", "x.js"⟩, ⟨"", "++ b\n", "y z"⟩] <| List.forall_mem_cons.2
    ⟨⟨by decide, by decide, by decide, by decide, by decide, by decide, by decide, by decide, by rintro c ⟨⟩; rfl⟩,
      List.forall_mem_singleton.2
        ⟨by decide, by decide, by decide, by decide, by decide, by decide, by decide, by decide, by rintro c ⟨⟩; rfl⟩⟩

end DiffSlice.Patch
