import DiffSlice.Proofs.EditAgreement
import DiffSlice.Proofs.RoundTrip

/-!
# The edits of a printed diff

Reading the diff of two texts recovers the script between them, where its segments tile both texts: the edits are the
lines by which the texts differ, under their own numbers (`edits_unifiedDiff`). Segments that tile are cut into blocks
that tile (`blocks_tile`), the range of such a block is where it lies (`Block.Tiles.oldExtent_eq`,
`Block.Tiles.newExtent_eq`), and so its hunk counts its lines and stands where the hunks before it lead
(`Laid.hunksFit`).
-/

namespace DiffSlice.Patch

open DiffSlice.Text

/-! ## Blocks that tile -/

instance SegmentsTile.decidable : (o n : Nat) → (segments : List Segment) → Decidable (SegmentsTile o n segments)
  | _, _, [] => isTrue trivial
  | o, n, s :: rest =>
    have := SegmentsTile.decidable (o + s.old.length) (n + s.new.length) rest
    inferInstanceAs (Decidable (_ ∧ _ ∧ _))

/-- Segments tile if the first ones do, and the others do after them. -/
theorem segmentsTile_append {o n : Nat} {ss ts : List Segment} : SegmentsTile o n (ss ++ ts) ↔ SegmentsTile o n ss ∧
    SegmentsTile (o + (ss.flatMap Segment.old).length) (n + (ss.flatMap Segment.new).length) ts := by
  induction ss generalizing o n with
  | nil => simp [SegmentsTile]
  | cons s ss ih => simp [SegmentsTile, ih, and_assoc, Nat.add_assoc]

theorem segmentsTile_trimLast {o n : Nat} {segments : List Segment} (h : SegmentsTile o n segments) :
    SegmentsTile o n (trimLast segments) := by
  fun_induction trimLast segments generalizing o n with
  | case1 => exact h
  | case2 ls => exact ⟨rfl, rfl, trivial⟩
  | case3 s rest _ ih => exact ⟨h.1, h.2.1, ih h.2.2⟩

/-- Every segment of the block starts where the one before it ends, the first one where the block says. -/
def Block.Tiles (b : Block) : Prop :=
  SegmentsTile b.oldBefore b.newBefore b.segments

theorem Block.tiles_push {b : Block} (h : b.Tiles) {s : Segment}
    (ho : (s.oldExtent (b.oldBefore + b.old.length)).start = b.oldBefore + b.old.length)
    (hn : (s.newExtent (b.newBefore + b.new.length)).start = b.newBefore + b.new.length) : (b.push s).Tiles :=
  segmentsTile_append.2 ⟨h, ho, hn, trivial⟩

/-- Blocks that are cut from segments that tile have segments that tile. -/
theorem blocksFrom_tile (rest : List Segment) (current : Block) (hc : current.Tiles)
    (hrest : SegmentsTile (current.oldBefore + current.old.length) (current.newBefore + current.new.length) rest) :
    ∀ b ∈ blocksFrom current rest, b.Tiles := by
  fun_induction blocksFrom current rest with
  | case1 current _ =>
    intro b hb
    rw [List.mem_singleton.1 hb]
    exact hc
  | case2 => simp
  | case3 current ls rest hlong next =>
    rename_i ih
    have hshown : (ls.drop (ls.length - contextSize)).length = contextSize := by
      rw [List.length_drop]
      omega
    have hold : next.old = ls.drop (ls.length - contextSize) := by simp [next, Block.old, Segment.old]
    have hnew : next.new = ls.drop (ls.length - contextSize) := by simp [next, Block.new, Segment.new]
    have hnext : SegmentsTile (next.oldBefore + next.old.length) (next.newBefore + next.new.length) rest := by
      rw [hold, hnew, hshown]
      convert hrest.2.2 using 1
      · show current.oldBefore + current.old.length + (ls.length - contextSize) + contextSize = _ + ls.length
        omega
      · show current.newBefore + current.new.length + (ls.length - contextSize) + contextSize = _ + ls.length
        omega
    intro b hb
    rcases List.mem_cons.1 hb with rfl | hb
    · exact Block.tiles_push hc rfl rfl
    · exact ih ⟨rfl, rfl, trivial⟩ hnext b hb
  | case4 current ls rest _ ih =>
    refine ih (Block.tiles_push hc rfl rfl) ?_
    simpa [← Nat.add_assoc] using hrest.2.2
  | case5 current s rest _ ih =>
    refine ih (Block.tiles_push hc hrest.1 hrest.2.1) ?_
    simpa [← Nat.add_assoc] using hrest.2.2

/-- Segments that tile are cut into blocks that tile. -/
theorem blocks_tile {segments : List Segment} (h : SegmentsTile 0 0 segments) : ∀ b ∈ blocks segments, b.Tiles := by
  have htrim := segmentsTile_trimLast h
  rw [blocks]
  split
  · rename_i ls rest hsegments
    rw [hsegments] at htrim
    refine blocksFrom_tile rest _ ⟨rfl, rfl, trivial⟩ ?_
    convert htrim.2.2 using 1 <;>
      simp only [Block.old, Block.new, Segment.old, Segment.new, List.flatMap_cons, List.flatMap_nil, List.append_nil,
        List.length_drop] <;>
      omega
  · exact blocksFrom_tile (trimLast segments) ⟨0, 0, []⟩ trivial htrim

theorem getD_map_eq {α β : Type} {o : Option α} {f : α → β} {b : β} (h : ∀ a ∈ o, f a = b) : (o.map f).getD b = b := by
  cases o with
  | none => rfl
  | some a => exact h a rfl

namespace Block.Tiles

variable {b : Block} (h : b.Tiles)

include h

theorem head {s : Segment} (hs : b.segments.head? = some s) :
    (s.oldExtent b.oldBefore).start = b.oldBefore ∧ (s.newExtent b.newBefore).start = b.newBefore := by
  obtain ⟨rest, hrest⟩ := List.head?_eq_some_iff.1 hs
  rw [Block.Tiles, hrest] at h
  exact ⟨h.1, h.2.1⟩

theorem getLast {s : Segment} (hs : b.segments.getLast? = some s) :
    (s.oldExtent (b.oldBefore + b.old.length - s.old.length)).stop = b.oldBefore + b.old.length ∧
      (s.newExtent (b.newBefore + b.new.length - s.new.length)).stop = b.newBefore + b.new.length := by
  obtain ⟨init, hinit⟩ := List.getLast?_eq_some_iff.1 hs
  rw [Block.Tiles, hinit, segmentsTile_append] at h
  obtain ⟨_, ho, hn, _⟩ := h
  have hold : b.old.length = (init.flatMap Segment.old).length + s.old.length := by simp [Block.old, hinit]
  have hnew : b.new.length = (init.flatMap Segment.new).length + s.new.length := by simp [Block.new, hinit]
  rw [hold, hnew, ← Nat.add_assoc, ← Nat.add_assoc, Nat.add_sub_cancel, Nat.add_sub_cancel]
  cases s <;> simp_all [Segment.oldExtent, Segment.newExtent, Segment.old, Segment.new]

/-- The old range of a block that tiles is where it lies. -/
theorem oldExtent_eq : b.oldExtent = ⟨b.oldBefore, b.oldBefore + b.old.length⟩ := by
  rw [Block.oldExtent, getD_map_eq fun _ hs => (h.head hs).1, getD_map_eq fun _ hs => (h.getLast hs).1]

/-- The new range of a block that tiles is where it lies. -/
theorem newExtent_eq : b.newExtent = ⟨b.newBefore, b.newBefore + b.new.length⟩ := by
  rw [Block.newExtent, getD_map_eq fun _ hs => (h.head hs).2, getD_map_eq fun _ hs => (h.getLast hs).2]

end Block.Tiles

/-! ## Hunks that count their lines -/

/-- The header of a block stands for the place where the block starts among the new lines. -/
theorem Block.header_newPosition (b : Block) : b.header.newPosition = b.newExtent.start :=
  b.newExtent.position_number

theorem Extent.number_pos {e : Extent} (h : e.stop - e.start ≠ 0) : 1 ≤ e.number := by
  rw [Extent.number, if_neg h]
  omega

namespace Block.Tiles

variable {b : Block} (h : b.Tiles)

include h

/-- The header of a block counts its old lines. -/
theorem oldCount_eq (ho : b.old.length ≤ lineLimit) : b.hunk.header.oldCount = b.old.length := by
  show countRead (b.oldExtent.stop - b.oldExtent.start) = _
  simp [h.oldExtent_eq, countRead, ho]

theorem newCount_eq (hn : b.new.length ≤ lineLimit) : b.hunk.header.newCount = b.new.length := by
  show countRead (b.newExtent.stop - b.newExtent.start) = _
  simp [h.newExtent_eq, countRead, hn]

/-- The hunk of a block that tiles counts its lines and stands where the block lies. -/
theorem fits (ho : b.old.length ≤ lineLimit) (hn : b.new.length ≤ lineLimit) {drift : Int}
    (hdrift : (b.newBefore : Int) = b.oldBefore + drift) :
    b.hunk.header.fits drift (b.hunk.body.countP BodyLine.isOld) (b.hunk.body.countP BodyLine.isNew) = true := by
  obtain ⟨hold, hnew⟩ := b.rewrites.length_eq
  rw [List.length_map] at hold hnew
  have hfirstOld : b.old.length = 0 ∨ 1 ≤ b.oldExtent.number :=
    or_iff_not_imp_left.2 fun hne => Extent.number_pos (by simpa [h.oldExtent_eq] using hne)
  have hfirstNew : b.new.length = 0 ∨ 1 ≤ b.newExtent.number :=
    or_iff_not_imp_left.2 fun hne => Extent.number_pos (by simpa [h.newExtent_eq] using hne)
  have hplace : (b.header.newPosition : Int) = b.header.oldPosition + drift := by
    rw [b.header_newPosition, b.header_oldPosition, h.oldExtent_eq, h.newExtent_eq]
    exact hdrift
  rw [← hold, ← hnew]
  simp only [Header.fits, Bool.and_eq_true, Bool.or_eq_true, decide_eq_true_eq]
  exact ⟨⟨⟨⟨h.oldCount_eq ho, h.newCount_eq hn⟩, hfirstOld⟩, hfirstNew⟩, hplace⟩

end Block.Tiles

/-- The hunks of blocks that tile stand where the hunks before them lead. -/
theorem Laid.hunksFit {o n : Nat} {old new : List String} {bs : List Block} (h : Laid o n old new bs)
    (htile : ∀ b ∈ bs, b.Tiles) (hold : old.length ≤ lineLimit) (hnew : new.length ≤ lineLimit) :
    HunksFit (n - o) (bs.map Block.hunk) := by
  induction h with
  | rest => trivial
  | @block o n old new b bs gap oldLater newLater hOld hNew ho hn shown later ih =>
    subst hOld hNew
    simp only [List.length_append] at hold hnew
    have hb := htile b List.mem_cons_self
    refine ⟨hb.fits (by omega) (by omega) (by omega), ?_⟩
    have ih := ih (fun c hc => htile c (List.mem_cons_of_mem _ hc)) (by omega) (by omega)
    convert ih using 1
    rw [hb.oldCount_eq (by omega), hb.newCount_eq (by omega)]
    omega

/-- The hunks of blocks that tile make the old lines differ from the new ones by their edits. -/
theorem Laid.differ {old new : List String} {bs : List Block} (h : Laid 0 0 old new bs)
    (hplace : ∀ b ∈ bs, b.oldExtent.start = b.oldBefore) (htile : ∀ b ∈ bs, b.Tiles) (hold : old.length ≤ lineLimit)
    (hnew : new.length ≤ lineLimit) :
    Differ 0 0 ((bs.map Block.hunk).flatMap Hunk.addedLines) ((bs.map Block.hunk).flatMap Hunk.removedLines)
      (old.map bare) (new.map bare) := by
  obtain ⟨shown, tail, hs⟩ := h.spliced hplace
  rw [← hs.lines]
  exact hs.splices.differ (h.hunksFit htile hold hnew)

theorem removed_mem_of_mem_removedIn {n : Nat} {body : List BodyLine} {e : LineEdit} (h : e ∈ removedIn n body) :
    .removed e.text ∈ body := by
  fun_induction removedIn n body with
  | case1 => cases h
  | case2 n text body ih =>
    rcases List.mem_cons.1 h with rfl | h
    · exact List.mem_cons_self
    · exact List.mem_cons_of_mem _ (ih h)
  | case3 n _ body ih => exact List.mem_cons_of_mem _ (ih h)
  | case4 n _ body ih => exact List.mem_cons_of_mem _ (ih h)
  | case5 n body ih => exact List.mem_cons_of_mem _ (ih h)

/-- A line that the hunk of a readable block removes has no carriage return. -/
theorem Block.Readable.not_mem_removed {b : Block} (h : b.Readable) {e : LineEdit} (he : e ∈ b.hunk.removedLines) :
    '\r' ∉ e.text.toList := by
  obtain ⟨entry, hentry, hm⟩ := List.mem_flatMap.1 (removed_mem_of_mem_removedIn he)
  have htext : e.text = bare entry.line := by
    obtain ⟨fate, line⟩ := entry
    rw [Entry.body] at hm
    cases fate <;> split at hm <;> simp_all [Fate.bodyLine]
  rw [htext]
  exact fun hr => (h.entries entry hentry).noReturn (mem_of_mem_bare hr)

/-- Without carriage returns, lines that count as the same are equal. -/
theorem eq_of_sameLine {expected found : String} (he : '\r' ∉ expected.toList) (hf : '\r' ∉ found.toList)
    (h : sameLine expected found = true) : found = expected := by
  rwa [sameLine, dropReturns_of_not_mem he, dropReturns_of_not_mem hf, beq_iff_eq] at h

/-! ## The edits between two texts -/

section Texts

variable {before after path : String} (hb : '\r' ∉ before.toList) (ha : '\r' ∉ after.toList)
  (hold : ∀ l ∈ lines before, startsWith "--" l = false) (hnew : ∀ l ∈ lines after, startsWith "++" l = false)
  (hpath : '\n' ∉ path.toList) (htiles : ∀ b ∈ blocks (segmentsBetween before after), b.Tiles)
  (hob : (lines before).length < lineLimit) (hna : (lines after).length < lineLimit)

include hb ha hold hnew hpath htiles hob hna in
/-- The edits of a printed diff are those of blocks that lie in order in both texts and tile. -/
theorem exists_blocks : ∃ bs : List Block, Laid 0 0 (terminatedLines before) (terminatedLines after) bs ∧
    (∀ b ∈ bs, b.oldExtent.start = b.oldBefore) ∧ (∀ b ∈ bs, b.Tiles) ∧ (∀ b ∈ bs, b.Readable) ∧
    Edits.ofDiff (unifiedDiff before after path) =
      { added := (bs.map Block.hunk).flatMap Hunk.addedLines
        removed := (bs.map Block.hunk).flatMap Hunk.removedLines } := by
  by_cases hne : before = after
  · subst hne
    refine ⟨[], .rest 0 0 _, by simp, by simp, by simp, ?_⟩
    rw [unifiedDiff, if_pos rfl]
    rfl
  · have hlaid := blocks_laid (segmentsBetween before after)
    rw [segmentsBetween_old, segmentsBetween_new] at hlaid
    have hread := blocks_readable hb ha hold hnew hob hna
    refine ⟨_, hlaid, fun b hm => oldExtent_start hm, htiles, hread, ?_⟩
    have hone := fun b hb e he => ((hread b hb).entries e he).toOneLine
    rw [Edits.ofDiff, unifiedDiff_eq_unlines hne hone, lines_cuts hpath hone,
      editsFrom_preamble fun l hl => isHeaderLine_preamble hl,
      editsFrom_cuts ((readFrom_cuts hread).imp fun _ _ => Hunk.ReadFrom.countedFrom)]

end Texts

/-- Reading the diff of two texts recovers the script between them, if its segments tile the texts: no header is
malformed, the numbers of the removed and of the added lines grow, each such line stands under its number in the old
or the new text, and without them the texts are the same. A script that was compacted need not tile: where an addition is
moved behind lines equal to it, a removal that it passes keeps the place it had among the new lines. -/
theorem edits_unifiedDiff {before after path : String} (hb : '\r' ∉ before.toList) (ha : '\r' ∉ after.toList)
    (hold : ∀ l ∈ lines before, startsWith "--" l = false) (hnew : ∀ l ∈ lines after, startsWith "++" l = false)
    (hpath : '\n' ∉ path.toList) (htile : SegmentsTile 0 0 (segmentsBetween before after))
    (hob : (lines before).length < lineLimit) (hna : (lines after).length < lineLimit) :
    let edits := Edits.ofDiff (unifiedDiff before after path)
    edits.malformed = [] ∧
      (edits.removed.map LineEdit.number).Pairwise (· < ·) ∧ (edits.added.map LineEdit.number).Pairwise (· < ·) ∧
      (∀ e ∈ edits.removed, 0 < e.number ∧ (lines before)[e.number - 1]? = some e.text) ∧
      (∀ e ∈ edits.added, 0 < e.number ∧ (lines after)[e.number - 1]? = some e.text) ∧
      withoutNumbers (edits.removed.map LineEdit.number) 0 (lines before) =
        withoutNumbers (edits.added.map LineEdit.number) 0 (lines after) := by
  have htiles := blocks_tile htile
  obtain ⟨bs, hlaid, hplace, htiles, hread, hedits⟩ := exists_blocks hb ha hold hnew hpath htiles hob hna
  rw [lines_eq_map_bare hb, List.length_map] at hob
  rw [lines_eq_map_bare ha, List.length_map] at hna
  have hdiffer := hlaid.differ hplace htiles (Nat.le_of_lt hob) (Nat.le_of_lt hna)
  rw [hedits, lines_eq_map_bare hb, lines_eq_map_bare ha]
  refine ⟨rfl, hdiffer.pairwise_numbers.2, hdiffer.pairwise_numbers.1, fun e he => ?_, fun e he => ?_, ?_⟩
  · obtain ⟨i, line, hi, hline, hsame⟩ := hdiffer.getElem?_removed e he
    obtain ⟨_, hhunk, hmem⟩ := List.mem_flatMap.1 he
    obtain ⟨b, hm, rfl⟩ := List.mem_map.1 hhunk
    obtain ⟨l, hl, rfl⟩ := List.mem_map.1 (List.mem_of_getElem? hline)
    have hfound : '\r' ∉ (bare l).toList := fun hr => (not_mem_bare_of_mem hb l hl).2 (mem_of_mem_bare hr)
    have htext := eq_of_sameLine ((hread b hm).not_mem_removed hmem) hfound hsame
    rw [hi, ← htext]
    exact ⟨by omega, by simpa using hline⟩
  · obtain ⟨i, hi, hline⟩ := hdiffer.getElem?_added e he
    rw [hi]
    exact ⟨by omega, by simpa using hline⟩
  · simpa using (hdiffer.withoutNumbers_eq []).symm

/-- A line is removed at the start, and another one is added at the end. -/
theorem edits_unifiedDiff_two_hunks :
    let edits := Edits.ofDiff (unifiedDiff "a\nb\n\n\n\n\n\n\n\nc\n" "b\n\n\n\n\n\n\n\nc\nd" "a.js")
    edits.malformed = [] ∧
      (edits.removed.map LineEdit.number).Pairwise (· < ·) ∧ (edits.added.map LineEdit.number).Pairwise (· < ·) ∧
      (∀ e ∈ edits.removed,
        0 < e.number ∧ (lines "a\nb\n\n\n\n\n\n\n\nc\n")[e.number - 1]? = some e.text) ∧
      (∀ e ∈ edits.added, 0 < e.number ∧ (lines "b\n\n\n\n\n\n\n\nc\nd")[e.number - 1]? = some e.text) ∧
      withoutNumbers (edits.removed.map LineEdit.number) 0 (lines "a\nb\n\n\n\n\n\n\n\nc\n") =
        withoutNumbers (edits.added.map LineEdit.number) 0 (lines "b\n\n\n\n\n\n\n\nc\nd") :=
  edits_unifiedDiff (by decide) (by decide) (by decide) (by decide) (by decide) (by decide +kernel) (by decide)
    (by decide)

/-- The added line is moved behind one equal to it, but the removed line still counts it among the new lines above. -/
example : ¬SegmentsTile 0 0 (segmentsBetween "a\nb\n" "b\nb\n") := by
  decide +kernel

end DiffSlice.Patch
