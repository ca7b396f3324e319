import DiffSlice.Proofs.DiffText
import DiffSlice.Proofs.EditAgreement
import DiffSlice.Slice.File

/-!
# A diff of two texts turns the one into the other

Applying the diff of two texts to the first gives the second, down to the newline at its end
(`applyDiff_unifiedDiff`). Blocks that lie in order in both lists of lines splice the old lines into the new ones
(`Laid.spliced`), whatever their headers count; what the blocks show of the last line decides about the newline
(`endsNew_eq`).
-/

namespace DiffSlice.Patch

open DiffSlice.Text

/-! ## Lines -/

theorem sameLine_self (l : String) : sameLine l l = true := by
  simp [sameLine]

/-- The body of entries makes their new lines of their old ones. -/
theorem rewrites_entries (es : List Entry) :
    Rewrites (es.flatMap Entry.body) ((oldOf es).map bare) ((newOf es).map bare) := by
  induction es with
  | nil => exact .nil
  | cons e es ih =>
    have hnote : Rewrites ((if endsLine e.line then [] else [.noNewline]) ++ es.flatMap Entry.body)
        ((oldOf es).map bare) ((newOf es).map bare) := by
      split
      · exact ih
      · exact .noNewline ih
    obtain ⟨fate, line⟩ := e
    cases fate with
    | stays => exact .context (sameLine_self _) hnote
    | goes => exact .removed (sameLine_self _) hnote
    | comes => exact .added _ hnote

theorem Block.rewrites (b : Block) : Rewrites b.hunk.body (b.old.map bare) (b.new.map bare) := by
  rw [← b.oldOf_entries, ← b.newOf_entries]
  exact rewrites_entries b.entries

/-- The hunks of blocks make `shown` of the old lines and leave `tail`, and this gives the new lines. If nothing is
left, the last new line is one that a block shows. -/
structure Spliced (o : Nat) (old new : List String) (bs : List Block) (shown tail : List String) : Prop where
  splices : Splices o (bs.map Block.hunk) (old.map bare) shown (tail.map bare)
  lines : shown ++ tail.map bare = new.map bare
  oldSuffix : tail <:+ old
  newSuffix : tail <:+ new
  lastShown : tail = [] → ∀ l, new.getLast? = some l → ∃ b ∈ bs, l ∈ b.new

/-- The hunks of blocks that are laid out can be spliced in. -/
theorem Laid.spliced {o n : Nat} {old new : List String} {bs : List Block} (h : Laid o n old new bs)
    (hplace : ∀ b ∈ bs, b.oldExtent.start = b.oldBefore) : ∃ shown tail, Spliced o old new bs shown tail := by
  induction h with
  | rest o n ls =>
    refine ⟨[], ls, .done _ _, rfl, List.suffix_refl _, List.suffix_refl _, ?_⟩
    rintro rfl l hl
    cases hl
  | @block o n old new b bs gap oldLater newLater hold hnew ho hn shown later ih =>
    subst hold hnew
    obtain ⟨new, tail, hs⟩ := ih fun c hc => hplace c (List.mem_cons_of_mem _ hc)
    refine ⟨gap.map bare ++ (b.new.map bare ++ new), tail, ?_, ?_, ?_, ?_, ?_⟩
    · rw [List.map_append, List.map_append]
      refine .hunk (gap.map bare) ?_ b.rewrites ?_
      · rw [List.length_map, ← ho]
        exact b.header_oldPosition.trans (hplace b List.mem_cons_self)
      · rw [List.length_map, List.length_map, ← ho]
        exact hs.splices
    · simp [← hs.lines]
    · exact hs.oldSuffix.trans ((List.suffix_append _ _).trans (List.suffix_append _ _))
    · exact hs.newSuffix.trans ((List.suffix_append _ _).trans (List.suffix_append _ _))
    · intro ht l hl
      by_cases hlater : newLater = []
      · rw [hlater, List.append_nil] at hl
        -- where a stretch was skipped, the block after it shows a line
        refine ⟨b, List.mem_cons_self, ?_⟩
        rcases shown with rfl | hb
        · exact List.mem_of_getLast? hl
        · rw [List.getLast?_append_of_ne_nil _ hb] at hl
          exact List.mem_of_getLast? hl
      · rw [List.getLast?_append_of_ne_nil _ (List.append_ne_nil_of_right_ne_nil _ hlater),
          List.getLast?_append_of_ne_nil _ hlater] at hl
        obtain ⟨c, hc, hl⟩ := hs.lastShown ht l hl
        exact ⟨c, List.mem_cons_of_mem _ hc, hl⟩

/-! ## The newline at the end -/

theorem leavesBareEnd_entries (es : List Entry) (onNewSide : Bool) :
    leavesBareEnd onNewSide (es.flatMap Entry.body) = (newOf es).any fun l => !endsLine l := by
  induction es generalizing onNewSide with
  | nil => rfl
  | cons e es ih =>
    obtain ⟨fate, line⟩ := e
    by_cases hend : endsLine line = true <;>
      cases fate <;> simp [Entry.body, Fate.bodyLine, leavesBareEnd, newOf, hend] <;> simpa [newOf] using ih _

/-- Hunks note an end without newline if a new line has none. -/
theorem leavesBareEnd_hunks_iff {bs : List Block} :
    ((bs.map Block.hunk).any fun hunk => leavesBareEnd false hunk.body) = true ↔
      ∃ b ∈ bs, ∃ l ∈ b.new, endsLine l = false := by
  simp [Block.hunk, leavesBareEnd_entries, Block.newOf_entries]

section Texts

variable {before after : String} {bs : List Block} {shown tail : List String}
  (hb : '\r' ∉ before.toList) (ha : '\r' ∉ after.toList)
  (hlaid : Laid 0 0 (terminatedLines before) (terminatedLines after) bs)
  (hs : Spliced 0 (terminatedLines before) (terminatedLines after) bs shown tail)

include ha hlaid in
theorem leavesBareEnd_eq_false {l : String} (hl : (terminatedLines after).getLast? = some l)
    (hend : endsLine l = true) : ((bs.map Block.hunk).any fun hunk => leavesBareEnd false hunk.body) = false := by
  rw [Bool.eq_false_iff, ne_eq, leavesBareEnd_hunks_iff]
  rintro ⟨b, hm, m, hmem, hbare⟩
  obtain ⟨ys, hys⟩ := List.getLast?_eq_some_iff.1 hl
  have hall := endsLine_of_mem_dropLast ha m
  have hmem := (hlaid.mem b hm).2 m hmem
  rw [hys, List.dropLast_concat] at hall
  rw [hys, List.mem_append, List.mem_singleton] at hmem
  rcases hmem with hmem | rfl
  · rw [hall hmem] at hbare; cases hbare
  · rw [hend] at hbare; cases hbare

include hb ha hlaid hs in
/-- The hunks of blocks leave a newline at the end exactly if the new text has one. -/
theorem endsNew_eq : endsNew before (bs.map Block.hunk) shown (tail.map bare) = endsLine after := by
  rw [endsLine_eq_any_getLast? ha, endsNew, hs.lines]
  cases hl : (terminatedLines after).getLast? with
  | none => simp [List.getLast?_eq_none_iff.1 hl]
  | some l =>
    have hne : terminatedLines after ≠ [] := by
      rintro h
      rw [h] at hl; cases hl
    by_cases ht : tail = []
    · -- the last new line is shown, and a note follows it if it has no newline
      obtain ⟨b, hm, hmem⟩ := hs.lastShown ht l hl
      have hbs : bs ≠ [] := List.ne_nil_of_mem hm
      cases hend : endsLine l with
      | true => simp [leavesBareEnd_eq_false ha hlaid hl hend, hne, hbs, ht, hend]
      | false => simp [leavesBareEnd_hunks_iff.2 ⟨b, hm, l, hmem, hend⟩, hend]
    · -- the last line of both texts is the same
      have hlast : (terminatedLines before).getLast? = some l := by
        obtain ⟨xs, hxs⟩ := hs.oldSuffix
        obtain ⟨ys, hys⟩ := hs.newSuffix
        rw [← hys, List.getLast?_append_of_ne_nil _ ht] at hl
        rw [← hxs, List.getLast?_append_of_ne_nil _ ht, hl]
      have hold : endsLine before = endsLine l := by
        rw [endsLine_eq_any_getLast? hb, hlast, Option.any_some]
      have hsome : before ≠ "" := by
        rintro rfl
        cases hlast
      cases hend : endsLine l with
      | true => simp [leavesBareEnd_eq_false ha hlaid hl hend, hne, hold, hend]
      | false => simp [hold, hend, hsome, ht]

include hb ha hlaid in
/-- A diff whose hunks are those of blocks between two texts turns the one into the other. -/
theorem applyDiff_of_laid (hplace : ∀ b ∈ bs, b.oldExtent.start = b.oldBefore) {diff : String}
    (hdiff : Hunk.ofDiff diff = bs.map Block.hunk) : applyDiff before diff = .ok after := by
  obtain ⟨shown, tail, hs⟩ := hlaid.spliced hplace
  refine applyDiff_eq_ok_iff.2 ⟨shown, tail.map bare, ?_, ?_⟩
  · rw [hdiff, lines_eq_map_bare hb]
    exact hs.splices
  · rw [hdiff, endsNew_eq hb ha hlaid hs, hs.lines, ← lines_eq_map_bare ha, joinLines_lines ha]

end Texts

section Numbers

variable {before after path : String} (hb : '\r' ∉ before.toList) (ha : '\r' ∉ after.toList)
  (hold : ∀ l ∈ lines before, startsWith "--" l = false) (hnew : ∀ l ∈ lines after, startsWith "++" l = false)
  (hob : (lines before).length < lineLimit) (hhalf : (lines after).length ≤ lineLimit / 2)

include hb ha hob hhalf in
/-- A block starts at most at the end of the new text, so its counters come to no more than twice its length. -/
theorem countsWithin_hunk {b : Block} (hm : b ∈ blocks (segmentsBetween before after)) : b.hunk.CountsWithin := by
  have hlaid := blocks_laid (segmentsBetween before after)
  rw [segmentsBetween_old, segmentsBetween_new] at hlaid
  have hend := hlaid.end_le b hm
  obtain ⟨hlengthOld, hlengthNew⟩ := b.rewrites.length_eq
  have hold : b.oldExtent.number - 1 ≤ b.oldBefore := by
    rw [← oldExtent_start hm, Extent.number]
    split <;> omega
  have hnew : b.newExtent.number - 1 ≤ (terminatedLines after).length := by
    have hstart := newExtent_start_le hm
    rw [Extent.number]
    split <;> omega
  rw [lines_eq_map_bare hb, List.length_map] at hob
  rw [lines_eq_map_bare ha, List.length_map] at hhalf
  rw [List.length_map] at hlengthOld hlengthNew
  rw [Hunk.CountsWithin, ← hlengthOld, ← hlengthNew]
  show b.oldExtent.number - 1 + b.old.length ≤ lineLimit ∧ b.newExtent.number - 1 + b.new.length ≤ lineLimit
  omega

include hb ha hold hnew hob hhalf in
/-- The lines of a printed diff are numbered within the limit. -/
theorem isSome_ofDiff?_unifiedDiff (hpath : '\n' ∉ path.toList) :
    (Edits.ofDiff? (unifiedDiff before after path)).isSome := by
  by_cases hne : before = after
  · rw [unifiedDiff, if_pos hne]
    rfl
  · have hlimit : lineLimit / 2 < lineLimit := by decide
    have hread := blocks_readable hb ha hold hnew hob (Nat.lt_of_le_of_lt hhalf hlimit)
    have hone := fun b hb e he => ((hread b hb).entries e he).toOneLine
    have hthrough : countsThrough none (lines (unifiedDiff before after path)) = true := by
      rw [unifiedDiff_eq_unlines hne hone, lines_cuts hpath hone,
        countsThrough_preamble fun l hl => isHeaderLine_preamble hl,
        countsThrough_cuts ((readFrom_cuts hread).imp fun _ _ => Hunk.ReadFrom.countedFrom), List.forall_mem_map]
      exact fun b hm => countsWithin_hunk hb ha hob hhalf hm
    rw [Edits.ofDiff?, if_pos hthrough, Option.isSome_some]

end Numbers

/-- Applying the diff of two texts to the first gives the second, byte for byte. So a file is sliced alike whether its
new text is given or not, and it is sliced if the new text has no more lines than half of the limit. -/
theorem applyDiff_unifiedDiff {before after path : String} (hb : '\r' ∉ before.toList) (ha : '\r' ∉ after.toList)
    (hold : ∀ l ∈ lines before, startsWith "--" l = false) (hnew : ∀ l ∈ lines after, startsWith "++" l = false)
    (hpath : '\n' ∉ path.toList)
    (hob : (lines before).length < lineLimit) (hna : (lines after).length < lineLimit) :
    applyDiff before (unifiedDiff before after path) = .ok after ∧
      (∀ file options, sliceFile before none (unifiedDiff before after path) file options =
        sliceFile before (some after) (unifiedDiff before after path) file options) ∧
      ((lines after).length ≤ lineLimit / 2 →
        ∀ file options, (sliceFile before none (unifiedDiff before after path) file options).isSome) := by
  have happly : applyDiff before (unifiedDiff before after path) = .ok after := by
    by_cases hne : before = after
    · subst hne
      refine applyDiff_of_laid hb hb (.rest 0 0 _) (by simp) ?_
      rw [unifiedDiff, if_pos rfl]
      rfl
    · have hlaid := blocks_laid (segmentsBetween before after)
      rw [segmentsBetween_old, segmentsBetween_new] at hlaid
      exact applyDiff_of_laid hb ha hlaid (fun b hm => oldExtent_start hm)
        (hunks_unifiedDiff hpath hne (blocks_readable hb ha hold hnew hob hna))
  refine ⟨happly, fun file options => ?_, fun hhalf file options => ?_⟩
  · simp only [sliceFile, sliceEdits, happly]
  · rw [sliceFile, Option.isSome_map]
    exact isSome_ofDiff?_unifiedDiff hb ha hold hnew hob hhalf hpath

/-- The last line is replaced by lines that end in a newline. -/
theorem applyDiff_unifiedDiff_new_end :
    applyDiff "f\n\n+-g" (unifiedDiff "f\n\n+-g" "f\n--g\n--\n" "a.js") = .ok "f\n--g\n--\n" ∧
      (∀ file options, sliceFile "f\n\n+-g" none (unifiedDiff "f\n\n+-g" "f\n--g\n--\n" "a.js") file options =
        sliceFile "f\n\n+-g" (some "f\n--g\n--\n") (unifiedDiff "f\n\n+-g" "f\n--g\n--\n" "a.js") file options) ∧
      ((lines "f\n--g\n--\n").length ≤ lineLimit / 2 → ∀ file options,
        (sliceFile "f\n\n+-g" none (unifiedDiff "f\n\n+-g" "f\n--g\n--\n" "a.js") file options).isSome) :=
  applyDiff_unifiedDiff (by decide) (by decide) (by decide) (by decide) (by decide) (by decide) (by decide)

end DiffSlice.Patch
