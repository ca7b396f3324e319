import DiffSlice.Proofs.ScriptCompaction

/-!
# Blocks lie in order in both lists

`Laid` says that blocks, with the lines between and after them that are not shown, make up both lists, and that every
block tells how many lines come before it. The blocks of any segments do so (`blocks_laid`). Only the first block can
start with a change (`blocks_head`), so what the compacted script has at its front decides where the first range of a
diff starts (`oldExtent_start`, `newExtent_start_le`).
-/

namespace DiffSlice.Patch

open DiffSlice.Text

/-! ## Laid blocks -/

/-- After `o` old and `n` new lines, the old lines are the blocks' old lines with stretches between and after them
that also stand between and after the blocks' new lines. Where a stretch is not shown, the block after it shows some
lines that stay. -/
inductive Laid : Nat → Nat → List String → List String → List Block → Prop
  | rest (o n : Nat) (ls : List String) : Laid o n ls ls []
  | block {o n : Nat} {old new : List String} {b : Block} {bs : List Block} (gap : List String)
    {oldLater newLater : List String} (hold : old = gap ++ (b.old ++ oldLater))
    (hnew : new = gap ++ (b.new ++ newLater))
    (ho : b.oldBefore = o + gap.length) (hn : b.newBefore = n + gap.length) (shown : gap = [] ∨ b.new ≠ [])
    (later : Laid (b.oldBefore + b.old.length) (b.newBefore + b.new.length) oldLater newLater bs) :
    Laid o n old new (b :: bs)

/-- The blocks end within the two lists. -/
theorem Laid.end_le {o n : Nat} {old new : List String} {bs : List Block} (h : Laid o n old new bs) :
    ∀ b ∈ bs, b.oldBefore + b.old.length ≤ o + old.length ∧ b.newBefore + b.new.length ≤ n + new.length := by
  induction h with
  | rest => simp
  | @block o n old new b bs gap oldLater newLater hold hnew ho hn shown later ih =>
    subst hold hnew
    intro c hc
    rcases List.mem_cons.1 hc with rfl | hc
    · simp only [List.length_append]; omega
    · have := ih c hc
      simp only [List.length_append]; omega

/-- The lines of the blocks are lines of the two lists. -/
theorem Laid.mem {o n : Nat} {old new : List String} {bs : List Block} (h : Laid o n old new bs) :
    ∀ b ∈ bs, (∀ l ∈ b.old, l ∈ old) ∧ ∀ l ∈ b.new, l ∈ new := by
  induction h with
  | rest => simp
  | @block o n old new b bs gap oldLater newLater hold hnew ho hn shown later ih =>
    subst hold hnew
    intro c hc
    simp only [List.mem_append]
    rcases List.mem_cons.1 hc with rfl | hc
    · exact ⟨fun l hl => .inr (.inl hl), fun l hl => .inr (.inl hl)⟩
    · exact ⟨fun l hl => .inr (.inr ((ih c hc).1 l hl)), fun l hl => .inr (.inr ((ih c hc).2 l hl))⟩

/-! ## Cutting segments into blocks -/

@[simp] theorem Block.push_oldBefore (b : Block) (s : Segment) : (b.push s).oldBefore = b.oldBefore := rfl

@[simp] theorem Block.push_newBefore (b : Block) (s : Segment) : (b.push s).newBefore = b.newBefore := rfl

@[simp] theorem Block.push_old (b : Block) (s : Segment) : (b.push s).old = b.old ++ s.old := by
  simp [Block.old, Block.push]

@[simp] theorem Block.push_new (b : Block) (s : Segment) : (b.push s).new = b.new ++ s.new := by
  simp [Block.new, Block.push]

/-- A block without a change has the same lines on both sides. -/
theorem Block.old_eq_new {b : Block} (h : ¬ b.changes = true) : b.old = b.new := by
  simp only [Block.changes, List.any_eq_true, not_exists, not_and] at h
  unfold Block.old Block.new
  generalize b.segments = segments at h
  induction segments with
  | nil => rfl
  | cons s rest ih =>
    have hs : s.old = s.new := by
      cases s with
      | same ls => rfl
      | _ => exact absurd rfl (h _ List.mem_cons_self)
    rw [List.flatMap_cons, List.flatMap_cons, hs, ih fun t ht => h t (List.mem_cons_of_mem _ ht)]

/-- A long stretch is what is shown at its start, what is not shown, and what is shown at its end. -/
theorem stretch_eq {ls : List String} (h : 2 * contextSize < ls.length) :
    ls = ls.take contextSize ++ ((ls.drop contextSize).take (ls.length - 2 * contextSize)
      ++ ls.drop (ls.length - contextSize)) := by
  have : ls.drop (ls.length - contextSize) = (ls.drop contextSize).drop (ls.length - 2 * contextSize) := by
    rw [List.drop_drop]; congr 1; omega
  rw [this, List.take_append_drop, List.take_append_drop]

/-- The blocks that are cut from segments leave out only stretches of lines that stay. -/
theorem blocksFrom_laid (rest : List Segment) (current : Block) {o n : Nat} (gap tail : List String)
    (ho : current.oldBefore = o + gap.length) (hn : current.newBefore = n + gap.length)
    (shown : gap = [] ∨ current.new ≠ []) :
    Laid o n (gap ++ (current.old ++ (rest.flatMap Segment.old ++ tail)))
      (gap ++ (current.new ++ (rest.flatMap Segment.new ++ tail))) (blocksFrom current rest) := by
  fun_induction blocksFrom current rest generalizing o n gap with
  | case1 current hc => exact .block gap rfl rfl ho hn shown (.rest _ _ _)
  | case2 current hc =>
    rw [Block.old_eq_new hc]
    exact .rest _ _ _
  | case3 current ls rest hlong next =>
    rename_i ih
    have hshown : (ls.drop (ls.length - contextSize)).length = contextSize := by
      rw [List.length_drop]; omega
    have hhidden : ((ls.drop contextSize).take (ls.length - 2 * contextSize)).length = ls.length - 2 * contextSize := by
      rw [List.length_take, List.length_drop]; omega
    have hfirst : (ls.take contextSize).length = contextSize := by
      rw [List.length_take]; omega
    have hold : next.old = ls.drop (ls.length - contextSize) := by simp [next, Block.old, Segment.old]
    have hnew : next.new = ls.drop (ls.length - contextSize) := by simp [next, Block.new, Segment.new]
    refine .block gap ?_ ?_ ho hn (shown.imp_right fun h => by simp [h])
      (ih ((ls.drop contextSize).take (ls.length - 2 * contextSize)) ?_ ?_ (.inr ?_))
    · conv_lhs => rw [List.flatMap_cons, Segment.old, stretch_eq hlong]
      simp [hold, Segment.old]
    · conv_lhs => rw [List.flatMap_cons, Segment.new, stretch_eq hlong]
      simp [hnew, Segment.new]
    · rw [Block.push_old, Segment.old, List.length_append, hfirst, hhidden]
      show current.oldBefore + current.old.length + _ = current.oldBefore + _ + _
      omega
    · rw [Block.push_new, Segment.new, List.length_append, hfirst, hhidden]
      show current.newBefore + current.new.length + _ = current.newBefore + _ + _
      omega
    · intro h
      rw [hnew] at h
      rw [h] at hshown
      cases hshown
  | case4 current ls rest hshort ih =>
    have := ih gap ho hn (shown.imp_right fun h => by simp [h])
    simpa [Segment.old, Segment.new] using this
  | case5 current s rest hs ih =>
    have := ih gap ho hn (shown.imp_right fun h => by simp [h])
    simpa using this

/-- Lines at the end that are not shown stand on both sides. -/
theorem trimLast_eq (segments : List Segment) : ∃ tail,
    segments.flatMap Segment.old = (trimLast segments).flatMap Segment.old ++ tail
      ∧ segments.flatMap Segment.new = (trimLast segments).flatMap Segment.new ++ tail := by
  fun_induction trimLast segments with
  | case1 => exact ⟨[], rfl, rfl⟩
  | case2 ls => exact ⟨ls.drop contextSize, by simp [Segment.old], by simp [Segment.new]⟩
  | case3 s rest h ih =>
    obtain ⟨tail, ho, hn⟩ := ih
    exact ⟨tail, by simp [ho], by simp [hn]⟩

/-- The blocks of segments lie in order in both lists. -/
theorem blocks_laid (segments : List Segment) :
    Laid 0 0 (segments.flatMap Segment.old) (segments.flatMap Segment.new) (blocks segments) := by
  obtain ⟨tail, ho, hn⟩ := trimLast_eq segments
  rw [ho, hn, blocks]
  split
  · rename_i ls rest h
    rw [h]
    have := blocksFrom_laid rest
      ⟨ls.length - contextSize, ls.length - contextSize, [.same (ls.drop (ls.length - contextSize))]⟩
      (o := 0) (n := 0) (ls.take (ls.length - contextSize)) tail (by simp) (by simp) ?_
    · simpa [Block.old, Block.new, Segment.old, Segment.new, ← List.append_assoc] using this
    · by_cases hls : ls.length ≤ contextSize
      · left
        rw [Nat.sub_eq_zero_of_le hls, List.take_zero]
      · right
        simp only [Block.new, Segment.new, List.flatMap_cons, List.flatMap_nil, List.append_nil, ne_eq,
          List.drop_eq_nil_iff]
        unfold contextSize at *
        omega
  · simpa [Block.old, Block.new] using blocksFrom_laid (trimLast segments) ⟨0, 0, []⟩ (o := 0) (n := 0) [] tail rfl rfl
      (.inl rfl)

/-! ## The first segment of a block -/

/-- A block that starts with a change is the first one, and the change is the first segment of all. -/
theorem blocksFrom_head (rest : List Segment) (current : Block) {b : Block} (hb : b ∈ blocksFrom current rest)
    {s : Segment} (hs : b.segments.head? = some s) (hc : s.isChange = true) :
    b.oldBefore = current.oldBefore ∧ b.newBefore = current.newBefore ∧ (current.segments ++ rest).head? = some s := by
  fun_induction blocksFrom current rest with
  | case1 current _ =>
    rw [List.mem_singleton.1 hb] at hs ⊢
    simpa using hs
  | case2 => cases hb
  | case3 current ls rest _ next =>
    rename_i ih
    rcases List.mem_cons.1 hb with rfl | hb
    · refine ⟨rfl, rfl, ?_⟩
      cases h : current.segments with
      | nil => rw [Block.push, h] at hs; cases hs; cases hc
      | cons t ts => rw [Block.push, h] at hs; simpa using hs
    · obtain ⟨_, _, h⟩ := ih hb
      cases h
      cases hc
  | case4 current ls rest _ ih => simpa [Block.push] using ih hb
  | case5 current t rest _ ih => simpa [Block.push] using ih hb

theorem trimLast_head {segments : List Segment} {s : Segment} (h : (trimLast segments).head? = some s)
    (hc : s.isChange = true) : segments.head? = some s := by
  fun_cases trimLast segments with
  | case1 => exact h
  | case2 ls =>
    cases h
    cases hc
  | case3 t rest hne =>
    rw [trimLast] at h
    · exact h
    · exact hne

/-- Only a block at the start of both lists starts with a change. -/
theorem blocks_head {segments : List Segment} {b : Block} (hb : b ∈ blocks segments) {s : Segment}
    (hs : b.segments.head? = some s) (hc : s.isChange = true) :
    b.oldBefore = 0 ∧ b.newBefore = 0 ∧ segments.head? = some s := by
  rw [blocks] at hb
  split at hb
  · obtain ⟨_, _, h⟩ := blocksFrom_head _ _ hb hs hc
    cases h
    cases hc
  · obtain ⟨ho, hn, h⟩ := blocksFrom_head _ _ hb hs hc
    exact ⟨ho, hn, trimLast_head h hc⟩

/-! ## The blocks between two texts -/

section Texts

variable (before after : String)

/-- The old lines of the segments are the lines of the old text. -/
theorem segmentsBetween_old : (segmentsBetween before after).flatMap Segment.old = terminatedLines before := by
  rw [segmentsBetween, segments_old, compact_old, (find_spec _ _).1]

theorem segmentsBetween_new : (segmentsBetween before after).flatMap Segment.new = terminatedLines after := by
  rw [segmentsBetween, segments_new, compact_new, (find_spec _ _).2.1]

variable {before after} {b : Block} (hb : b ∈ blocks (segmentsBetween before after))

include hb

/-- On the old side every block starts where it says. -/
theorem oldExtent_start : b.oldExtent.start = b.oldBefore := by
  unfold Block.oldExtent
  cases hs : b.segments.head? with
  | none => rfl
  | some s =>
    cases s with
    | add anchor ls =>
      obtain ⟨hzero, _, hhead⟩ := blocks_head hb hs rfl
      obtain ⟨ms, rest, hscript⟩ := head_segments_add hhead
      rw [hzero, compact_front (find_spec _ _).2.2 hscript]
      rfl
    | _ => rfl

/-- On the new side every block starts at most at the end of the text. -/
theorem newExtent_start_le : b.newExtent.start ≤ (terminatedLines after).length := by
  have hend := ((blocks_laid (segmentsBetween before after)).end_le b hb).2
  rw [segmentsBetween_new, Nat.zero_add] at hend
  have hle := Nat.le_trans (Nat.le_add_right _ _) hend
  unfold Block.newExtent
  cases hs : b.segments.head? with
  | none => exact hle
  | some s =>
    cases s with
    | remove anchor ls =>
      obtain ⟨_, _, hhead⟩ := blocks_head hb hs rfl
      obtain ⟨ms, rest, hscript⟩ := head_segments_remove hhead
      have hfound := find_spec (terminatedLines before) (terminatedLines after)
      have hbelow : Script.DeletesBelow (terminatedLines after).length
          (Script.find (terminatedLines before) (terminatedLines after)) := by
        intro a ls hm
        have := hfound.2.2.delete_le hm
        rwa [hfound.2.1, Nat.zero_add] at this
      exact compact_deletesBelow hbelow anchor ms (by rw [hscript]; exact List.mem_cons_self)
    | _ => exact hle

end Texts

end DiffSlice.Patch
