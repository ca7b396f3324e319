import DiffSlice.Text.Lines

/-!
# Texts and their lines

Facts about cutting a text into lines and putting lines together. Every text is a last line, or a line with its
newline and a text after it (`line_induction`), and each way of cutting has one equation for either case. From these:

- the lines that `unlines` writes are read back (`lines_unlines`), and the pieces of joined lines are the lines
  (`pieces_joinLines`, `pieces_unlines`);
- a text without carriage returns is its lines, joined, with a newline at its end if it had one
  (`joinLines_lines`), and its lines are its terminated lines made bare (`lines_eq_map_bare`);
- of the terminated lines of such a text only the last may lack a newline (`endsLine_of_mem_dropLast`);
- the pieces of a text are its lines if there is no newline at its end and no carriage return before one
  (`lines_eq_pieces_iff`);
- a text is blank if all its lines are (`all_isBlankText_lines`).
-/

namespace DiffSlice.Text

/-! ## Cutting at newlines -/

/-- Induction over the lines of a text. -/
theorem line_induction {P : List Char → Prop} (last : ∀ x, '\n' ∉ x → P x)
    (more : ∀ x rest, '\n' ∉ x → P rest → P (x ++ '\n' :: rest)) (s : List Char) : P s := by
  -- generalized over what stands before `s` on its line
  suffices h : ∀ x, '\n' ∉ x → P (x ++ s) from h [] (by simp)
  induction s with
  | nil => intro x hx; simpa using last x hx
  | cons c cs ih =>
    intro x hx
    by_cases hc : c = '\n'
    · subst hc
      exact more x cs hx (ih [] (by simp))
    · have := ih (x ++ [c]) (by simp [hx, Ne.symm hc])
      simpa using this

section Stretches

variable {mark : Char} {x : List Char}

theorem stretches_ne_nil (mark : Char) (s : List Char) : stretches mark s ≠ [] := by
  cases s with
  | nil => simp [stretches]
  | cons c cs =>
    simp only [stretches]
    split
    · simp
    · cases stretches mark cs <;> simp [consToFirst]

theorem stretches_of_not_mem (h : mark ∉ x) : stretches mark x = [x] := by
  induction x with
  | nil => rfl
  | cons c cs ih =>
    simp only [List.mem_cons, not_or] at h
    rw [stretches, if_neg (Ne.symm h.1), ih h.2, consToFirst]

/-- What stands before the first mark is the first stretch. -/
theorem stretches_append (h : mark ∉ x) (rest : List Char) :
    stretches mark (x ++ mark :: rest) = x :: stretches mark rest := by
  induction x with
  | nil => simp [stretches]
  | cons c cs ih =>
    simp only [List.mem_cons, not_or] at h
    rw [List.cons_append, stretches, if_neg (Ne.symm h.1), ih h.2, consToFirst]

/-- No stretch has a mark in it. -/
theorem not_mem_of_mem_stretches {s y : List Char} (h : y ∈ stretches mark s) : mark ∉ y := by
  induction s generalizing y with
  | nil => simp_all [stretches]
  | cons c cs ih =>
    simp only [stretches] at h
    split at h
    · rcases List.mem_cons.1 h with rfl | h
      · simp
      · exact ih h
    · rename_i hc
      cases hs : stretches mark cs with
      | nil => exact absurd hs (stretches_ne_nil _ _)
      | cons l ls =>
        rw [hs, consToFirst] at h
        rcases List.mem_cons.1 h with rfl | h
        · have := ih (y := l) (by rw [hs]; exact List.mem_cons_self)
          simp [this, Ne.symm hc]
        · exact ih (by rw [hs]; exact List.mem_cons_of_mem _ h)

end Stretches

section Terminated

variable {x : List Char}

theorem splitTerminated_of_not_mem (hx : x ≠ []) (hn : '\n' ∉ x) (hr : '\r' ∉ x) : splitTerminated x = [x] := by
  induction x with
  | nil => exact absurd rfl hx
  | cons c cs ih =>
    simp only [List.mem_cons, not_or] at hn hr
    rw [splitTerminated, if_neg (by simp [Ne.symm hn.1, Ne.symm hr.1])]
    by_cases hcs : cs = []
    · subst hcs; rfl
    · rw [ih hcs hn.2 hr.2, consToFirst]

/-- What stands before the first newline is the first line, with the newline. -/
theorem splitTerminated_append (hn : '\n' ∉ x) (hr : '\r' ∉ x) (rest : List Char) :
    splitTerminated (x ++ '\n' :: rest) = (x ++ ['\n']) :: splitTerminated rest := by
  induction x with
  | nil => simp [splitTerminated]
  | cons c cs ih =>
    simp only [List.mem_cons, not_or] at hn hr
    rw [List.cons_append, splitTerminated, if_neg (by simp [Ne.symm hn.1, Ne.symm hr.1]), ih hn.2 hr.2, consToFirst,
      List.cons_append]

/-- No character is lost between the lines. -/
theorem flatten_splitTerminated (cs : List Char) : (splitTerminated cs).flatten = cs := by
  induction cs with
  | nil => rfl
  | cons c cs ih =>
    rw [splitTerminated]
    split
    · rw [List.flatten_cons, ih, List.singleton_append]
    · cases h : splitTerminated cs with
      | nil => simp_all [consToFirst]
      | cons l ls => simp_all [consToFirst]

end Terminated

/-! ## Lines -/

theorem pieces_ne_nil (s : String) : pieces s ≠ [] := by
  simp [pieces, stretches_ne_nil]

/-- No piece has a newline in it. -/
theorem not_mem_of_mem_pieces {s p : String} (h : p ∈ pieces s) : '\n' ∉ p.toList := by
  obtain ⟨y, hy, rfl⟩ := List.mem_map.1 h
  simpa using not_mem_of_mem_stretches hy

/-- A piece with others after it is a line, without its carriage return. -/
theorem linesOfPieces_cons {p : String} {ps : List String} (h : ps ≠ []) :
    linesOfPieces (p :: ps) = dropReturn p :: linesOfPieces ps := by
  cases ps with
  | nil => exact absurd rfl h
  | cons q qs => rfl

@[simp] theorem lines_empty : lines "" = [] := rfl

/-- A text without newline is one line, unless it is empty. -/
theorem lines_last {x : List Char} (hx : x ≠ []) (hn : '\n' ∉ x) : lines (String.ofList x) = [String.ofList x] := by
  have hne : String.ofList x ≠ "" := by simpa using hx
  simp [lines, pieces, stretches_of_not_mem hn, linesOfPieces, hne]

/-- What stands before the first newline is the first line, without its carriage return. -/
theorem lines_more {x : List Char} (hn : '\n' ∉ x) (rest : List Char) :
    lines (String.ofList (x ++ '\n' :: rest)) = dropReturn (String.ofList x) :: lines (String.ofList rest) := by
  have hp : (stretches '\n' rest).map String.ofList ≠ [] := by simp [stretches_ne_nil]
  simp only [lines, pieces, String.toList_ofList, stretches_append hn, List.map_cons, linesOfPieces_cons hp]

theorem toList_dropReturn_isPrefix (s : String) : (dropReturn s).toList <+: s.toList := by
  unfold dropReturn
  split
  · rename_i cs h
    have : s.toList = cs.reverse ++ ['\r'] := by
      rw [← List.reverse_reverse s.toList, h, List.reverse_cons]
    simp [this]
  · exact List.prefix_rfl

theorem dropReturn_of_not_mem {s : String} (h : '\r' ∉ s.toList) : dropReturn s = s := by
  unfold dropReturn
  split
  · rename_i cs hcs
    have : '\r' ∈ s.toList.reverse := by rw [hcs]; exact List.mem_cons_self
    exact absurd (List.mem_reverse.1 this) h
  · rfl

theorem dropReturns_of_not_mem {s : String} (h : '\r' ∉ s.toList) : dropReturns s = s := by
  have hdrop : ∀ cs : List Char, '\r' ∉ cs → cs.dropWhile (· == '\r') = cs := by
    intro cs hcs
    cases cs with
    | nil => rfl
    | cons c cs =>
      have hc : c ≠ '\r' := fun h => hcs (by simp [h])
      simp [hc]
  rw [dropReturns, dropEndWhile, hdrop _ (by simpa using h), List.reverse_reverse, String.ofList_toList]

/-- No line has a newline in it. -/
theorem not_mem_of_mem_lines {s l : String} (h : l ∈ lines s) : '\n' ∉ l.toList := by
  suffices ∀ ps : List String, (∀ p ∈ ps, '\n' ∉ p.toList) → ∀ l ∈ linesOfPieces ps, '\n' ∉ l.toList from
    this (pieces s) (fun _ => not_mem_of_mem_pieces) l h
  intro ps
  induction ps with
  | nil => simp [linesOfPieces]
  | cons p ps ih =>
    intro hps l hl
    by_cases hne : ps = []
    · subst hne
      simp only [linesOfPieces] at hl
      split at hl
      · simp at hl
      · rw [List.mem_singleton.1 hl]; exact hps p List.mem_cons_self
    · rw [linesOfPieces_cons hne] at hl
      rcases List.mem_cons.1 hl with rfl | hl
      · intro hm
        exact hps p List.mem_cons_self ((toList_dropReturn_isPrefix p).subset hm)
      · exact ih (fun q hq => hps q (List.mem_cons_of_mem _ hq)) l hl

/-! ## Putting lines together -/

theorem unlines_append (ls ms : List String) : unlines (ls ++ ms) = unlines ls ++ unlines ms := by
  induction ls with
  | nil => simp [unlines]
  | cons l ls ih => simp [unlines, ih, String.append_assoc]

theorem lines_newline {l : String} (h : '\n' ∉ l.toList) (s : String) :
    lines (l ++ "\n" ++ s) = dropReturn l :: lines s := by
  have : l ++ "\n" ++ s = String.ofList (l.toList ++ '\n' :: s.toList) := by
    rw [← String.toList_inj]; simp
  rw [this, lines_more h]
  simp

/-- Lines that are written are read back. -/
theorem lines_unlines {ls : List String} (h : ∀ l ∈ ls, '\n' ∉ l.toList) : lines (unlines ls) = ls.map dropReturn := by
  induction ls with
  | nil => rfl
  | cons l ls ih =>
    rw [unlines, lines_newline (h l List.mem_cons_self), ih fun m hm => h m (List.mem_cons_of_mem _ hm), List.map_cons]

/-- Lines without line endings in them are read back from the text that they make. -/
theorem lines_unlines_of_not_mem {ls : List String} (h : ∀ l ∈ ls, '\n' ∉ l.toList ∧ '\r' ∉ l.toList) :
    lines (unlines ls) = ls := by
  rw [lines_unlines fun l hl => (h l hl).1, List.map_congr_left fun l hl => dropReturn_of_not_mem (h l hl).2,
    List.map_id']

theorem joinLines_cons {ls : List String} (l : String) (h : ls ≠ []) :
    joinLines (l :: ls) = l ++ "\n" ++ joinLines ls := by
  cases ls with
  | nil => exact absurd rfl h
  | cons m ms => rfl

/-- With one more newline at the end, each of the lines ends in one. -/
theorem joinLines_newline {ls : List String} (h : ls ≠ []) : joinLines ls ++ "\n" = unlines ls := by
  induction ls with
  | nil => exact absurd rfl h
  | cons l ls ih =>
    by_cases hls : ls = []
    · subst hls; simp [joinLines, unlines]
    · rw [joinLines_cons l hls, String.append_assoc, ih hls, unlines]

theorem pieces_newline {l : String} (h : '\n' ∉ l.toList) (s : String) : pieces (l ++ "\n" ++ s) = l :: pieces s := by
  have : (l ++ "\n" ++ s).toList = l.toList ++ '\n' :: s.toList := by simp
  rw [pieces, this, stretches_append h]
  simp [pieces]

theorem pieces_of_not_mem {l : String} (h : '\n' ∉ l.toList) : pieces l = [l] := by
  simp [pieces, stretches_of_not_mem h]

/-- Lines without newlines in them are the pieces of the text that they make. -/
theorem pieces_joinLines {ls : List String} (hne : ls ≠ []) (h : ∀ l ∈ ls, '\n' ∉ l.toList) :
    pieces (joinLines ls) = ls := by
  induction ls with
  | nil => exact absurd rfl hne
  | cons l ls ih =>
    have hl := h l List.mem_cons_self
    by_cases hls : ls = []
    · subst hls; exact pieces_of_not_mem hl
    · rw [joinLines_cons l hls, pieces_newline hl, ih hls fun m hm => h m (List.mem_cons_of_mem _ hm)]

/-- The pieces of a text make it up. -/
theorem joinLines_pieces (s : String) : joinLines (pieces s) = s := by
  suffices h : ∀ cs : List Char, joinLines (pieces (String.ofList cs)) = String.ofList cs by
    simpa using h s.toList
  intro cs
  induction cs using line_induction with
  | last x hx => rw [pieces_of_not_mem (by simpa using hx), joinLines]
  | more x rest hx ih =>
    have hsplit : String.ofList (x ++ '\n' :: rest) = String.ofList x ++ "\n" ++ String.ofList rest := by
      rw [← String.toList_inj]
      simp
    rw [hsplit, pieces_newline (by simpa using hx), joinLines_cons _ (pieces_ne_nil _), ih]

theorem pieces_joinLines_of_ne {ls : List String} (hne : joinLines ls ≠ "") (h : ∀ l ∈ ls, '\n' ∉ l.toList) :
    pieces (joinLines ls) = ls := by
  refine pieces_joinLines ?_ h
  rintro rfl
  exact hne rfl

/-- There is an empty piece behind the last newline. -/
theorem pieces_unlines {ls : List String} (h : ∀ l ∈ ls, '\n' ∉ l.toList) : pieces (unlines ls) = ls ++ [""] := by
  induction ls with
  | nil => rfl
  | cons l ls ih =>
    rw [unlines, pieces_newline (h l List.mem_cons_self), ih fun m hm => h m (List.mem_cons_of_mem _ hm),
      List.cons_append]

/-! ## Terminated lines -/

def bare (l : String) : String :=
  if endsLine l then String.ofList l.toList.dropLast else l

section Bare

variable {x : List Char}

theorem endsLine_ofList_append (x : List Char) : endsLine (String.ofList (x ++ ['\n'])) = true := by
  simp [endsLine]

theorem endsLine_ofList_of_not_mem (h : '\n' ∉ x) : endsLine (String.ofList x) = false := by
  rw [endsLine, beq_eq_false_iff_ne, String.toList_ofList]
  intro hl
  exact h (List.mem_of_getLast? hl)

theorem endsLine_ofList_newline {rest : List Char} (x : List Char) (h : rest ≠ []) :
    endsLine (String.ofList (x ++ '\n' :: rest)) = endsLine (String.ofList rest) := by
  simp only [endsLine, String.toList_ofList, List.getLast?_append, List.getLast?_cons]
  cases hl : rest.getLast? with
  | none => exact absurd (List.getLast?_eq_none_iff.1 hl) h
  | some c => simp

theorem bare_ofList_append (x : List Char) : bare (String.ofList (x ++ ['\n'])) = String.ofList x := by
  rw [bare, if_pos (endsLine_ofList_append x)]
  simp

/-- A line without newline at its end is bare. -/
theorem bare_of_not_endsLine {l : String} (h : endsLine l = false) : bare l = l := by
  simp [bare, h]

theorem mem_of_mem_bare {c : Char} {l : String} (h : c ∈ (bare l).toList) : c ∈ l.toList := by
  rw [bare] at h
  split at h
  · rw [String.toList_ofList] at h
    exact (List.dropLast_sublist _).mem h
  · exact h

/-- A line that ends in a newline is its bare text and the newline. -/
theorem bare_append_newline {l : String} (h : endsLine l = true) : bare l ++ "\n" = l := by
  rw [bare, if_pos h, ← String.toList_inj]
  rw [endsLine, beq_iff_eq] at h
  obtain ⟨ys, hys⟩ := List.getLast?_eq_some_iff.1 h
  simp [hys]

end Bare

section TerminatedLines

variable {s : String}

theorem terminatedLines_last {x : List Char} (hx : x ≠ []) (hn : '\n' ∉ x) (hr : '\r' ∉ x) :
    terminatedLines (String.ofList x) = [String.ofList x] := by
  simp [terminatedLines, splitTerminated_of_not_mem hx hn hr]

theorem terminatedLines_more {x rest : List Char} (hn : '\n' ∉ x) (hr : '\r' ∉ x) :
    terminatedLines (String.ofList (x ++ '\n' :: rest))
      = String.ofList (x ++ ['\n']) :: terminatedLines (String.ofList rest) := by
  simp [terminatedLines, splitTerminated_append hn hr]

/-- Texts of the same lines with the same endings are the same. -/
theorem terminatedLines_inj {t : String} (h : terminatedLines s = terminatedLines t) : s = t := by
  have hsplit : splitTerminated s.toList = splitTerminated t.toList :=
    (List.map_inj_right fun _ _ heq => String.ofList_injective heq).1 h
  rw [← String.toList_inj, ← flatten_splitTerminated s.toList, hsplit, flatten_splitTerminated]

/-- Induction over the terminated lines of a text without carriage returns. -/
@[elab_as_elim]
theorem returnFree_induction {P : String → Prop} (empty : P "")
    (last : ∀ x : List Char, x ≠ [] → '\n' ∉ x → '\r' ∉ x → P (String.ofList x))
    (more : ∀ x rest : List Char, '\n' ∉ x → '\r' ∉ x → '\r' ∉ rest → P (String.ofList rest) →
      P (String.ofList (x ++ '\n' :: rest))) (s : String) (hs : '\r' ∉ s.toList) : P s := by
  suffices ∀ cs : List Char, '\r' ∉ cs → P (String.ofList cs) by simpa using this s.toList hs
  intro cs
  induction cs using line_induction with
  | last x hn =>
    intro hr
    by_cases hx : x = []
    · subst hx; exact empty
    · exact last x hx hn hr
  | more x rest hn ih =>
    intro hr
    simp only [List.mem_append, List.mem_cons, not_or] at hr
    exact more x rest hn hr.1 hr.2.2 (ih hr.2.2)

/-- Without carriage returns, the lines of a text are its lines with endings laid bare. -/
theorem lines_eq_map_bare (hs : '\r' ∉ s.toList) : lines s = (terminatedLines s).map bare := by
  refine returnFree_induction rfl ?_ ?_ s hs
  · intro x hx hn hr
    rw [lines_last hx hn, terminatedLines_last hx hn hr, List.map_singleton,
      bare_of_not_endsLine (endsLine_ofList_of_not_mem hn)]
  · intro x rest hn hr _ ih
    have : dropReturn (String.ofList x) = String.ofList x := dropReturn_of_not_mem (by simpa using hr)
    rw [lines_more hn, terminatedLines_more hn hr, List.map_cons, bare_ofList_append, ih, this]

theorem terminatedLines_eq_nil_iff (hs : '\r' ∉ s.toList) : terminatedLines s = [] ↔ s = "" := by
  refine returnFree_induction ?_ ?_ ?_ s hs
  · exact ⟨fun _ => rfl, fun _ => rfl⟩
  · intro x hx hn hr
    simp [terminatedLines_last hx hn hr, hx]
  · intro x rest hn hr _ _
    rw [terminatedLines_more hn hr]
    simp

/-- A text ends in a newline if its last terminated line does. -/
theorem endsLine_eq_any_getLast? (hs : '\r' ∉ s.toList) :
    endsLine s = (terminatedLines s).getLast?.any endsLine := by
  refine returnFree_induction rfl ?_ ?_ s hs
  · intro x hx hn hr
    simp [terminatedLines_last hx hn hr]
  · intro x rest hn hr hrest ih
    rw [terminatedLines_more hn hr]
    by_cases he : rest = []
    · subst he; simp [terminatedLines, splitTerminated]
    · have hne : terminatedLines (String.ofList rest) ≠ [] := by
        rw [ne_eq, terminatedLines_eq_nil_iff (by simpa using hrest)]; simpa using he
      rw [endsLine_ofList_newline x he, ih, List.getLast?_cons]
      cases h : (terminatedLines (String.ofList rest)).getLast? with
      | none => exact absurd (List.getLast?_eq_none_iff.1 h) hne
      | some l => simp

/-- Only the last line of a text may lack a newline. -/
theorem endsLine_of_mem_dropLast (hs : '\r' ∉ s.toList) : ∀ l ∈ (terminatedLines s).dropLast, endsLine l = true := by
  refine returnFree_induction ?_ ?_ ?_ s hs
  · intro l hl
    simp [terminatedLines, splitTerminated] at hl
  · intro x hx hn hr
    simp [terminatedLines_last hx hn hr]
  · intro x rest hn hr _ ih l hl
    rw [terminatedLines_more hn hr] at hl
    cases h : terminatedLines (String.ofList rest) with
    | nil => simp [h] at hl
    | cons m ms =>
      rw [h, List.dropLast_cons_cons] at hl
      rcases List.mem_cons.1 hl with rfl | hl
      · exact endsLine_ofList_append x
      · exact ih l (by rw [h]; exact hl)

theorem not_mem_bare_of_mem (hs : '\r' ∉ s.toList) :
    ∀ l ∈ terminatedLines s, '\n' ∉ (bare l).toList ∧ '\r' ∉ l.toList := by
  refine returnFree_induction ?_ ?_ ?_ s hs
  · simp [terminatedLines, splitTerminated]
  · intro x hx hn hr l hl
    rw [terminatedLines_last hx hn hr, List.mem_singleton] at hl
    subst hl
    rw [bare_of_not_endsLine (endsLine_ofList_of_not_mem hn)]
    simp [hn, hr]
  · intro x rest hn hr _ ih l hl
    rw [terminatedLines_more hn hr] at hl
    rcases List.mem_cons.1 hl with rfl | hl
    · rw [bare_ofList_append]
      simp [hn, hr]
    · exact ih l hl

/-- A text is its lines, joined, with a newline at its end if it has one. -/
theorem joinLines_lines (hs : '\r' ∉ s.toList) : joinLines (lines s) ++ (if endsLine s then "\n" else "") = s := by
  refine returnFree_induction rfl ?_ ?_ s hs
  · intro x hx hn hr
    rw [lines_last hx hn, endsLine_ofList_of_not_mem hn]
    simp [joinLines]
  · intro x rest hn hr hrest ih
    have hx : dropReturn (String.ofList x) = String.ofList x := dropReturn_of_not_mem (by simpa using hr)
    rw [lines_more hn, hx]
    by_cases he : rest = []
    · subst he
      rw [endsLine_ofList_append]
      simp [joinLines]
    · have hne : lines (String.ofList rest) ≠ [] := by
        rw [lines_eq_map_bare (by simpa using hrest), ne_eq, List.map_eq_nil_iff,
          terminatedLines_eq_nil_iff (by simpa using hrest)]
        simpa using he
      rw [joinLines_cons _ hne, endsLine_ofList_newline x he, String.append_assoc, ih]
      simp [String.append_assoc]

end TerminatedLines

/-! ## Pieces that are lines -/

theorem pieces_more {x : List Char} (hn : '\n' ∉ x) (rest : List Char) :
    pieces (String.ofList (x ++ '\n' :: rest)) = String.ofList x :: pieces (String.ofList rest) := by
  simp [pieces, stretches_append hn]

/-- There are no more lines than pieces. -/
theorem length_lines_le (s : String) : (lines s).length ≤ (pieces s).length := by
  suffices ∀ ps : List String, (linesOfPieces ps).length ≤ ps.length from this (pieces s)
  intro ps
  fun_induction linesOfPieces ps <;> simp_all

theorem dropReturn_eq_self_iff {x : List Char} :
    dropReturn (String.ofList x) = String.ofList x ↔ x.getLast? ≠ some '\r' := by
  rw [← List.head?_reverse]
  unfold dropReturn
  rw [String.toList_ofList]
  split
  · rename_i cs hcs
    have hx : x = cs.reverse ++ ['\r'] := by rw [← List.reverse_reverse x, hcs, List.reverse_cons]
    have hne : cs.reverse ≠ cs.reverse ++ ['\r'] := fun h => by simpa using congrArg List.length h
    rw [hcs, hx, String.ofList_inj]
    simp [hne]
  · rename_i hcs
    refine iff_of_true rfl fun hhead => ?_
    obtain ⟨cs, hx⟩ := List.head?_eq_some_iff.1 hhead
    exact hcs cs hx

theorem hasPart_eq_false_of_not_mem {x : List Char} (hn : '\n' ∉ x) : hasPart ['\r', '\n'] x = false := by
  induction x with
  | nil => rfl
  | cons c x ih =>
    rw [List.mem_cons, not_or] at hn
    rw [hasPart, ih hn.2, Bool.or_false]
    cases x with
    | nil => simp [List.isPrefixOf]
    | cons d x =>
      rw [List.mem_cons, not_or] at hn
      simp [List.isPrefixOf, hn.2.1]

/-- A line ends in a carriage return if the first one does or one after it does. -/
theorem hasPart_newline {x : List Char} (hn : '\n' ∉ x) (rest : List Char) :
    hasPart ['\r', '\n'] (x ++ '\n' :: rest) = (x.getLast? == some '\r' || hasPart ['\r', '\n'] rest) := by
  induction x with
  | nil => simp [hasPart, List.isPrefixOf]
  | cons c x ih =>
    rw [List.mem_cons, not_or] at hn
    rw [List.cons_append, hasPart, ih hn.2]
    cases x with
    | nil => simp [List.isPrefixOf, BEq.comm]
    | cons d x =>
      rw [List.mem_cons, not_or] at hn
      simp [List.isPrefixOf, hn.2.1]

/-- The pieces of a text are its lines if it does not end in a newline and no carriage return stands before one. -/
theorem lines_eq_pieces_iff {s : String} (hs : s ≠ "") :
    lines s = pieces s ↔ endsLine s = false ∧ hasPart ['\r', '\n'] s.toList = false := by
  suffices ∀ x : List Char, x ≠ [] → (lines (String.ofList x) = pieces (String.ofList x) ↔
      endsLine (String.ofList x) = false ∧ hasPart ['\r', '\n'] x = false) by
    simpa using this s.toList (by simpa using hs)
  refine line_induction ?_ ?_
  · intro x hn hx
    rw [lines_last hx hn, pieces_of_not_mem (by simpa using hn), endsLine_ofList_of_not_mem hn,
      hasPart_eq_false_of_not_mem hn]
    simp
  · intro x rest hn ih _
    rw [lines_more hn, pieces_more hn, List.cons.injEq, dropReturn_eq_self_iff, hasPart_newline hn]
    by_cases hrest : rest = []
    · subst hrest
      have hmore : lines (String.ofList []) ≠ pieces (String.ofList []) := by decide
      rw [endsLine_ofList_append]
      exact iff_of_false (fun h => hmore h.2) (fun h => nomatch h.1)
    · rw [ih hrest, endsLine_ofList_newline x hrest]
      simp [and_left_comm]

/-! ## Blank lines -/

theorem isBlank_newline : isBlank '\n' = true := by decide

theorem isBlank_return : isBlank '\r' = true := by decide

/-- A line with a carriage return at its end, or without one. -/
theorem dropReturn_cases (s : String) :
    dropReturn s = s ∧ s.toList.getLast? ≠ some '\r' ∨ ∃ y, s = String.ofList (y ++ ['\r']) ∧
      dropReturn s = String.ofList y := by
  by_cases h : s.toList.getLast? = some '\r'
  · obtain ⟨y, hy⟩ := List.getLast?_eq_some_iff.1 h
    have hs : s = String.ofList (y ++ ['\r']) := by rw [← hy, String.ofList_toList]
    refine .inr ⟨y, hs, ?_⟩
    rw [hs]
    simp [dropReturn]
  · have hdrop := dropReturn_eq_self_iff.2 h
    rw [String.ofList_toList] at hdrop
    exact .inl ⟨hdrop, h⟩

/-- A carriage return makes no difference to whether a line is blank. -/
theorem isBlankText_dropReturn (s : String) : isBlankText (dropReturn s) = isBlankText s := by
  rcases dropReturn_cases s with ⟨h, _⟩ | ⟨y, rfl, h⟩
  · rw [h]
  · rw [h]
    simp [isBlankText, isBlank_return]

/-- A text is blank if all its lines are. -/
theorem isBlankText_unlines (ls : List String) : isBlankText (unlines ls) = ls.all isBlankText := by
  induction ls with
  | nil => rfl
  | cons l ls ih =>
    rw [List.all_cons, ← ih]
    simp [isBlankText, unlines, isBlank_newline]

/-- What is not blank in a text is in its lines. -/
theorem all_isBlankText_lines (s : String) : (lines s).all isBlankText = isBlankText s := by
  suffices ∀ cs : List Char, (lines (String.ofList cs)).all isBlankText = cs.all isBlank by
    simpa [isBlankText] using this s.toList
  refine line_induction ?_ ?_
  · intro x hn
    by_cases hx : x = []
    · subst hx
      rfl
    · simp [lines_last hx hn, isBlankText]
  · intro x rest hn ih
    rw [lines_more hn, List.all_cons, isBlankText_dropReturn, ih]
    simp [isBlankText, isBlank_newline]

end DiffSlice.Text
