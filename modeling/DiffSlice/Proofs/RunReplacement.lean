import DiffSlice.Proofs.BlankLines
import DiffSlice.Proofs.TextLines
import Mathlib.Data.List.TakeWhile

/-!
# Replaced runs are left-out lines

Runs of blank lines are replaced character by character, and what that leaves of a text is told line by line here
(`collapseBlankRuns_eq`). In each style something of a run stays and takes up the row of units behind it (`Absorbs`):
then one more unit changes nothing, and a text without one goes on as if nothing had been before it.
-/

namespace DiffSlice.Text

/-! ## Rows of units -/

section Rows

variable {unit? : List Char → Option Nat} {x y : List Char}

theorem rowLength_skip (x y : List Char) : rowLength unit? x.length (x ++ y) = x.length + rowLength unit? 0 y := by
  induction x with
  | nil => simp
  | cons c x ih =>
    rw [List.length_cons, List.cons_append, rowLength, ih]
    omega

/-- A unit in front makes a row longer by its own length. -/
theorem rowLength_unit (h : unit? (x ++ y) = some x.length) (hx : x ≠ []) :
    rowLength unit? 0 (x ++ y) = x.length + rowLength unit? 0 y := by
  obtain ⟨c, x, rfl⟩ := List.exists_cons_of_ne_nil hx
  rw [List.cons_append] at h ⊢
  simp only [rowLength, h, List.length_cons, Nat.add_sub_cancel, rowLength_skip]
  omega

theorem rowLength_none (h : unit? y = none) : rowLength unit? 0 y = 0 := by
  cases y with
  | nil => rfl
  | cons c y => simp only [rowLength, h]

theorem rowLength_le (skip : Nat) (y : List Char) : rowLength unit? skip y ≤ y.length := by
  induction y generalizing skip with
  | nil => exact Nat.le_refl 0
  | cons c y ih =>
    rw [List.length_cons]
    unfold rowLength
    split
    · exact Nat.succ_le_succ (ih _)
    · split
      · exact Nat.succ_le_succ (ih _)
      · exact Nat.zero_le _

end Rows

/-! ## Replacing -/

section Replacing

variable {match? : Matcher} {b : Bool} {x y r : List Char}

/-- Whether a line starts behind some characters, if `b` tells whether one starts before them. -/
def lineStartAfter (b : Bool) : List Char → Bool
  | [] => b
  | c :: x => lineStartAfter (c == '\n') x

theorem lineStartAfter_append (b : Bool) (x y : List Char) :
    lineStartAfter b (x ++ y) = lineStartAfter (lineStartAfter b x) y := by
  induction x generalizing b with
  | nil => rfl
  | cons c x ih => exact ih _

/-- Characters that belong to a match are passed over. -/
theorem replaceFrom_skip (match? : Matcher) (b : Bool) (x y : List Char) :
    replaceFrom match? b x.length (x ++ y) = replaceFrom match? (lineStartAfter b x) 0 y := by
  induction x generalizing b with
  | nil => rfl
  | cons c x ih => exact ih _

/-- A character stays where no match starts. -/
theorem replaceFrom_of_none {c : Char} (h : match? b (c :: y) = none) :
    replaceFrom match? b 0 (c :: y) = c :: replaceFrom match? (c == '\n') 0 y := by
  simp only [replaceFrom, h]

/-- A match is replaced, and the search goes on behind it. -/
theorem replaceFrom_of_match (h : match? b (x ++ y) = some ⟨x.length, r⟩) (hx : x ≠ []) :
    replaceFrom match? b 0 (x ++ y) = r ++ replaceFrom match? (lineStartAfter b x) 0 y := by
  obtain ⟨c, x, rfl⟩ := List.exists_cons_of_ne_nil hx
  rw [List.cons_append] at h ⊢
  simp only [replaceFrom, h, List.length_cons, Nat.add_sub_cancel, replaceFrom_skip, lineStartAfter]

/-- There is no match inside a line. -/
def RestsInLines (match? : Matcher) : Prop :=
  ∀ (c : Char) (y : List Char), c ≠ '\n' → match? false (c :: y) = none

/-- Everything stays within a line. -/
theorem replaceFrom_inside (hm : RestsInLines match?) (hx : '\n' ∉ x) (y : List Char) :
    replaceFrom match? false 0 (x ++ y) = x ++ replaceFrom match? false 0 y := by
  induction x with
  | nil => rfl
  | cons c x ih =>
    rw [List.mem_cons, not_or] at hx
    have hc : (c == '\n') = false := beq_eq_false_iff_ne.2 (Ne.symm hx.1)
    rw [List.cons_append, replaceFrom_of_none (hm c _ (Ne.symm hx.1)), hc, ih hx.2, List.cons_append]

/-- A line at whose start there is no match stays. -/
theorem replaceFrom_line (hm : RestsInLines match?) (hx : '\n' ∉ x) (hne : x ≠ []) (h : match? b (x ++ y) = none) :
    replaceFrom match? b 0 (x ++ y) = x ++ replaceFrom match? false 0 y := by
  obtain ⟨c, x, rfl⟩ := List.exists_cons_of_ne_nil hne
  rw [List.mem_cons, not_or] at hx
  have hc : (c == '\n') = false := beq_eq_false_iff_ne.2 (Ne.symm hx.1)
  rw [List.cons_append] at h ⊢
  rw [replaceFrom_of_none h, hc, replaceFrom_inside hm hx.2, List.cons_append]

/-- Where lines start does not matter if it does not matter for a match. -/
theorem replaceFrom_lineStart (hm : ∀ cs, match? true cs = match? false cs) (b : Bool) (y : List Char) :
    replaceFrom match? b 0 y = replaceFrom match? false 0 y := by
  cases y with
  | nil => rfl
  | cons c y =>
    cases b with
    | false => rfl
    | true => simp only [replaceFrom, hm]

/-- The characters `kept` stay and take up the row of units behind them. -/
def Absorbs (match? : Matcher) (unit? : List Char → Option Nat) (b : Bool) (kept : List Char) : Prop :=
  ∀ y, replaceFrom match? b 0 (kept ++ y) =
    kept ++ replaceFrom match? (lineStartAfter b kept) 0 (y.drop (rowLength unit? 0 y))

variable {unit? : List Char → Option Nat} {kept : List Char}

/-- A match that is kept and a row behind it leaves what is kept. -/
theorem replaceFrom_row (hkept : kept ≠ [])
    (h : match? b (kept ++ y) = some ⟨kept.length + rowLength unit? 0 y, kept⟩) :
    replaceFrom match? b 0 (kept ++ y) =
      kept ++ replaceFrom match? (lineStartAfter b (kept ++ y.take (rowLength unit? 0 y))) 0
        (y.drop (rowLength unit? 0 y)) := by
  have hsplit : kept ++ y = (kept ++ y.take (rowLength unit? 0 y)) ++ y.drop (rowLength unit? 0 y) := by
    rw [List.append_assoc, List.take_append_drop]
  have hlength : kept.length + rowLength unit? 0 y = (kept ++ y.take (rowLength unit? 0 y)).length := by
    rw [List.length_append, List.length_take, Nat.min_eq_left (rowLength_le 0 y)]
  rw [hlength] at h
  calc replaceFrom match? b 0 (kept ++ y)
      = replaceFrom match? b 0 ((kept ++ y.take (rowLength unit? 0 y)) ++ y.drop (rowLength unit? 0 y)) := by
        rw [← hsplit]
    _ = _ := replaceFrom_of_match (by rwa [← hsplit]) (by simp [hkept])

/-- A unit behind the characters that absorb it makes no difference. -/
theorem Absorbs.unit (h : Absorbs match? unit? b kept) (hunit : unit? (x ++ y) = some x.length) (hx : x ≠ []) :
    replaceFrom match? b 0 (kept ++ (x ++ y)) = replaceFrom match? b 0 (kept ++ y) := by
  rw [h, h, rowLength_unit hunit hx, ← List.drop_drop, List.drop_left]

/-- Behind the last unit the characters that absorbed the row stay. -/
theorem Absorbs.rest (h : Absorbs match? unit? b kept) (hnone : unit? y = none) :
    replaceFrom match? b 0 (kept ++ y) = kept ++ replaceFrom match? (lineStartAfter b kept) 0 y := by
  rw [h, rowLength_none hnone, List.drop_zero]

end Replacing

end DiffSlice.Text

namespace DiffSlice

open DiffSlice.Text

/-! ## Numbered lines -/

section Numbered

variable {p l : String} {y : List Char}

theorem numberedRun?_of_none (h : numberedBlank? y = none) (b : Bool) : numberedRun? b y = none := by
  simp only [numberedRun?, h]

/-- A numbered run starts where a line does. -/
theorem numberedRun?_inside (y : List Char) : numberedRun? false y = none := by
  unfold numberedRun?
  split <;> rfl

/-- A numbered blank line is made of digits, one blank and a newline. -/
theorem numberedBlank?_eq_some_iff {cs : List Char} {n : Nat} : numberedBlank? cs = some n ↔
    ∃ digits rest : List Char, digits ≠ [] ∧ (∀ c ∈ digits, isDigit c = true) ∧
      cs = digits ++ ' ' :: '\n' :: rest ∧ n = digits.length + 2 := by
  have hspace : isDigit ' ' = false := by decide
  simp only [numberedBlank?, Option.ite_none_right_eq_some, Bool.and_eq_true, bne_iff_ne, ne_eq, List.length_eq_zero_iff,
    Option.some.injEq, List.isPrefixOf_iff_prefix]
  constructor
  · rintro ⟨⟨hsome, rest, hrest⟩, rfl⟩
    have hline := List.prefix_append_drop (List.takeWhile_prefix (l := cs) isDigit)
    rw [← hrest] at hline
    exact ⟨_, rest, hsome, fun c hc => List.mem_takeWhile_imp hc, hline, rfl⟩
  · rintro ⟨digits, rest, hsome, hdigits, rfl, rfl⟩
    have htake : (digits ++ ' ' :: '\n' :: rest).takeWhile isDigit = digits := by
      rw [List.takeWhile_append_of_pos hdigits, List.takeWhile_cons_of_neg (by simp [hspace]), List.append_nil]
    rw [htake, List.drop_left]
    exact ⟨⟨hsome, rest, rfl⟩, rfl⟩

/-- A blank line and its newline are a unit. -/
theorem numberedBlank?_line (h : isNumberedBlank l = true) (y : List Char) :
    numberedBlank? (l.toList ++ ['\n'] ++ y) = some (l.toList ++ ['\n']).length := by
  obtain ⟨digits, hsome, hdigits, hline⟩ := isNumberedBlank_iff.1 h
  refine numberedBlank?_eq_some_iff.2 ⟨digits, y, hsome, hdigits, ?_, ?_⟩ <;> simp [hline]

theorem numberedBlank?_of_not_mem {x : List Char} (hx : '\n' ∉ x) : numberedBlank? x = none := by
  rw [Option.eq_none_iff_forall_ne_some]
  intro n hn
  obtain ⟨digits, rest, -, -, rfl, -⟩ := numberedBlank?_eq_some_iff.1 hn
  exact hx (by simp)

/-- No other line is taken for a numbered blank one. -/
theorem numberedBlank?_other (h : isNumberedBlank p = false) (hp : '\n' ∉ p.toList) (y : List Char) :
    numberedBlank? (p.toList ++ '\n' :: y) = none := by
  rw [Option.eq_none_iff_forall_ne_some]
  intro n hn
  obtain ⟨digits, rest, hsome, hdigits, hline, -⟩ := numberedBlank?_eq_some_iff.1 hn
  have hdigits' : '\n' ∉ digits ++ [' '] := by
    intro hmem
    rcases List.mem_append.1 hmem with hmem | hmem
    · exact absurd (hdigits _ hmem) (by decide)
    · exact absurd hmem (by decide)
  -- both sides are cut at their first newline
  have hcut := congrArg (stretches '\n') hline
  rw [← List.singleton_append (l := '\n' :: rest), ← List.append_assoc, stretches_append hp, stretches_append hdigits']
    at hcut
  have hblank := isNumberedBlank_iff.2 ⟨digits, hsome, hdigits, (List.cons.inj hcut).1⟩
  exact absurd hblank (by simp [h])

theorem lineStartAfter_newline (b : Bool) (x : List Char) : lineStartAfter b (x ++ ['\n']) = true := by
  rw [lineStartAfter_append]
  rfl

/-- Behind a row of numbered lines a line starts, as before it. -/
theorem lineStartAfter_numbered (y : List Char) :
    lineStartAfter true (y.take (rowLength numberedBlank? 0 y)) = true := by
  induction hlength : y.length using Nat.strong_induction_on generalizing y with
  | _ _ ih =>
    subst hlength
    cases hunit : numberedBlank? y with
    | none =>
      rw [rowLength_none hunit]
      rfl
    | some n =>
      obtain ⟨digits, rest, -, -, rfl, rfl⟩ := numberedBlank?_eq_some_iff.1 hunit
      have hsplit : digits ++ ' ' :: '\n' :: rest = (digits ++ [' ']) ++ ['\n'] ++ rest := by simp
      have hlength : digits.length + 2 = ((digits ++ [' ']) ++ ['\n']).length := by simp
      rw [hlength, hsplit] at hunit
      rw [hsplit, rowLength_unit hunit (by simp), List.take_length_add_append, lineStartAfter_append,
        lineStartAfter_newline]
      exact ih rest.length (by simp; omega) rest rfl

/-- A line stays as it is if there is no match at its start. -/
theorem replaceFrom_numbered_line (hp : '\n' ∉ p.toList) (h : numberedRun? true (p.toList ++ ['\n'] ++ y) = none) :
    replaceFrom numberedRun? true 0 (p.toList ++ ['\n'] ++ y) =
      p.toList ++ ['\n'] ++ replaceFrom numberedRun? true 0 y := by
  rw [List.append_assoc, List.singleton_append] at h ⊢
  by_cases hempty : p.toList = []
  · rw [hempty] at h ⊢
    exact replaceFrom_of_none h
  · rw [replaceFrom_line (fun _ _ _ => numberedRun?_inside _) hp hempty h, replaceFrom_of_none (numberedRun?_inside _),
      List.append_assoc]
    rfl

/-- A numbered blank line absorbs those that follow it. -/
theorem absorbs_numbered (h : isNumberedBlank l = true) :
    Absorbs numberedRun? numberedBlank? true (l.toList ++ ['\n']) := by
  intro y
  have hunit := numberedBlank?_line h y
  have hl : '\n' ∉ l.toList := by
    obtain ⟨digits, -, hdigits, hline⟩ := isNumberedBlank_iff.1 h
    rw [hline, List.mem_append]
    rintro (hmem | hmem)
    · exact absurd (hdigits _ hmem) (by decide)
    · exact absurd hmem (by decide)
  have hrun : numberedRun? true (l.toList ++ ['\n'] ++ y) = if rowLength numberedBlank? 0 y != 0 then
      some ⟨(l.toList ++ ['\n']).length + rowLength numberedBlank? 0 y, l.toList ++ ['\n']⟩ else none := by
    simp only [numberedRun?, hunit, List.drop_left, List.take_left, Bool.true_and]
  by_cases hmore : rowLength numberedBlank? 0 y = 0
  · rw [if_neg (by simp [hmore])] at hrun
    rw [replaceFrom_numbered_line hl hrun, hmore, List.drop_zero, lineStartAfter_newline]
  · rw [if_pos (by simp [hmore])] at hrun
    rw [replaceFrom_row (by simp) hrun, lineStartAfter_append, lineStartAfter_newline, lineStartAfter_numbered]

/-- Of numbered lines those are left that repeat no blank one, also behind a blank line. -/
theorem replaceFrom_numbered (ps : List String) (hps : ∀ p ∈ ps, '\n' ∉ p.toList) :
    replaceFrom numberedRun? true 0 (joinLines ps).toList =
        (joinLines (dropRepeatedBlanks isNumberedBlank false ps)).toList ∧
      ∀ l, isNumberedBlank l = true →
        replaceFrom numberedRun? true 0 (l.toList ++ ['\n'] ++ (joinLines ps).toList) =
          l.toList ++ ['\n'] ++ (joinLines (dropRepeatedBlanks isNumberedBlank true ps)).toList := by
  induction ps with
  | nil =>
    refine ⟨rfl, fun l hl => ?_⟩
    rw [(absorbs_numbered hl).rest (numberedBlank?_of_not_mem (by simp [joinLines]))]
    rfl
  | cons p ps ih =>
    rw [List.forall_mem_cons] at hps
    obtain ⟨hp, hps⟩ := hps
    obtain ⟨ih, ihBlank⟩ := ih hps
    by_cases hlast : ps = []
    · subst hlast
      -- the last line has no newline, so it is no blank line
      have hnone := numberedBlank?_of_not_mem hp
      have hstays : replaceFrom numberedRun? true 0 p.toList = p.toList := by
        by_cases hempty : p.toList = []
        · rw [hempty]
          rfl
        · have hline := replaceFrom_line (y := []) (fun _ _ _ => numberedRun?_inside _) hp hempty
            (numberedRun?_of_none (by simpa using hnone) true)
          simpa [replaceFrom] using hline
      refine ⟨hstays, fun l hl => ?_⟩
      rw [joinLines, (absorbs_numbered hl).rest hnone, lineStartAfter_newline, hstays]
      rfl
    · have hbroken : (joinLines (p :: ps)).toList = p.toList ++ ['\n'] ++ (joinLines ps).toList := by
        rw [joinLines_cons p hlast]
        simp
      rw [hbroken, dropRepeatedBlanks_cons hlast, dropRepeatedBlanks_cons hlast]
      cases hblank : isNumberedBlank p with
      | true =>
        refine ⟨?_, fun l hl => ?_⟩
        · rw [ihBlank p hblank, if_neg (by simp), joinLines_cons p (dropRepeatedBlanks_ne_nil hlast)]
          simp
        · rw [(absorbs_numbered hl).unit (numberedBlank?_line hblank _) (by simp), ihBlank l hl, if_pos (by simp)]
      | false =>
        have hnone : numberedBlank? (p.toList ++ ['\n'] ++ (joinLines ps).toList) = none := by
          simpa using numberedBlank?_other hblank hp _
        have hstays : replaceFrom numberedRun? true 0 (p.toList ++ ['\n'] ++ (joinLines ps).toList) =
            (joinLines (p :: dropRepeatedBlanks isNumberedBlank false ps)).toList := by
          rw [replaceFrom_numbered_line hp (numberedRun?_of_none hnone true), ih,
            joinLines_cons p (dropRepeatedBlanks_ne_nil hlast)]
          simp
        refine ⟨by simpa using hstays, fun l hl => ?_⟩
        rw [(absorbs_numbered hl).rest hnone, lineStartAfter_newline, hstays]
        simp

end Numbered

/-! ## Rows of newlines -/

/-- The lines with a newline before each. -/
def brokenLines : List String → List Char
  | [] => []
  | p :: ps => '\n' :: p.toList ++ brokenLines ps

/-- Joined lines are the first one and the others with a newline before each. -/
theorem toList_joinLines (p : String) (ps : List String) :
    (joinLines (p :: ps)).toList = p.toList ++ brokenLines ps := by
  induction ps generalizing p with
  | nil => simp [joinLines, brokenLines]
  | cons q qs ih => simp [joinLines_cons, brokenLines, ih]

section Rows

variable {unit? : List Char → Option Nat} {least : Nat} {left : List Char} {x y : List Char}

/-- What is left of a row absorbs the rest of it, unless the row is too short to be one. -/
theorem absorbs_rowRun? (hleft : left ≠ [])
    (hrow : ∀ y, rowLength unit? 0 (left ++ y) = left.length + rowLength unit? 0 y)
    (hshort : ∀ y, left.length + rowLength unit? 0 y < least → rowLength unit? 0 y = 0 ∧
      replaceFrom (rowRun? unit? least left) false 0 (left ++ y) =
        left ++ replaceFrom (rowRun? unit? least left) (lineStartAfter false left) 0 y) :
    Absorbs (rowRun? unit? least left) unit? false left := by
  intro y
  by_cases hlong : least ≤ left.length + rowLength unit? 0 y
  · have hmatch : rowRun? unit? least left false (left ++ y) = some ⟨left.length + rowLength unit? 0 y, left⟩ := by
      simp only [rowRun?, hrow, if_pos hlong]
    rw [replaceFrom_row hleft hmatch, replaceFrom_lineStart (fun _ => rfl) (lineStartAfter _ (left ++ _)),
      replaceFrom_lineStart (fun _ => rfl) (lineStartAfter false left)]
  · obtain ⟨hnone, hpass⟩ := hshort y (Nat.lt_of_not_le hlong)
    rw [hpass, hnone, List.drop_zero]

end Rows

section Marked

variable {line : String} {y : List Char}

theorem markedRun?_of_none (h : markedBlank? y = none) (b : Bool) : markedRun? b y = none := by
  simp [markedRun?, rowRun?, rowLength_none h]

theorem restsInLines_marked : RestsInLines markedRun? := fun c y hc =>
  markedRun?_of_none (by simp [markedBlank?, Ne.symm hc]) false

/-- A newline and a blank absorb those that follow. -/
theorem absorbs_marked : Absorbs markedRun? markedBlank? false ['\n', ' '] := by
  refine absorbs_rowRun? (by simp) (fun y => rowLength_unit rfl (by simp)) fun y hshort => ?_
  simp at hshort

/-- A line with the newline before it stays if it is not one blank before a line that starts with a blank. -/
theorem replaceFrom_marked_line (hline : '\n' ∉ line.toList) (hy : y.head?.all (· == '\n') = true)
    (h : line = " " → markedBlank? y = none) :
    replaceFrom markedRun? false 0 ('\n' :: line.toList ++ y) =
      '\n' :: line.toList ++ replaceFrom markedRun? false 0 y := by
  by_cases hspace : line.toList.head? = some ' '
  · obtain ⟨x, hx⟩ := List.head?_eq_some_iff.1 hspace
    have hxn : '\n' ∉ x := fun hmem => hline (hx ▸ List.mem_cons_of_mem _ hmem)
    have hnone : markedBlank? (x ++ y) = none := by
      cases x with
      | nil => exact h (String.toList_inj.1 hx)
      | cons c x =>
        rw [List.mem_cons, not_or] at hxn
        simp [markedBlank?, hxn.1]
    have hrest := absorbs_marked.rest hnone
    rw [replaceFrom_lineStart (fun _ => rfl) (lineStartAfter _ _), replaceFrom_inside restsInLines_marked hxn] at hrest
    simpa [hx] using hrest
  · have hnone : markedBlank? ('\n' :: (line.toList ++ y)) = none := by
      cases hx : line.toList with
      | nil => cases y <;> simp_all [markedBlank?]
      | cons c x =>
        have hc : ' ' ≠ c := by
          rintro rfl
          exact hspace (by rw [hx]; rfl)
        simp [markedBlank?, hc]
    rw [List.cons_append, replaceFrom_of_none (markedRun?_of_none hnone _), replaceFrom_lineStart (fun _ => rfl) (_ == _),
      replaceFrom_inside restsInLines_marked hline, List.cons_append]

theorem head?_brokenLines (ps : List String) : (brokenLines ps).head?.all (· == '\n') = true := by
  cases ps <;> rfl

/-- Of lines with marks those are left that are not one blank before another. -/
theorem replaceFrom_marked (ps : List String) (hps : ∀ p ∈ ps, '\n' ∉ p.toList) :
    replaceFrom markedRun? false 0 (brokenLines ps) = brokenLines (dropMarkedBlanks ps) := by
  fun_induction dropMarkedBlanks ps with
  | case1 => rfl
  | case2 last => exact replaceFrom_marked_line (y := []) (hps last (by simp)) rfl fun _ => rfl
  | case3 line next rest hblank ih =>
    rw [← ih fun p hp => hps p (List.mem_cons_of_mem _ hp)]
    simp only [Bool.and_eq_true, beq_iff_eq] at hblank
    obtain ⟨rfl, hnext⟩ := hblank
    obtain ⟨x, hx⟩ := List.isPrefixOf_iff_prefix.1 hnext
    have hunit := absorbs_marked.unit (x := ['\n', ' ']) (y := x ++ brokenLines rest) rfl (by simp)
    simpa [brokenLines, ← hx] using hunit
  | case4 line next rest hkept ih =>
    rw [List.forall_mem_cons] at hps
    rw [brokenLines, replaceFrom_marked_line hps.1 (head?_brokenLines _), ih hps.2, brokenLines]
    rintro rfl
    have hnext : startsWith " " next = false := by simpa using hkept
    cases hx : next.toList with
    | nil => cases rest <;> simp [brokenLines, markedBlank?, hx]
    | cons c x =>
      have hc : ' ' ≠ c := by
        rintro rfl
        simp [startsWith, hx] at hnext
      simp [brokenLines, markedBlank?, hx, hc]

end Marked

section Plain

variable {y : List Char}

theorem newline?_of_head {c : Char} (hc : c ≠ '\n') (y : List Char) : newline? (c :: y) = none := by
  simp [newline?, Ne.symm hc]

theorem plainRun?_of_short (h : rowLength newline? 0 y < 3) (b : Bool) : plainRun? b y = none := by
  simp [plainRun?, rowRun?, h]

theorem rowLength_newline (y : List Char) : rowLength newline? 0 ('\n' :: y) = 1 + rowLength newline? 0 y :=
  rowLength_unit (x := ['\n']) rfl (by simp)

theorem restsInLines_plain : RestsInLines plainRun? := fun c y hc =>
  plainRun?_of_short (by rw [rowLength_none (newline?_of_head hc y)]; decide) false

/-- Two newlines absorb those that follow. -/
theorem absorbs_plain : Absorbs plainRun? newline? false ['\n', '\n'] := by
  refine absorbs_rowRun? (by simp) (fun y => ?_) fun y hshort => ?_
  · rw [List.cons_append, rowLength_newline, List.cons_append, rowLength_newline, List.nil_append, ← Nat.add_assoc]
    rfl
  · have hnone : rowLength newline? 0 y = 0 := by
      rw [List.length_cons, List.length_singleton] at hshort
      omega
    refine ⟨hnone, ?_⟩
    show replaceFrom plainRun? false 0 ('\n' :: '\n' :: y) = '\n' :: '\n' :: replaceFrom plainRun? true 0 y
    rw [replaceFrom_of_none (plainRun?_of_short (by simp [rowLength_newline, hnone]) false),
      replaceFrom_of_none (plainRun?_of_short (by simp [rowLength_newline, hnone]) _)]
    rfl

/-- Of plain lines those are left that repeat no empty one, also behind an empty line. -/
theorem replaceFrom_plain (ps : List String) (hps : ∀ p ∈ ps, '\n' ∉ p.toList) :
    replaceFrom plainRun? false 0 (brokenLines ps) = brokenLines (dropRepeatedBlanks (· == "") false ps) ∧
      replaceFrom plainRun? false 0 ('\n' :: brokenLines ps) =
        '\n' :: brokenLines (dropRepeatedBlanks (· == "") true ps) := by
  induction ps with
  | nil => exact ⟨rfl, rfl⟩
  | cons p ps ih =>
    rw [List.forall_mem_cons] at hps
    obtain ⟨hp, hps⟩ := hps
    obtain ⟨ih, ihBlank⟩ := ih hps
    by_cases hempty : p = ""
    · subst hempty
      by_cases hlast : ps = []
      · subst hlast
        exact ⟨rfl, rfl⟩
      · obtain ⟨q, qs, rfl⟩ := List.exists_cons_of_ne_nil hlast
        refine ⟨ihBlank, ?_⟩
        -- the newlines before `q` are the third of the row
        have hunit := absorbs_plain.unit (x := ['\n']) (y := q.toList ++ brokenLines qs) rfl (by simp)
        exact hunit.trans ihBlank
    · obtain ⟨c, x, hx⟩ := List.exists_cons_of_ne_nil (mt String.toList_eq_nil_iff.1 hempty)
      rw [dropRepeatedBlanks_of_other (by simpa using hempty), dropRepeatedBlanks_of_other (by simpa using hempty)]
      have hc : c ≠ '\n' := by
        rintro rfl
        exact hp (by simp [hx])
      have hnone : newline? (p.toList ++ brokenLines ps) = none := by
        rw [hx, List.cons_append]
        exact newline?_of_head hc _
      have hline : replaceFrom plainRun? false 0 (p.toList ++ brokenLines ps) =
          p.toList ++ brokenLines (dropRepeatedBlanks (· == "") false ps) := by
        rw [replaceFrom_inside restsInLines_plain hp, ih]
      constructor
      · rw [brokenLines, List.cons_append, replaceFrom_of_none (plainRun?_of_short
          (by rw [rowLength_newline, rowLength_none hnone]; decide) false), replaceFrom_lineStart (fun _ => rfl), hline]
        rfl
      · have hrest := absorbs_plain.rest hnone
        rw [replaceFrom_lineStart (fun _ => rfl) (lineStartAfter _ _), hline] at hrest
        exact hrest

end Plain

/-! ## Any style -/

/-- What is left of a text are the lines that are left of its lines. -/
theorem collapseBlankRuns_eq (style : LineStyle) (text : String) :
    collapseBlankRuns style text = joinLines (collapsedPieces style (pieces text)) := by
  have hps : ∀ p ∈ pieces text, '\n' ∉ p.toList := fun p hp => not_mem_of_mem_pieces hp
  obtain ⟨p, ps, hpieces⟩ := List.exists_cons_of_ne_nil (pieces_ne_nil text)
  have htext : text.toList = p.toList ++ brokenLines ps := by
    rw [← toList_joinLines, ← hpieces, joinLines_pieces]
  rw [hpieces] at hps ⊢
  rw [List.forall_mem_cons] at hps
  rw [← String.toList_inj, collapseBlankRuns, replaceAll, String.toList_ofList, htext]
  cases style with
  | lineNumbers =>
    rw [← toList_joinLines]
    exact (replaceFrom_numbered (p :: ps) (List.forall_mem_cons.2 hps)).1
  | editMarkers =>
    show replaceFrom markedRun? true 0 _ = _
    rw [replaceFrom_lineStart (fun _ => rfl), replaceFrom_inside restsInLines_marked hps.1, replaceFrom_marked ps hps.2,
      collapsedPieces, toList_joinLines]
  | plain =>
    show replaceFrom plainRun? true 0 _ = _
    rw [replaceFrom_lineStart (fun _ => rfl), replaceFrom_inside restsInLines_plain hps.1, (replaceFrom_plain ps hps.2).1,
      collapsedPieces, toList_joinLines]

end DiffSlice
