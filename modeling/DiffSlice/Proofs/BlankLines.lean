import DiffSlice.Slice.BlankRuns
import DiffSlice.Text.Lines
import Mathlib.Data.List.Infix
import Mathlib.Data.List.TakeWhile

/-!
# Blank lines that are left out

What is left of the lines of a text is told line by line here (`collapsedPieces`). Lines are thinned if empty lines right
before other empty ones are left out (`Thinned`), and that is all that is done to the runs of empty lines in a plain text
(`thinned_collapsedPieces`). In any style nothing but blank lines is left out (`omits_collapsedPieces`).
-/

namespace DiffSlice

open DiffSlice.Text

/-! ## Thinned lines -/

/-- The second lines are the first without some empty ones that stand right before others. -/
inductive Thinned : List String → List String → Prop
  | nil : Thinned [] []
  | cons {ls ms : List String} (l : String) (later : Thinned ls ms) : Thinned (l :: ls) (l :: ms)
  | drop {ls ms : List String} (later : Thinned ("" :: ls) ms) : Thinned ("" :: "" :: ls) ms

namespace Thinned

variable {ls ms : List String}

theorem refl (ls : List String) : Thinned ls ls := by
  induction ls with
  | nil => exact .nil
  | cons l ls ih => exact .cons l ih

theorem sublist (h : Thinned ls ms) : ms.Sublist ls := by
  induction h with
  | nil => exact .slnil
  | cons l _ ih => exact ih.cons_cons l
  | drop _ ih => exact ih.cons ""

theorem head?_eq (h : Thinned ls ms) : ms.head? = ls.head? := by
  induction h with
  | nil => rfl
  | cons => rfl
  | drop _ ih => exact ih

/-- The last line is never left out. -/
theorem getLast?_eq (h : Thinned ls ms) : ms.getLast? = ls.getLast? := by
  induction h with
  | nil => rfl
  | cons l _ ih => rw [List.getLast?_cons, List.getLast?_cons, ih]
  | drop _ ih => rw [ih, List.getLast?_cons_cons]

theorem append {ls' ms' : List String} (h : Thinned ls ms) (h' : Thinned ls' ms') :
    Thinned (ls ++ ls') (ms ++ ms') := by
  induction h with
  | nil => exact h'
  | cons l _ ih => exact .cons l ih
  | drop _ ih => exact .drop ih

end Thinned

/-! ## What is left of the lines -/

/-- The line holds a number and one blank. -/
def isNumberedBlank (line : String) : Bool :=
  let digits := line.toList.takeWhile isDigit
  !digits.isEmpty && line.toList.drop digits.length == [' ']

/-- The lines, of each run of blank ones only the first; the last line always stays. -/
def dropRepeatedBlanks (isBlankLine : String → Bool) (afterBlank : Bool) : List String → List String
  | [] => []
  | [last] => [last]
  | line :: rest =>
    if afterBlank && isBlankLine line then dropRepeatedBlanks isBlankLine true rest
    else line :: dropRepeatedBlanks isBlankLine (isBlankLine line) rest

/-- The lines without those that are one blank and stand before a line that starts with a blank. -/
def dropMarkedBlanks : List String → List String
  | [] => []
  | [last] => [last]
  | line :: next :: rest =>
    if line == " " && startsWith " " next then dropMarkedBlanks (next :: rest)
    else line :: dropMarkedBlanks (next :: rest)

/-- The pieces of a text, of each run of blank lines only one. The first piece of a text is never dropped as a
repeated blank, and numbered or empty lines count only if a newline ends them. -/
def collapsedPieces (style : LineStyle) (ps : List String) : List String :=
  match style, ps with
  | .lineNumbers, ps => dropRepeatedBlanks isNumberedBlank false ps
  | .editMarkers, first :: rest => first :: dropMarkedBlanks rest
  | .plain, first :: rest => first :: dropRepeatedBlanks (· == "") false rest
  | _, [] => []

/-- A numbered blank line is made of digits and one blank. -/
theorem isNumberedBlank_iff {line : String} : isNumberedBlank line = true ↔
    ∃ digits : List Char, digits ≠ [] ∧ (∀ c ∈ digits, isDigit c = true) ∧ line.toList = digits ++ [' '] := by
  have hspace : isDigit ' ' = false := by decide
  simp only [isNumberedBlank, Bool.and_eq_true, beq_iff_eq, Bool.not_eq_true', List.isEmpty_eq_false_iff]
  constructor
  · rintro ⟨hsome, hrest⟩
    have hfront : line.toList.takeWhile isDigit <+: line.toList := List.takeWhile_prefix isDigit
    have hline := List.prefix_append_drop hfront
    rw [hrest] at hline
    exact ⟨_, hsome, fun c hc => List.mem_takeWhile_imp hc, hline⟩
  · rintro ⟨digits, hsome, hdigits, hline⟩
    have htake : line.toList.takeWhile isDigit = digits := by
      rw [hline, List.takeWhile_append_of_pos hdigits, List.takeWhile_cons_of_neg (by simp [hspace]), List.append_nil]
    rw [htake, hline, List.drop_left]
    exact ⟨hsome, rfl⟩

/-! ## Repeated blanks -/

section RepeatedBlanks

variable {isBlankLine : String → Bool} {afterBlank : Bool} {a : String}

theorem dropRepeatedBlanks_cons {line : String} {rest : List String} (h : rest ≠ []) :
    dropRepeatedBlanks isBlankLine afterBlank (line :: rest) =
      if afterBlank && isBlankLine line then dropRepeatedBlanks isBlankLine true rest
      else line :: dropRepeatedBlanks isBlankLine (isBlankLine line) rest := by
  cases rest with
  | nil => exact absurd rfl h
  | cons => rfl

theorem dropRepeatedBlanks_ne_nil {ls : List String} (h : ls ≠ []) :
    dropRepeatedBlanks isBlankLine afterBlank ls ≠ [] := by
  fun_induction dropRepeatedBlanks isBlankLine afterBlank ls with
  | case1 => exact h
  | case2 => exact h
  | case3 _ _ rest hrest _ ih => exact ih fun hnil => hrest hnil
  | case4 => exact List.cons_ne_nil _ _

/-- Dropping repeated empty lines thins the lines, also behind an empty line that came before. -/
theorem thinned_dropRepeatedBlanks (ls : List String) :
    Thinned ls (dropRepeatedBlanks (· == "") false ls) ∧
      Thinned ("" :: ls) ("" :: dropRepeatedBlanks (· == "") true ls) := by
  induction ls with
  | nil => exact ⟨.nil, .refl _⟩
  | cons line rest ih =>
    by_cases hrest : rest = []
    · subst hrest
      exact ⟨.refl _, .refl _⟩
    · rw [dropRepeatedBlanks_cons hrest, dropRepeatedBlanks_cons hrest]
      by_cases hline : line = ""
      · subst hline
        exact ⟨ih.2, .drop ih.2⟩
      · simp only [beq_eq_false_iff_ne.2 hline, Bool.and_false]
        exact ⟨.cons line ih.1, .cons "" (.cons line ih.1)⟩

theorem dropRepeatedBlanks_of_other (ha : isBlankLine a = false) (afterBlank : Bool) (rest : List String) :
    dropRepeatedBlanks isBlankLine afterBlank (a :: rest) = a :: dropRepeatedBlanks isBlankLine false rest := by
  cases rest with
  | nil => rfl
  | cons => simp [dropRepeatedBlanks, ha]

/-- A line that is not blank divides what is left. -/
theorem dropRepeatedBlanks_append (ha : isBlankLine a = false) (afterBlank : Bool) (xs rest : List String) :
    dropRepeatedBlanks isBlankLine afterBlank (xs ++ a :: rest) =
      dropRepeatedBlanks isBlankLine afterBlank (xs ++ [a]) ++ dropRepeatedBlanks isBlankLine false rest := by
  induction xs generalizing afterBlank with
  | nil => exact dropRepeatedBlanks_of_other ha afterBlank rest
  | cons x xs ih =>
    rw [List.cons_append, List.cons_append, dropRepeatedBlanks_cons (by simp), dropRepeatedBlanks_cons (by simp), ih, ih]
    split <;> rfl

/-- The last line stays. -/
theorem getLast?_dropRepeatedBlanks (isBlankLine : String → Bool) (afterBlank : Bool) (ls : List String) :
    (dropRepeatedBlanks isBlankLine afterBlank ls).getLast? = ls.getLast? := by
  fun_induction dropRepeatedBlanks isBlankLine afterBlank ls with
  | case1 => rfl
  | case2 => rfl
  | case3 _ _ rest hrest _ ih =>
    obtain ⟨next, rest, rfl⟩ := List.exists_cons_of_ne_nil fun hnil => hrest hnil
    rw [ih, List.getLast?_cons_cons]
  | case4 _ line rest hrest _ ih => rw [List.getLast?_cons, List.getLast?_cons, ih]

/-- After a blank line, nothing is left of more of them. -/
theorem dropRepeatedBlanks_run {run : List String} (hrun : ∀ l ∈ run, isBlankLine l = true) {rest : List String}
    (hrest : rest ≠ []) :
    dropRepeatedBlanks isBlankLine true (run ++ rest) = dropRepeatedBlanks isBlankLine true rest := by
  induction run with
  | nil => rfl
  | cons l run ih =>
    rw [List.forall_mem_cons] at hrun
    rw [List.cons_append, dropRepeatedBlanks_cons (by simp [hrest]), if_pos (by simp [hrun.1]), ih hrun.2]

/-- Of a run of blank lines the first is left. -/
theorem dropRepeatedBlanks_first_run {run : List String} (hrun : ∀ l ∈ run, isBlankLine l = true) (hsome : run ≠ [])
    (ha : isBlankLine a = false) (rest : List String) :
    dropRepeatedBlanks isBlankLine false (run ++ a :: rest) =
      run.take 1 ++ dropRepeatedBlanks isBlankLine false (a :: rest) := by
  obtain ⟨l, run, rfl⟩ := List.exists_cons_of_ne_nil hsome
  rw [List.forall_mem_cons] at hrun
  rw [List.cons_append, dropRepeatedBlanks_cons (by simp), if_neg (by simp), hrun.1,
    dropRepeatedBlanks_run hrun.2 (by simp), dropRepeatedBlanks_of_other ha, dropRepeatedBlanks_of_other ha]
  rfl

end RepeatedBlanks

/-! ## Marked blanks -/

section MarkedBlanks

variable {a : String}

theorem dropMarkedBlanks_of_other (ha : a ≠ " ") (rest : List String) :
    dropMarkedBlanks (a :: rest) = a :: dropMarkedBlanks rest := by
  cases rest with
  | nil => rfl
  | cons => simp [dropMarkedBlanks, ha]

/-- A line that is not blank divides what is left. -/
theorem dropMarkedBlanks_append (ha : a ≠ " ") (xs rest : List String) :
    dropMarkedBlanks (xs ++ a :: rest) = dropMarkedBlanks (xs ++ [a]) ++ dropMarkedBlanks rest := by
  induction xs with
  | nil => exact dropMarkedBlanks_of_other ha rest
  | cons x xs ih =>
    -- whether `x` is left depends on the next line, which is the same on both sides
    cases xs with
    | nil =>
      simp only [List.nil_append, List.cons_append, dropMarkedBlanks] at ih ⊢
      split <;> simp [ih]
    | cons y xs =>
      simp only [List.cons_append, dropMarkedBlanks] at ih ⊢
      split <;> simp [ih]

/-- Of a run of blank lines one is left if the line after it has no blank in front, and none if it has. -/
theorem dropMarkedBlanks_run {run : List String} (hrun : ∀ l ∈ run, l = " ") (hsome : run ≠ []) (b : String)
    (ys : List String) : dropMarkedBlanks (run ++ b :: ys) =
      (if startsWith " " b then [] else run.take 1) ++ dropMarkedBlanks (b :: ys) := by
  induction run with
  | nil => exact absurd rfl hsome
  | cons l run ih =>
    rw [List.forall_mem_cons] at hrun
    obtain ⟨rfl, hrun⟩ := hrun
    cases run with
    | nil =>
      simp only [List.cons_append, List.nil_append, dropMarkedBlanks]
      split <;> simp_all
    | cons m run =>
      have hm : m = " " := hrun m List.mem_cons_self
      have hlater := ih hrun (by simp)
      subst hm
      simpa [dropMarkedBlanks, startsWith] using hlater

/-- The last line stays. -/
theorem getLast?_dropMarkedBlanks (ls : List String) : (dropMarkedBlanks ls).getLast? = ls.getLast? := by
  fun_induction dropMarkedBlanks ls with
  | case1 => rfl
  | case2 => rfl
  | case3 line next rest _ ih => rw [ih, List.getLast?_cons_cons]
  | case4 line next rest _ ih => rw [List.getLast?_cons, List.getLast?_cons, ih]

end MarkedBlanks

/-! ## Plain pieces -/

/-- Of the pieces of a plain text only empty ones before others are left out. -/
theorem thinned_collapsedPieces (ps : List String) : Thinned ps (collapsedPieces .plain ps) := by
  cases ps with
  | nil => exact .nil
  | cons p ps => exact .cons p (thinned_dropRepeatedBlanks ps).1

/-! ## Pieces of any style -/

/-- The second list is the first without some elements that satisfy `p`. -/
inductive Omits {α : Type} (p : α → Bool) : List α → List α → Prop
  | nil : Omits p [] []
  | keep {as bs : List α} (a : α) (later : Omits p as bs) : Omits p (a :: as) (a :: bs)
  | drop {a : α} {as bs : List α} (omitted : p a = true) (later : Omits p as bs) : Omits p (a :: as) bs

namespace Omits

variable {α β : Type} {p : α → Bool} {as bs : List α}

theorem refl (p : α → Bool) (as : List α) : Omits p as as := by
  induction as with
  | nil => exact .nil
  | cons a as ih => exact .keep a ih

theorem mono {q : α → Bool} (h : Omits p as bs) (hpq : ∀ a, p a = true → q a = true) : Omits q as bs := by
  induction h with
  | nil => exact .nil
  | keep a _ ih => exact .keep a ih
  | drop omitted _ ih => exact .drop (hpq _ omitted) ih

theorem sublist (h : Omits p as bs) : bs.Sublist as := by
  induction h with
  | nil => exact .slnil
  | keep a _ ih => exact ih.cons_cons a
  | drop _ _ ih => exact ih.cons _

/-- Elements that are never left out are all there, in order. -/
theorem filter_eq {q : α → Bool} (h : Omits p as bs) (hq : ∀ a, p a = true → q a = false) :
    bs.filter q = as.filter q := by
  induction h with
  | nil => rfl
  | keep a _ ih => rw [List.filter_cons, List.filter_cons, ih]
  | drop omitted _ ih => rw [List.filter_cons_of_neg (by simp [hq _ omitted]), ih]

/-- What is left of images are the images of what is left. -/
theorem exists_map {f : β → α} {xs : List β} (h : Omits p (xs.map f) bs) :
    ∃ ys, bs = ys.map f ∧ Omits (fun x => p (f x)) xs ys := by
  induction xs generalizing bs with
  | nil =>
    cases h
    exact ⟨[], rfl, .nil⟩
  | cons x xs ih =>
    cases h with
    | keep _ later =>
      obtain ⟨ys, rfl, hys⟩ := ih later
      exact ⟨x :: ys, rfl, .keep x hys⟩
    | drop omitted later =>
      obtain ⟨ys, rfl, hys⟩ := ih later
      exact ⟨ys, rfl, .drop omitted hys⟩

end Omits

/-- The line is blank as the lines of a style are. -/
def LineStyle.isBlankLine : LineStyle → String → Bool
  | .lineNumbers => isNumberedBlank
  | .editMarkers => (· == " ")
  | .plain => (· == "")

/-- Only blank lines are dropped. -/
theorem omits_dropRepeatedBlanks (isBlankLine : String → Bool) (afterBlank : Bool) (ls : List String) :
    Omits isBlankLine ls (dropRepeatedBlanks isBlankLine afterBlank ls) := by
  fun_induction dropRepeatedBlanks isBlankLine afterBlank ls with
  | case1 => exact .nil
  | case2 => exact .refl _ _
  | case3 afterBlank line rest _ hblank ih =>
    rw [Bool.and_eq_true] at hblank
    exact .drop hblank.2 ih
  | case4 afterBlank line rest _ _ ih => exact .keep line ih

theorem omits_dropMarkedBlanks (ls : List String) : Omits (· == " ") ls (dropMarkedBlanks ls) := by
  fun_induction dropMarkedBlanks ls with
  | case1 => exact .nil
  | case2 => exact .refl _ _
  | case3 line next rest hblank ih =>
    rw [Bool.and_eq_true] at hblank
    exact .drop hblank.1 ih
  | case4 line next rest _ ih => exact .keep line ih

/-- Of the pieces of a text only blank ones are left out. -/
theorem omits_collapsedPieces (style : LineStyle) (ps : List String) :
    Omits style.isBlankLine ps (collapsedPieces style ps) := by
  cases style with
  | lineNumbers => exact omits_dropRepeatedBlanks _ _ ps
  | editMarkers =>
    cases ps with
    | nil => exact .nil
    | cons p ps => exact .keep p (omits_dropMarkedBlanks ps)
  | plain =>
    cases ps with
    | nil => exact .nil
    | cons p ps => exact .keep p (omits_dropRepeatedBlanks _ _ ps)

end DiffSlice
