import DiffSlice.JavaScript.Derivation
import Mathlib.Order.Basic

/-!
# Places in the order of a source

Places of one source are ordered: `c ≤ d` if `d` is reached from `c` by passing over characters. Rows do not go down
on the way (`Cursor.row_le`), and a place is told by its bytes (`Cursor.eq_of_offset_eq`).

`InOrder` says of a list of things that take up stretches of a source that they follow one another between two places,
and that the parts of each do so within it. It is meant for derivations, for the nodes they show and for the rows of
these. What the scanner finds stands at the place where it looks or after it (`nextLexeme_after`).
-/

namespace DiffSlice.JavaScript

/-! ## Places -/

namespace Cursor

theorem skip_skip (c : Cursor) (m n : Nat) : (c.skip m).skip n = c.skip (m + n) := by
  induction m generalizing c with
  | zero => rw [Nat.zero_add]; rfl
  | succ m ih => rw [Nat.succ_add]; exact ih c.next

/-- A place comes before those that are reached by passing over characters. -/
instance : Preorder Cursor where
  le c d := ∃ n, d = c.skip n
  le_refl c := ⟨0, rfl⟩
  le_trans c d e := by
    rintro ⟨m, rfl⟩ ⟨n, rfl⟩
    exact ⟨m + n, skip_skip c m n⟩

/-- Skipping never leads back. -/
theorem le_skip (c : Cursor) (n : Nat) : c ≤ c.skip n :=
  ⟨n, rfl⟩

theorem le_next (c : Cursor) : c ≤ c.next :=
  c.le_skip 1

theorem le_skipWhile (c : Cursor) (p : Char → Bool) : c ≤ c.skipWhile p :=
  c.le_skip _

theorem next_of_nil {c : Cursor} (h : c.rest = []) : c.next = c := by
  rw [next, h]

theorem skip_of_nil {c : Cursor} (h : c.rest = []) (n : Nat) : c.skip n = c := by
  induction n with
  | zero => rfl
  | succ n ih => rw [skip, next_of_nil h, ih]

/-- The next place is further on, unless the source ends. -/
theorem offset_lt_next {c : Cursor} (h : c.rest ≠ []) : c.offset < c.next.offset := by
  cases hrest : c.rest with
  | nil => exact absurd hrest h
  | cons ch rest =>
    have hsize : 0 < ch.utf8Size := Char.utf8Size_pos ch
    rw [next, hrest]
    show c.offset < c.offset + ch.utf8Size
    omega

theorem offset_le {c d : Cursor} (h : c ≤ d) : c.offset ≤ d.offset := by
  obtain ⟨n, rfl⟩ := h
  induction n generalizing c with
  | zero => exact Nat.le_refl _
  | succ n ih =>
    by_cases hrest : c.rest = []
    · exact Nat.le_of_eq (congrArg offset (skip_of_nil hrest _).symm)
    · exact Nat.le_trans (Nat.le_of_lt (offset_lt_next hrest)) ih

/-- A later place is not in an earlier row. -/
theorem row_le {c d : Cursor} (h : c ≤ d) : c.row ≤ d.row := by
  obtain ⟨n, rfl⟩ := h
  induction n generalizing c with
  | zero => exact Nat.le_refl _
  | succ n ih =>
    refine Nat.le_trans ?_ ih
    unfold next
    split
    · exact Nat.le_refl _
    · dsimp only
      split <;> omega

/-- A place of a source is told by the bytes behind it. -/
theorem eq_of_offset_eq {source c d : Cursor} (hc : source ≤ c) (hd : source ≤ d) (h : c.offset = d.offset) : c = d := by
  -- no character lies between places of the same number of bytes
  have hskip : ∀ (c : Cursor) (n : Nat), (c.skip n).offset = c.offset → c.skip n = c := by
    intro c n hn
    cases n with
    | zero => rfl
    | succ n =>
      by_cases hrest : c.rest = []
      · exact skip_of_nil hrest _
      · have hmore := offset_le (c.next.le_skip n)
        have hone := offset_lt_next hrest
        rw [skip] at hn
        omega
  obtain ⟨m, rfl⟩ := hc
  obtain ⟨n, rfl⟩ := hd
  rcases Nat.le_total m n with hmn | hmn
  · obtain ⟨k, rfl⟩ := Nat.exists_eq_add_of_le hmn
    rw [← skip_skip] at h ⊢
    exact (hskip _ k h.symm).symm
  · obtain ⟨k, rfl⟩ := Nat.exists_eq_add_of_le hmn
    rw [← skip_skip] at h ⊢
    exact hskip _ k h

end Cursor

/-! ## Things in order -/

/-- Something that takes up a stretch and is made of parts. -/
class Spanned (α : Type) (P : outParam Type) where
  start : α → P
  stop : α → P
  parts : α → List α

open Spanned

section InOrder

variable {α P : Type} [Preorder P] [Spanned α P]

/-- The things follow one another from `a` to `b`, and so do the parts of each within it. -/
inductive InOrder : P → List α → P → Prop
  | nil {a b : P} : a ≤ b → InOrder a [] b
  | cons {a b : P} {x : α} {xs : List α} : a ≤ start x → InOrder (start x) (parts x) (stop x) →
      InOrder (stop x) xs b → InOrder a (x :: xs) b

namespace InOrder

variable {a b c : P} {x y : α} {xs ys : List α}

/-- Things that follow one another end no earlier than they start. -/
theorem le (h : InOrder a xs b) : a ≤ b := by
  induction h with
  | nil h => exact h
  | cons hstart _ _ ihparts ih => exact hstart.trans (ihparts.trans ih)

theorem mono_left (h : InOrder b xs c) (hab : a ≤ b) : InOrder a xs c := by
  cases h with
  | nil h => exact .nil (hab.trans h)
  | cons hstart hparts h => exact .cons (hab.trans hstart) hparts h

theorem mono_right (h : InOrder a xs b) (hbc : b ≤ c) : InOrder a xs c := by
  induction h with
  | nil h => exact .nil (h.trans hbc)
  | cons hstart hparts _ _ ih => exact .cons hstart hparts (ih hbc)

/-- Things that follow others in order are in order with them. -/
theorem append (h : InOrder a xs b) (h' : InOrder b ys c) : InOrder a (xs ++ ys) c := by
  induction h with
  | nil h => exact h'.mono_left h
  | cons hstart hparts _ _ ih => exact .cons hstart hparts (ih h')

theorem singleton (hab : a ≤ start x) (h : InOrder (start x) (parts x) (stop x)) : InOrder a [x] (stop x) :=
  .cons hab h (.nil le_rfl)

/-- Things in order can be parted at a place between them. -/
theorem exists_of_append (h : InOrder a (xs ++ ys) c) : ∃ b, InOrder a xs b ∧ InOrder b ys c := by
  induction xs generalizing a with
  | nil => exact ⟨a, .nil le_rfl, h⟩
  | cons x xs ih =>
    cases h with
    | cons hstart hparts h =>
      obtain ⟨b, hxs, hys⟩ := ih h
      exact ⟨b, .cons hstart hparts hxs, hys⟩

/-- Each of the things lies between the ends, and its parts are in order. -/
theorem mem (h : InOrder a xs b) (hx : x ∈ xs) :
    a ≤ start x ∧ InOrder (start x) (parts x) (stop x) ∧ stop x ≤ b := by
  obtain ⟨front, rest, rfl⟩ := List.append_of_mem hx
  obtain ⟨m, hfront, h⟩ := h.exists_of_append
  cases h with
  | cons hstart hparts h => exact ⟨hfront.le.trans hstart, hparts, h.le⟩

/-- What all the things are made of is in order. -/
theorem flatMap_parts (h : InOrder a xs b) : InOrder a (xs.flatMap parts) b := by
  induction h with
  | nil h => exact .nil h
  | cons hstart hparts _ _ ih => exact (hparts.mono_left hstart).append ih

/-- Things in order may be taken to start where the first one does. -/
theorem shrink_left (h : InOrder a xs b) (hx : xs.head? = some x) : a ≤ start x ∧ InOrder (start x) xs b := by
  obtain ⟨ys, rfl⟩ := List.head?_eq_some_iff.1 hx
  cases h with
  | cons hstart hparts h => exact ⟨hstart, .cons le_rfl hparts h⟩

theorem shrink_right (h : InOrder a xs b) (hx : xs.getLast? = some x) : InOrder a xs (stop x) ∧ stop x ≤ b := by
  obtain ⟨ys, rfl⟩ := List.getLast?_eq_some_iff.1 hx
  obtain ⟨m, hys, h⟩ := h.exists_of_append
  cases h with
  | cons hstart hparts h => exact ⟨hys.append (singleton hstart hparts), h.le⟩

end InOrder

end InOrder

/-! ## Derivations -/

instance : Spanned Derivation Cursor := ⟨Derivation.start, Derivation.stop, Derivation.parts⟩

namespace Derivation

/-- The parts of the derivation follow one another within it. -/
def Ordered (d : Derivation) : Prop :=
  InOrder d.start d.parts d.stop

theorem Ordered.le {d : Derivation} (h : d.Ordered) : d.start ≤ d.stop :=
  InOrder.le h

variable (label : Label) (weight : Int) (isExtra : Bool) {a b c : Cursor} {ps : List Derivation}

/-- A derivation starts where its first part does. -/
theorem ofParts_start : (ofParts label weight isExtra c ps).start = (ps.head?.map (·.start)).getD c := by
  cases ps <;> rfl

/-- A derivation stops where its last part does. -/
theorem ofParts_stop : (ofParts label weight isExtra c ps).stop = (ps.getLast?.map (·.stop)).getD c := by
  unfold ofParts
  dsimp only
  split <;> rename_i h <;> rw [h] <;> rfl

/-- What is made of parts in order takes up no more than they do. -/
theorem ofParts_inOrder (h : InOrder a ps b) (hc : ps = [] → a ≤ c ∧ c ≤ b) :
    a ≤ (ofParts label weight isExtra c ps).start ∧ (ofParts label weight isExtra c ps).Ordered ∧
      (ofParts label weight isExtra c ps).stop ≤ b := by
  rw [Ordered, ofParts_start, ofParts_stop]
  show _ ∧ InOrder _ ps _ ∧ _
  cases hlast : ps.getLast? with
  | none =>
    obtain rfl := List.getLast?_eq_none_iff.1 hlast
    exact ⟨(hc rfl).1, .nil le_rfl, (hc rfl).2⟩
  | some last =>
    obtain ⟨first, hfirst⟩ : ∃ first, ps.head? = some first := by
      cases ps with
      | nil => cases hlast
      | cons p ps => exact ⟨p, rfl⟩
    obtain ⟨hright, hstop⟩ := h.shrink_right hlast
    obtain ⟨hstart, hall⟩ := hright.shrink_left hfirst
    rw [hfirst]
    exact ⟨hstart, hall, hstop⟩

end Derivation

/-! ## Lexemes -/

/-- The lexeme stands at the place or after it. -/
structure Lexeme.After (c : Cursor) (l : Lexeme) : Prop where
  le_start : c ≤ l.start
  start_le : l.start ≤ l.stop

section Scanning

variable {c d : Cursor} {l : Lexeme} {expected : TokenSet}

theorem Lexeme.after_ofLength (t : Token) (h : c ≤ d) (n : Nat) : (ofLength t d n).After c :=
  ⟨h, d.le_skip n⟩

/-- A name that is taken for a word stands where it stood. -/
theorem Lexeme.After.asWord (h : l.After c) (allowed : Token → Bool) : (l.asWord allowed).After c := by
  unfold Lexeme.asWord
  split
  · dsimp only
    split
    · split
      · exact ⟨h.le_start, h.start_le⟩
      · exact h
    · exact h
  · exact h

theorem questionMark?_after (h : questionMark? c = some l) : l.After c := by
  unfold questionMark? at h
  dsimp only at h
  split at h
  · cases h
  · split at h
    · cases h
      exact Lexeme.after_ofLength _ (c.le_skipWhile _) 1
    · cases h
  · cases h
  · cases h
    exact Lexeme.after_ofLength _ (c.le_skipWhile _) 1
  · cases h

theorem Lexeme.After.mono (h : l.After d) (hcd : c ≤ d) : l.After c :=
  ⟨hcd.trans h.le_start, h.start_le⟩

theorem Cursor.le_pastLineEnd (c : Cursor) : c ≤ c.pastLineEnd := by
  unfold Cursor.pastLineEnd
  dsimp only
  split
  · exact (c.le_skipWhile _).trans (Cursor.le_next _)
  · exact c.le_skipWhile _

/-- What the scan for special tokens finds is not before the place. -/
theorem scanSpecial_after (h : scanSpecial expected c = some l) : l.After c := by
  unfold scanSpecial at h
  split at h
  · split at h
    · cases h
    · split at h
      · cases h
        exact Lexeme.after_ofLength _ le_rfl _
      · cases h
  · split at h
    · cases h
      exact Lexeme.after_ofLength _ le_rfl _
    · split at h
      · cases h
        exact Lexeme.after_ofLength _ le_rfl _
      · split at h
        · refine (questionMark?_after h).mono ?_
          split
          · exact c.le_pastLineEnd
          · exact le_rfl
        · split at h
          · cases h
          · obtain ⟨n, -, rfl⟩ := Option.map_eq_some_iff.1 h
            exact Lexeme.after_ofLength _ (c.le_skipWhile _) n

/-- The candidate that counts is one of the candidates. -/
theorem Candidate.mem_of_best? {a : Candidate} {cs : List Candidate} (h : best? cs = some a) : a ∈ cs := by
  cases cs with
  | nil => cases h
  | cons b cs =>
    rw [best?, Option.some.injEq] at h
    -- the choice so far is always one of the candidates
    suffices ∀ b, cs.foldl (fun a b => if a.yields b then b else a) b = b ∨
        cs.foldl (fun a b => if a.yields b then b else a) b ∈ cs by
      rw [← h, List.mem_cons]
      exact this b
    clear h
    intro b
    induction cs generalizing b with
    | nil => exact .inl rfl
    | cons d cs ih =>
      rw [List.foldl_cons, List.mem_cons]
      split
      · exact .inr (ih d)
      · exact (ih b).imp_right .inr

/-- What a pattern finds is not before the place. -/
theorem Pattern.candidate?_after {p : Pattern} {found : Candidate} (hcd : c ≤ d) (h : p.candidate? c d = some found) :
    found.lexeme.After c := by
  unfold Pattern.candidate? at h
  dsimp only at h
  split at h
  · cases h
    refine Lexeme.after_ofLength _ ?_ _
    split
    · exact le_rfl
    · exact hcd
  · cases h

theorem punctuatorCandidates_after {allowed : Token → Bool} {found : Candidate} (hcd : c ≤ d)
    (h : found ∈ punctuatorCandidates allowed d) : found.lexeme.After c := by
  obtain ⟨⟨text, token⟩, -, hfound⟩ := List.mem_filterMap.1 h
  dsimp only at hfound
  split at hfound
  · cases hfound
    exact Lexeme.after_ofLength _ hcd _
  · cases hfound

theorem Candidate.best?_after {allowed : Token → Bool} {ps : List Pattern} {found : Candidate} (hcd : c ≤ d)
    (h : best? (punctuatorCandidates allowed d ++ ps.filterMap (Pattern.candidate? c d)) = some found) :
    found.lexeme.After c := by
  rcases List.mem_append.1 (mem_of_best? h) with hmem | hmem
  · exact punctuatorCandidates_after hcd hmem
  · obtain ⟨p, -, hp⟩ := List.mem_filterMap.1 hmem
    exact Pattern.candidate?_after hcd hp

/-- What the scan for expected tokens finds is not before the place. -/
theorem scan_after (h : scan expected c = some l) : l.After c := by
  unfold scan at h
  split at h
  · cases h
    exact scanSpecial_after ‹_›
  · dsimp only at h
    have hcd := c.le_skipWhile isSpace
    split at h
    · split at h
      · cases h
        exact Lexeme.after_ofLength _ hcd 0
      · cases h
    · obtain ⟨found, hfound, rfl⟩ := Option.map_eq_some_iff.1 h
      exact (Candidate.best?_after hcd hfound).asWord _

theorem scanAny_after (h : scanAny c = some l) : l.After c := by
  unfold scanAny at h
  dsimp only at h
  have hcd := c.le_skipWhile isSpace
  split at h
  · cases h
    exact Lexeme.after_ofLength _ hcd 0
  · obtain ⟨found, hfound, rfl⟩ := Option.map_eq_some_iff.1 h
    exact (Candidate.best?_after hcd hfound).asWord _

theorem le_skipStray (c : Cursor) (n : Nat) : c ≤ skipStray c n := by
  induction n generalizing c with
  | zero => exact le_rfl
  | succ n ih =>
    rw [skipStray]
    split
    · exact le_rfl
    · exact c.le_next.trans (ih c.next)

/-- What comes next stands at the place or after it. -/
theorem nextLexeme_after (expected : Option TokenSet) (c : Cursor) : (nextLexeme expected c).After c := by
  unfold nextLexeme
  split
  · rename_i l h
    rcases Option.or_eq_some_iff.1 h with h | ⟨-, h⟩
    · obtain ⟨set, -, hscan⟩ := Option.bind_eq_some_iff.1 h
      exact scan_after hscan
    · exact scanAny_after h
  · dsimp only
    exact ⟨c.le_skipWhile _, (Cursor.le_next _).trans (le_skipStray _ _)⟩

end Scanning

end DiffSlice.JavaScript
