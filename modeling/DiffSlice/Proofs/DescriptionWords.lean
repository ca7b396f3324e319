import DiffSlice.Insertion.Point
import DiffSlice.Proofs.PlacedLists
import Mathlib.Data.List.DropRight

/-!
# The words of descriptions

The words of a text are its longest runs of characters that are not blank (`WordAt`, `words_lists`). They are found by
cutting the text at its blanks, so that the words of a text with a blank in it are those before the blank and those
after it (`words_append_blank`).

A description is cleaned to its words with a space between neighbours (`cleanDescription_eq`), and its words are read
back from there (`words_cleanDescription`). So descriptions are cleaned to one name exactly if they have the same words,
and a name that cleaning changes is the name of no suite (`cleanDescription_normal_form`).
-/

namespace DiffSlice

open DiffSlice.Text

/-! ## Words -/

/-- At the place stands the word: characters that are not blank, with a blank or nothing on both sides. -/
def WordAt (cs : List Char) (i : Nat) (w : List Char) : Prop :=
  ∃ before after, cs = before ++ (w ++ after) ∧ before.length = i ∧ w ≠ [] ∧ (∀ c ∈ w, isBlank c = false) ∧
    (∀ c ∈ before.getLast?, isBlank c = true) ∧ ∀ c ∈ after.head?, isBlank c = true

/-- The words of a text. -/
def words (cs : List Char) : List (List Char) :=
  (cs.splitOnP isBlank).filter (· ≠ [])

section

variable {c : Char} {cs xs ys w : List Char} {i : Nat}

/-- A blank divides the words of a text. -/
theorem words_append_blank (hc : isBlank c = true) (xs ys : List Char) :
    words (xs ++ c :: ys) = words xs ++ words ys := by
  rw [words, List.splitOnP_append_cons xs ys hc, List.filter_append]
  rfl

@[simp] theorem words_nil : words [] = [] := by
  simp [words, List.splitOnP_nil]

/-- Characters that are not blank are one word. -/
theorem words_word (hw : w ≠ []) (h : ∀ c ∈ w, isBlank c = false) : words w = [w] := by
  simp [words, List.splitOnP_eq_singleton h, hw]

/-- A blank in front makes no difference to the words. -/
theorem words_blank_cons (hc : isBlank c = true) (cs : List Char) : words (c :: cs) = words cs := by
  simpa using words_append_blank hc [] cs

/-- Every text is empty or a word, or it is cut by its first blank into two texts. -/
theorem first_blank_induction {P : List Char → Prop} (nil : P [])
    (word : ∀ w, w ≠ [] → (∀ c ∈ w, isBlank c = false) → P w)
    (blank : ∀ xs c ys, (∀ c ∈ xs, isBlank c = false) → isBlank c = true → P xs → P ys → P (xs ++ c :: ys))
    (cs : List Char) : P cs := by
  have noBlank (xs : List Char) (hxs : ∀ c ∈ xs, isBlank c = false) : P xs := by
    by_cases hnil : xs = []
    · rwa [hnil]
    · exact word xs hnil hxs
  -- `xs` is what was read since the last blank
  suffices h : ∀ xs, (∀ c ∈ xs, isBlank c = false) → P (xs ++ cs) from h [] (by simp)
  induction cs with
  | nil =>
    intro xs hxs
    rw [List.append_nil]
    exact noBlank xs hxs
  | cons c cs ih =>
    intro xs hxs
    cases hc : isBlank c with
    | true => exact blank xs c cs hxs hc (noBlank xs hxs) (ih [] (by simp))
    | false =>
      have hmore : ∀ d ∈ xs ++ [c], isBlank d = false := by
        simpa [or_imp, forall_and, hc] using hxs
      simpa using ih (xs ++ [c]) hmore

/-- The words have the characters of the text that are not blank. -/
theorem flatten_words (cs : List Char) : (words cs).flatten = cs.filter fun c => !isBlank c := by
  induction cs using first_blank_induction with
  | nil => simp
  | word w hw hnoBlank =>
    rw [words_word hw hnoBlank, List.flatten_singleton, List.filter_eq_self.2 (by simpa using hnoBlank)]
  | blank xs c ys _ hc ihxs ihys => simp [words_append_blank hc, ihxs, ihys, hc]

theorem words_ne_nil (hc : c ∈ cs) (hblank : isBlank c = false) : words cs ≠ [] := by
  intro h
  have hflat := flatten_words cs
  rw [h, List.flatten_nil] at hflat
  have hmem : c ∈ cs.filter fun c => !isBlank c := List.mem_filter.2 ⟨hc, by simp [hblank]⟩
  rw [← hflat] at hmem
  cases hmem

/-- No word has a blank in it. -/
theorem isBlank_of_mem_words (hw : w ∈ words cs) (hc : c ∈ w) : isBlank c = false := by
  have hmem : c ∈ (words cs).flatten := List.mem_flatten.2 ⟨w, hw, hc⟩
  rw [flatten_words] at hmem
  simpa using (List.mem_filter.1 hmem).2

/-- Blanks before a text and after it do not change its words. -/
theorem words_between_blanks {front back : List Char} (hfront : ∀ c ∈ front, isBlank c = true)
    (hback : ∀ c ∈ back, isBlank c = true) (cs : List Char) : words (front ++ cs ++ back) = words cs := by
  have hskip (bs : List Char) (hbs : ∀ c ∈ bs, isBlank c = true) (cs : List Char) : words (bs ++ cs) = words cs := by
    induction bs with
    | nil => rfl
    | cons b bs ih =>
      rw [List.forall_mem_cons] at hbs
      rw [List.cons_append, words_blank_cons hbs.1, ih hbs.2]
  rw [List.append_assoc, hskip front hfront]
  cases back with
  | nil => rw [List.append_nil]
  | cons b back =>
    rw [List.forall_mem_cons] at hback
    have hnone : words back = [] := by simpa using hskip back hback.2 []
    rw [words_append_blank hback.1, hnone, List.append_nil]

/-- Words with a space between neighbours are read back. -/
theorem words_intercalate {ws : List (List Char)} (h : ∀ w ∈ ws, w ≠ [] ∧ ∀ c ∈ w, isBlank c = false) :
    words ([' '].intercalate ws) = ws := by
  induction ws with
  | nil => rw [List.intercalate_nil, words_nil]
  | cons w ws ih =>
    obtain ⟨⟨hw, hnoBlank⟩, hws⟩ := List.forall_mem_cons.1 h
    cases ws with
    | nil => rw [List.intercalate_singleton, words_word hw hnoBlank]
    | cons w' ws =>
      have hspace : isBlank ' ' = true := by decide
      rw [List.intercalate_cons_cons, List.append_assoc, List.singleton_append, words_append_blank hspace, ih hws,
        words_word hw hnoBlank, List.singleton_append]

/-! ## Places of words -/

theorem WordAt.lt_length (h : WordAt cs i w) : i < cs.length := by
  obtain ⟨before, after, rfl, rfl, hw, -⟩ := h
  have hpos : 0 < w.length := List.length_pos_of_ne_nil hw
  rw [List.length_append, List.length_append]
  omega

/-- In a text without a blank, the whole text is the only word. -/
theorem wordAt_word_iff (hxs : xs ≠ []) (h : ∀ c ∈ xs, isBlank c = false) : WordAt xs i w ↔ i = 0 ∧ w = xs := by
  constructor
  · rintro ⟨before, after, rfl, rfl, -, -, hbefore, hafter⟩
    have hfirst : before = [] := by
      refine List.getLast?_eq_none_iff.1 (Option.eq_none_iff_forall_not_mem.2 fun c hc => ?_)
      simpa [hbefore c hc] using h c (List.mem_append_left _ (List.mem_of_getLast? hc))
    have hlast : after = [] := by
      refine List.head?_eq_none_iff.1 (Option.eq_none_iff_forall_not_mem.2 fun c hc => ?_)
      simpa [hafter c hc] using h c (List.mem_append_right _ (List.mem_append_right _ (List.mem_of_head? hc)))
    simp [hfirst, hlast]
  · rintro ⟨rfl, rfl⟩
    exact ⟨[], [], by simp, rfl, hxs, h, by simp, by simp⟩

/-- A word stays one if a blank and more is put behind the text. -/
theorem WordAt.before_blank (hc : isBlank c = true) (ys : List Char) (h : WordAt xs i w) :
    WordAt (xs ++ c :: ys) i w := by
  obtain ⟨before, after, rfl, rfl, hw, hnoBlank, hbefore, hafter⟩ := h
  refine ⟨before, after ++ c :: ys, by simp, rfl, hw, hnoBlank, hbefore, fun d hd => ?_⟩
  cases after with
  | nil =>
    cases hd
    exact hc
  | cons => exact hafter d hd

theorem WordAt.after_blank (hc : isBlank c = true) (xs : List Char) (h : WordAt ys i w) :
    WordAt (xs ++ c :: ys) (xs.length + (i + 1)) w := by
  obtain ⟨before, after, rfl, rfl, hw, hnoBlank, hbefore, hafter⟩ := h
  refine ⟨xs ++ c :: before, after, by simp, by simp, hw, hnoBlank, fun d hd => ?_, hafter⟩
  rw [List.getLast?_append_cons, List.getLast?_cons] at hd
  cases hlast : before.getLast? with
  | none =>
    rw [hlast] at hd
    cases hd
    exact hc
  | some e =>
    rw [hlast] at hd
    cases hd
    exact hbefore _ hlast

/-- The words of a text with a blank in it stand before the blank or after it. -/
theorem wordAt_append_blank_iff (hc : isBlank c = true) :
    WordAt (xs ++ c :: ys) i w ↔ WordAt xs i w ∨ ∃ j, i = xs.length + (j + 1) ∧ WordAt ys j w := by
  constructor
  · rintro ⟨before, after, heq, rfl, hw, hnoBlank, hbefore, hafter⟩
    have hnot : c ∉ w := fun hmem => by simp [hnoBlank c hmem] at hc
    -- the word starts either in what stands before the blank or behind that
    rcases List.append_eq_append_iff.1 heq with ⟨a, rfl, ha⟩ | ⟨b, rfl, hb⟩
    · cases a with
      | nil =>
        obtain ⟨d, w, rfl⟩ := List.exists_cons_of_ne_nil hw
        cases ha
        exact absurd List.mem_cons_self hnot
      | cons d a =>
        cases ha
        refine .inr ⟨a.length, by simp, a, after, rfl, rfl, hw, hnoBlank, fun d hd => ?_, hafter⟩
        exact hbefore d (by simp [List.getLast?_cons, Option.mem_def.1 hd])
    · rcases List.append_eq_append_iff.1 hb with ⟨a, rfl, rfl⟩ | ⟨a, rfl, ha⟩
      · refine .inl ⟨before, a, rfl, rfl, hw, hnoBlank, hbefore, fun d hd => ?_⟩
        exact hafter d (by simp [List.head?_append, Option.mem_def.1 hd])
      · cases a with
        | nil => exact .inl ⟨before, [], by simp, rfl, by simpa using hw, by simpa using hnoBlank, hbefore, by simp⟩
        | cons d a =>
          cases ha
          exact absurd (List.mem_append_right _ List.mem_cons_self) hnot
  · rintro (h | ⟨j, rfl, h⟩)
    · exact h.before_blank hc ys
    · exact h.after_blank hc xs

/-- The words of a text are what stands in it as a word, in order. -/
theorem words_lists (cs : List Char) : Lists (WordAt cs) (words cs) := by
  induction cs using first_blank_induction with
  | nil =>
    rw [words_nil]
    exact lists_nil fun i w h => absurd h.lt_length (by simp)
  | word xs hxs hnoBlank =>
    rw [words_word hxs hnoBlank]
    refine ⟨[(0, xs)], List.pairwise_singleton _ _, fun i w => ?_, rfl⟩
    rw [wordAt_word_iff hxs hnoBlank, List.mem_singleton, Prod.mk.injEq]
  | blank xs c ys _ hc ihxs ihys =>
    have hafter := ihys.map_place (fun j => xs.length + (j + 1)) fun _ _ _ _ _ _ hlt =>
      Nat.add_lt_add_left (Nat.succ_lt_succ hlt) _
    rw [words_append_blank hc]
    refine (ihxs.append hafter ?_).congr fun i w => (wordAt_append_blank_iff hc).symm
    rintro i _ _ _ hi ⟨j, rfl, -⟩
    have hlt := hi.lt_length
    omega

end

/-! ## Trimming and squeezing -/

/-- What is trimmed off a text is blank, and what is left neither starts nor ends in a blank. -/
theorem trim_spec (s : String) : ∃ front back, s.toList = front ++ (trim s).toList ++ back ∧
    (∀ c ∈ front, isBlank c = true) ∧ (∀ c ∈ back, isBlank c = true) ∧
    (∀ c ∈ (trim s).toList.head?, isBlank c = false) ∧ ∀ c ∈ (trim s).toList.getLast?, isBlank c = false := by
  have htrim : (trim s).toList = (s.toList.dropWhile isBlank).rdropWhile isBlank := by
    rw [trim, trimEnd, trimStart, String.toList_ofList, String.toList_ofList]
    rfl
  generalize hrest : s.toList.dropWhile isBlank = rest at htrim
  have hback : rest.rdropWhile isBlank ++ rest.rtakeWhile isBlank = rest := List.rdropWhile_append_rtakeWhile ..
  refine ⟨s.toList.takeWhile isBlank, rest.rtakeWhile isBlank, ?_, fun c hc => List.mem_takeWhile_imp hc,
    fun c hc => List.mem_rtakeWhile_imp hc, fun c hc => ?_, fun c hc => ?_⟩
  · rw [htrim, List.append_assoc, hback, ← hrest, List.takeWhile_append_dropWhile]
  · have hfirst : rest.head? = some c := by
      rw [htrim] at hc
      rw [← hback, List.head?_append, Option.mem_def.1 hc]
      rfl
    have hnot := List.head?_dropWhile_not isBlank s.toList
    rw [hrest, hfirst] at hnot
    simpa using hnot
  · rw [htrim] at hc
    obtain ⟨hne, rfl⟩ := List.mem_getLast?_eq_getLast hc
    simpa using List.rdropWhile_last_not isBlank rest hne

section

variable {c : Char} {cs w : List Char}

/-- A word stays, and what follows it is no longer behind a blank. -/
theorem squeezeBlanks_word (hw : w ≠ []) (h : ∀ c ∈ w, isBlank c = false) (afterBlank : Bool) (rest : List Char) :
    squeezeBlanks afterBlank (w ++ rest) = w ++ squeezeBlanks false rest := by
  induction w generalizing afterBlank with
  | nil => exact absurd rfl hw
  | cons c w ih =>
    obtain ⟨hc, hnoBlank⟩ := List.forall_mem_cons.1 h
    have hstep : squeezeBlanks afterBlank (c :: w ++ rest) = c :: squeezeBlanks false (w ++ rest) := by
      simp [squeezeBlanks, hc]
    rw [hstep]
    by_cases hnil : w = []
    · simp [hnil]
    · rw [ih hnil hnoBlank, List.cons_append]

/-- Behind a blank, a text that does not end in one is squeezed to its words. -/
theorem squeezeBlanks_eq (hlast : ∀ c ∈ cs.getLast?, isBlank c = false) :
    squeezeBlanks true cs = [' '].intercalate (words cs) := by
  induction cs using first_blank_induction with
  | nil => rw [words_nil, List.intercalate_nil, squeezeBlanks]
  | word w hw hnoBlank =>
    have hword := squeezeBlanks_word hw hnoBlank true []
    rw [List.append_nil] at hword
    rw [hword, squeezeBlanks, List.append_nil, words_word hw hnoBlank, List.intercalate_singleton]
  | blank xs c ys hxs hc _ ih =>
    -- something follows the blank, since the text does not end in it
    obtain ⟨d, hd⟩ : ∃ d, ys.getLast? = some d := by
      refine Option.ne_none_iff_exists'.1 fun hnone => ?_
      simpa [hc] using hlast c (by simp [List.getLast?_cons, hnone])
    have hend : isBlank d = false := hlast d (by simp [List.getLast?_cons, hd])
    have hys : squeezeBlanks true ys = [' '].intercalate (words ys) := ih fun e he => by
      rwa [← Option.some.inj (hd.symm.trans he)]
    rw [words_append_blank hc]
    by_cases hnil : xs = []
    · subst hnil
      rw [words_nil, List.nil_append, List.nil_append, ← hys, squeezeBlanks, if_pos hc, if_pos rfl]
    · have hmore : words ys ≠ [] := words_ne_nil (List.mem_of_getLast? hd) hend
      rw [squeezeBlanks_word hnil hxs, squeezeBlanks, if_pos hc, if_neg (by decide), hys, words_word hnil hxs,
        List.singleton_append, List.intercalate_cons_of_ne_nil hmore, List.append_assoc, List.singleton_append]

theorem squeezeBlanks_of_head (h : ∀ c ∈ cs.head?, isBlank c = false) :
    squeezeBlanks false cs = squeezeBlanks true cs := by
  cases cs with
  | nil => rfl
  | cons c cs => simp [squeezeBlanks, h c rfl]

theorem mem_squeezeBlanks {afterBlank : Bool} (h : c ∈ squeezeBlanks afterBlank cs) : c = ' ' ∨ c ∈ cs := by
  fun_induction squeezeBlanks afterBlank cs <;> grind

end

/-! ## Breaks -/

/-- The space for a line break is blank as the break is. -/
theorem isBlank_spaceForBreak (c : Char) : isBlank (spaceForBreak c) = isBlank c := by
  unfold spaceForBreak
  split
  · rename_i hbreak
    simp only [Bool.or_eq_true, beq_iff_eq] at hbreak
    obtain (rfl | rfl) | rfl := hbreak <;> decide
  · rfl

theorem spaceForBreak_of_not_blank {c : Char} (h : isBlank c = false) : spaceForBreak c = c := by
  unfold spaceForBreak
  split
  · rename_i hbreak
    simp only [Bool.or_eq_true, beq_iff_eq] at hbreak
    obtain (rfl | rfl) | rfl := hbreak <;> exact absurd h (by decide)
  · rfl

/-- Breaks may be replaced before or after a text is trimmed. -/
theorem trim_map_spaceForBreak (cs : List Char) :
    (trim (String.ofList (cs.map spaceForBreak))).toList = (trim (String.ofList cs)).toList.map spaceForBreak := by
  have hblank : isBlank ∘ spaceForBreak = isBlank := funext isBlank_spaceForBreak
  simp only [trim, trimEnd, trimStart, String.toList_ofList, dropEndWhile]
  rw [List.dropWhile_map, hblank, ← List.map_reverse, List.dropWhile_map, hblank, ← List.map_reverse]

/-- A blank that is turned into a space is squeezed as it would have been. -/
theorem squeezeBlanks_map_spaceForBreak (afterBlank : Bool) (cs : List Char) :
    squeezeBlanks afterBlank (cs.map spaceForBreak) = squeezeBlanks afterBlank cs := by
  induction cs generalizing afterBlank with
  | nil => rfl
  | cons c cs ih =>
    rw [List.map_cons, squeezeBlanks, squeezeBlanks, isBlank_spaceForBreak, ih, ih]
    cases hc : isBlank c with
    | true => rfl
    | false => rw [spaceForBreak_of_not_blank hc]

/-! ## Cleaned descriptions -/

/-- The characters of a description without the quotes and plus signs. -/
def unmarked (raw : String) : List Char :=
  raw.toList.filter (· ∉ ['"', '\'', '\x60', '+'])

/-- Replacing breaks makes no difference to what a description comes to. -/
theorem cleanDescription_eq_squeezeBlanks (raw : String) :
    cleanDescription raw = String.ofList (squeezeBlanks false (trim (String.ofList (unmarked raw))).toList) := by
  have hmarks : (raw.toList.filter fun c => !isDescriptionMark c) = unmarked raw := by
    refine List.filter_congr fun c _ => ?_
    rw [Bool.eq_iff_iff]
    simp [isDescriptionMark, and_assoc]
  rw [cleanDescription, hmarks, trim_map_spaceForBreak, squeezeBlanks_map_spaceForBreak]

/-- A description is cleaned to its words, with a space between neighbours. -/
theorem cleanDescription_eq (raw : String) :
    cleanDescription raw = String.ofList ([' '].intercalate (words (unmarked raw))) := by
  obtain ⟨front, back, htext, hfront, hback, hhead, hlast⟩ := trim_spec (String.ofList (unmarked raw))
  rw [String.toList_ofList] at htext
  have hwords : words (unmarked raw) = words (trim (String.ofList (unmarked raw))).toList :=
    (congrArg words htext).trans (words_between_blanks hfront hback _)
  rw [cleanDescription_eq_squeezeBlanks, squeezeBlanks_of_head hhead, squeezeBlanks_eq hlast, hwords]

/-- A cleaned description has no marks left. -/
theorem unmarked_cleanDescription (raw : String) : unmarked (cleanDescription raw) = (cleanDescription raw).toList := by
  refine List.filter_eq_self.2 fun c hc => ?_
  obtain ⟨front, back, htext, -⟩ := trim_spec (String.ofList (unmarked raw))
  rw [cleanDescription_eq_squeezeBlanks, String.toList_ofList] at hc
  rcases mem_squeezeBlanks hc with rfl | hc
  · decide
  · have hmem : c ∈ unmarked raw := by
      rw [String.toList_ofList] at htext
      rw [htext]
      simp [hc]
    exact (List.mem_filter.1 hmem).2

/-- The words of a description are read back from what it is cleaned to. -/
theorem words_cleanDescription (raw : String) : words (unmarked (cleanDescription raw)) = words (unmarked raw) := by
  rw [unmarked_cleanDescription, cleanDescription_eq, String.toList_ofList]
  refine words_intercalate fun w hw => ⟨?_, fun c hc => isBlank_of_mem_words hw hc⟩
  simpa using (List.mem_filter.1 hw).2

/-- Descriptions have one name exactly if they have the same words. -/
theorem cleanDescription_eq_iff {raw other : String} :
    cleanDescription raw = cleanDescription other ↔ words (unmarked raw) = words (unmarked other) := by
  constructor
  · intro h
    rw [← words_cleanDescription raw, h, words_cleanDescription]
  · intro h
    rw [cleanDescription_eq, h, cleanDescription_eq]

/-- A description that is clean stays as it is. -/
theorem cleanDescription_idem (raw : String) : cleanDescription (cleanDescription raw) = cleanDescription raw :=
  cleanDescription_eq_iff.2 (words_cleanDescription raw)

/-- Cleaning does not change the description of a suite. -/
theorem Node.cleanDescription_of_suite? {n : Node} {callees : TestSyntax} {name : String}
    (h : n.suite? callees = some name) : cleanDescription name = name := by
  unfold Node.suite? at h
  split at h
  · split at h
    · rw [← Option.some.inj h, CallHead.suiteDescription, cleanDescription_idem]
    · cases h
  · cases h

/-- Only suites that the file has are found. -/
theorem InsertionPoint.findSuite_of_none {tree : SyntaxTree} {callees : TestSyntax} {name : String}
    (h : ∀ n ∈ tree.nodes, n.suite? callees ≠ some name) :
    findSuite tree callees name = .error (.suiteNotFound name) := by
  have hnone : tree.nodes.find? (fun n => n.suite? callees == some name) = none :=
    List.find?_eq_none.2 fun n hn => by simpa using h n hn
  rw [findSuite, hnone]

/-- A description is cleaned to its words, which are the longest runs of characters that are not blank among those that
are no marks, with a space between neighbours. Cleaning it again changes nothing, and another description is cleaned to
the same name exactly if it has the same words. No file has a suite under a name that cleaning changes. -/
theorem cleanDescription_normal_form (raw : String) :
    Lists (WordAt (unmarked raw)) (words (unmarked raw)) ∧
      cleanDescription raw = String.ofList ([' '].intercalate (words (unmarked raw))) ∧
      cleanDescription (cleanDescription raw) = cleanDescription raw ∧
      (∀ other, cleanDescription raw = cleanDescription other ↔ words (unmarked raw) = words (unmarked other)) ∧
      ∀ tree callees, cleanDescription raw ≠ raw →
        InsertionPoint.findSuite tree callees raw = .error (.suiteNotFound raw) := by
  refine ⟨words_lists _, cleanDescription_eq raw, cleanDescription_idem raw, fun other => cleanDescription_eq_iff,
    fun tree callees hraw => ?_⟩
  exact InsertionPoint.findSuite_of_none fun n _ hn => hraw (Node.cleanDescription_of_suite? hn)

/-- A suite is found by its words, and not by its description as it is written. -/
theorem cleanDescription_normal_form_written : ∃ tree : SyntaxTree,
    tree.nodes.map (·.kind) = [.call ⟨some "describe", 2, some "'a '+' b'"⟩] ∧
      InsertionPoint.findSuite tree {} "a b" = .ok ⟨2, "  ", .appendToNamedBlock⟩ ∧
      cleanDescription "'a '+' b'" ≠ "'a '+' b'" ∧
      InsertionPoint.findSuite tree {} "'a '+' b'" = .error (.suiteNotFound "'a '+' b'") := by
  have hchanged : cleanDescription "'a '+' b'" ≠ "'a '+' b'" := by decide
  refine ⟨
    { source := "describe('a '+' b', () => \x7b\n  it()\n\x7d)"
      nodes := [
        { kind := .call ⟨some "describe", 2, some "'a '+' b'"⟩, typeName := "expression_statement", startRow := 0,
          endRow := 2, text := "describe('a '+' b', () => \x7b\n  it()\n\x7d)"
          items := [
            { kind := .call ⟨some "it", 0, none⟩, typeName := "expression_statement", startRow := 1, endRow := 1,
              text := "it()" }] }] },
    rfl, by decide, hchanged, ?_⟩
  exact (cleanDescription_normal_form _).2.2.2.2 _ _ hchanged

end DiffSlice
