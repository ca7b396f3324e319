import DiffSlice.Proofs.HunkApplication
import DiffSlice.Proofs.HunkReading
import DiffSlice.Proofs.TextLines

/-!
# Edits are numbered as they are applied

The numbers of a diff's edits come from its headers, while application keeps its own position. In a coherent diff
(`Coherent`) both mean the same lines: `Differ` relates the two lists of lines by the edits between them, and a diff
that applies makes them differ by the edits that are read from it (`Splices.differ`). Hence the added lines are found
under their numbers, the removed ones too, and without them both texts are the same (`edits_applyDiff`).
-/

namespace DiffSlice.Patch

open DiffSlice.Text

/-! ## Coherent diffs -/

/-- The lines above the first header, and each header with the lines below it. -/
def cutAtHeaders : List String → List String × List (String × List String)
  | [] => ([], [])
  | line :: rest =>
    let cut := cutAtHeaders rest
    if isHeaderLine line then ([], (line, cut.1) :: cut.2) else (line :: cut.1, cut.2)

/-- The line can stand below a header and is not taken for the name of a file. -/
def isBodyLine (line : String) : Bool :=
  line.toList.head? ∈ [none, some ' ', some '+', some '-', some '\\'] && !startsWith "+++" line
    && !startsWith "---" line

/-- The line can stand below a header. An empty line is an empty context line. -/
def isMarked (line : String) : Bool :=
  line.toList.head? ∈ [none, some ' ', some '+', some '-', some '\\']

/-- The line below a header counts for the old side. -/
def onOldSide (line : String) : Bool :=
  line.toList.head? ∈ [none, some ' ', some '-']

/-- The line below a header counts for the new side. -/
def onNewSide (line : String) : Bool :=
  line.toList.head? ∈ [none, some ' ', some '+']

/-- The number of new lines before the hunk. -/
def Header.newPosition (h : Header) : Nat :=
  if h.newCount = 0 then h.newStart else h.newStart - 1

/-- The header counts so many old and new lines and stands where earlier hunks made `drift` more new lines than old
ones. -/
def Header.fits (h : Header) (drift : Int) (old new : Nat) : Bool :=
  h.oldCount = old && h.newCount = new && (old = 0 || 1 ≤ h.oldStart) && (new = 0 || 1 ≤ h.newStart)
    && (h.newPosition : Int) = h.oldPosition + drift

/-- The hunks are well written, after hunks that made `drift` more new lines than old ones. -/
def coherentFrom (drift : Int) : List (String × List String) → Bool
  | [] => true
  | (top, body) :: later =>
    match Header.parse? top with
    | none => false
    | some h =>
      body.all isBodyLine && h.fits drift (body.countP onOldSide) (body.countP onNewSide)
        && coherentFrom (drift + h.newCount - h.oldCount) later

/-- Every header of the diff can be read, counts the lines below it and stands where the hunks before it lead. -/
def Coherent (diff : String) : Prop :=
  coherentFrom 0 (cutAtHeaders (lines diff)).2 = true

instance (diff : String) : Decidable (Coherent diff) :=
  inferInstanceAs (Decidable (_ = true))

/-- Cutting at headers loses no line. -/
theorem cutAtHeaders_eq (ls : List String) : ls = (cutAtHeaders ls).1 ++ cutLines (cutAtHeaders ls).2 := by
  induction ls with
  | nil => rfl
  | cons l ls ih =>
    rw [cutAtHeaders]
    split
    · simpa [cutLines] using ih
    · simpa using ih

theorem isHeaderLine_above {ls : List String} : ∀ l ∈ (cutAtHeaders ls).1, isHeaderLine l = false := by
  induction ls with
  | nil => simp [cutAtHeaders]
  | cons l ls ih =>
    rw [cutAtHeaders]
    split
    · simp
    · rename_i h
      intro m hm
      rcases List.mem_cons.1 hm with rfl | hm
      · exact Bool.eq_false_iff.2 h
      · exact ih m hm

/-! ## Coherent hunks -/

/-- The hunks count their lines, after hunks that made `drift` more new lines than old ones. -/
def HunksFit (drift : Int) : List Hunk → Prop
  | [] => True
  | h :: later =>
    h.header.fits drift (h.body.countP BodyLine.isOld) (h.body.countP BodyLine.isNew) = true
      ∧ HunksFit (drift + h.header.newCount - h.header.oldCount) later

/-- A body line says something, and it counts for the sides that it stands on. -/
theorem ofLine?_of_isBodyLine {line : String} (h : isBodyLine line = true) :
    ∃ b, BodyLine.ofLine? line = some b ∧ b.isOld = onOldSide line ∧ b.isNew = onNewSide line := by
  simp only [isBodyLine, Bool.and_eq_true, decide_eq_true_eq, Bool.not_eq_true'] at h
  obtain ⟨⟨hhead, hplus⟩, hminus⟩ := h
  unfold BodyLine.ofLine? onOldSide onNewSide
  cases hl : line.toList with
  | nil => exact ⟨_, rfl, rfl, rfl⟩
  | cons c cs =>
    simp only [hl, List.head?_cons, List.mem_cons, reduceCtorEq, Option.some.injEq, List.not_mem_nil, or_false,
      false_or] at hhead
    rcases hhead with rfl | rfl | rfl | rfl
    · exact ⟨_, rfl, rfl, rfl⟩
    · exact ⟨_, by rw [hplus]; rfl, rfl, rfl⟩
    · exact ⟨_, by rw [hminus]; rfl, rfl, rfl⟩
    · exact ⟨_, rfl, rfl, rfl⟩

theorem exists_body {body : List String} (h : body.all isBodyLine = true) :
    ∃ bs : List BodyLine, body.map BodyLine.ofLine? = bs.map some ∧ bs.countP BodyLine.isOld = body.countP onOldSide
      ∧ bs.countP BodyLine.isNew = body.countP onNewSide := by
  induction body with
  | nil => exact ⟨[], rfl, rfl, rfl⟩
  | cons line body ih =>
    rw [List.all_cons, Bool.and_eq_true] at h
    obtain ⟨b, hb, ho, hn⟩ := ofLine?_of_isBodyLine h.1
    obtain ⟨bs, hbs, hos, hns⟩ := ih h.2
    exact ⟨b :: bs, by simp [hb, hbs], by simp [List.countP_cons, ho, hos], by simp [List.countP_cons, hn, hns]⟩

/-- Hunks that are well written are read alike by both readers, and they count their lines. -/
theorem exists_hunks {drift : Int} {cuts : List (String × List String)} (h : coherentFrom drift cuts = true) :
    ∃ hunks, List.Forall₂ (fun cut h => Hunk.ReadFrom h cut) cuts hunks ∧ HunksFit drift hunks := by
  induction cuts generalizing drift with
  | nil => exact ⟨[], .nil, trivial⟩
  | cons cut cuts ih =>
    obtain ⟨top, body⟩ := cut
    rw [coherentFrom] at h
    split at h
    · cases h
    · rename_i header htop
      simp only [Bool.and_eq_true] at h
      obtain ⟨bs, hbs, ho, hn⟩ := exists_body h.1.1
      obtain ⟨hunks, hread, hfit⟩ := ih h.2
      refine ⟨⟨header, bs⟩ :: hunks, .cons ⟨htop, hbs⟩ hread, ?_, hfit⟩
      rw [ho, hn]
      exact h.1.2

/-- Of a coherent diff both readers see the same hunks. -/
theorem Coherent.hunksFit {diff : String} (h : Coherent diff) :
    HunksFit 0 (Hunk.ofDiff diff) ∧ (Edits.ofDiff diff).added = (Hunk.ofDiff diff).flatMap Hunk.addedLines ∧
      (Edits.ofDiff diff).removed = (Hunk.ofDiff diff).flatMap Hunk.removedLines := by
  obtain ⟨hunks, hread, hfit⟩ := exists_hunks h
  have hhunks : Hunk.ofDiff diff = hunks := by
    rw [Hunk.ofDiff, cutAtHeaders_eq (lines diff), hunksFrom_preamble isHeaderLine_above, hunksFrom_cuts hread]
  rw [hhunks, Edits.ofDiff, cutAtHeaders_eq (lines diff), editsFrom_preamble isHeaderLine_above,
    editsFrom_cuts (hread.imp fun _ _ => Hunk.ReadFrom.countedFrom)]
  exact ⟨hfit, rfl, rfl⟩

/-! ## Lists of lines that differ by edits -/

/-- After `o` old and `n` new lines, the new lines are the old ones with the removed lines taken out and the added ones
put in, each under its number. -/
inductive Differ : Nat → Nat → List LineEdit → List LineEdit → List String → List String → Prop
  | nil (o n : Nat) : Differ o n [] [] [] []
  | both {o n : Nat} {added removed : List LineEdit} {old new : List String} (line : String)
    (later : Differ (o + 1) (n + 1) added removed old new) : Differ o n added removed (line :: old) (line :: new)
  | removed {o n : Nat} {added removed : List LineEdit} {old new : List String} {text line : String}
    (same : sameLine text line = true) (later : Differ (o + 1) n added removed old new) :
    Differ o n added (⟨o + 1, text, .removed⟩ :: removed) (line :: old) new
  | added {o n : Nat} {added removed : List LineEdit} {old new : List String} (text : String)
    (later : Differ o (n + 1) added removed old new) :
    Differ o n (⟨n + 1, text, .added⟩ :: added) removed old (text :: new)

namespace Differ

variable {o n : Nat} {added removed : List LineEdit} {old new : List String}

theorem same (o n : Nat) (ls : List String) : Differ o n [] [] ls ls := by
  induction ls generalizing o n with
  | nil => exact .nil o n
  | cons l ls ih => exact .both l (ih _ _)

/-- Texts that differ one after the other differ by all the edits together. -/
theorem append {added' removed' : List LineEdit} {old' new' : List String} (h : Differ o n added removed old new)
    (h' : Differ (o + old.length) (n + new.length) added' removed' old' new') :
    Differ o n (added ++ added') (removed ++ removed') (old ++ old') (new ++ new') := by
  induction h with
  | nil => exact h'
  | both line _ ih => exact .both line (ih (by simpa [Nat.add_assoc, Nat.add_comm 1] using h'))
  | removed same _ ih => exact .removed same (ih (by simpa [Nat.add_assoc, Nat.add_comm 1] using h'))
  | added text _ ih => exact .added text (ih (by simpa [Nat.add_assoc, Nat.add_comm 1] using h'))

/-- An added line is found under its number. -/
theorem getElem?_added (h : Differ o n added removed old new) :
    ∀ e ∈ added, ∃ i, e.number = n + i + 1 ∧ new[i]? = some e.text := by
  induction h with
  | nil => simp
  | both line _ ih =>
    intro e he
    obtain ⟨i, hi, ht⟩ := ih e he
    exact ⟨i + 1, by omega, ht⟩
  | removed _ _ ih => exact ih
  | added text _ ih =>
    intro e he
    rcases List.mem_cons.1 he with rfl | he
    · exact ⟨0, rfl, rfl⟩
    · obtain ⟨i, hi, ht⟩ := ih e he
      exact ⟨i + 1, by omega, ht⟩

/-- A removed line is found under its number, carriage returns at its end aside. -/
theorem getElem?_removed (h : Differ o n added removed old new) :
    ∀ e ∈ removed, ∃ i line, e.number = o + i + 1 ∧ old[i]? = some line ∧ sameLine e.text line = true := by
  induction h with
  | nil => simp
  | both line _ ih =>
    intro e he
    obtain ⟨i, l, hi, hl, hs⟩ := ih e he
    exact ⟨i + 1, l, by omega, hl, hs⟩
  | removed same _ ih =>
    intro e he
    rcases List.mem_cons.1 he with rfl | he
    · exact ⟨0, _, rfl, rfl, same⟩
    · obtain ⟨i, l, hi, hl, hs⟩ := ih e he
      exact ⟨i + 1, l, by omega, hl, hs⟩
  | added _ _ ih => exact ih

/-- The numbers of the added lines and of the removed ones grow. -/
theorem pairwise_numbers (h : Differ o n added removed old new) :
    (added.map LineEdit.number).Pairwise (· < ·) ∧ (removed.map LineEdit.number).Pairwise (· < ·) := by
  induction h with
  | nil => exact ⟨.nil, .nil⟩
  | both _ _ ih => exact ih
  | removed _ later ih =>
    refine ⟨ih.1, List.pairwise_cons.2 ⟨fun m hm => ?_, ih.2⟩⟩
    obtain ⟨e, he, rfl⟩ := List.mem_map.1 hm
    obtain ⟨i, _, hi, _⟩ := later.getElem?_removed e he
    show _ + 1 < e.number
    omega
  | added _ later ih =>
    refine ⟨List.pairwise_cons.2 ⟨fun m hm => ?_, ih.1⟩, ih.2⟩
    obtain ⟨e, he, rfl⟩ := List.mem_map.1 hm
    obtain ⟨i, hi, _⟩ := later.getElem?_added e he
    show _ + 1 < e.number
    omega

/-- A new line is an old one or an added one. -/
theorem mem_new (h : Differ o n added removed old new) : ∀ l ∈ new, l ∈ old ∨ ∃ e ∈ added, e.text = l := by
  induction h with
  | nil => simp
  | both line _ ih =>
    intro l hl
    rcases List.mem_cons.1 hl with rfl | hl
    · exact .inl List.mem_cons_self
    · exact (ih l hl).imp_left (List.mem_cons_of_mem _)
  | removed _ _ ih => exact fun l hl => (ih l hl).imp_left (List.mem_cons_of_mem _)
  | added text _ ih =>
    intro l hl
    rcases List.mem_cons.1 hl with rfl | hl
    · exact .inr ⟨_, List.mem_cons_self, rfl⟩
    · exact (ih l hl).imp_right fun ⟨e, he, ht⟩ => ⟨e, List.mem_cons_of_mem _ he, ht⟩

end Differ

/-- The lines, numbered after `n`, whose numbers are not among those given. -/
def withoutNumbers (numbers : List Nat) (n : Nat) : List String → List String
  | [] => []
  | line :: rest =>
    if n + 1 ∈ numbers then withoutNumbers numbers (n + 1) rest else line :: withoutNumbers numbers (n + 1) rest

theorem withoutNumbers_nil (n : Nat) (ls : List String) : withoutNumbers [] n ls = ls := by
  induction ls generalizing n with
  | nil => rfl
  | cons l ls ih => simp [withoutNumbers, ih]

theorem withoutNumbers_cons_of_le {x n : Nat} {numbers : List Nat} (h : x ≤ n) (ls : List String) :
    withoutNumbers (x :: numbers) n ls = withoutNumbers numbers n ls := by
  induction ls generalizing n with
  | nil => rfl
  | cons l ls ih =>
    have hne : n + 1 ≠ x := by omega
    simp [withoutNumbers, ih (Nat.le_succ_of_le h), hne]

/-- Without the added lines and without the removed ones the texts are the same. -/
theorem Differ.withoutNumbers_eq {o n : Nat} {added removed : List LineEdit} {old new : List String}
    (h : Differ o n added removed old new) (rest : List String) :
    withoutNumbers (added.map LineEdit.number) n (new ++ rest)
      = withoutNumbers (removed.map LineEdit.number) o old ++ rest := by
  induction h with
  | nil o n => exact withoutNumbers_nil n rest
  | @both o n added removed old new line later ih =>
    have hadded : n + 1 ∉ added.map LineEdit.number := by
      intro hm
      obtain ⟨e, he, hn⟩ := List.mem_map.1 hm
      obtain ⟨i, hi, _⟩ := later.getElem?_added e he
      omega
    have hremoved : o + 1 ∉ removed.map LineEdit.number := by
      intro hm
      obtain ⟨e, he, hn⟩ := List.mem_map.1 hm
      obtain ⟨i, _, hi, _⟩ := later.getElem?_removed e he
      omega
    rw [List.cons_append, withoutNumbers, if_neg hadded, withoutNumbers, if_neg hremoved, ih, List.cons_append]
  | @removed o n added removed old new text line same later ih =>
    rw [ih, List.map_cons, withoutNumbers, if_pos List.mem_cons_self, withoutNumbers_cons_of_le (Nat.le_refl _)]
  | @added o n added removed old new text later ih =>
    rw [List.cons_append, List.map_cons, withoutNumbers, if_pos List.mem_cons_self,
      withoutNumbers_cons_of_le (Nat.le_refl _), ih]

/-! ## Hunks make the lines differ by their edits -/

/-- There are as many lines on each side as the body counts. -/
theorem Rewrites.length_eq {body : List BodyLine} {old new : List String} (h : Rewrites body old new) :
    old.length = body.countP BodyLine.isOld ∧ new.length = body.countP BodyLine.isNew := by
  induction h with
  | nil => exact ⟨rfl, rfl⟩
  | _ => simp_all [BodyLine.isOld, BodyLine.isNew, List.countP_cons]

/-- What a body makes of old lines differs from them by the edits of the body. -/
theorem Rewrites.differ {body : List BodyLine} {old new : List String} (h : Rewrites body old new) (o n : Nat) :
    Differ o n (addedIn n body) (removedIn o body) old new := by
  induction h generalizing o n with
  | nil => exact .nil o n
  | noNewline _ ih => exact ih o n
  | added text _ ih => exact .added text (ih o (n + 1))
  | context _ _ ih => exact .both _ (ih (o + 1) (n + 1))
  | removed same _ ih => exact .removed same (ih (o + 1) n)

theorem addedIn_congr {body : List BodyLine} {n m : Nat} (h : body.countP BodyLine.isNew ≠ 0 → n = m) :
    addedIn n body = addedIn m body := by
  by_cases hc : body.countP BodyLine.isNew = 0
  · induction body with
    | nil => rfl
    | cons b body ih => cases b <;> simp_all [addedIn, BodyLine.isNew]
  · rw [h hc]

theorem removedIn_congr {body : List BodyLine} {n m : Nat} (h : body.countP BodyLine.isOld ≠ 0 → n = m) :
    removedIn n body = removedIn m body := by
  by_cases hc : body.countP BodyLine.isOld = 0
  · induction body with
    | nil => rfl
    | cons b body ih => cases b <;> simp_all [removedIn, BodyLine.isOld]
  · rw [h hc]

/-- Where the hunks count their lines, they make the lines differ by their edits. -/
theorem Splices.differ {pos : Nat} {hunks : List Hunk} {rest new tail : List String}
    (h : Splices pos hunks rest new tail) {n : Nat} (hfit : HunksFit (n - pos) hunks) :
    Differ pos n (hunks.flatMap Hunk.addedLines) (hunks.flatMap Hunk.removedLines) rest (new ++ tail) := by
  induction h generalizing n with
  | done pos rest => exact .same pos n rest
  | @hunk pos hunk hunks gap old new later newer tail place body others ih =>
    obtain ⟨hhunk, hlater⟩ := hfit
    obtain ⟨hold, hnew⟩ := body.length_eq
    simp only [Header.fits, Bool.and_eq_true, decide_eq_true_eq] at hhunk
    obtain ⟨⟨⟨⟨hoc, hnc⟩, _⟩, _⟩, hposition⟩ := hhunk
    have hplace : hunk.header.newPosition = n + gap.length := by omega
    have hadded : hunk.addedLines = addedIn (n + gap.length) hunk.body := by
      refine addedIn_congr fun hne => ?_
      rw [← hplace, Header.newPosition, hnc, if_neg hne]
      rfl
    have hremoved : hunk.removedLines = removedIn (pos + gap.length) hunk.body := by
      refine removedIn_congr fun hne => ?_
      rw [← place, Header.oldPosition, hoc, if_neg hne]
      rfl
    have hdiffer := ih (n := n + gap.length + new.length) (by
      convert hlater using 1
      omega)
    rw [List.flatMap_cons, List.flatMap_cons, hadded, hremoved, List.append_assoc, List.append_assoc]
    exact (Differ.same pos n gap).append ((body.differ _ _).append hdiffer)

/-! ## Texts -/

/-- An added line is a line of the diff. -/
theorem exists_ofLine?_added {c : Option Counters} {i : Nat} {ls : List String} {e : LineEdit}
    (h : e ∈ (editsFrom c i ls).added) : ∃ l ∈ ls, BodyLine.ofLine? l = some (.added e.text) := by
  fun_induction editsFrom c i ls <;> grind

theorem toList_of_ofLine?_added {l t : String} (h : BodyLine.ofLine? l = some (.added t)) :
    l.toList = '+' :: t.toList := by
  unfold BodyLine.ofLine? at h
  split at h <;> simp_all
  rw [← h.2, String.toList_ofList]

theorem not_mem_added {diff : String} {e : LineEdit} (h : e ∈ (Edits.ofDiff diff).added) : '\n' ∉ e.text.toList := by
  obtain ⟨l, hl, ht⟩ := exists_ofLine?_added h
  have hn := not_mem_of_mem_lines hl
  rw [toList_of_ofLine?_added ht] at hn
  exact fun hm => hn (List.mem_cons_of_mem _ hm)

/-- The pieces of applied lines are the lines, and an empty piece where a newline or nothing ends the text. -/
theorem pieces_applied (before : String) (hunks : List Hunk) {new tail : List String}
    (h : ∀ l ∈ new ++ tail, '\n' ∉ l.toList) : ∃ ending, (ending = [] ∨ ending = [""]) ∧
      pieces (joinLines (new ++ tail) ++ if endsNew before hunks new tail then "\n" else "")
        = new ++ tail ++ ending := by
  by_cases hempty : new ++ tail = []
  · refine ⟨[""], .inr rfl, ?_⟩
    simp [endsNew, hempty, joinLines]
    rfl
  · split
    · refine ⟨[""], .inr rfl, ?_⟩
      rw [joinLines_newline hempty, pieces_unlines h]
    · refine ⟨[], .inl rfl, ?_⟩
      rw [String.append_empty, pieces_joinLines hempty h, List.append_nil]

/-- Where a coherent diff applies, its added lines stand under their numbers in the new text and its removed lines in
the old one, and without them the texts are the same. -/
theorem edits_applyDiff {before diff after : String} (hc : Coherent diff) (h : applyDiff before diff = .ok after) :
    (∀ e ∈ (Edits.ofDiff diff).added, 0 < e.number ∧ (pieces after)[e.number - 1]? = some e.text) ∧
    (∀ e ∈ (Edits.ofDiff diff).removed, 0 < e.number ∧
      ∃ line, (lines before)[e.number - 1]? = some line ∧ dropReturns line = dropReturns e.text) ∧
    ∃ ending, (ending = [] ∨ ending = [""]) ∧
      withoutNumbers ((Edits.ofDiff diff).added.map LineEdit.number) 0 (pieces after) =
        withoutNumbers ((Edits.ofDiff diff).removed.map LineEdit.number) 0 (lines before) ++ ending := by
  obtain ⟨hfit, hadded, hremoved⟩ := hc.hunksFit
  obtain ⟨new, tail, hsplices, hafter⟩ := applyDiff_eq_ok_iff.1 h
  have hdiffer := hsplices.differ (n := 0) hfit
  rw [← hadded, ← hremoved] at hdiffer
  have hplain : ∀ l ∈ new ++ tail, '\n' ∉ l.toList := by
    intro l hl
    rcases hdiffer.mem_new l hl with hl | ⟨e, he, rfl⟩
    · exact not_mem_of_mem_lines hl
    · exact not_mem_added he
  obtain ⟨ending, hending, hpieces⟩ := pieces_applied before (Hunk.ofDiff diff) hplain
  rw [← hafter] at hpieces
  refine ⟨fun e he => ?_, fun e he => ?_, ending, hending, ?_⟩
  · obtain ⟨i, hi, ht⟩ := hdiffer.getElem?_added e he
    refine ⟨by omega, ?_⟩
    rw [hpieces, hi, Nat.zero_add, Nat.add_sub_cancel, List.getElem?_append_left (List.getElem?_eq_some_iff.1 ht).1, ht]
  · obtain ⟨i, line, hi, hl, hs⟩ := hdiffer.getElem?_removed e he
    refine ⟨by omega, line, ?_, by simpa [sameLine] using hs⟩
    rw [hi, Nat.zero_add, Nat.add_sub_cancel, hl]
  · rw [hpieces]
    exact hdiffer.withoutNumbers_eq ending

/-- One hunk only adds, and the other only removes a line that ends in carriage returns. -/
theorem edits_applyDiff_two_hunks :
    Coherent "@@ -0,0 +1 @@\n+x\n@@ -2 +2,0 @@\n-b\n" ∧
      applyDiff "a\nb\r\r\nc" "@@ -0,0 +1 @@\n+x\n@@ -2 +2,0 @@\n-b\n" = .ok "x\na\nc" ∧
      ∃ ending, (ending = [] ∨ ending = [""]) ∧
        withoutNumbers ((Edits.ofDiff "@@ -0,0 +1 @@\n+x\n@@ -2 +2,0 @@\n-b\n").added.map LineEdit.number) 0
          (pieces "x\na\nc") =
        withoutNumbers ((Edits.ofDiff "@@ -0,0 +1 @@\n+x\n@@ -2 +2,0 @@\n-b\n").removed.map LineEdit.number) 0
          (lines "a\nb\r\r\nc") ++ ending :=
  ⟨by decide, rfl, (edits_applyDiff (by decide) rfl).2.2⟩

end DiffSlice.Patch
