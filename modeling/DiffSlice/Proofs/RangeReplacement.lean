import DiffSlice.Proofs.EditAgreement
import Mathlib.Data.List.Chain

/-!
# Applying a diff replaces ranges

Each hunk names a range of old lines, from its place up to where its context and removed lines end (`Hunk.stop`), and
says what stands there instead (`Hunk.newSide`). A diff applies exactly if the ranges are in order, inside the text and
hold the lines that the hunks expect (`Fits`), and it then replaces them all (`patched`); else it fails with the first
of its `faults`, hunk by hunk and line by line (`applyDiff_exact`).

Application keeps a position and stops at the first error. `orFault` is what such a run gives, and two runs one after
the other have the faults of both (`orFault_bind`); so a body is described line by line (`applyBody_eq`), and the hunks
hunk by hunk (`applyHunks_eq`).
-/

namespace DiffSlice.Patch

open DiffSlice.Text

/-! ## Runs with faults -/

section OrFault

variable {α β : Type}

/-- The value if there is no fault, and else the first fault. -/
def orFault (faults : List PatchError) (value : α) : Except PatchError α :=
  match faults with
  | [] => .ok value
  | e :: _ => .error e

/-- The faults of two steps are those of the first and then those of the second. -/
theorem orFault_bind (fs gs : List PatchError) (a : α) (b : β) {f : α → Except PatchError β}
    (h : fs = [] → f a = orFault gs b) : orFault fs a >>= f = orFault (fs ++ gs) b := by
  cases fs with
  | nil => exact h rfl
  | cons e fs => rfl

theorem orFault_bind_ok (fs : List PatchError) (a : α) (b : β) {f : α → Except PatchError β}
    (h : fs = [] → f a = .ok b) : orFault fs a >>= f = orFault fs b := by
  rw [orFault_bind fs [] a b h, List.append_nil]

theorem orFault_eq_ok_iff {fs : List PatchError} {a b : α} : orFault fs a = .ok b ↔ fs = [] ∧ b = a := by
  cases fs <;> simp [orFault, eq_comm]

theorem orFault_eq_error_iff {fs : List PatchError} {a : α} {e : PatchError} :
    orFault fs a = .error e ↔ fs.head? = some e := by
  cases fs <;> simp [orFault]

end OrFault

/-! ## Bodies -/

def BodyLine.oldText? : BodyLine → Option String
  | .context text => some text
  | .removed text => some text
  | _ => none

def oldTexts (body : List BodyLine) : List String :=
  body.filterMap BodyLine.oldText?

/-- What a body makes of the old lines from `pos` on: a context line stays as it was found. -/
def newLines (old : List String) (pos : Nat) : List BodyLine → List String
  | [] => []
  | .context _ :: body => old[pos]?.toList ++ newLines old (pos + 1) body
  | .removed _ :: body => newLines old (pos + 1) body
  | .added text :: body => text :: newLines old pos body
  | .noNewline :: body => newLines old pos body

/-- What is wrong if the text is expected after `pos` old lines: the line is missing, or it is another one, carriage
returns at the end aside. -/
def lineFault? (old : List String) (pos : Nat) (expected : String) : Option PatchError :=
  match old[pos]? with
  | none => some (.outOfRange (pos + 1) old.length)
  | some found =>
    if dropReturns expected = dropReturns found then none else some (.contextMismatch (pos + 1) expected found)

/-- What is wrong with texts that are expected one after the other from `pos` on. -/
def lineFaults (old : List String) (pos : Nat) (expected : List String) : List PatchError :=
  (expected.zipIdx pos).filterMap fun (text, i) => lineFault? old i text

variable {old : List String} {pos : Nat}

theorem lineFaults_cons (text : String) (expected : List String) :
    lineFaults old pos (text :: expected) = (lineFault? old pos text).toList ++ lineFaults old (pos + 1) expected := by
  cases h : lineFault? old pos text <;> simp [lineFaults, h]

/-- A context or removed line meets no line, the line it expects or another one. -/
theorem nextLine_cases (old : List String) (pos : Nat) (text : String) :
    (old.drop pos = [] ∧ lineFault? old pos text = some (.outOfRange (pos + 1) old.length)) ∨
      ∃ found, old[pos]? = some found ∧ old.drop pos = found :: old.drop (pos + 1) ∧
        (sameLine text found = true ∧ lineFault? old pos text = none ∨
          sameLine text found = false ∧ lineFault? old pos text = some (.contextMismatch (pos + 1) text found)) := by
  by_cases h : pos < old.length
  · have hfound : old[pos]? = some old[pos] := List.getElem?_eq_getElem h
    refine .inr ⟨old[pos], hfound, List.drop_eq_getElem_cons h, ?_⟩
    by_cases hsame : dropReturns text = dropReturns old[pos]
    · exact .inl ⟨by simp [sameLine, hsame], by simp [lineFault?, hfound, hsame]⟩
    · exact .inr ⟨by simp [sameLine, Ne.symm hsame], by simp [lineFault?, hfound, hsame]⟩
  · have hnone : old[pos]? = none := List.getElem?_eq_none (by omega)
    exact .inl ⟨List.drop_eq_nil_of_le (by omega), by simp [lineFault?, hnone]⟩

/-- A body applies line by line. -/
theorem applyBody_eq (old : List String) (pos : Nat) (body : List BodyLine) :
    applyBody old.length pos body (old.drop pos) = orFault (lineFaults old pos (oldTexts body))
      (newLines old pos body, old.drop (pos + (oldTexts body).length)) := by
  induction body generalizing pos with
  | nil => rfl
  | cons line body ih =>
    have hstop : pos + ((oldTexts body).length + 1) = pos + 1 + (oldTexts body).length := by omega
    cases line with
    | noNewline => exact ih pos
    | added text =>
      rw [applyBody, ih pos]
      exact orFault_bind_ok _ _ _ fun _ => rfl
    | context text =>
      change _ = orFault (lineFaults old pos (text :: oldTexts body)) (old[pos]?.toList ++ newLines old (pos + 1) body,
        old.drop (pos + ((oldTexts body).length + 1)))
      rw [lineFaults_cons, hstop]
      obtain ⟨hnil, hfault⟩ | ⟨found, hfound, hcons, ⟨hsame, hfault⟩ | ⟨hdiff, hfault⟩⟩ := nextLine_cases old pos text
      · rw [hnil, hfault]; rfl
      · rw [hcons, hfound, hfault, applyBody, if_pos hsame, ih (pos + 1)]
        exact orFault_bind_ok _ _ _ fun _ => rfl
      · rw [hcons, hfault, applyBody, hdiff]; rfl
    | removed text =>
      change _ = orFault (lineFaults old pos (text :: oldTexts body)) (newLines old (pos + 1) body,
        old.drop (pos + ((oldTexts body).length + 1)))
      rw [lineFaults_cons, hstop]
      obtain ⟨hnil, hfault⟩ | ⟨found, -, hcons, ⟨hsame, hfault⟩ | ⟨hdiff, hfault⟩⟩ := nextLine_cases old pos text
      · rw [hnil, hfault]; rfl
      · rw [hcons, hfault, applyBody, if_pos hsame, ih (pos + 1)]; rfl
      · rw [hcons, hfault, applyBody, hdiff]; rfl

/-! ## Hunks -/

namespace Hunk

variable (h : Hunk)

/-- The number of old lines before the hunk's range. -/
def place : Nat :=
  h.header.oldPosition

/-- The lines that the hunk expects in its range. -/
def oldSide : List String :=
  oldTexts h.body

/-- The number of old lines up to the end of the hunk's range. -/
def stop : Nat :=
  h.place + h.oldSide.length

/-- The lines that the hunk puts in its range's place. -/
def newSide (old : List String) : List String :=
  newLines old h.place h.body

/-- What is wrong with the hunk if the range before it ends after `pos` old lines. -/
def faults (old : List String) (pos : Nat) : List PatchError :=
  (if h.place < pos then [.overlap h.header.oldStart] else []) ++
    (if old.length < h.place then [.outOfRange h.header.oldStart old.length] else []) ++
    lineFaults old h.place h.oldSide

end Hunk

/-- What is wrong with the hunks, in their order, if the range before them ends after `pos` old lines. -/
def faultsFrom (old : List String) (pos : Nat) (hunks : List Hunk) : List PatchError :=
  ((pos :: hunks.map Hunk.stop).zip hunks).flatMap fun (stop, h) => h.faults old stop

/-- The number of old lines up to the end of the last range. -/
def lastStop (pos : Nat) (hunks : List Hunk) : Nat :=
  (hunks.map Hunk.stop).getLast?.getD pos

/-- The lines from `pos` up to the end of the last range, with the ranges replaced one after the other. -/
def spliced (old : List String) (pos : Nat) : List Hunk → List String
  | [] => []
  | h :: hunks => (old.drop pos).take (h.place - pos) ++ h.newSide old ++ spliced old h.stop hunks

/-- All ranges replaced in the old lines. The last range is first, so that the lines before it keep their places. -/
def replaced (old : List String) (hunks : List Hunk) : List String :=
  hunks.foldr (fun h text => text.take h.place ++ h.newSide old ++ text.drop h.stop) old

theorem faultsFrom_cons (h : Hunk) (hunks : List Hunk) :
    faultsFrom old pos (h :: hunks) = h.faults old pos ++ faultsFrom old h.stop hunks :=
  rfl

theorem lastStop_cons (h : Hunk) (hunks : List Hunk) : lastStop pos (h :: hunks) = lastStop h.stop hunks := by
  simp [lastStop, List.getLast?_cons]

/-- Nothing is wrong if the line is there and differs in carriage returns at most. -/
theorem lineFault?_eq_none_iff {text : String} :
    lineFault? old pos text = none ↔ ∃ found, old[pos]? = some found ∧ dropReturns text = dropReturns found := by
  cases h : old[pos]? <;> simp [lineFault?, h]

/-- The hunk's range holds the lines that it expects, carriage returns at their ends aside. -/
def Hunk.IsFound (h : Hunk) (old : List String) : Prop :=
  ∀ j text, h.oldSide[j]? = some text →
    ∃ found, old[h.place + j]? = some found ∧ dropReturns text = dropReturns found

theorem lineFaults_eq_nil_iff {h : Hunk} : lineFaults old h.place h.oldSide = [] ↔ h.IsFound old := by
  simp only [lineFaults, List.filterMap_eq_nil_iff, Prod.forall, List.mk_mem_zipIdx_iff_le_and_getElem?_sub,
    lineFault?_eq_none_iff]
  constructor
  · intro hall j text hj
    exact hall text (h.place + j) ⟨by omega, by rwa [Nat.add_sub_cancel_left]⟩
  · rintro hfound text i ⟨hle, hi⟩
    have hat := hfound (i - h.place) text hi
    rwa [Nat.add_sub_cancel' hle] at hat

/-- The range of a hunk that is found ends within the text. -/
theorem Hunk.stop_le {h : Hunk} (hin : h.place ≤ old.length) (hfound : h.IsFound old) : h.stop ≤ old.length := by
  -- The last line that is expected exists.
  rcases Nat.eq_zero_or_pos h.oldSide.length with hzero | hpos
  · rw [Hunk.stop, hzero]; exact hin
  · have hlast : h.oldSide.length - 1 < h.oldSide.length := by omega
    obtain ⟨found, hat, -⟩ := hfound _ _ (List.getElem?_eq_getElem hlast)
    have hlt := (List.getElem?_eq_some_iff.1 hat).1
    rw [Hunk.stop]; omega

/-- Hunks apply one after the other, each with the text from where the range before it ends. -/
theorem applyHunks_eq (old : List String) (pos : Nat) (hunks : List Hunk) :
    applyHunks old.length pos hunks (old.drop pos) =
      orFault (faultsFrom old pos hunks) (spliced old pos hunks, old.drop (lastStop pos hunks)) := by
  induction hunks generalizing pos with
  | nil => rfl
  | cons h hunks ih =>
    rw [faultsFrom_cons, lastStop_cons, Hunk.faults, applyHunks]
    change (if h.place < pos then _ else if old.length < h.place then _ else _) = _
    by_cases hover : h.place < pos
    · rw [if_pos hover, if_pos hover]; rfl
    · by_cases hpast : old.length < h.place
      · rw [if_neg hover, if_pos hpast, if_neg hover, if_pos hpast]; rfl
      · rw [if_neg hover, if_neg hpast, if_neg hover, if_neg hpast, List.nil_append, List.nil_append]
        have hdrop : (old.drop pos).drop (h.place - pos) = old.drop h.place := by
          rw [List.drop_drop, Nat.add_sub_cancel' (by omega)]
        change applyBody old.length h.place h.body ((old.drop pos).drop (h.place - pos)) >>= _ = _
        rw [hdrop, applyBody_eq]
        refine orFault_bind _ _ _ _ fun hnil => ?_
        -- The position kept is the end of the range, since the range is inside the text.
        have hstop : old.length - (old.drop h.stop).length = h.stop := by
          have hle := Hunk.stop_le (by omega) (lineFaults_eq_nil_iff.1 hnil)
          rw [List.length_drop]; omega
        change applyHunks old.length (old.length - (old.drop h.stop).length) hunks (old.drop h.stop) >>= _ = _
        rw [hstop, ih]
        exact orFault_bind_ok _ _ _ fun _ => rfl

/-- The faults of a hunk stand in the order of its lines, before those of the next hunk. -/
example :
    faultsFrom ["a", "b"] 0 [⟨⟨1, 2, 1, 1⟩, [.context "a", .removed "x"]⟩,
      ⟨⟨2, 2, 2, 1⟩, [.removed "b", .context "c"]⟩] =
      [.contextMismatch 2 "x" "b", .overlap 2, .outOfRange 3 2] := by decide

/-! ## Hunks that fit -/

/-- Nothing is wrong with a hunk that starts after the range before it, within the text, and is found. -/
theorem Hunk.faults_eq_nil_iff {h : Hunk} :
    h.faults old pos = [] ↔ pos ≤ h.place ∧ h.place ≤ old.length ∧ h.IsFound old := by
  simp [Hunk.faults, lineFaults_eq_nil_iff]

/-- The ranges of the hunks are in order, start inside the text and hold the lines that the hunks expect. -/
structure Fits (old : List String) (hunks : List Hunk) : Prop where
  order : hunks.IsChain fun g h => g.stop ≤ h.place
  inside : ∀ h ∈ hunks, h.place ≤ old.length
  found : ∀ h ∈ hunks, h.IsFound old

theorem fits_cons_iff {h : Hunk} {hunks : List Hunk} : Fits old (h :: hunks) ↔
    h.place ≤ old.length ∧ h.IsFound old ∧ (∀ g ∈ hunks.head?, h.stop ≤ g.place) ∧ Fits old hunks := by
  constructor
  · rintro ⟨order, inside, found⟩
    rw [List.isChain_cons] at order
    rw [List.forall_mem_cons] at inside found
    exact ⟨inside.1, found.1, order.1, order.2, inside.2, found.2⟩
  · rintro ⟨hin, hfound, hnext, order, inside, found⟩
    exact ⟨List.isChain_cons.2 ⟨hnext, order⟩, List.forall_mem_cons.2 ⟨hin, inside⟩,
      List.forall_mem_cons.2 ⟨hfound, found⟩⟩

/-- Nothing is wrong with hunks that fit after the range before them. -/
theorem faultsFrom_eq_nil_iff {hunks : List Hunk} :
    faultsFrom old pos hunks = [] ↔ (∀ h ∈ hunks.head?, pos ≤ h.place) ∧ Fits old hunks := by
  induction hunks generalizing pos with
  | nil => exact ⟨fun _ => ⟨by simp, .nil, by simp, by simp⟩, fun _ => rfl⟩
  | cons h hunks ih =>
    rw [faultsFrom_cons, List.append_eq_nil_iff, Hunk.faults_eq_nil_iff, ih, fits_cons_iff]
    simp [and_assoc]

/-- Replacing range after range gives what replacing them all gives. -/
theorem replaced_eq {hunks : List Hunk} (hfaults : faultsFrom old pos hunks = []) :
    replaced old hunks = old.take pos ++ (spliced old pos hunks ++ old.drop (lastStop pos hunks)) := by
  induction hunks generalizing pos with
  | nil => exact (List.take_append_drop pos old).symm
  | cons h hunks ih =>
    rw [faultsFrom_cons, List.append_eq_nil_iff, Hunk.faults_eq_nil_iff] at hfaults
    obtain ⟨⟨hle, hin, hfound⟩, hrest⟩ := hfaults
    have hlen : (old.take h.stop).length = h.stop := List.length_take_of_le (Hunk.stop_le hin hfound)
    have hplace : h.place ≤ h.stop := Nat.le_add_right _ _
    have hgap : old.take h.place = old.take pos ++ (old.drop pos).take (h.place - pos) := by
      rw [← List.take_add, Nat.add_sub_cancel' hle]
    have htake : (replaced old hunks).take h.place = old.take h.place := by
      rw [ih hrest, List.take_append_of_le_length (by omega), List.take_take, Nat.min_eq_left hplace]
    have hdrop : (replaced old hunks).drop h.stop = spliced old h.stop hunks ++ old.drop (lastStop h.stop hunks) := by
      rw [ih hrest, List.drop_left' hlen]
    calc replaced old (h :: hunks)
      _ = (replaced old hunks).take h.place ++ h.newSide old ++ (replaced old hunks).drop h.stop := rfl
      _ = old.take pos ++ (spliced old pos (h :: hunks) ++ old.drop (lastStop pos (h :: hunks))) := by
        rw [htake, hdrop, hgap, spliced, lastStop_cons]
        simp only [List.append_assoc]

/-- Without faults, replacing ranges from the front on gives what replacing them from the back gives. -/
theorem spliced_append_drop {hunks : List Hunk} (hfaults : faultsFrom old 0 hunks = []) :
    spliced old 0 hunks ++ old.drop (lastStop 0 hunks) = replaced old hunks :=
  (replaced_eq hfaults).symm

/-! ## The end of the text -/

/-- The note that a line has no newline at its end stands below a line of the new side. Of several notes in a row, the
first is the one below the line. -/
def Hunk.NotesBareEnd (h : Hunk) : Prop :=
  ∃ b : BodyLine, b.isNew = true ∧ [b, .noNewline] <:+: h.body

theorem noted_cons_iff {b line : BodyLine} {body : List BodyLine} :
    [b, .noNewline] <:+: line :: body ↔ b = line ∧ body.head? = some .noNewline ∨ [b, .noNewline] <:+: body := by
  have hhead : [BodyLine.noNewline] <+: body ↔ body.head? = some .noNewline := by
    cases body with
    | nil => simp
    | cons next body => rw [List.cons_prefix_cons, List.head?_cons, Option.some_inj, eq_comm]; simp
  rw [List.infix_cons_iff, List.cons_prefix_cons, hhead]

/-- A note counts if the line above it, or what stands above the body, is on the new side. -/
theorem leavesBareEnd_iff {onNewSide : Bool} {body : List BodyLine} : leavesBareEnd onNewSide body = true ↔
    onNewSide = true ∧ body.head? = some .noNewline ∨ ∃ b : BodyLine, b.isNew = true ∧ [b, .noNewline] <:+: body := by
  induction body generalizing onNewSide with
  | nil => simp [leavesBareEnd]
  | cons line body ih =>
    simp only [noted_cons_iff, and_or_left, exists_or]
    cases line with
    | noNewline => cases onNewSide <;> simp [leavesBareEnd, ih, BodyLine.isNew]
    | removed text => simp [leavesBareEnd, ih, BodyLine.isNew]
    | added text => simp [leavesBareEnd, ih, BodyLine.isNew]
    | context text => simp [leavesBareEnd, ih, BodyLine.isNew]

theorem Hunk.leavesBareEnd_body_iff {h : Hunk} : leavesBareEnd false h.body = true ↔ h.NotesBareEnd := by
  simp [leavesBareEnd_iff, Hunk.NotesBareEnd]

instance (h : Hunk) : Decidable h.NotesBareEnd :=
  decidable_of_iff _ Hunk.leavesBareEnd_body_iff

/-- The new text ends in a newline: it has a line, no hunk notes that it ends without one, and the old text ends in a
newline, is empty or is replaced up to its end. -/
def NewlineAtEnd (before : String) (hunks : List Hunk) : Prop :=
  replaced (lines before) hunks ≠ [] ∧ (∀ h ∈ hunks, ¬ h.NotesBareEnd) ∧
    (endsLine before = true ∨ before = "" ∨ (hunks.map Hunk.stop).getLast? = some (lines before).length)

instance (before : String) (hunks : List Hunk) : Decidable (NewlineAtEnd before hunks) :=
  inferInstanceAs (Decidable (_ ∧ _ ∧ _))

/-- The text with the ranges of all hunks replaced. -/
def patched (before : String) (hunks : List Hunk) : String :=
  joinLines (replaced (lines before) hunks) ++ if NewlineAtEnd before hunks then "\n" else ""

/-- The last range ends within the text. -/
theorem lastStop_le {hunks : List Hunk} (hpos : pos ≤ old.length) (hfaults : faultsFrom old pos hunks = []) :
    lastStop pos hunks ≤ old.length := by
  induction hunks generalizing pos with
  | nil => exact hpos
  | cons h hunks ih =>
    rw [faultsFrom_cons, List.append_eq_nil_iff, Hunk.faults_eq_nil_iff] at hfaults
    obtain ⟨⟨-, hin, hfound⟩, hrest⟩ := hfaults
    rw [lastStop_cons]
    exact ih (Hunk.stop_le hin hfound) hrest

/-- No old line is left exactly if the last range ends where the text does. -/
theorem reachedEnd_iff {hunks : List Hunk} (hfaults : faultsFrom old 0 hunks = []) :
    (!hunks.isEmpty && (old.drop (lastStop 0 hunks)).isEmpty) = true ↔
      (hunks.map Hunk.stop).getLast? = some old.length := by
  cases hunks with
  | nil => simp
  | cons h hunks =>
    have hle := lastStop_le (Nat.zero_le _) hfaults
    have hlast : ((h :: hunks).map Hunk.stop).getLast? = some (lastStop 0 (h :: hunks)) := by
      simp [lastStop, List.getLast?_cons]
    rw [hlast, Option.some_inj]
    simp only [List.isEmpty_cons, Bool.not_false, Bool.true_and, List.isEmpty_iff, List.drop_eq_nil_iff]
    omega

/-- The text that is written ends in a newline if the new text is to end in one. -/
theorem endsNew_iff {before : String} {hunks : List Hunk} (hfaults : faultsFrom (lines before) 0 hunks = []) :
    endsNew before hunks (spliced (lines before) 0 hunks) ((lines before).drop (lastStop 0 hunks)) = true ↔
      NewlineAtEnd before hunks := by
  have hbare : (hunks.any fun h => leavesBareEnd false h.body) = false ↔ ∀ h ∈ hunks, ¬ h.NotesBareEnd := by
    simp only [List.any_eq_false, Hunk.leavesBareEnd_body_iff]
  rw [endsNew, spliced_append_drop hfaults, Bool.and_eq_true, Bool.and_eq_true, Bool.not_eq_true', Bool.not_eq_true',
    hbare, List.isEmpty_eq_false_iff, Bool.or_eq_true, Bool.or_eq_true, decide_eq_true_iff, reachedEnd_iff hfaults]
  rw [NewlineAtEnd, or_assoc, and_comm (a := ∀ h ∈ hunks, ¬ h.NotesBareEnd), and_assoc]

/-- A diff applies hunk by hunk. -/
theorem applyDiff_eq (before diff : String) :
    applyDiff before diff =
      orFault (faultsFrom (lines before) 0 (Hunk.ofDiff diff)) (patched before (Hunk.ofDiff diff)) := by
  have hrun := applyHunks_eq (lines before) 0 (Hunk.ofDiff diff)
  rw [List.drop_zero] at hrun
  rw [applyDiff, hrun]
  refine orFault_bind_ok _ _ _ fun hnil => ?_
  change (if endsNew before _ (spliced _ _ _) (List.drop _ _) = true then pure (joinLines (_ ++ _) ++ "\n")
    else pure (joinLines (_ ++ _))) = _
  rw [spliced_append_drop hnil, patched]
  simp only [endsNew_iff hnil]
  split
  · rfl
  · rw [String.append_empty]; rfl

/-- A diff applies exactly if its hunks fit the text, and it then replaces their ranges. Else its error is the first
of the faults of the hunks. -/
theorem applyDiff_exact (before diff : String) :
    (∀ after, applyDiff before diff = .ok after ↔
      Fits (lines before) (Hunk.ofDiff diff) ∧ after = patched before (Hunk.ofDiff diff)) ∧
    ∀ e, applyDiff before diff = .error e ↔ (faultsFrom (lines before) 0 (Hunk.ofDiff diff)).head? = some e := by
  have hfits : faultsFrom (lines before) 0 (Hunk.ofDiff diff) = [] ↔ Fits (lines before) (Hunk.ofDiff diff) := by
    simp [faultsFrom_eq_nil_iff]
  rw [applyDiff_eq]
  exact ⟨fun after => orFault_eq_ok_iff.trans (and_congr_left' hfits), fun e => orFault_eq_error_iff⟩

end DiffSlice.Patch
