import DiffSlice.Proofs.ChangeSetUnion
import DiffSlice.Slice.File

/-!
# What comes of slicing a file

The text of a revision is there or not (`RevisionText`), and it parses or not. Of these cases one at a time decides what
comes of slicing: the revision that is not asked for shows in the change set alone, and the change set does not depend
on what is asked for (`sliceFile_outcome`). Nothing comes of it if a line number of the diff passes the limit.
-/

namespace DiffSlice

open DiffSlice.Patch

/-! ## Texts of revisions -/

/-- The text of a revision is there: the old one always, the new one if it is given or if the diff applies. -/
inductive RevisionText (before : String) (after : Option String) (diff : String) : Revision → String → Prop
  | old : RevisionText before after diff .old before
  | given {text : String} (known : after = some text) : RevisionText before after diff .new text
  | rebuilt {text : String} (unknown : after = none) (applied : applyDiff before diff = .ok text) :
    RevisionText before after diff .new text

/-- What the edits touch in a text, which is nothing if the text does not parse. -/
def touchedIn (text path : String) (edits : List LineEdit) : ChangeSet :=
  match SyntaxTree.parsePath text path with
  | .ok tree => locate edits (.ofTree tree)
  | .error _ => .empty

def Revision.edits : Revision → Edits → List LineEdit
  | .old, e => e.removed
  | .new, e => e.added

section

variable {before diff path text : String} {after : Option String} {revision : Revision} {options : SliceOptions}
  {edits : Edits}

/-- Only the new text can be missing, because the diff does not apply. -/
theorem missing_of_no_text (h : ∀ text, ¬RevisionText before after diff revision text) :
    revision = .new ∧ after = none ∧ ∃ error, applyDiff before diff = .error error := by
  cases revision with
  | old => exact absurd .old (h before)
  | new =>
    cases hafter : after with
    | some text => exact absurd (.given hafter) (h text)
    | none =>
      cases happly : applyDiff before diff with
      | ok text => exact absurd (.rebuilt hafter happly) (h text)
      | error error => exact ⟨rfl, rfl, error, rfl⟩

/-- A text that is there and parses is sliced. -/
theorem sliceEdits_of_tree {tree : SyntaxTree} (h : RevisionText before after diff options.revision text)
    (hparse : SyntaxTree.parsePath text path = .ok tree) :
    (sliceEdits edits before after diff path options).text =
        (slice tree (sliceEdits edits before after diff path options).changes).render options.style
          (sliceEdits edits before after diff path options).editedLines ∧
      (sliceEdits edits before after diff path options).degraded = none := by
  obtain ⟨revision, style⟩ := options
  simp only at h
  cases h with
  | old => simp only [sliceEdits, hparse, and_self]
  | given known =>
    subst known
    simp only [sliceEdits, Option.map_some, hparse, and_self]
  | rebuilt unknown applied =>
    subst unknown
    simp only [sliceEdits, applied, Option.map_some, hparse, and_self]

/-- A text that does not parse is given as it is. -/
theorem sliceEdits_of_failure {failure : ParseFailure} (h : RevisionText before after diff options.revision text)
    (hparse : SyntaxTree.parsePath text path = .error failure) :
    (sliceEdits edits before after diff path options).text = text ∧
      (sliceEdits edits before after diff path options).degraded = some (.unparseable failure) := by
  obtain ⟨revision, style⟩ := options
  simp only at h
  cases h with
  | old => simp only [sliceEdits, hparse, and_self]
  | given known =>
    subst known
    simp only [sliceEdits, Option.map_some, hparse, Option.getD_some, and_self]
  | rebuilt unknown applied =>
    subst unknown
    simp only [sliceEdits, applied, Option.map_some, hparse, Option.getD_some, and_self]

/-- Where the new text is missing, the old one is given. -/
theorem sliceEdits_of_missing (h : ∀ text, ¬RevisionText before after diff options.revision text) (path : String) :
    (sliceEdits edits before after diff path options).text = before ∧
      ∃ error, applyDiff before diff = .error error ∧
        (sliceEdits edits before after diff path options).degraded = some (.missingNewText error) := by
  obtain ⟨hrevision, rfl, error, happly⟩ := missing_of_no_text h
  simp [sliceEdits, hrevision, happly]

theorem degraded_eq_none_iff : (sliceEdits edits before after diff path options).degraded = none ↔
    ∃ text tree, RevisionText before after diff options.revision text ∧ SyntaxTree.parsePath text path = .ok tree := by
  constructor
  · intro hnone
    by_cases hmissing : ∀ text, ¬RevisionText before after diff options.revision text
    · obtain ⟨-, error, -, hdegraded⟩ := sliceEdits_of_missing hmissing path
      rw [hdegraded] at hnone
      cases hnone
    · simp only [not_forall, not_not] at hmissing
      obtain ⟨text, htext⟩ := hmissing
      cases hparse : SyntaxTree.parsePath text path with
      | ok tree => exact ⟨text, tree, htext, hparse⟩
      | error failure =>
        rw [(sliceEdits_of_failure htext hparse).2] at hnone
        cases hnone
  · rintro ⟨text, tree, htext, hparse⟩
    exact (sliceEdits_of_tree htext hparse).2

/-! ## What is touched -/

theorem changes_sliceEdits_of_text (h : RevisionText before after diff .new text) :
    (sliceEdits edits before after diff path options).changes =
      (touchedIn before path edits.removed).union (touchedIn text path edits.added) := by
  have hnew : (sliceEdits edits before after diff path options).changes =
      locateEdits (SyntaxTree.parsePath before path).toOption (SyntaxTree.parsePath text path).toOption edits := by
    cases h with
    | given known =>
      subst known
      rfl
    | rebuilt unknown applied =>
      subst unknown
      simp only [sliceEdits, applied, Option.map_some, Option.bind_some]
  rw [hnew, touchedIn, touchedIn]
  cases SyntaxTree.parsePath before path <;> cases SyntaxTree.parsePath text path <;> rfl

theorem changes_sliceEdits_of_missing (h : ∀ text, ¬RevisionText before after diff .new text) :
    (sliceEdits edits before after diff path options).changes = touchedIn before path edits.removed := by
  obtain ⟨-, rfl, error, happly⟩ := missing_of_no_text h
  have hold : (sliceEdits edits before none diff path options).changes =
      locateEdits (SyntaxTree.parsePath before path).toOption none edits := by
    simp only [sliceEdits, happly, Option.map_none, Option.bind_none]
  rw [hold, touchedIn]
  cases SyntaxTree.parsePath before path with
  | ok tree => exact sup_bot_eq (locate _ _)
  | error failure => exact sup_bot_eq ChangeSet.empty

/-- What is touched does not depend on what is asked for. -/
theorem changes_sliceEdits (edits : Edits) (others : SliceOptions) :
    (sliceEdits edits before after diff path others).changes =
      (sliceEdits edits before after diff path options).changes := by
  by_cases hmissing : ∀ text, ¬RevisionText before after diff .new text
  · rw [changes_sliceEdits_of_missing hmissing, changes_sliceEdits_of_missing hmissing]
  · simp only [not_forall, not_not] at hmissing
    obtain ⟨text, htext⟩ := hmissing
    rw [changes_sliceEdits_of_text htext, changes_sliceEdits_of_text htext]

theorem mem_editedLines {n : Nat} : n ∈ (sliceEdits edits before after diff path options).editedLines ↔
    ∃ e ∈ options.revision.edits edits, e.number = n := by
  have hedited : (sliceEdits edits before after diff path options).editedLines =
      .ofList ((options.revision.edits edits).map LineEdit.number) := by
    obtain ⟨revision, style⟩ := options
    cases revision <;> rfl
  rw [hedited, Std.ExtTreeSet.mem_ofList, List.contains_iff_mem, List.mem_map]

/-- There is an outcome exactly if the edits of the diff can be numbered. A file is sliced exactly if the text of the
revision that is asked for is there and parses, and then the slice is shown. A text that does not parse is given as it
is, with the failure to parse it. Where the new text is missing, the old one is given, with the error of the diff. What
is touched is the same whatever is asked for: what removed lines touch in the old text and added lines in the new one,
as far as these are there and parse. -/
theorem sliceFile_outcome (before : String) (after : Option String) (diff path : String) (options : SliceOptions) :
    (sliceFile before after diff path options = none ↔ Edits.ofDiff? diff = none) ∧
    ∀ edits, Edits.ofDiff? diff = some edits → ∃ outcome, sliceFile before after diff path options = some outcome ∧
      (outcome.degraded = none ↔
        ∃ text tree, RevisionText before after diff options.revision text ∧
          SyntaxTree.parsePath text path = .ok tree) ∧
      (∀ text tree, RevisionText before after diff options.revision text → SyntaxTree.parsePath text path = .ok tree →
        outcome.text = (slice tree outcome.changes).render options.style outcome.editedLines) ∧
      (∀ text failure, RevisionText before after diff options.revision text →
        SyntaxTree.parsePath text path = .error failure →
          outcome.text = text ∧ outcome.degraded = some (.unparseable failure)) ∧
      ((∀ text, ¬RevisionText before after diff options.revision text) →
        outcome.text = before ∧
          ∃ error, applyDiff before diff = .error error ∧ outcome.degraded = some (.missingNewText error)) ∧
      (∀ text, RevisionText before after diff .new text →
        outcome.changes = (touchedIn before path edits.removed).union (touchedIn text path edits.added)) ∧
      ((∀ text, ¬RevisionText before after diff .new text) →
        outcome.changes = touchedIn before path edits.removed) ∧
      (∀ n, n ∈ outcome.editedLines ↔ ∃ e ∈ options.revision.edits edits, e.number = n) ∧
      ∀ others, (sliceFile before after diff path others).map (·.changes) = some outcome.changes := by
  refine ⟨Option.map_eq_none_iff, fun edits hedits => ?_⟩
  refine ⟨sliceEdits edits before after diff path options, by rw [sliceFile, hedits, Option.map_some], degraded_eq_none_iff,
    fun text tree htext hparse => (sliceEdits_of_tree htext hparse).1, fun text failure => sliceEdits_of_failure,
    fun hmissing => sliceEdits_of_missing hmissing path, fun text => changes_sliceEdits_of_text,
    changes_sliceEdits_of_missing, fun n => mem_editedLines, fun others => ?_⟩
  rw [sliceFile, hedits, Option.map_some, Option.map_some, changes_sliceEdits edits others]

/-- Where the new text is missing, that is why the old one is given, although that could not be parsed either. -/
theorem sliceFile_outcome_missing : ∃ outcome,
    sliceFile "a, b" none "@@ -9 +9 @@\n-x\n" "a.css" { revision := .new } = some outcome ∧ outcome.text = "a, b" ∧
      outcome.degraded = some (.missingNewText (.outOfRange 9 1)) := by
  have hedits : Edits.ofDiff? "@@ -9 +9 @@\n-x\n" = some { removed := [⟨9, "x", .removed⟩] } := by decide
  have happly : applyDiff "a, b" "@@ -9 +9 @@\n-x\n" = .error (.outOfRange 9 1) := rfl
  obtain ⟨outcome, hsliced, -, -, -, hmissing, -⟩ :=
    (sliceFile_outcome "a, b" none "@@ -9 +9 @@\n-x\n" "a.css" { revision := .new }).2 _ hedits
  obtain ⟨htext, error, herror, hdegraded⟩ := hmissing (by
    rintro text (_ | known | ⟨_, applied⟩)
    · cases known
    · rw [happly] at applied
      cases applied)
  rw [happly] at herror
  cases herror
  exact ⟨outcome, hsliced, htext, hdegraded⟩

/-- Both texts are there and parse, but a line number of the diff passes the limit, and there is no outcome. -/
theorem sliceFile_past_limit : (SyntaxTree.parsePath "" "a.js").isOk = true ∧
    sliceFile "" (some "") "@@ -18446744073709551615 +1 @@\n a\n b\n" "a.js" {} = none := by
  decide +kernel

end

end DiffSlice
