import DiffSlice.Scope.Path
import Mathlib.Data.List.Basic

/-!
# Scopes as they are written

A written scope is read back by cutting it before each point and each colon (`readSegments`): what stands before the
first of these is `global` or the class that the scope starts with. So scopes that are written alike are the same
(`ScopePath.text_inj`), if no name has a point or a colon in it and the outermost class is not called `global`.
-/

namespace DiffSlice

/-- Neither a point nor a colon stands in the name of the step. -/
def ScopeSegment.Plain (s : ScopeSegment) : Prop :=
  '.' ∉ s.name.toList ∧ ':' ∉ s.name.toList

instance : DecidablePred ScopeSegment.Plain := fun s =>
  inferInstanceAs (Decidable ('.' ∉ s.name.toList ∧ ':' ∉ s.name.toList))

/-- No name in the scope has a point or a colon in it, and the outermost class is not called `global`. -/
structure ScopePath.Legible (p : ScopePath) : Prop where
  plain : ∀ s ∈ p.segments, s.Plain
  notGlobal : p.segments.head? ≠ some (.inClass "global")

/-! ## Reading steps -/

/-- What stands before the first step of a written scope, and the steps. -/
def readSegments : List Char → List Char × List ScopeSegment
  | [] => ([], [])
  | c :: cs =>
    let (name, steps) := readSegments cs
    if c = '.' then ([], .inFunction (String.ofList name) :: steps)
    else if c = ':' then ([], .inClass (String.ofList name) :: steps)
    else (c :: name, steps)

section

variable {name rest : List Char} {steps : List ScopeSegment}

theorem readSegments_point (h : readSegments rest = (name, steps)) :
    readSegments ('.' :: rest) = ([], .inFunction (String.ofList name) :: steps) := by
  simp [readSegments, h]

theorem readSegments_colon (h : readSegments rest = (name, steps)) :
    readSegments (':' :: rest) = ([], .inClass (String.ofList name) :: steps) := by
  simp [readSegments, h]

/-- A name is read up to the first step after it. -/
theorem readSegments_append (hpoint : '.' ∉ name) (hcolon : ':' ∉ name) (h : readSegments rest = ([], steps)) :
    readSegments (name ++ rest) = (name, steps) := by
  induction name with
  | nil => exact h
  | cons c name ih =>
    rw [List.mem_cons, not_or] at hpoint hcolon
    rw [List.cons_append, readSegments, ih hpoint.2 hcolon.2]
    simp [Ne.symm hpoint.1, Ne.symm hcolon.1]

/-- The steps of a scope are read back. -/
theorem readSegments_segmentsText (h : ∀ s ∈ steps, s.Plain) :
    readSegments (ScopePath.segmentsText steps).toList = ([], steps) := by
  induction steps with
  | nil => rfl
  | cons s steps ih =>
    obtain ⟨⟨hpoint, hcolon⟩, hsteps⟩ := List.forall_mem_cons.1 h
    have hname := readSegments_append hpoint hcolon (ih hsteps)
    cases s with
    | inFunction name =>
      simpa [ScopePath.segmentsText, ScopeSegment.text, ScopeSegment.name] using readSegments_point hname
    | inClass name =>
      simpa [ScopePath.segmentsText, ScopeSegment.text, ScopeSegment.name] using readSegments_colon hname

/-- A name and the steps after it are read back. -/
theorem readSegments_name {first : String} (hpoint : '.' ∉ first.toList) (hcolon : ':' ∉ first.toList)
    (h : ∀ s ∈ steps, s.Plain) :
    readSegments (first ++ ScopePath.segmentsText steps).toList = (first.toList, steps) := by
  rw [String.toList_append]
  exact readSegments_append hpoint hcolon (readSegments_segmentsText h)

end

/-! ## Reading scopes -/

namespace ScopePath

variable {p q : ScopePath}

/-- The scope that a text writes. -/
def ofText (s : String) : ScopePath :=
  let (name, steps) := readSegments s.toList
  if String.ofList name = "global" then ⟨steps⟩ else ⟨.inClass (String.ofList name) :: steps⟩

/-- A scope is read back from its text. -/
theorem ofText_text (h : p.Legible) : ofText p.text = p := by
  obtain ⟨segments⟩ := p
  obtain ⟨hplain, hfirst⟩ := h
  -- the text starts with `global`, unless a class replaces it
  have hglobal (hsegments : text ⟨segments⟩ = "global" ++ segmentsText segments) :
      ofText (text ⟨segments⟩) = ⟨segments⟩ := by
    rw [hsegments, ofText, readSegments_name (by decide) (by decide) hplain]
    simp
  cases segments with
  | nil => exact hglobal rfl
  | cons first rest =>
    cases first with
    | inFunction name => exact hglobal rfl
    | inClass name =>
      obtain ⟨⟨hpoint, hcolon⟩, hrest⟩ := List.forall_mem_cons.1 hplain
      have hread : readSegments (name ++ segmentsText rest).toList = (name.toList, rest) :=
        readSegments_name hpoint hcolon hrest
      have hname : name ≠ "global" := fun heq => hfirst (by simp [heq])
      rw [text, ofText, hread]
      simp [hname]

/-- Scopes that are written alike are the same. -/
theorem text_inj (hp : p.Legible) (hq : q.Legible) : p.text = q.text ↔ p = q := by
  constructor
  · intro h
    rw [← ofText_text hp, h, ofText_text hq]
  · rintro rfl
    rfl

/-- A method of a class inside a function is not written as a class in its place. -/
theorem text_inj_nested :
    text ⟨[.inFunction "f", .inClass "A", .inFunction "m"]⟩ ≠ text ⟨[.inFunction "f", .inClass "A", .inClass "m"]⟩ := by
  rw [ne_eq, text_inj ⟨by decide, by decide⟩ ⟨by decide, by decide⟩]
  decide

/-- An outermost class that is called `global` is written as what is outside of every class. -/
example : text ⟨[.inClass "global"]⟩ = text global := by
  decide

end ScopePath

end DiffSlice
