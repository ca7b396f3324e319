import DiffSlice.Proofs.ScriptSearch
import Mathlib.Data.List.Basic

/-!
# Compaction keeps what a script leads to

One move of a change is a step of `Rises` (up) or of `Sinks` (down); `Place.up` and `Place.down` are runs of such steps
(`up_induction`, `down_induction`), and so is a whole pass over a script (`settle_induction`). From the steps:

- both lists stay the same (`compact_old`, `compact_new`);
- deletions keep their anchors, so these still are places among the new lines (`compact_deletesBelow`);
- if the compacted script starts with an insertion, that is anchored at the start (`compact_front`). A deletion that
  is moved away from under an insertion leaves a wrong anchor behind, but then the insertion is not at the front in
  the end: it goes down past the deletion again.
-/

namespace DiffSlice.Patch

/-! ## Single moves -/

def Place.script (p : Place) : Script :=
  p.before.reverse ++ p.here :: p.after

/-- One of the two runs goes and the other one comes. -/
def Run.Crosses (r t : Run) : Prop :=
  r.isDelete = true ∧ t.isInsert = true ∨ r.isInsert = true ∧ t.isDelete = true

/-- A change moves up once. -/
inductive Place.Rises : Place → Place → Prop
  | past (anchor : Nat) {shared : List String} (ls new : List String) (before after : List Run) (h : shared ≠ []) :
    Rises ⟨.equal (ls ++ shared) :: before, .insert anchor (new ++ shared), after⟩
      ⟨runOf .equal ls ++ before, .insert (anchor - shared.length) (shared ++ new), consEqual shared after⟩
  | joinInsert (a b : Nat) (earlier new : List String) (before after : List Run) :
    Rises ⟨.insert a earlier :: before, .insert b new, after⟩ ⟨before, .insert a (earlier ++ new), after⟩
  | joinDelete (a b : Nat) (earlier old : List String) (before after : List Run) :
    Rises ⟨.delete a earlier :: before, .delete b old, after⟩ ⟨before, .delete a (earlier ++ old), after⟩
  | swap {prev here : Run} (before after : List Run) (h : here.Crosses prev) :
    Rises ⟨prev :: before, here, after⟩ ⟨before, here, prev :: after⟩

/-- A change moves down once. -/
inductive Place.Sinks : Place → Place → Prop
  | past (anchor : Nat) {shared : List String} (ls new : List String) (before after : List Run) (h : shared ≠ []) :
    Sinks ⟨before, .insert anchor (shared ++ new), .equal (shared ++ ls) :: after⟩
      ⟨snocEqual shared before, .insert (anchor + shared.length) (new ++ shared), runOf .equal ls ++ after⟩
  | joinInsert (a b : Nat) (new later : List String) (before after : List Run) :
    Sinks ⟨before, .insert a new, .insert b later :: after⟩ ⟨before, .insert a (new ++ later), after⟩
  | joinDelete (a b : Nat) (old later : List String) (before after : List Run) :
    Sinks ⟨before, .delete a old, .delete b later :: after⟩ ⟨before, .delete a (old ++ later), after⟩
  | swap {here next : Run} (before after : List Run) (h : here.Crosses next) :
    Sinks ⟨before, here, next :: after⟩ ⟨next :: before, here, after⟩

def Run.IsChange (r : Run) : Prop :=
  r.isDelete = true ∨ r.isInsert = true

/-- A change stays where it is, or it moves up once and goes on from there. -/
theorem Place.up_succ (p : Place) (h : p.here.IsChange) (fuel : Nat) :
    p.up (fuel + 1) = p ∨ ∃ q, p.Rises q ∧ p.up (fuel + 1) = q.up fuel := by
  obtain ⟨before, here, after⟩ := p
  rw [Place.up]
  cases before with
  | nil => exact .inl rfl
  | cons prev before =>
    cases prev with
    | equal ls =>
      cases here with
      | insert anchor new =>
        simp only
        split
        · exact .inl rfl
        · rename_i hk
          have hle := commonLength_le ls.reverse new.reverse
          have hshared := drop_commonLength_reverse ls new
          generalize commonLength ls.reverse new.reverse = k at *
          simp only [List.length_reverse] at hle
          refine .inr ⟨_, ?_, rfl⟩
          have hlen : (ls.drop (ls.length - k)).length = k := by rw [List.length_drop]; omega
          have hne : ls.drop (ls.length - k) ≠ [] := by
            intro h0; rw [h0] at hlen; exact hk hlen.symm
          have := Rises.past anchor (ls.take (ls.length - k)) (new.take (new.length - k)) before after hne
          rwa [List.take_append_drop, hlen, hshared, List.take_append_drop, ← hshared] at this
      | delete anchor old => exact .inl rfl
      | equal _ => simp [Run.IsChange, Run.isDelete, Run.isInsert] at h
    | delete a earlier =>
      cases here with
      | insert b new => exact .inr ⟨_, .swap before after (.inr ⟨rfl, rfl⟩), rfl⟩
      | delete b old => exact .inr ⟨_, .joinDelete a b earlier old before after, rfl⟩
      | equal _ => simp [Run.IsChange, Run.isDelete, Run.isInsert] at h
    | insert a earlier =>
      cases here with
      | insert b new => exact .inr ⟨_, .joinInsert a b earlier new before after, rfl⟩
      | delete b old => exact .inr ⟨_, .swap before after (.inl ⟨rfl, rfl⟩), rfl⟩
      | equal _ => simp [Run.IsChange, Run.isDelete, Run.isInsert] at h

theorem Place.down_succ (p : Place) (h : p.here.IsChange) (fuel : Nat) :
    p.down (fuel + 1) = p ∨ ∃ q, p.Sinks q ∧ p.down (fuel + 1) = q.down fuel := by
  obtain ⟨before, here, after⟩ := p
  rw [Place.down]
  cases after with
  | nil => exact .inl rfl
  | cons next after =>
    cases next with
    | equal ls =>
      cases here with
      | insert anchor new =>
        simp only
        split
        · exact .inl rfl
        · rename_i hk
          have hle := commonLength_le ls new
          have hshared := take_commonLength ls new
          generalize commonLength ls new = k at *
          refine .inr ⟨_, ?_, rfl⟩
          have hlen : (ls.take k).length = k := by rw [List.length_take]; omega
          have hne : ls.take k ≠ [] := by
            intro h0; rw [h0] at hlen; exact hk hlen.symm
          have := Sinks.past anchor (ls.drop k) (new.drop k) before after hne
          rwa [List.take_append_drop, hlen, hshared, List.take_append_drop, ← hshared] at this
      | delete anchor old => exact .inl rfl
      | equal _ => simp [Run.IsChange, Run.isDelete, Run.isInsert] at h
    | delete a later =>
      cases here with
      | insert b new => exact .inr ⟨_, .swap before after (.inr ⟨rfl, rfl⟩), rfl⟩
      | delete b old => exact .inr ⟨_, .joinDelete b a old later before after, rfl⟩
      | equal _ => simp [Run.IsChange, Run.isDelete, Run.isInsert] at h
    | insert a later =>
      cases here with
      | insert b new => exact .inr ⟨_, .joinInsert b a new later before after, rfl⟩
      | delete b old => exact .inr ⟨_, .swap before after (.inl ⟨rfl, rfl⟩), rfl⟩
      | equal _ => simp [Run.IsChange, Run.isDelete, Run.isInsert] at h

/-! ## Runs of moves -/

/-- A selection of runs that are all deletions, or all insertions. -/
structure Selects (moves : Run → Bool) : Prop where
  change : ∀ {r : Run}, moves r = true → r.IsChange
  rise : ∀ {p q : Place}, p.Rises q → moves p.here = true → moves q.here = true
  sink : ∀ {p q : Place}, p.Sinks q → moves p.here = true → moves q.here = true

theorem selects_isDelete : Selects Run.isDelete where
  change h := .inl h
  rise h hm := by cases h <;> exact hm
  sink h hm := by cases h <;> exact hm

theorem selects_isInsert : Selects Run.isInsert where
  change h := .inr h
  rise h hm := by cases h <;> exact hm
  sink h hm := by cases h <;> exact hm

section Runs

variable {moves : Run → Bool} (sel : Selects moves) {P : Place → Prop}

include sel

/-- What every move up keeps, a run of moves keeps. -/
theorem up_induction (step : ∀ {p q : Place}, moves p.here = true → p.Rises q → P p → P q) {p : Place}
    (hm : moves p.here = true) (hp : P p) (fuel : Nat) : moves (p.up fuel).here = true ∧ P (p.up fuel) := by
  induction fuel generalizing p with
  | zero => exact ⟨hm, hp⟩
  | succ fuel ih =>
    rcases p.up_succ (sel.change hm) fuel with h | ⟨q, hq, h⟩
    · rw [h]; exact ⟨hm, hp⟩
    · rw [h]; exact ih (sel.rise hq hm) (step hm hq hp)

/-- What every move down keeps, a run of moves keeps. -/
theorem down_induction (step : ∀ {p q : Place}, moves p.here = true → p.Sinks q → P p → P q) {p : Place}
    (hm : moves p.here = true) (hp : P p) (fuel : Nat) : moves (p.down fuel).here = true ∧ P (p.down fuel) := by
  induction fuel generalizing p with
  | zero => exact ⟨hm, hp⟩
  | succ fuel ih =>
    rcases p.down_succ (sel.change hm) fuel with h | ⟨q, hq, h⟩
    · rw [h]; exact ⟨hm, hp⟩
    · rw [h]; exact ih (sel.sink hq hm) (step hm hq hp)

/-- What every move keeps of the script, a pass keeps. -/
theorem settle_induction {S : Script → Prop}
    (rise : ∀ {p q : Place}, moves p.here = true → p.Rises q → S p.script → S q.script)
    (sink : ∀ {p q : Place}, moves p.here = true → p.Sinks q → S p.script → S q.script) (weight : Nat)
    (before : List Run) {after : List Run} (h : S (before.reverse ++ after)) (fuel : Nat) :
    S (settle moves weight before after fuel) := by
  induction fuel generalizing before after with
  | zero => exact h
  | succ fuel ih =>
    cases after with
    | nil => simpa [settle] using h
    | cons run rest =>
      rw [settle]
      split
      · rename_i hrun
        obtain ⟨hm, hu⟩ := up_induction sel (P := fun p => S p.script) rise (p := ⟨before, run, rest⟩) hrun h weight
        obtain ⟨_, hd⟩ := down_induction sel (P := fun p => S p.script) sink hm hu weight
        exact ih _ (by simpa [Place.script] using hd)
      · exact ih _ (by simpa using h)

end Runs

/-! ## What scripts lead to -/

@[simp] theorem old_consEqual (ls : List String) (s : List Run) :
    Script.old (consEqual ls s) = ls ++ Script.old s := by
  unfold consEqual
  split <;> simp [Run.old]

@[simp] theorem new_consEqual (ls : List String) (s : List Run) :
    Script.new (consEqual ls s) = ls ++ Script.new s := by
  unfold consEqual
  split <;> simp [Run.new]

@[simp] theorem old_reverse_snocEqual (ls : List String) (s : List Run) :
    Script.old (snocEqual ls s).reverse = Script.old s.reverse ++ ls := by
  unfold snocEqual
  split <;> simp [Run.old]

@[simp] theorem new_reverse_snocEqual (ls : List String) (s : List Run) :
    Script.new (snocEqual ls s).reverse = Script.new s.reverse ++ ls := by
  unfold snocEqual
  split <;> simp [Run.new]

@[simp] theorem reverse_runOf (make : List String → Run) (ls : List String) :
    (runOf make ls).reverse = runOf make ls := by
  unfold runOf
  split <;> rfl

/-- Runs that cross may change places, as one of them has no old lines. -/
theorem Run.Crosses.old_comm {r t : Run} (h : r.Crosses t) (rest : List String) :
    r.old ++ (t.old ++ rest) = t.old ++ (r.old ++ rest) := by
  cases r <;> cases t <;> simp_all [Run.Crosses, Run.isDelete, Run.isInsert, Run.old]

theorem Run.Crosses.new_comm {r t : Run} (h : r.Crosses t) (rest : List String) :
    r.new ++ (t.new ++ rest) = t.new ++ (r.new ++ rest) := by
  cases r <;> cases t <;> simp_all [Run.Crosses, Run.isDelete, Run.isInsert, Run.new]

/-- Moving a change up leaves the old lines as they are. -/
theorem Place.Rises.old_eq {p q : Place} (h : p.Rises q) : Script.old q.script = Script.old p.script := by
  cases h with
  | swap before after h => simp [Place.script, h.old_comm]
  | _ => simp [Place.script, Run.old]

theorem Place.Rises.new_eq {p q : Place} (h : p.Rises q) : Script.new q.script = Script.new p.script := by
  cases h with
  | swap before after h => simp [Place.script, h.new_comm]
  | _ => simp [Place.script, Run.new]

/-- Moving a change down leaves the old lines as they are. -/
theorem Place.Sinks.old_eq {p q : Place} (h : p.Sinks q) : Script.old q.script = Script.old p.script := by
  cases h with
  | swap before after h => simp [Place.script, h.old_comm]
  | _ => simp [Place.script, Run.old]

theorem Place.Sinks.new_eq {p q : Place} (h : p.Sinks q) : Script.new q.script = Script.new p.script := by
  cases h with
  | swap before after h => simp [Place.script, h.new_comm]
  | _ => simp [Place.script, Run.new]

/-- What every move keeps of a script, compaction keeps. -/
theorem compact_induction {S : Script → Prop} (rise : ∀ {p q : Place}, p.Rises q → S p.script → S q.script)
    (sink : ∀ {p q : Place}, p.Sinks q → S p.script → S q.script) {s : Script} (h : S s) : S s.compact := by
  have pass {moves : Run → Bool} (sel : Selects moves) (weight fuel : Nat) {t : Script} (ht : S t) :
      S (settle moves weight [] t fuel) :=
    settle_induction sel (fun _ => rise) (fun _ => sink) weight [] ht fuel
  exact pass selects_isInsert _ _ (pass selects_isDelete _ _ h)

/-- Compaction leaves the old lines as they are. -/
theorem compact_old (s : Script) : Script.old s.compact = Script.old s :=
  compact_induction (S := fun t => Script.old t = Script.old s) (fun h ht => h.old_eq.trans ht)
    (fun h ht => h.old_eq.trans ht) rfl

/-- Compaction leaves the new lines as they are. -/
theorem compact_new (s : Script) : Script.new s.compact = Script.new s :=
  compact_induction (S := fun t => Script.new t = Script.new s) (fun h ht => h.new_eq.trans ht)
    (fun h ht => h.new_eq.trans ht) rfl

/-! ## Anchors of deletions -/

/-- Every deletion is anchored at `n` at most. -/
def Script.DeletesBelow (n : Nat) (s : Script) : Prop :=
  ∀ a ls, .delete a ls ∈ s → a ≤ n

theorem not_mem_runOf_equal {a : Nat} {ls ms : List String} : ¬ .delete a ms ∈ runOf .equal ls := by
  unfold runOf
  split <;> simp

theorem mem_consEqual {a : Nat} {ls ms : List String} {s : List Run} (h : .delete a ms ∈ consEqual ls s) :
    .delete a ms ∈ s := by
  unfold consEqual at h
  split at h <;> simp_all

theorem mem_snocEqual {a : Nat} {ls ms : List String} {s : List Run} (h : .delete a ms ∈ snocEqual ls s) :
    .delete a ms ∈ s := by
  unfold snocEqual at h
  split at h <;> simp_all

/-- Moving a change up anchors no deletion further on. -/
theorem Place.Rises.deletesBelow {p q : Place} {n : Nat} (h : p.Rises q) (hp : Script.DeletesBelow n p.script) :
    Script.DeletesBelow n q.script := by
  intro a ms hm
  cases h with
  | past anchor ls new before after hne =>
    refine hp a ms ?_
    simp only [Place.script, List.reverse_append, reverse_runOf, List.mem_append, List.mem_reverse, List.mem_cons,
      not_mem_runOf_equal, or_false] at hm ⊢
    rcases hm with hm | hm | hm
    · exact .inl (.inr hm)
    · cases hm
    · exact .inr (.inr (mem_consEqual hm))
  | joinInsert => exact hp a ms (by simp_all [Place.script])
  | joinDelete b c earlier old before after =>
    simp only [Place.script, List.mem_append, List.mem_reverse, List.mem_cons] at hm
    rcases hm with hm | hm | hm
    · exact hp a ms (by simp [Place.script, hm])
    · cases hm
      exact hp a earlier (by simp [Place.script])
    · exact hp a ms (by simp [Place.script, hm])
  | swap before after hc =>
    refine hp a ms ?_
    simp only [Place.script, List.mem_append, List.mem_reverse, List.mem_cons] at hm ⊢
    grind

theorem Place.Sinks.deletesBelow {p q : Place} {n : Nat} (h : p.Sinks q) (hp : Script.DeletesBelow n p.script) :
    Script.DeletesBelow n q.script := by
  intro a ms hm
  cases h with
  | past anchor ls new before after hne =>
    refine hp a ms ?_
    simp only [Place.script, List.mem_append, List.mem_reverse, List.mem_cons, not_mem_runOf_equal, false_or] at hm ⊢
    rcases hm with hm | hm | hm
    · exact .inl (mem_snocEqual hm)
    · cases hm
    · exact .inr (.inr (.inr hm))
  | joinInsert => exact hp a ms (by simp_all [Place.script])
  | joinDelete b c old later before after =>
    simp only [Place.script, List.mem_append, List.mem_reverse, List.mem_cons] at hm
    rcases hm with hm | hm | hm
    · exact hp a ms (by simp [Place.script, hm])
    · cases hm
      exact hp a old (by simp [Place.script])
    · exact hp a ms (by simp [Place.script, hm])
  | swap before after hc =>
    refine hp a ms ?_
    simp only [Place.script, List.mem_append, List.mem_reverse, List.mem_cons] at hm ⊢
    grind

/-- Compaction anchors no deletion beyond a bound that all of them keep. -/
theorem compact_deletesBelow {s : Script} {n : Nat} (h : Script.DeletesBelow n s) : Script.DeletesBelow n s.compact :=
  compact_induction (fun hm => hm.deletesBelow) (fun hm => hm.deletesBelow) h

/-! ## The front of a script -/

/-- A deletion stands before the first lines that stay. -/
def Script.deletesFirst : Script → Bool
  | .delete _ _ :: _ => true
  | .insert _ _ :: s => Script.deletesFirst s
  | _ => false

/-- An insertion at the front is anchored at the start, unless a deletion that may have left it comes after it. -/
def Script.FrontAnchored : Script → Prop
  | .insert a _ :: s => a = 0 ∨ Script.deletesFirst s = true
  | _ => True

theorem Script.deletesFirst_congr {t u : Script} (h : Script.deletesFirst t = Script.deletesFirst u) (s : Script) :
    Script.deletesFirst (s ++ t) = Script.deletesFirst (s ++ u) := by
  induction s with
  | nil => exact h
  | cons r s ih => cases r <;> simp [Script.deletesFirst, ih]

/-- The end of a script may be exchanged for one that starts with a deletion if it did, and that is anchored if it was.
-/
theorem Script.FrontAnchored.congr {s t u : Script} (h : Script.deletesFirst t = Script.deletesFirst u)
    (hu : Script.FrontAnchored t → Script.FrontAnchored u) (ht : Script.FrontAnchored (s ++ t)) :
    Script.FrontAnchored (s ++ u) := by
  cases s with
  | nil => exact hu ht
  | cons r s =>
    cases r with
    | insert a ls => simpa [Script.FrontAnchored, Script.deletesFirst_congr h s] using ht
    | equal _ => trivial
    | delete _ _ => trivial

/-- A deletion that moves up leaves the front anchored. -/
theorem Place.Rises.frontAnchored {p q : Place} (hd : p.here.isDelete = true) (h : p.Rises q)
    (hp : Script.FrontAnchored p.script) : Script.FrontAnchored q.script := by
  cases h with
  | past => cases hd
  | joinInsert => cases hd
  | joinDelete a b earlier old before after =>
    rw [Place.script, List.reverse_cons, List.append_assoc] at hp
    refine hp.congr ?_ fun _ => trivial
    rfl
  | @swap prev here before after hc =>
    rw [Place.script, List.reverse_cons, List.append_assoc] at hp
    refine hp.congr ?_ fun _ => ?_
    · cases prev <;> cases here <;> simp_all [Run.Crosses, Run.isDelete, Run.isInsert, Script.deletesFirst]
    · cases here <;> simp_all [Run.isDelete, Script.FrontAnchored]

/-- A deletion that moves down leaves the front anchored. -/
theorem Place.Sinks.frontAnchored {p q : Place} (hd : p.here.isDelete = true) (h : p.Sinks q)
    (hp : Script.FrontAnchored p.script) : Script.FrontAnchored q.script := by
  cases h with
  | past => cases hd
  | joinInsert => cases hd
  | joinDelete a b old later before after =>
    refine Script.FrontAnchored.congr ?_ (fun _ => trivial) hp
    rfl
  | @swap here next before after hc =>
    rw [Place.script, List.reverse_cons, List.append_assoc]
    refine hp.congr ?_ fun _ => ?_
    · cases next <;> cases here <;> simp_all [Run.Crosses, Run.isDelete, Run.isInsert, Script.deletesFirst]
    · cases next <;> cases here <;>
        simp_all [Run.Crosses, Run.isDelete, Run.isInsert, Script.FrontAnchored, Script.deletesFirst]

/-- Moving deletions makes no run out of nothing. -/
theorem Place.Rises.length_le {p q : Place} (hd : p.here.isDelete = true) (h : p.Rises q) :
    q.script.length ≤ p.script.length := by
  cases h with
  | past => cases hd
  | joinInsert => cases hd
  | joinDelete => simp [Place.script]
  | swap => simp [Place.script]

theorem Place.Sinks.length_le {p q : Place} (hd : p.here.isDelete = true) (h : p.Sinks q) :
    q.script.length ≤ p.script.length := by
  cases h with
  | past => cases hd
  | joinInsert => cases hd
  | joinDelete => simp [Place.script]
  | swap => simp [Place.script]

/-- The front of what a pass has left behind, which is given from the last run on: an insertion there is anchored at
the start. -/
def FrontSettled (behind : List Run) : Prop :=
  ∀ a ls, behind.getLast? = some (.insert a ls) → a = 0

theorem FrontSettled.cons {r : Run} {behind : List Run} (h : FrontSettled behind) (hne : behind ≠ []) :
    FrontSettled (r :: behind) := by
  intro a ls hl
  rw [List.getLast?_cons_of_ne_nil hne] at hl
  exact h a ls hl

theorem FrontSettled.tail {r : Run} {behind : List Run} (h : FrontSettled (r :: behind)) (hne : behind ≠ []) :
    FrontSettled behind := by
  intro a ls hl
  exact h a ls (by rwa [List.getLast?_cons_of_ne_nil hne])

theorem FrontSettled.snocEqual (here : Run) {r : Run} {before : List Run} (h : FrontSettled (r :: before))
    (ls : List String) : FrontSettled (here :: snocEqual ls before) := by
  unfold Patch.snocEqual
  split
  · rename_i earlier rest
    by_cases hne : rest = []
    · subst hne; intro a ms hl; simp at hl
    · exact (((h.tail (by simp)).tail hne).cons hne).cons (by simp)
  · by_cases hne : before = []
    · subst hne; intro a ms hl; simp at hl
    · exact ((h.tail hne).cons hne).cons (by simp)

/-- Sinking keeps the front settled. -/
theorem Place.Sinks.frontSettled {p q : Place} (hi : p.here.isInsert = true) (h : p.Sinks q)
    (hp : FrontSettled (p.here :: p.before)) : FrontSettled (q.here :: q.before) := by
  cases h with
  | past anchor ls new before after hne => exact hp.snocEqual _ _
  | joinInsert a b new later before after =>
    by_cases hne : before = []
    · subst hne
      intro c ms hl
      cases hl
      exact hp a new rfl
    · exact (hp.tail hne).cons hne
  | joinDelete => cases hi
  | @swap here next before after hc =>
    by_cases hne : before = []
    · subst hne
      intro a ms hl
      cases here <;> cases next <;> simp_all [Run.Crosses, Run.isDelete, Run.isInsert]
    · exact ((hp.tail hne).cons hne).cons (by simp)

/-- An insertion that has come to the front and can go down again: past a deletion, or past lines that it starts
with. -/
inductive Place.CanSink : Place → Prop
  | delete (a b : Nat) (ls new : List String) (after : List Run) :
    CanSink ⟨[], .insert a new, .delete b ls :: after⟩
  | equal (a : Nat) {ls new : List String} (after : List Run) (h : commonLength ls new ≠ 0) :
    CanSink ⟨[], .insert a new, .equal ls :: after⟩

/-- An insertion at the front can go down past lines that it starts with. -/
theorem canSink_consEqual (a : Nat) {shared : List String} (new : List String) (after : List Run) (h : shared ≠ []) :
    Place.CanSink ⟨[], .insert a (shared ++ new), consEqual shared after⟩ := by
  obtain ⟨x, xs, rfl⟩ := List.exists_cons_of_ne_nil h
  unfold consEqual
  split <;> exact .equal a _ (by simp [commonLength])

/-- Rising keeps the front settled, or the insertion can go down again. -/
theorem Place.Rises.frontSettled {p q : Place} (hi : p.here.isInsert = true) (h : p.Rises q)
    (hp : FrontSettled (p.here :: p.before) ∨ p.CanSink) : FrontSettled (q.here :: q.before) ∨ q.CanSink := by
  have hp : FrontSettled (p.here :: p.before) := by
    rcases hp with hp | hp
    · exact hp
    · cases hp <;> cases h
  cases h with
  | past anchor ls new before after hne =>
    by_cases hb : before = []
    · subst hb
      by_cases hls : ls = []
      · subst hls
        exact .inr (canSink_consEqual _ _ _ hne)
      · refine .inl fun a ms hl => ?_
        simp [runOf, hls] at hl
    · have := (hp.tail (by simp)).tail hb
      refine .inl (FrontSettled.cons ?_ (by simp [hb]))
      intro a ms hl
      rw [List.getLast?_append_of_ne_nil _ hb] at hl
      exact this a ms hl
  | joinInsert a b earlier new before after =>
    have := hp.tail (by simp)
    by_cases hb : before = []
    · subst hb
      refine .inl fun c ms hl => ?_
      cases hl
      exact this a earlier rfl
    · exact .inl ((this.tail hb).cons hb)
  | joinDelete => cases hi
  | @swap prev here before after hc =>
    by_cases hb : before = []
    · subst hb
      cases here <;> cases prev <;> simp_all [Run.Crosses, Run.isDelete, Run.isInsert]
      exact .inr (.delete ..)
    · exact .inl (((hp.tail (by simp)).tail hb).cons hb)

/-- After one move down the front is settled, and stays so. -/
theorem Place.CanSink.frontSettled_down {p : Place} (h : p.CanSink) (fuel : Nat) :
    FrontSettled ((p.down (fuel + 1)).here :: (p.down (fuel + 1)).before) := by
  have later {q : Place} (hi : q.here.isInsert = true) (hq : FrontSettled (q.here :: q.before)) :
      FrontSettled ((q.down fuel).here :: (q.down fuel).before) :=
    (down_induction selects_isInsert (P := fun p => FrontSettled (p.here :: p.before))
      (fun hi h => h.frontSettled hi) hi hq fuel).2
  cases h with
  | delete a b ls new after =>
    rw [Place.down]
    exact later rfl fun c ms hl => by simp at hl
  | equal a after hk =>
    simp only [Place.down, if_neg hk]
    exact later rfl fun c ms hl => by simp [snocEqual] at hl

/-- An insertion at the front goes down past a deletion that follows before any lines that stay. -/
theorem frontSettled_down_of_deletesFirst {rest : List Run} (h : Script.deletesFirst rest = true) (a : Nat)
    (new : List String) {fuel : Nat} (hf : rest.length ≤ fuel) :
    FrontSettled ((Place.down ⟨[], .insert a new, rest⟩ fuel).here
      :: (Place.down ⟨[], .insert a new, rest⟩ fuel).before) := by
  induction rest generalizing new fuel with
  | nil => cases h
  | cons r rest ih =>
    cases fuel with
    | zero => simp at hf
    | succ fuel =>
      cases r with
      | equal _ => cases h
      | delete b ls => exact (Place.CanSink.delete a b ls new rest).frontSettled_down fuel
      | insert b later => exact ih h (new ++ later) (by simpa using hf)

/-- One run of a pass over insertions settles the front, or keeps it settled. -/
theorem frontSettled_move {before rest : List Run} {run : Run} {weight : Nat} (hi : run.isInsert = true)
    (hw : 0 < weight)
    (h : before ≠ [] ∧ FrontSettled before
      ∨ before = [] ∧ Script.FrontAnchored (run :: rest) ∧ rest.length ≤ weight) :
    let p := (Place.up ⟨before, run, rest⟩ weight).down weight
    FrontSettled (p.here :: p.before) := by
  obtain ⟨fuel, rfl⟩ : ∃ fuel, weight = fuel + 1 := ⟨weight - 1, by omega⟩
  have later {q : Place} (hi : q.here.isInsert = true) (hq : FrontSettled (q.here :: q.before)) (n : Nat) :
      FrontSettled ((q.down n).here :: (q.down n).before) :=
    (down_induction selects_isInsert (P := fun p => FrontSettled (p.here :: p.before))
      (fun hi h => h.frontSettled hi) hi hq n).2
  rcases h with ⟨hne, hb⟩ | ⟨rfl, hb, hlen⟩
  · obtain ⟨hi', hu⟩ := up_induction selects_isInsert
      (P := fun p => FrontSettled (p.here :: p.before) ∨ p.CanSink) (fun hi h => h.frontSettled hi)
      (p := ⟨before, run, rest⟩) hi (.inl (hb.cons hne)) (fuel + 1)
    rcases hu with hu | hu
    · exact later hi' hu _
    · exact hu.frontSettled_down fuel
  · cases run with
    | insert a new =>
      -- nothing is before the run, so it cannot rise
      have hup : Place.up ⟨[], .insert a new, rest⟩ (fuel + 1) = ⟨[], .insert a new, rest⟩ := rfl
      rw [hup]
      rcases hb with ha | hd
      · exact later rfl (fun c ms hl => by simp at hl; omega) _
      · exact frontSettled_down_of_deletesFirst hd a new hlen
    | equal _ => cases hi
    | delete _ _ => cases hi

theorem frontSettled_singleton {run : Run} (h : ¬ run.isInsert = true) : FrontSettled [run] := by
  intro a ls hl
  cases hl
  exact absurd rfl h

/-- Once the front is settled, a pass over insertions leaves it so. -/
theorem settle_front {weight : Nat} (hw : 0 < weight) {before : List Run} (hne : before ≠ [])
    (hb : FrontSettled before) (after : List Run) (fuel : Nat) :
    ∃ front rest, settle Run.isInsert weight before after fuel = front.reverse ++ rest ∧ front ≠ []
      ∧ FrontSettled front := by
  induction fuel generalizing before after with
  | zero => exact ⟨before, after, rfl, hne, hb⟩
  | succ fuel ih =>
    cases after with
    | nil => exact ⟨before, [], by simp [settle], hne, hb⟩
    | cons run rest =>
      rw [settle]
      split
      · rename_i hi
        exact ih (by simp) (frontSettled_move hi hw (.inl ⟨hne, hb⟩)) _
      · exact ih (by simp) (hb.cons hne) _

/-- A pass over insertions settles the front. -/
theorem settle_front_first {weight : Nat} {s : Script} (h : Script.FrontAnchored s) (hw : s.length ≤ weight)
    (fuel : Nat) {a : Nat} {ls : List String} {rest : List Run}
    (hs : settle Run.isInsert weight [] s (fuel + 1) = .insert a ls :: rest) : a = 0 := by
  cases s with
  | nil => simp [settle] at hs
  | cons run s =>
    have hpos : 0 < weight := by simp at hw; omega
    have first : ∃ front rest', settle Run.isInsert weight [] (run :: s) (fuel + 1) = front.reverse ++ rest'
        ∧ front ≠ [] ∧ FrontSettled front := by
      rw [settle]
      split
      · rename_i hi
        exact settle_front hpos (by simp) (frontSettled_move hi hpos (.inr ⟨rfl, h, by simp at hw; omega⟩)) _ _
      · rename_i hi
        exact settle_front hpos (by simp) (frontSettled_singleton hi) _ _
    obtain ⟨front, rest', he, hne, hf⟩ := first
    rw [he] at hs
    refine hf a ls ?_
    rw [← List.head?_reverse]
    have := congrArg List.head? hs
    rwa [List.head?_append_of_ne_nil _ (by simpa using hne), List.head?_cons] at this

theorem length_le_scriptWeight (s : Script) : s.length ≤ scriptWeight s := by
  induction s with
  | nil => exact Nat.le_refl _
  | cons r s ih =>
    simp only [scriptWeight, List.foldr_cons, List.length_cons] at ih ⊢
    omega

/-- A script that is anchored everywhere is anchored at its front. -/
theorem Script.Anchored.frontAnchored {s : Script} (h : Script.Anchored 0 0 s) : Script.FrontAnchored s := by
  cases s with
  | nil => trivial
  | cons r s =>
    cases r with
    | insert a ls => exact .inl h.1
    | equal _ => trivial
    | delete _ _ => trivial

/-- If the compacted script starts with an insertion, that is anchored at the start. -/
theorem compact_front {s : Script} (h : Script.Anchored 0 0 s) {a : Nat} {ls : List String} {rest : List Run}
    (hs : s.compact = .insert a ls :: rest) : a = 0 := by
  have hdeletes : ∀ fuel, Script.FrontAnchored (settle Run.isDelete (scriptWeight s) [] s fuel)
      ∧ (settle Run.isDelete (scriptWeight s) [] s fuel).length ≤ s.length := by
    intro fuel
    refine settle_induction selects_isDelete (S := fun t => Script.FrontAnchored t ∧ t.length ≤ s.length)
      ?_ ?_ _ [] ⟨h.frontAnchored, Nat.le_refl _⟩ fuel
    · intro p q hd hq hp
      exact ⟨hq.frontAnchored hd hp.1, Nat.le_trans (hq.length_le hd) hp.2⟩
    · intro p q hd hq hp
      exact ⟨hq.frontAnchored hd hp.1, Nat.le_trans (hq.length_le hd) hp.2⟩
  exact settle_front_first (hdeletes _).1 (Nat.le_trans (hdeletes _).2 (length_le_scriptWeight s)) _ hs

end DiffSlice.Patch
