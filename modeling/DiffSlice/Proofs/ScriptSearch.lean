import DiffSlice.Patch.Unified

/-!
# The script that is found leads from one list to the other

- `search` gives a script from the one list to the other, whatever its split points are, and every run of it is
  anchored where it stands (`search_spec`): what both lists start and end with stays (`take_commonLength`,
  `drop_commonLength_reverse`), and the rest is put together from the two halves.
- Gathering runs into segments changes neither list (`segments_old`, `segments_new`), and a segment that opens the
  list has the anchor of the run that opens the script (`head_segments_add`, `head_segments_remove`).
-/

namespace DiffSlice.Patch

/-! ## Common beginnings and endings -/

/-- Both lists start with the same lines up to their common length. -/
theorem take_commonLength : ∀ a b : List String, a.take (commonLength a b) = b.take (commonLength a b)
  | [], [] | [], _ :: _ | _ :: _, [] => by simp [commonLength]
  | x :: a, y :: b => by
    simp only [commonLength]
    split
    · rename_i h
      subst h
      rw [List.take_succ_cons, List.take_succ_cons, take_commonLength a b]
    · rfl

theorem commonLength_le : ∀ a b : List String, commonLength a b ≤ a.length ∧ commonLength a b ≤ b.length
  | [], _ => by simp [commonLength]
  | _ :: _, [] => by simp [commonLength]
  | x :: a, y :: b => by
    have ih := commonLength_le a b
    simp only [commonLength]
    split
    · simp only [List.length_cons]; omega
    · simp

/-- What two lists end with. -/
theorem drop_commonLength_reverse (a b : List String) :
    a.drop (a.length - commonLength a.reverse b.reverse) = b.drop (b.length - commonLength a.reverse b.reverse) := by
  have h := congrArg List.reverse (take_commonLength a.reverse b.reverse)
  rwa [List.take_reverse, List.take_reverse, List.reverse_reverse, List.reverse_reverse] at h

/-! ## Runs and their sides -/

section Sides

variable (s t : Script) (r : Run) (ls : List String)

@[simp] theorem Script.old_nil : Script.old [] = [] := rfl

@[simp] theorem Script.new_nil : Script.new [] = [] := rfl

@[simp] theorem Script.old_cons : Script.old (r :: s) = r.old ++ Script.old s := by
  simp [Script.old]

@[simp] theorem Script.new_cons : Script.new (r :: s) = r.new ++ Script.new s := by
  simp [Script.new]

theorem old_runOf (make : List String → Run) (h : (make []).old = []) : Script.old (runOf make ls) = (make ls).old := by
  unfold runOf
  split
  · simp_all
  · simp

theorem new_runOf (make : List String → Run) (h : (make []).new = []) : Script.new (runOf make ls) = (make ls).new := by
  unfold runOf
  split
  · simp_all
  · simp

@[simp] theorem old_runOf_equal : Script.old (runOf .equal ls) = ls := old_runOf ls _ rfl

@[simp] theorem new_runOf_equal : Script.new (runOf .equal ls) = ls := new_runOf ls _ rfl

@[simp] theorem old_exchange (o n : Nat) (old new : List String) : Script.old (exchange o n old new) = old := by
  rw [exchange, Script.old_append, old_runOf old _ rfl, old_runOf new _ rfl]
  simp [Run.old]

@[simp] theorem new_exchange (o n : Nat) (old new : List String) : Script.new (exchange o n old new) = new := by
  rw [exchange, Script.new_append, new_runOf old _ rfl, new_runOf new _ rfl]
  simp [Run.new]

end Sides

/-! ## Anchors -/

/-- The run is anchored after `o` old and `n` new lines. -/
def Run.AnchoredAt (o n : Nat) : Run → Prop
  | .equal _ => True
  | .delete anchor _ => anchor = n
  | .insert anchor _ => anchor = o

/-- After `o` old and `n` new lines, every run of the script is anchored where it stands. -/
def Script.Anchored (o n : Nat) : Script → Prop
  | [] => True
  | r :: s => r.AnchoredAt o n ∧ Script.Anchored (o + r.old.length) (n + r.new.length) s

/-- A script is anchored if its first part is, and the second is after the lines of the first. -/
theorem Script.anchored_append (s t : Script) (o n : Nat) :
    Script.Anchored o n (s ++ t) ↔
      Script.Anchored o n s ∧ Script.Anchored (o + (Script.old s).length) (n + (Script.new s).length) t := by
  induction s generalizing o n with
  | nil => simp [Script.Anchored]
  | cons r s ih =>
    simp only [List.cons_append, Script.Anchored, ih, Script.old_cons, Script.new_cons, List.length_append,
      Nat.add_assoc, and_assoc]

theorem anchored_runOf {make : List String → Run} {ls : List String} {o n : Nat} (h : (make ls).AnchoredAt o n) :
    Script.Anchored o n (runOf make ls) := by
  unfold runOf
  split
  · trivial
  · exact ⟨h, trivial⟩

/-- An exchange is anchored where it stands. -/
theorem anchored_exchange (o n : Nat) (old new : List String) : Script.Anchored o n (exchange o n old new) := by
  rw [exchange, Script.anchored_append]
  refine ⟨anchored_runOf rfl, anchored_runOf ?_⟩
  rw [old_runOf old _ rfl]
  rfl

/-- A deletion of an anchored script has its place among the new lines. -/
theorem Script.Anchored.delete_le {s : Script} {o n a : Nat} {ls : List String} (h : Script.Anchored o n s)
    (hm : .delete a ls ∈ s) : a ≤ n + (Script.new s).length := by
  induction s generalizing o n with
  | nil => cases hm
  | cons r s ih =>
    rw [Script.new_cons, List.length_append]
    rcases List.mem_cons.1 hm with rfl | hm
    · have : a = n := h.1
      omega
    · have := ih h.2 hm
      omega

/-! ## Search -/

/-- One round of a search: what both lists start and end with stays, and the middle is exchanged or split. -/
theorem search_succ (v : Frontiers) (o n : Nat) (old new : List String) (fuel : Nat) :
    ∃ front oldMid newMid back inner,
      old = front ++ oldMid ++ back ∧ new = front ++ newMid ++ back
        ∧ (search v o n old new (fuel + 1)).2 = runOf .equal front ++ inner ++ runOf .equal back
        ∧ (inner = exchange (o + front.length) (n + front.length) oldMid newMid
          ∨ ∃ v₁ v₂ x y, inner =
              (search v₁ (o + front.length) (n + front.length) (oldMid.take x) (newMid.take y) fuel).2
                ++ (search v₂ (o + front.length + (oldMid.take x).length) (n + front.length + (newMid.take y).length)
                  (oldMid.drop x) (newMid.drop y) fuel).2) := by
  have hle := (commonLength_le old new).1
  have hfront : (old.take (commonLength old new)).length = commonLength old new := by
    rw [List.length_take]; omega
  generalize hk : commonLength old new = k at *
  generalize hj : commonLength (old.drop k).reverse (new.drop k).reverse = j
  refine ⟨old.take k, (old.drop k).take ((old.drop k).length - j), (new.drop k).take ((new.drop k).length - j),
    (old.drop k).drop ((old.drop k).length - j), _, ?_, ?_, by simp only [search, hk, hj]; rfl, ?_⟩
  · rw [List.append_assoc, List.take_append_drop, List.take_append_drop]
  · rw [← hj, drop_commonLength_reverse, List.append_assoc, List.take_append_drop, ← hk, take_commonLength,
      List.take_append_drop]
  · rw [hfront]
    split
    · exact .inl rfl
    · split
      · rename_i v' x y _
        exact .inr ⟨_, _, x, y, rfl⟩
      · exact .inl rfl

/-- The search gives a script from the one list to the other, with every run anchored where it stands. -/
theorem search_spec (v : Frontiers) (o n : Nat) (old new : List String) (fuel : Nat) :
    Script.old (search v o n old new fuel).2 = old ∧ Script.new (search v o n old new fuel).2 = new
      ∧ Script.Anchored o n (search v o n old new fuel).2 := by
  induction fuel generalizing v o n old new with
  | zero => simp [search, anchored_exchange]
  | succ fuel ih =>
    obtain ⟨front, oldMid, newMid, back, inner, hold, hnew, hs, hinner⟩ := search_succ v o n old new fuel
    have hmid : Script.old inner = oldMid ∧ Script.new inner = newMid
        ∧ Script.Anchored (o + front.length) (n + front.length) inner := by
      rcases hinner with rfl | ⟨v₁, v₂, x, y, rfl⟩
      · exact ⟨old_exchange .., new_exchange .., anchored_exchange ..⟩
      · obtain ⟨h₁, h₂, h₃⟩ := ih v₁ (o + front.length) (n + front.length) (oldMid.take x) (newMid.take y)
        obtain ⟨k₁, k₂, k₃⟩ := ih v₂ (o + front.length + (oldMid.take x).length)
          (n + front.length + (newMid.take y).length) (oldMid.drop x) (newMid.drop y)
        rw [Script.old_append, Script.new_append, Script.anchored_append, h₁, h₂, k₁, k₂]
        exact ⟨List.take_append_drop .., List.take_append_drop .., h₃, k₃⟩
    obtain ⟨h₁, h₂, h₃⟩ := hmid
    rw [hs, hold, hnew, Script.anchored_append, Script.anchored_append]
    simp only [Script.old_append, Script.new_append, old_runOf_equal, new_runOf_equal, h₁, h₂]
    exact ⟨trivial, trivial, ⟨anchored_runOf trivial, h₃⟩, anchored_runOf trivial⟩

/-- The script that is found leads from the old lines to the new ones and is anchored everywhere. -/
theorem find_spec (old new : List String) :
    Script.old (Script.find old new) = old ∧ Script.new (Script.find old new) = new
      ∧ Script.Anchored 0 0 (Script.find old new) :=
  search_spec ..

/-! ## Segments -/

/-- A run that joins segments puts its old lines before theirs. -/
theorem onto_old (r : Run) (segments : List Segment) :
    (r.onto segments).flatMap Segment.old = r.old ++ segments.flatMap Segment.old := by
  unfold Run.onto
  split <;> simp [Run.old, Segment.old]

theorem onto_new (r : Run) (segments : List Segment) :
    (r.onto segments).flatMap Segment.new = r.new ++ segments.flatMap Segment.new := by
  unfold Run.onto
  split <;> simp [Run.new, Segment.new]

/-- The segments of a script have its old lines. -/
theorem segments_old (s : Script) : s.segments.flatMap Segment.old = Script.old s := by
  induction s with
  | nil => rfl
  | cons r s ih => rw [Script.segments, List.foldr_cons, onto_old, Script.old_cons, ← ih]; rfl

theorem segments_new (s : Script) : s.segments.flatMap Segment.new = Script.new s := by
  induction s with
  | nil => rfl
  | cons r s ih => rw [Script.segments, List.foldr_cons, onto_new, Script.new_cons, ← ih]; rfl

/-- Lines that come first in the segments come first in the script. -/
theorem head_segments_add {s : Script} {a : Nat} {ls : List String} (h : s.segments.head? = some (.add a ls)) :
    ∃ ms rest, s = .insert a ms :: rest := by
  cases s with
  | nil => cases h
  | cons r s =>
    rw [Script.segments, List.foldr_cons] at h
    generalize s.foldr Run.onto [] = segments at h
    unfold Run.onto at h
    split at h <;> simp_all

/-- Lines that go first in the segments go first in the script. -/
theorem head_segments_remove {s : Script} {a : Nat} {ls : List String} (h : s.segments.head? = some (.remove a ls)) :
    ∃ ms rest, s = .delete a ms :: rest := by
  cases s with
  | nil => cases h
  | cons r s =>
    rw [Script.segments, List.foldr_cons] at h
    generalize s.foldr Run.onto [] = segments at h
    unfold Run.onto at h
    split at h <;> simp_all

end DiffSlice.Patch
