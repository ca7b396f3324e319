import DiffSlice.Patch.Hunk

/-!
# What application does to the lines

`Rewrites` and `Splices` say, without positions to keep and errors to raise, what a body and a list of hunks make of
old lines. Application succeeds exactly where they do (`applyBody_eq_ok_iff`, `applyHunks_eq_ok_iff`).
-/

namespace DiffSlice.Patch

open DiffSlice.Text

theorem bind_eq_ok_iff {ε α β : Type} {x : Except ε α} {f : α → Except ε β} {b : β} :
    x >>= f = .ok b ↔ ∃ a, x = .ok a ∧ f a = .ok b := by
  cases x <;> simp [bind, Except.bind]

/-! ## Bodies -/

/-- The body makes the new lines of the old ones. A line that stays is the line that was found. -/
inductive Rewrites : List BodyLine → List String → List String → Prop
  | nil : Rewrites [] [] []
  | noNewline {body : List BodyLine} {old new : List String} (later : Rewrites body old new) :
    Rewrites (.noNewline :: body) old new
  | added {body : List BodyLine} {old new : List String} (text : String) (later : Rewrites body old new) :
    Rewrites (.added text :: body) old (text :: new)
  | context {body : List BodyLine} {old new : List String} {text found : String} (same : sameLine text found = true)
    (later : Rewrites body old new) : Rewrites (.context text :: body) (found :: old) (found :: new)
  | removed {body : List BodyLine} {old new : List String} {text found : String} (same : sameLine text found = true)
    (later : Rewrites body old new) : Rewrites (.removed text :: body) (found :: old) new

variable (length pos : Nat)

/-- A body that rewrites the old lines in front applies to them. -/
theorem Rewrites.applyBody {body : List BodyLine} {old new : List String} (h : Rewrites body old new)
    (later : List String) : applyBody length pos body (old ++ later) = .ok (new, later) := by
  induction h generalizing pos with
  | nil => rfl
  | noNewline _ ih => simp [Patch.applyBody, ih]
  | added text _ ih => exact bind_eq_ok_iff.2 ⟨_, ih pos, rfl⟩
  | context same _ ih =>
    rw [List.cons_append, Patch.applyBody, if_pos same]
    exact bind_eq_ok_iff.2 ⟨_, ih (pos + 1), rfl⟩
  | removed same _ ih => simp [Patch.applyBody, ih, same]

/-- A body applies where it rewrites the lines in front. -/
theorem applyBody_eq_ok_iff {body : List BodyLine} {rest new later : List String} :
    applyBody length pos body rest = .ok (new, later) ↔ ∃ old, rest = old ++ later ∧ Rewrites body old new := by
  constructor
  · intro h
    fun_induction applyBody length pos body rest generalizing new later with
    | case1 =>
      cases h
      exact ⟨[], rfl, .nil⟩
    | case2 pos body rest ih =>
      obtain ⟨old, rfl, hr⟩ := ih h
      exact ⟨old, rfl, .noNewline hr⟩
    | case3 pos text body rest ih =>
      obtain ⟨⟨new, later⟩, hb, h⟩ := bind_eq_ok_iff.1 h
      cases h
      obtain ⟨old, rfl, hr⟩ := ih hb
      exact ⟨old, rfl, .added text hr⟩
    | case4 => cases h
    | case5 => cases h
    | case6 pos text body found rest same ih =>
      obtain ⟨⟨new, later⟩, hb, h⟩ := bind_eq_ok_iff.1 h
      cases h
      obtain ⟨old, rfl, hr⟩ := ih hb
      exact ⟨found :: old, rfl, .context same hr⟩
    | case7 => cases h
    | case8 pos text body found rest same ih =>
      obtain ⟨old, rfl, hr⟩ := ih h
      exact ⟨found :: old, rfl, .removed same hr⟩
    | case9 => cases h
  · rintro ⟨old, rfl, hr⟩
    exact hr.applyBody length pos later

/-! ## Hunks -/

/-- After `pos` old lines, the hunks make the new lines of the lines in front, each at its place, and leave the rest
at the end. -/
inductive Splices : Nat → List Hunk → List String → List String → List String → Prop
  | done (pos : Nat) (rest : List String) : Splices pos [] rest [] rest
  | hunk {pos : Nat} {hunk : Hunk} {hunks : List Hunk} (gap : List String) {old new later newer tail : List String}
    (place : hunk.header.oldPosition = pos + gap.length) (body : Rewrites hunk.body old new)
    (others : Splices (pos + gap.length + old.length) hunks later newer tail) :
    Splices pos (hunk :: hunks) (gap ++ (old ++ later)) (gap ++ (new ++ newer)) tail

/-- Hunks that can be spliced in apply. -/
theorem Splices.applyHunks {hunks : List Hunk} {rest new tail : List String} (h : Splices pos hunks rest new tail)
    (hlen : length = pos + rest.length) : applyHunks length pos hunks rest = .ok (new, tail) := by
  induction h with
  | done => rfl
  | @hunk pos hunk hunks gap old new later newer tail place body others ih =>
    simp only [List.length_append] at hlen
    have hdrop : (gap ++ (old ++ later)).drop (pos + gap.length - pos) = old ++ later := by
      rw [Nat.add_sub_cancel_left, List.drop_left]
    have htake : (gap ++ (old ++ later)).take (pos + gap.length - pos) = gap := by
      rw [Nat.add_sub_cancel_left, List.take_left]
    have hend : length - later.length = pos + gap.length + old.length := by omega
    rw [Patch.applyHunks, if_neg (by omega), if_neg (by omega), place, hdrop, htake]
    refine bind_eq_ok_iff.2 ⟨_, body.applyBody length _ later, bind_eq_ok_iff.2 ⟨(newer, tail), ?_, ?_⟩⟩
    · rw [hend]
      exact ih (by omega)
    · rw [← List.append_assoc gap new newer]; rfl

/-- Hunks apply where they splice the lines. -/
theorem applyHunks_eq_ok_iff {hunks : List Hunk} {rest new tail : List String} (hlen : length = pos + rest.length) :
    applyHunks length pos hunks rest = .ok (new, tail) ↔ Splices pos hunks rest new tail := by
  refine ⟨fun h => ?_, fun h => h.applyHunks length pos hlen⟩
  induction hunks generalizing pos rest new with
  | nil =>
    cases h
    exact .done pos _
  | cons hunk hunks ih =>
    rw [applyHunks] at h
    split at h
    · cases h
    · split at h
      · cases h
      · rename_i hle hin
        obtain ⟨⟨body, later⟩, hb, h⟩ := bind_eq_ok_iff.1 h
        obtain ⟨⟨newer, tail'⟩, hs, h⟩ := bind_eq_ok_iff.1 h
        cases h
        obtain ⟨old, hdrop, hr⟩ := (applyBody_eq_ok_iff _ _).1 hb
        obtain ⟨gap, hgap⟩ : ∃ gap, gap = rest.take (hunk.header.oldPosition - pos) := ⟨_, rfl⟩
        have hrest : rest = gap ++ (old ++ later) := by rw [hgap, ← hdrop, List.take_append_drop]
        have hplace : hunk.header.oldPosition = pos + gap.length := by
          rw [hgap, List.length_take]; omega
        have hend : length - later.length = pos + gap.length + old.length := by
          rw [hlen, hrest]; simp only [List.length_append]; omega
        rw [hend] at hs
        rw [← hgap, List.append_assoc, hrest]
        refine .hunk gap hplace hr (ih _ ?_ hs)
        rw [hlen, hrest]; simp only [List.length_append]; omega

/-! ## Texts -/

/-- The new text of these lines ends in a newline. -/
def endsNew (before : String) (hunks : List Hunk) (new tail : List String) : Bool :=
  !(hunks.any fun hunk => leavesBareEnd false hunk.body) && !(new ++ tail).isEmpty
    && (endsLine before || before = "" || (!hunks.isEmpty && tail.isEmpty))

/-- A diff applies where its hunks splice the lines of the text. -/
theorem applyDiff_eq_ok_iff {before diff after : String} :
    applyDiff before diff = .ok after ↔ ∃ new tail, Splices 0 (Hunk.ofDiff diff) (lines before) new tail ∧
      after = joinLines (new ++ tail) ++ if endsNew before (Hunk.ofDiff diff) new tail then "\n" else "" := by
  have hend : ∀ new tail, (if endsNew before (Hunk.ofDiff diff) new tail then
      (pure (joinLines (new ++ tail) ++ "\n") : Except PatchError String) else pure (joinLines (new ++ tail)))
      = .ok (joinLines (new ++ tail) ++ if endsNew before (Hunk.ofDiff diff) new tail then "\n" else "") := by
    intro new tail
    split
    · rfl
    · rw [String.append_empty]; rfl
  constructor
  · intro h
    obtain ⟨⟨new, tail⟩, hs, h⟩ := bind_eq_ok_iff.1 h
    exact ⟨new, tail, (applyHunks_eq_ok_iff _ _ (by simp)).1 hs, Except.ok.inj (h.symm.trans (hend new tail))⟩
  · rintro ⟨new, tail, hs, rfl⟩
    exact bind_eq_ok_iff.2 ⟨(new, tail), hs.applyHunks _ _ (by simp), hend new tail⟩

end DiffSlice.Patch
