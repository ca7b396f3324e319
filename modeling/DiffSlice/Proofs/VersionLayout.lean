import DiffSlice.Proofs.StackLayout

/-!
# Versions hold a source in order

A version is sound if its stacks are laid out and all end at one place, and a lexeme that it is stuck at comes after
that place (`Version.Sound`). Versions are merged only at one place (`merge?_spec`), since places of one source are told
by their bytes.

Completing productions adds versions where one stands and moves none of the others (`reduceAllAt_spec`). Which versions
stand where is told by the list of their spots (`spots`); in the search for repairs, `completeAll` changes it only by
adding, replacing and removing versions at the spot that it starts from (`completeAll_placed`).
-/

namespace DiffSlice.JavaScript

variable {source : Cursor}

/-! ## Lists of stacks -/

namespace Stack

/-- One of the two stacks is chosen. -/
theorem choose_eq (a b : Stack) : choose a b = a ∨ choose a b = b := by
  unfold choose
  split
  · exact .inr rfl
  · split
    · exact .inl rfl
    · split
      · exact .inr rfl
      · exact .inl rfl

theorem unite_eq (a b : Stack) : unite a b = a ∨ unite a b = b := by
  unfold unite
  split
  · exact .inl rfl
  · exact choose_eq a b

section AddWith

variable {join : Stack → Stack → Stack} (hjoin : ∀ a b, join a b = a ∨ join a b = b)
include hjoin

/-- Adding a stack to others brings in no further one. -/
theorem mem_addWith {ts : List Stack} {s x : Stack} (h : x ∈ addWith join ts s) : x ∈ ts ∨ x = s := by
  induction ts with
  | nil => exact .inr (List.mem_singleton.1 h)
  | cons t ts ih =>
    rw [addWith] at h
    split at h
    · rcases List.mem_cons.1 h with rfl | h
      · rcases hjoin t s with heq | heq
        · rw [heq]
          exact .inl List.mem_cons_self
        · exact .inr heq
      · exact .inl (List.mem_cons_of_mem t h)
    · rcases List.mem_cons.1 h with rfl | h
      · exact .inl List.mem_cons_self
      · exact (ih h).imp_left (List.mem_cons_of_mem t)

/-- Stacks that are added with a choice between equals are all among those that there were. -/
theorem mem_foldl_addWith {ss ts : List Stack} {x : Stack} (h : x ∈ ss.foldl (addWith join) ts) :
    x ∈ ts ∨ x ∈ ss := by
  induction ss generalizing ts with
  | nil => exact .inl h
  | cons s ss ih =>
    rcases ih h with h | h
    · rcases mem_addWith hjoin h with h | rfl
      · exact .inl h
      · exact .inr List.mem_cons_self
    · exact .inr (List.mem_cons_of_mem s h)

end AddWith

end Stack

/-! ## Versions -/

namespace Version

/-- Where the version stands, and the lexeme that it is stuck at there. -/
def spot (v : Version) : Cursor × Option Lexeme :=
  (v.top.place, v.stuckAt)

/-- The stacks of the version are laid out and end at one place. -/
structure Sound (source : Cursor) (v : Version) : Prop where
  laid : ∀ s ∈ v.allStacks, Laid source s.frames
  together : ∀ s ∈ v.allStacks, s.top.place = v.top.place
  stuck : ∀ l, v.stuckAt = some l → l.After v.top.place

def AllSound (source : Cursor) (vs : List Version) : Prop :=
  ∀ v ∈ vs, v.Sound source

def spots (vs : List Version) : List (Cursor × Option Lexeme) :=
  vs.map spot

theorem Sound.source_le {v : Version} (h : v.Sound source) : source ≤ v.top.place :=
  (h.laid v.stack List.mem_cons_self).source_le

/-- A version whose stacks all end at a place is sound and stands there. -/
theorem sound_of_allStacks {v : Version} {c : Cursor}
    (h : ∀ s ∈ v.allStacks, Laid source s.frames ∧ s.top.place = c) (hstuck : ∀ l, v.stuckAt = some l → l.After c) :
    v.Sound source ∧ v.spot = (c, v.stuckAt) := by
  obtain rfl : v.top.place = c := (h v.stack List.mem_cons_self).2
  exact ⟨⟨fun s hs => (h s hs).1, fun s hs => (h s hs).2, hstuck⟩, rfl⟩

/-- Versions that can be merged stand at the same place. -/
theorem place_eq_of_canMerge {a b : Version} (h : a.canMerge b = true) (ha : a.Sound source) (hb : b.Sound source) :
    b.top.place = a.top.place := by
  simp only [canMerge, Frame.same, Bool.and_eq_true, beq_iff_eq] at h
  exact Cursor.eq_of_offset_eq hb.source_le ha.source_le h.1.2.1.symm

/-- Versions that are merged are sound together and stand where the first one stood. -/
theorem merge?_spec {a b m : Version} (h : a.merge? b = some m) (ha : a.Sound source) (hb : b.Sound source) :
    m.Sound source ∧ m.spot = a.spot := by
  unfold merge? at h
  split at h
  · rename_i hmerge
    have hplace := place_eq_of_canMerge hmerge ha hb
    split at h
    · rename_i stack others hstacks
      cases h
      refine sound_of_allStacks (fun s hs => ?_) ha.stuck
      replace hs : s ∈ stack :: others := hs
      rw [← hstacks] at hs
      rcases Stack.mem_foldl_addWith Stack.unite_eq hs with hs | hs
      · exact ⟨ha.laid s hs, ha.together s hs⟩
      · exact ⟨hb.laid s hs, (hb.together s hs).trans hplace⟩
    · cases h
  · cases h

/-- Merging a version into others moves none of them. -/
theorem mergeInto?_spec {v : Version} {us us' : List Version} (h : v.mergeInto? us = some us') (hv : v.Sound source)
    (hus : AllSound source us) : AllSound source us' ∧ spots us' = spots us := by
  induction us generalizing us' with
  | nil => cases h
  | cons u us ih =>
    obtain ⟨hu, hus⟩ := List.forall_mem_cons.1 hus
    rw [mergeInto?] at h
    split at h
    · rename_i merged hmerged
      cases h
      obtain ⟨hsound, hspot⟩ := merge?_spec hmerged hu hv
      exact ⟨List.forall_mem_cons.2 ⟨hsound, hus⟩, congrArg (· :: spots us) hspot⟩
    · obtain ⟨us'', h', rfl⟩ := Option.map_eq_some_iff.1 h
      obtain ⟨hsound, hspots⟩ := ih h' hus
      exact ⟨List.forall_mem_cons.2 ⟨hu, hsound⟩, congrArg (u.spot :: ·) hspots⟩

theorem getElem?_spots {vs : List Version} {i : Nat} {v : Version} (h : vs[i]? = some v) :
    (spots vs)[i]? = some v.spot := by
  rw [spots, List.getElem?_map, h, Option.map_some]

theorem spots_append (us vs : List Version) : spots (us ++ vs) = spots us ++ spots vs :=
  List.map_append

theorem spots_eraseIdx (vs : List Version) (i : Nat) : spots (vs.eraseIdx i) = (spots vs).eraseIdx i := by
  simp only [spots, List.eraseIdx_eq_take_drop_succ, List.map_append, List.map_take, List.map_drop]

theorem AllSound.append {us vs : List Version} (hu : AllSound source us) (hv : AllSound source vs) :
    AllSound source (us ++ vs) :=
  fun v h => (List.mem_append.1 h).elim (hu v) (hv v)

theorem AllSound.sublist {us vs : List Version} (h : AllSound source vs) (hsub : us.Sublist vs) : AllSound source us :=
  fun v hv => h v (hsub.mem hv)

theorem mergeExcept?_spec {v : Version} {i : Nat} {us us' : List Version} (h : v.mergeExcept? i us = some us')
    (hv : v.Sound source) (hus : AllSound source us) : AllSound source us' ∧ spots us' = spots us := by
  unfold mergeExcept? at h
  split at h
  · rename_i before hbefore
    cases h
    obtain ⟨hsound, hspots⟩ := mergeInto?_spec hbefore hv (hus.sublist (List.take_sublist i us))
    refine ⟨hsound.append (hus.sublist (List.drop_sublist i us)), ?_⟩
    rw [spots_append, hspots, ← spots_append, List.take_append_drop]
  · obtain ⟨after, hafter, rfl⟩ := Option.map_eq_some_iff.1 h
    obtain ⟨hsound, hspots⟩ := mergeInto?_spec hafter hv (hus.sublist (List.drop_sublist (i + 1) us))
    refine ⟨(hus.sublist (List.take_sublist (i + 1) us)).append hsound, ?_⟩
    rw [spots_append, hspots, ← spots_append, List.take_append_drop]

/-! ## Completing productions -/

/-- What comes of versions when some are added at the spot `q`: the others stay where they were, and an index that is
given is one of those added. -/
structure Grown (source : Cursor) (q : Cursor × Option Lexeme) (vs : List Version) (r : List Version × Option Nat) :
    Prop where
  sound : AllSound source r.1
  spots_eq : ∃ n, spots r.1 = spots vs ++ List.replicate n q
  le_added : ∀ k, r.2 = some k → vs.length ≤ k

namespace Grown

variable {q : Cursor × Option Lexeme} {vs : List Version}

theorem length_le {r : List Version × Option Nat} (h : Grown source q vs r) : vs.length ≤ r.1.length := by
  obtain ⟨n, hn⟩ := h.spots_eq
  have hlength := congrArg List.length hn
  simp only [spots, List.length_append, List.length_map, List.length_replicate] at hlength
  omega

theorem refl (h : AllSound source vs) : Grown source q vs (vs, none) :=
  ⟨h, ⟨0, by simp⟩, by simp⟩

theorem getElem?_eq {r : List Version × Option Nat} (h : Grown source q vs r) {i : Nat} (hq : (spots vs)[i]? = some q) :
    (spots r.1)[i]? = some q := by
  obtain ⟨n, hn⟩ := h.spots_eq
  rw [hn, List.getElem?_append_left (List.getElem?_eq_some_iff.1 hq).1, hq]

/-- More versions are added at the same spot. -/
theorem trans {r r' : List Version × Option Nat} (h : Grown source q vs r) (h' : Grown source q r.1 r') :
    Grown source q vs (r'.1, r'.2.or r.2) := by
  obtain ⟨n, hn⟩ := h.spots_eq
  obtain ⟨n', hn'⟩ := h'.spots_eq
  refine ⟨h'.sound, ⟨n + n', ?_⟩, fun k hk => ?_⟩
  · rw [hn', hn, List.append_assoc, List.replicate_append_replicate]
  · rcases Option.or_eq_some_iff.1 hk with hk | ⟨-, hk⟩
    · exact Nat.le_trans h.length_le (h'.le_added k hk)
    · exact h.le_added k hk

end Grown

section Reductions

variable {q : Cursor × Option Lexeme} {vs : List Version} {i : Nat}

/-- Completing a production only adds versions at the spot of the one that it is completed in. -/
theorem reduceAt_spec (p : Production) (hvs : AllSound source vs) (hq : (spots vs)[i]? = some q) :
    Grown source q vs (reduceAt p i vs) := by
  rw [spots, List.getElem?_map] at hq
  obtain ⟨v, hv, rfl⟩ := Option.map_eq_some_iff.1 hq
  have hsound := hvs v (List.mem_of_getElem? hv)
  unfold reduceAt
  rw [hv]
  dsimp only
  refine List.foldlRecOn (motive := Grown source v.spot vs) _ _ (.refl hvs) ?_
  rintro ⟨us, added⟩ hus stack hstack
  -- the stack comes of one of the version's and ends at the same place
  obtain ⟨s, hs, hreduce⟩ : ∃ s ∈ v.allStacks, s.reduce? p = some stack := by
    rcases Stack.mem_foldl_addWith Stack.choose_eq hstack with h | h
    · cases h
    · exact List.mem_filterMap.1 h
  obtain ⟨hlaid, hplace⟩ := Stack.reduce?_laid hreduce (hsound.laid s hs)
  rw [hsound.together s hs] at hplace
  obtain ⟨hw, hspot⟩ : ({ v with stack, others := [] } : Version).Sound source ∧
      ({ v with stack, others := [] } : Version).spot = v.spot :=
    sound_of_allStacks (by simpa [allStacks] using ⟨hlaid, hplace⟩) hsound.stuck
  obtain ⟨n, hn⟩ := hus.spots_eq
  dsimp only
  split
  · rename_i us' hmerged
    obtain ⟨hsound', hspots⟩ := mergeExcept?_spec hmerged hw hus.sound
    exact ⟨hsound', ⟨n, hspots.trans hn⟩, hus.le_added⟩
  · split
    · refine ⟨hus.sound.append (by simpa [AllSound] using hw), ⟨n + 1, ?_⟩, fun k hk => ?_⟩
      · rw [spots_append, hn, List.append_assoc, List.replicate_succ']
        simp [spots, hspot]
      · rcases Option.or_eq_some_iff.1 hk with hk | ⟨-, hk⟩
        · exact hus.le_added k hk
        · cases hk
          exact hus.length_le
    · exact hus

theorem reduceAllAt_spec (ps : List Production) (hvs : AllSound source vs) (hq : (spots vs)[i]? = some q) :
    Grown source q vs (reduceAllAt ps i vs) := by
  unfold reduceAllAt
  refine List.foldlRecOn (motive := Grown source q vs) _ _ (.refl hvs) ?_
  rintro ⟨us, added⟩ hus p -
  exact hus.trans (reduceAt_spec p hus.sound (hus.getElem?_eq hq))

/-- Putting a version in the place of another one keeps all of them sound. -/
theorem promote_sound (k i : Nat) (h : AllSound source vs) : AllSound source (promote k i vs) := by
  unfold promote
  split
  · rename_i v hv
    intro u hu
    rcases List.mem_or_eq_of_mem_set ((List.eraseIdx_sublist _ k).mem hu) with hu | rfl
    · exact h u hu
    · exact h u (List.mem_of_getElem? hv)
  · exact h

theorem spots_promote (k i : Nat) (vs : List Version) :
    spots (promote k i vs) = ((spots vs)[k]?.elim (spots vs) fun x => ((spots vs).set i x).eraseIdx k) := by
  unfold promote
  have hspot : (spots vs)[k]? = vs[k]?.map spot := List.getElem?_map
  rw [hspot]
  split
  · rename_i v hv
    rw [hv, Option.map_some, Option.elim_some, spots_eraseIdx, spots, List.map_set, spots]
  · rename_i hv
    rw [hv]
    rfl

/-- A version that is merged into others leaves its index. -/
theorem spots_merged {base : Nat} (hbase : base ≤ i) {merged : List Version}
    (h : spots merged = spots ((vs.take i).drop base)) :
    spots (vs.take base ++ merged ++ vs.drop (i + 1)) = (spots vs).eraseIdx i := by
  have htake : vs.take base ++ (vs.take i).drop base = vs.take i := by
    have hsplit := List.take_append_drop base (vs.take i)
    rwa [List.take_take, Nat.min_eq_left hbase] at hsplit
  rw [spots_append, spots_append, h, ← spots_append, htake, ← spots_append, ← List.eraseIdx_eq_take_drop_succ,
    spots_eraseIdx]

end Reductions

/-! ## Completing whatever can be completed -/

section Complete

/-- Each of the spots is `q` or, before the index `base`, as in `ps`. -/
def KeptBelow (base : Nat) (q : Cursor × Option Lexeme) (ps xs : List (Cursor × Option Lexeme)) : Prop :=
  ∀ j x, xs[j]? = some x → x = q ∨ j < base ∧ ps[j]? = some x

namespace KeptBelow

variable {base : Nat} {q : Cursor × Option Lexeme} {ps xs : List (Cursor × Option Lexeme)}

theorem eq_of_getElem? (h : KeptBelow base q ps xs) {j : Nat} {x : Cursor × Option Lexeme}
    (hj : (∀ x, ps[j]? = some x → x = q) ∨ base ≤ j) (hx : xs[j]? = some x) : x = q := by
  rcases h j x hx with hq | ⟨hlt, hps⟩
  · exact hq
  · exact (hj.resolve_right (by omega)) x hps

theorem append_replicate (h : KeptBelow base q ps xs) (n : Nat) : KeptBelow base q ps (xs ++ List.replicate n q) := by
  intro j x hx
  rw [List.getElem?_append] at hx
  split at hx
  · exact h j x hx
  · rw [List.getElem?_replicate] at hx
    split at hx
    · exact .inl (Option.some.inj hx).symm
    · cases hx

theorem set (h : KeptBelow base q ps xs) (i : Nat) : KeptBelow base q ps (xs.set i q) := by
  intro j x hx
  rw [List.getElem?_set] at hx
  split at hx
  · split at hx
    · exact .inl (Option.some.inj hx).symm
    · cases hx
  · exact h j x hx

/-- What moves up when a spot is removed comes from behind `base`, where all is `q`. -/
theorem eraseIdx (h : KeptBelow base q ps xs) {i : Nat} (hi : base ≤ i + 1) : KeptBelow base q ps (xs.eraseIdx i) := by
  intro j x hx
  rw [List.getElem?_eraseIdx] at hx
  split at hx
  · exact h j x hx
  · rcases h (j + 1) x hx with hq | ⟨hj, -⟩
    · exact .inl hq
    · omega

end KeptBelow

/-- The versions are sound, and each stands at the spot `q` or, before the index `base`, at one of `ps`. -/
structure Placed (source : Cursor) (base : Nat) (q : Cursor × Option Lexeme) (ps : List (Cursor × Option Lexeme))
    (vs : List Version) : Prop where
  sound : AllSound source vs
  kept : KeptBelow base q ps (spots vs)

variable {base : Nat} {q : Cursor × Option Lexeme} {ps : List (Cursor × Option Lexeme)} {vs : List Version}

namespace Placed

theorem self (h : AllSound source vs) (hbase : vs.length ≤ base) : Placed source base q (spots vs) vs := by
  refine ⟨h, fun j x hx => .inr ⟨?_, hx⟩⟩
  have hlt : j < vs.length := by simpa [spots] using (List.getElem?_eq_some_iff.1 hx).1
  omega

theorem spot_eq (h : Placed source base q ps vs) {j : Nat} {v : Version}
    (hj : (∀ x, ps[j]? = some x → x = q) ∨ base ≤ j) (hv : vs[j]? = some v) : v.spot = q :=
  h.kept.eq_of_getElem? hj (getElem?_spots hv)

theorem eraseIdx (h : Placed source base q ps vs) {i : Nat} (hi : base ≤ i + 1) :
    Placed source base q ps (vs.eraseIdx i) := by
  refine ⟨h.sound.sublist (List.eraseIdx_sublist _ i), ?_⟩
  rw [spots_eraseIdx]
  exact h.kept.eraseIdx hi

/-- A version behind `base` is merged into others there. -/
theorem merged (h : Placed source base q ps vs) {i : Nat} {v : Version} {us : List Version} (hv : vs[i]? = some v)
    (hbase : base ≤ i) (hus : v.mergeInto? ((vs.take i).drop base) = some us) :
    Placed source base q ps (vs.take base ++ us ++ vs.drop (i + 1)) := by
  have hbetween : AllSound source ((vs.take i).drop base) :=
    h.sound.sublist ((List.drop_sublist base _).trans (List.take_sublist i vs))
  obtain ⟨hus, hspots⟩ := mergeInto?_spec hus (h.sound v (List.mem_of_getElem? hv)) hbetween
  refine ⟨?_, ?_⟩
  · exact ((h.sound.sublist (List.take_sublist base vs)).append hus).append
      (h.sound.sublist (List.drop_sublist (i + 1) vs))
  · rw [spots_merged hbase hspots]
    exact h.kept.eraseIdx (by omega)

variable {r : List Version × Option Nat}

/-- Versions that are added at the spot are placed. -/
theorem grown (h : Placed source base q ps vs) (hr : Grown source q vs r) : Placed source base q ps r.1 := by
  obtain ⟨n, hn⟩ := hr.spots_eq
  refine ⟨hr.sound, ?_⟩
  rw [hn]
  exact h.kept.append_replicate n

/-- A version that was added takes the place of another. -/
theorem promote (h : Placed source base q ps vs) (hr : Grown source q vs r) {k : Nat} (hk : r.2 = some k)
    (hbase : base ≤ vs.length) (i : Nat) :
    Placed source base q ps (promote k i r.1) ∧ base ≤ (Version.promote k i r.1).length := by
  obtain ⟨n, hn⟩ := hr.spots_eq
  have hadded := hr.le_added k hk
  have hgrown := (h.grown hr).kept
  have hlength : (Version.promote k i r.1).length = (spots (Version.promote k i r.1)).length := by simp [spots]
  have hr1 : (spots r.1).length = vs.length + n := by rw [hn]; simp [spots]
  suffices hkept : KeptBelow base q ps (spots (Version.promote k i r.1)) ∧
      base ≤ (spots (Version.promote k i r.1)).length from
    ⟨⟨promote_sound k i hr.sound, hkept.1⟩, hlength ▸ hkept.2⟩
  rw [spots_promote]
  cases hx : (spots r.1)[k]? with
  | none => exact ⟨hgrown, by rw [Option.elim_none]; omega⟩
  | some x =>
    have hk' := (List.getElem?_eq_some_iff.1 hx).1
    have hxq : x = q := hgrown.eq_of_getElem? (.inr (by omega)) hx
    rw [Option.elim_some, hxq]
    refine ⟨(hgrown.set i).eraseIdx (by omega), ?_⟩
    rw [List.length_eraseIdx_of_lt (by simpa using hk'), List.length_set]
    omega

end Placed

/-- Completing all that can be completed from the version at `start` on, where others are added from `base` on: what
is added, replaced or removed stands where that version stands. -/
theorem completeAll_placed (token : Option Token) {start : Nat} (hstart : start < base)
    (htoken : token.isSome = true → base = start + 1) (hq : ∀ x, ps[start]? = some x → x = q)
    (fuel turn i : Nat) (vs : List Version) (reads : Bool) (h : Placed source base q ps vs)
    (hi : i = start ∧ base ≤ vs.length ∨ base ≤ i) :
    Placed source base q ps (completeAll token start base fuel turn i vs reads).1 := by
  induction fuel generalizing turn i vs reads with
  | zero => exact h
  | succ fuel ih =>
    rw [completeAll]
    split
    · exact h
    · rename_i v hv
      have hlength : i < vs.length := (List.getElem?_eq_some_iff.1 hv).1
      split
      · rename_i merged hmerged
        -- there is nothing between `base` and `start` to merge into
        have hbase : base ≤ i := by
          rcases hi with ⟨rfl, -⟩ | hi
          · have hnone : (vs.take i).drop base = [] := by
              rw [List.drop_eq_nil_iff, List.length_take]
              omega
            rw [hnone] at hmerged
            cases hmerged
          · exact hi
        exact ih _ _ _ _ (h.merged hv hbase hmerged) (.inr hbase)
      · have hbase : base ≤ vs.length := by omega
        split
        · exact h
        · rename_i state hstate
          dsimp only
          have hspot : (spots vs)[i]? = some q := by
            rw [getElem?_spots hv, h.spot_eq (hi.imp_left fun h => h.1 ▸ hq) hv]
          have hgrown := reduceAllAt_spec (state.prospects (token.elim state.tokensAhead ([·]))).1 h.sound hspot
          generalize reduceAllAt (state.prospects (token.elim state.tokensAhead ([·]))).1 i vs = r at hgrown ⊢
          have hplaced := h.grown hgrown
          have hnext : base ≤ if (i == start) = true then vs.length else i + 1 := by
            split
            · exact hbase
            · rename_i hne
              have hne' : i ≠ start := by simpa using hne
              omega
          split
          · exact ih _ _ _ _ hplaced (.inr hnext)
          · split
            · rename_i k hk
              have hadded : r.2 = some k := by
                split at hk
                · exact hk
                · cases hk
              obtain ⟨hpromoted, hlength'⟩ := h.promote hgrown hadded hbase i
              exact ih _ _ _ _ hpromoted (hi.imp_left fun h => ⟨h.1, hlength'⟩)
            · refine ih _ _ _ _ ?_ (.inr hnext)
              split
              · rename_i hsome
                have hone := htoken hsome
                exact hplaced.eraseIdx (by omega)
              · exact hplaced

end Complete

end Version

end DiffSlice.JavaScript
