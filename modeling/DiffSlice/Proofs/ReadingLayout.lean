import DiffSlice.JavaScript.Parser
import DiffSlice.Proofs.VersionLayout

/-!
# Derivations hold a source in order

All versions of a reading stay sound, whatever lexeme one of them reads (`readLexeme_sound`), and however it is
repaired (`recover_sound`, `repair_sound`). So the derivation of a source, also of one that had to be repaired, has all
its parts in the order of the source, one within the other (`derive?_ordered`).
-/

namespace DiffSlice.JavaScript

variable {source : Cursor}

namespace Version

/-! ## Changing versions -/

/-- A version stays sound if all its stacks are led to one place and stay laid out. -/
theorem Sound.mapStacks {v : Version} {c : Cursor} {f : Stack → Stack} (h : v.Sound source) (hnone : v.stuckAt = none)
    (hf : ∀ s, Laid source s.frames → s.top.place = v.top.place → Laid source (f s).frames ∧ (f s).top.place = c) :
    (v.mapStacks f).Sound source ∧ (v.mapStacks f).spot = (c, none) := by
  have hstuck : (v.mapStacks f).stuckAt = none := hnone
  rw [← hstuck]
  refine sound_of_allStacks (fun s hs => ?_) (by simp [hstuck])
  obtain ⟨t, ht, rfl⟩ : ∃ t ∈ v.allStacks, f t = s := List.mem_map.1 hs
  exact hf t (h.laid t ht) (h.together t ht)

/-- A lexeme after the place of a version is read. -/
theorem Sound.read {v : Version} {l : Lexeme} (h : v.Sound source) (hnone : v.stuckAt = none)
    (hl : l.After v.top.place) (state : Option State) :
    (v.mapStacks fun s => s.push state (.ofLexeme l)).Sound source := by
  refine (h.mapStacks (c := l.stop) hnone fun s hs hplace => ⟨hs.push ?_ hl.ordered state, rfl⟩).1
  rw [hplace]
  exact hl.le_start

theorem AllSound.modify {vs : List Version} {i : Nat} {f : Version → Version} (h : AllSound source vs)
    (hf : ∀ v, vs[i]? = some v → v.Sound source → (f v).Sound source) : AllSound source (vs.modify i f) := by
  intro u hu
  obtain ⟨j, hj⟩ := List.mem_iff_getElem?.1 hu
  rw [List.getElem?_modify] at hj
  obtain ⟨v, hv, rfl⟩ := Option.map_eq_some_iff.1 hj
  have hsound := h v (List.mem_of_getElem? hv)
  split
  · rename_i heq
    subst heq
    exact hf v hv hsound
  · exact hsound

theorem spots_modify {vs : List Version} {i : Nat} {f : Version → Version}
    (hf : ∀ v, vs[i]? = some v → (f v).spot = v.spot) : spots (vs.modify i f) = spots vs := by
  apply List.ext_getElem?
  intro j
  rw [spots, spots, List.getElem?_map, List.getElem?_map, List.getElem?_modify]
  cases hv : vs[j]? with
  | none => rfl
  | some v =>
    simp only [Option.map_some, Option.map_eq_map]
    split
    · rename_i heq
      subst heq
      rw [hf v hv]
    · rfl

/-- The version at an index is not stuck, and the lexeme comes after its place. -/
def Awaits (vs : List Version) (i : Nat) (l : Lexeme) : Prop :=
  ∀ v, vs[i]? = some v → v.stuckAt = none ∧ l.After v.top.place

theorem awaits_of_spot {vs : List Version} {i : Nat} {l : Lexeme} {c : Cursor}
    (h : ∀ x, (spots vs)[i]? = some x → x = (c, none)) (hl : l.After c) : Awaits vs i l := by
  intro v hv
  obtain ⟨rfl, hnone⟩ := Prod.mk.inj (h _ (getElem?_spots hv))
  exact ⟨hnone, hl⟩

/-- What replaces a version is one that was added where it stood. -/
theorem Grown.promote {vs : List Version} {r : List Version × Option Nat} {q : Cursor × Option Lexeme} {i k : Nat}
    (h : Grown source q vs r) (hk : r.2 = some k) (hq : (spots vs)[i]? = some q) :
    (spots (promote k i r.1))[i]? = some q := by
  have hi : i < vs.length := by simpa [spots] using (List.getElem?_eq_some_iff.1 hq).1
  have hadded := h.le_added k hk
  have hat := h.getElem?_eq hq
  rw [spots_promote]
  cases hx : (spots r.1)[k]? with
  | none => exact hat
  | some x =>
    have hxq : x = q := by
      obtain ⟨n, hn⟩ := h.spots_eq
      rw [hn, List.getElem?_append_right (by simpa [spots] using hadded), List.getElem?_replicate] at hx
      split at hx
      · exact (Option.some.inj hx).symm
      · cases hx
    rw [Option.elim_some, List.getElem?_eraseIdx_of_lt (by omega),
      List.getElem?_set_self (List.getElem?_eq_some_iff.1 hat).1, hxq]

end Version

open Version

namespace Reading

/-- All versions are sound, and the parts of a derivation of the whole source are in order. -/
structure Sound (source : Cursor) (r : Reading) : Prop where
  versions : AllSound source r.versions
  finished : ∀ d, r.finished = some d → d.Ordered

/-! ## Reading on -/

section

variable {r : Reading} {i : Nat} {l : Lexeme}

theorem Sound.modify {f : Version → Version} (h : r.Sound source)
    (hf : ∀ v, r.versions[i]? = some v → v.Sound source → (f v).Sound source) : (r.modify i f).Sound source :=
  ⟨h.versions.modify hf, h.finished⟩

theorem Sound.close (h : r.Sound source) : (r.modify i fun v => { v with isOver := true }).Sound source :=
  h.modify fun _ _ hv => ⟨hv.laid, hv.together, hv.stuck⟩

/-- A lexeme that a version awaits can be put on all its stacks. -/
theorem Sound.push (h : r.Sound source) (hl : Awaits r.versions i l) (state : Option State) :
    (r.modify i (·.mapStacks fun s => s.push state (.ofLexeme l))).Sound source :=
  h.modify fun v hv hsound => hsound.read (hl v hv).1 (hl v hv).2 state

/-- What a version has read when it ends is in order. -/
theorem finish_sound (h : r.Sound source) (label : Label) : (r.finish i label).Sound source := by
  unfold finish
  split
  · exact h
  · rename_i v hv
    have hsound := h.versions v (List.mem_of_getElem? hv)
    refine Sound.close ⟨h.versions, ?_⟩
    refine List.foldlRecOn (motive := fun found : Option Derivation => ∀ d, found = some d → d.Ordered) _ _
      h.finished ?_
    intro found hfound s hs
    have hroot : (Derivation.ofParts label 0 false s.top.place s.parts).Ordered :=
      (Derivation.ofParts_inOrder label 0 false (Stack.inOrder_parts (hsound.laid s hs))
        fun _ => ⟨(hsound.laid s hs).source_le, le_rfl⟩).2.1
    rintro d hd
    dsimp only at hd
    split at hd
    · split at hd
      · cases hd
        exact hroot
      · exact hfound d hd
    · cases hd
      exact hroot

theorem asName?_after {state : State} {name : Lexeme} {c : Cursor} (h : asName? state l = some name) (hl : l.After c) :
    name.After c := by
  unfold asName? at h
  split at h
  · cases h
    exact ⟨hl.le_start, hl.start_le⟩
  · cases h

/-- Taking a version over a lexeme keeps a reading sound. -/
theorem readLexeme_sound (fuel : Nat) (h : r.Sound source) (hl : Awaits r.versions i l) :
    (readLexeme i fuel l r).Sound source := by
  induction fuel generalizing l r with
  | zero => exact h.close
  | succ fuel ih =>
    rw [readLexeme]
    split
    · exact h
    · rename_i state hstate
      obtain ⟨v, hv, -⟩ := Option.bind_eq_some_iff.1 hstate
      obtain ⟨hnone, hafter⟩ := hl v hv
      have hspot : (spots r.versions)[i]? = some (v.top.place, none) := by
        rw [getElem?_spots hv, spot, hnone]
      split
      · exact h.push hl (some state)
      · dsimp only
        split
        · exact finish_sound h _
        · have hgrown := reduceAllAt_spec (state.decision l.token).completed h.versions hspot
          generalize reduceAllAt (state.decision l.token).completed i r.versions = added at hgrown ⊢
          have hr' : ({ r with versions := added.1 } : Reading).Sound source := ⟨hgrown.sound, h.finished⟩
          split
          · refine hr'.push (awaits_of_spot (fun x hx => ?_) hafter) _
            rw [hgrown.getElem?_eq hspot] at hx
            exact (Option.some.inj hx).symm
          · rename_i k _ hk
            refine ih ⟨promote_sound k i hgrown.sound, h.finished⟩ (awaits_of_spot (fun x hx => ?_) hafter)
            rw [hgrown.promote hk hspot] at hx
            exact (Option.some.inj hx).symm
          · split
            · exact hr'.close
            · split
              · rename_i name hname
                exact ih h fun u hu => ⟨(hl u hu).1, asName?_after hname (hl u hu).2⟩
              · refine h.modify fun u hu hsound => ⟨hsound.laid, hsound.together, ?_⟩
                rintro _ ⟨⟩
                exact (hl u hu).2

/-! ## Repairs -/

theorem mem_foldl_addNew {ss ts : List Stack} {x : Stack}
    (h : x ∈ ss.foldl (fun found s => if found.any (·.same s) then found else found ++ [s]) ts) : x ∈ ts ∨ x ∈ ss := by
  induction ss generalizing ts with
  | nil => exact .inl h
  | cons s ss ih =>
    rcases ih h with h | h
    · dsimp only at h
      split at h
      · exact .inl h
      · rcases List.mem_append.1 h with h | h
        · exact .inl h
        · exact .inr (List.mem_cons.2 (.inl (List.mem_singleton.1 h)))
    · exact .inr (List.mem_cons_of_mem s h)

/-- Going back leads to sound versions. -/
theorem retreatAll_sound {v : Version} (h : v.Sound source) (depth : Nat) (goal : State) :
    AllSound source (v.retreatAll depth goal) := by
  intro u hu
  obtain ⟨stack, hstack, rfl⟩ := List.mem_map.1 hu
  rcases mem_foldl_addNew hstack with hstack | hstack
  · cases hstack
  · obtain ⟨s, hs, hretreat⟩ := List.mem_filterMap.1 hstack
    have hlaid := retreatTo?_laid hretreat (h.laid s hs)
    exact (sound_of_allStacks (c := stack.top.place) (by simpa [allStacks] using hlaid) (by simp)).1

theorem retreat?_sound {v : Version} {ways : List Retreat} {found : List Version}
    (hfound : r.retreat? i v l ways = some found) (h : v.Sound source) : AllSound source found := by
  induction ways with
  | nil => cases hfound
  | cons way ways ih =>
    rw [retreat?] at hfound
    split at hfound
    · exact ih hfound
    · split at hfound
      · cases hfound
      · split at hfound
        · split at hfound
          · exact ih hfound
          · cases hfound
            exact retreatAll_sound h _ _
        · exact ih hfound

/-- Taking a lost version over a lexeme keeps a reading sound. -/
theorem recover_sound (h : r.Sound source) (hl : Awaits r.versions i l) : (r.recover i l).Sound source := by
  unfold recover
  split
  · exact h
  · rename_i v hv
    have hsound := h.versions v (List.mem_of_getElem? hv)
    dsimp only
    generalize hway : (if (l.token == .stray) = true then none else r.retreat? i v l v.retreats) = found
    have hfound : AllSound source (found.getD []) := by
      cases found with
      | none => exact fun u hu => nomatch hu
      | some found =>
        split at hway
        · cases hway
        · exact retreat?_sound hway hsound
    have hr' : ({ r with versions := r.versions ++ found.getD [] } : Reading).Sound source :=
      ⟨h.versions.append hfound, h.finished⟩
    split
    · exact finish_sound hr' _
    · split
      · exact hr'.close
      · refine hr'.modify fun u hu hsound => ?_
        rw [List.getElem?_append_left (List.getElem?_eq_some_iff.1 hv).1] at hu
        obtain ⟨hnone, hafter⟩ := hl u hu
        exact (hsound.mapStacks (c := l.stop) hnone fun s hs hplace => passOver_laid hs (hplace ▸ hafter) _).1

/-! ## Missing tokens -/

section Missing

variable {base : Nat} {c : Cursor} {ps : List (Cursor × Option Lexeme)} {vs : List Version}

/-- A missing token takes no room, so the versions that it leads to stand at the same place. -/
theorem insertMissing?_placed {v : Version} (hv : v.Sound source) (hspot : v.spot = (c, none)) (fuel : Nat)
    (tokens : List Token) (h : Placed source base (c, none) ps vs) :
    Placed source base (c, none) ps (insertMissing? v l fuel vs tokens).1 := by
  obtain ⟨rfl, hnone⟩ := Prod.mk.inj hspot
  induction tokens generalizing vs with
  | nil => exact h
  | cons t tokens ih =>
    rw [insertMissing?]
    dsimp only
    split
    · exact ih h
    · rename_i next _
      -- the missing token takes up nothing, so the new version stands where the old one does
      obtain ⟨hw, hwspot⟩ := hv.mapStacks (c := v.top.place)
        (f := fun s => s.push (some next) (.ofMissing t s.top.place)) hnone fun s hs hplace =>
          ⟨hs.push (d := .ofMissing t s.top.place) le_rfl (.nil le_rfl) _, hplace⟩
      generalize v.mapStacks (fun s => s.push (some next) (.ofMissing t s.top.place)) = w at hw hwspot ⊢
      have hall : AllSound source (vs ++ [w]) := h.sound.append (List.forall_mem_singleton.2 hw)
      have hlength : (spots vs).length = vs.length := List.length_map _
      have hlast : ∀ x, (spots (vs ++ [w]))[vs.length]? = some x → x = (v.top.place, none) := by
        intro x hx
        rw [spots_append, ← hlength, List.getElem?_append_right (Nat.le_refl _), Nat.sub_self] at hx
        exact (Option.some.inj hx).symm.trans hwspot
      have hadded := completeAll_placed (if (l.token == .endOfText) = true then none else some l.token)
        (Nat.lt_succ_self vs.length) (fun _ => rfl) hlast fuel 0 vs.length (vs ++ [w]) false
        (.self hall (by simp)) (.inl ⟨rfl, by simp⟩)
      generalize completeAll (if (l.token == .endOfText) = true then none else some l.token) vs.length (vs.length + 1)
        fuel 0 vs.length (vs ++ [w]) false = completed at hadded ⊢
      have hplaced : Placed source base (v.top.place, none) ps completed.1 := by
        refine ⟨hadded.sound, fun j x hx => ?_⟩
        rcases hadded.kept j x hx with hq | ⟨hj, hx⟩
        · exact .inl hq
        · by_cases hlt : j < vs.length
          · rw [spots_append, List.getElem?_append_left (by omega)] at hx
            exact h.kept j x hx
          · obtain rfl : j = vs.length := by omega
            exact .inl (hlast x hx)
      split
      · exact hplaced
      · exact ih hplaced

/-- Losing the state of a version leaves it where it is. -/
theorem lose_placed {j : Nat} (h : Placed source base (c, none) ps vs)
    (hj : (∀ x, ps[j]? = some x → x = (c, none)) ∨ base ≤ j) :
    Placed source base (c, none) ps (vs.modify j fun v => { v.mapStacks (·.lose) with mark := v.top.count }) := by
  have hlose : ∀ v, vs[j]? = some v →
      (v.mapStacks (·.lose)).Sound source ∧ (v.mapStacks (·.lose)).spot = v.spot := by
    intro v hv
    have hspot := h.spot_eq hj hv
    obtain ⟨rfl, hnone⟩ := Prod.mk.inj hspot
    rw [hspot]
    exact (h.sound v (List.mem_of_getElem? hv)).mapStacks hnone fun s hs hplace => ⟨hs.lose, hplace⟩
  refine ⟨h.sound.modify fun v hv _ => ?_, ?_⟩
  · obtain ⟨hlaid, htogether, hstuck⟩ := (hlose v hv).1
    exact ⟨hlaid, htogether, hstuck⟩
  · have hspots : spots (vs.modify j fun v => { v.mapStacks (·.lose) with mark := v.top.count }) = spots vs :=
      spots_modify fun v hv => (hlose v hv).2
    rw [hspots]
    exact h.kept

theorem stacks_placed {js : List Nat} (h : Placed source base (c, none) ps vs)
    (hjs : ∀ j ∈ js, (∀ x, ps[j]? = some x → x = (c, none)) ∨ base ≤ j) :
    ∀ s ∈ js.flatMap fun j => (vs[j]?.map (·.allStacks)).getD [], Laid source s.frames ∧ s.top.place = c := by
  intro s hs
  obtain ⟨j, hj, hs⟩ := List.mem_flatMap.1 hs
  cases hv : vs[j]? with
  | none =>
    rw [hv] at hs
    cases hs
  | some v =>
    rw [hv] at hs
    have hsound := h.sound v (List.mem_of_getElem? hv)
    exact ⟨hsound.laid s hs, (hsound.together s hs).trans (Prod.mk.inj (h.spot_eq (hjs j hj) hv)).1⟩

/-- Versions from `base` up to `n` are dropped, and stacks at the place of an earlier one are added to it. -/
theorem gather_spec {n : Nat} {others : List Stack} {f : Version → Version} (h : Placed source base (c, none) ps vs)
    (hi : i < base) (hn : base ≤ n) (hat : ∀ x, ps[i]? = some x → x = (c, none))
    (hothers : ∀ s ∈ others, Laid source s.frames ∧ s.top.place = c)
    (hf : ∀ v, (f v).allStacks = v.allStacks ++ others ∧ (f v).stuckAt = v.stuckAt) :
    AllSound source ((vs.take base ++ vs.drop n).modify i f) ∧
      ∀ x, (spots ((vs.take base ++ vs.drop n).modify i f))[i]? = some x → x = (c, none) := by
  have hsound : AllSound source (vs.take base ++ vs.drop n) :=
    (h.sound.sublist (List.take_sublist _ _)).append (h.sound.sublist (List.drop_sublist _ _))
  have hspot : ∀ x, (spots (vs.take base ++ vs.drop n))[i]? = some x → x = (c, none) := by
    intro x hx
    rw [spots, List.map_append, List.map_take, List.map_drop, List.getElem?_append] at hx
    split at hx
    · rw [List.getElem?_take_of_lt hi] at hx
      exact h.kept.eq_of_getElem? (.inl hat) hx
    · rw [List.getElem?_drop] at hx
      exact h.kept.eq_of_getElem? (.inr (by omega)) hx
  have hgathered : ∀ v, (vs.take base ++ vs.drop n)[i]? = some v → v.Sound source →
      (f v).Sound source ∧ (f v).spot = v.spot := by
    intro v hv hsound
    obtain ⟨rfl, -⟩ := Prod.mk.inj (hspot _ (getElem?_spots hv))
    obtain ⟨hstacks, hstuck⟩ := hf v
    rw [show v.spot = (v.top.place, (f v).stuckAt) by rw [hstuck]; rfl]
    refine sound_of_allStacks (fun s hs => ?_) (hstuck ▸ hsound.stuck)
    rw [hstacks] at hs
    rcases List.mem_append.1 hs with hs | hs
    · exact ⟨hsound.laid s hs, hsound.together s hs⟩
    · exact hothers s hs
  refine ⟨hsound.modify fun v hv hsound => (hgathered v hv hsound).1, ?_⟩
  rw [spots_modify fun v hv => (hgathered v hv (hsound v (List.mem_of_getElem? hv))).2]
  exact hspot

end Missing

/-- Repairing a version that is stuck keeps a reading sound. -/
theorem repair_sound {v : Version} (h : r.Sound source) (hv : r.versions[i]? = some v) (hl : v.stuckAt = some l) :
    (r.repair i l).Sound source := by
  have hafter : l.After v.top.place := (h.versions v (List.mem_of_getElem? hv)).stuck l hl
  have hi : i < r.versions.length := (List.getElem?_eq_some_iff.1 hv).1
  unfold repair
  dsimp only
  have hfreed : AllSound source (r.versions.modify i fun v => { v with stuckAt := none }) :=
    h.versions.modify fun u _ hu => ⟨hu.laid, hu.together, by simp⟩
  have hself := Placed.self (q := (v.top.place, none)) hfreed (Nat.le_of_eq (List.length_modify ..))
  generalize hps : spots (r.versions.modify i fun v => { v with stuckAt := none }) = ps at hself
  have hat : ∀ x, ps[i]? = some x → x = (v.top.place, none) := by
    intro x hx
    rw [← hps, spots, List.getElem?_map, List.getElem?_modify, hv] at hx
    simpa [spot, top] using hx.symm
  -- completing what can be completed adds versions where the stuck one stands
  have hcompleted := completeAll_placed none hi (by simp) hat r.fuel 0 i _ false hself (.inl ⟨rfl, by simp⟩)
  generalize completeAll none i r.versions.length r.fuel 0 i
    (r.versions.modify i fun v => { v with stuckAt := none }) false = completed at hcompleted ⊢
  generalize hgroup : i :: (List.range completed.1.length).filter (r.versions.length ≤ ·) = group
  have hstand : ∀ j ∈ group, (∀ x, ps[j]? = some x → x = (v.top.place, none)) ∨ r.versions.length ≤ j := by
    rw [← hgroup]
    intro j hj
    rcases List.mem_cons.1 hj with rfl | hj
    · exact .inl hat
    · exact .inr (by simpa using (List.mem_filter.1 hj).2)
  generalize hfolded : List.foldl _ (completed.1, false) group = folded
  -- each version of the group is lost, and a token may be put into it
  have hlost : Placed source r.versions.length (v.top.place, none) ps folded.1 := by
    rw [← hfolded]
    refine List.foldlRecOn (motive := fun x : List Version × Bool =>
      Placed source r.versions.length (v.top.place, none) ps x.1) _ _ hcompleted ?_
    rintro ⟨vs, inserted⟩ hvs j hj
    dsimp only
    split
    · exact hvs
    · rename_i u hu
      refine lose_placed ?_ (hstand j hj)
      split
      · exact hvs
      · exact insertMissing?_placed (hvs.sound u (List.mem_of_getElem? hu)) (hvs.spot_eq (hstand j hj) hu) _ _ hvs
  obtain ⟨hsound, hspot⟩ := gather_spec (n := r.versions.length + (group.length - 1)) hlost hi
    (Nat.le_add_right _ _) hat (stacks_placed hlost fun j hj => hstand j (List.mem_of_mem_drop hj))
    (f := fun v =>
      let v := { v with others := v.others ++ (group.drop 1).flatMap fun j => (folded.1[j]?.map allStacks).getD [] }
      { v with retreats := v.findRetreats })
    fun _ => ⟨rfl, rfl⟩
  exact recover_sound ⟨hsound, h.finished⟩ (awaits_of_spot hspot hafter)

/-! ## Round by round -/

/-- One lexeme more keeps a reading sound. -/
theorem advance_sound (h : r.Sound source) (hnone : ∀ v, r.versions[i]? = some v → v.stuckAt = none) :
    (r.advance i).Sound source := by
  unfold advance
  split
  · exact h
  · rename_i v hv
    have hawaits : ∀ expected, Awaits r.versions i (nextLexeme expected v.top.place) := by
      intro expected u hu
      rw [hv, Option.some.injEq] at hu
      subst hu
      exact ⟨hnone v hv, nextLexeme_after expected v.top.place⟩
    split
    · exact readLexeme_sound _ h (hawaits _)
    · dsimp only
      split
      · exact h.push (hawaits none) none
      · exact recover_sound h (hawaits none)

theorem advancePast_sound (fuel : Nat) (h : r.Sound source) : (advancePast i fuel r).Sound source := by
  induction fuel generalizing r with
  | zero => exact h
  | succ fuel ih =>
    rw [advancePast]
    split
    · rename_i hactive
      have hr' : (r.advance i).Sound source := by
        refine advance_sound h fun v hv => ?_
        rw [hv, Option.any_some, isActive, Bool.and_eq_true, Option.isNone_iff_eq_none] at hactive
        exact hactive.2
      dsimp only
      split
      · exact hr'
      · split
        · exact ⟨hr'.versions, hr'.finished⟩
        · exact ih hr'
    · exact h

/-- One round keeps a reading sound. -/
theorem advanceAll_sound (fuel : Nat) (h : r.Sound source) : (advanceAll fuel i r).Sound source := by
  induction fuel generalizing i r with
  | zero => exact h
  | succ fuel ih =>
    rw [advanceAll]
    split
    · exact ih (advancePast_sound _ h)
    · exact h

theorem insertVersion_sound {vs : List Version} {v : Version} (hvs : AllSound source vs) (hv : v.Sound source) :
    AllSound source (insertVersion vs v) := by
  induction vs generalizing v with
  | nil => exact List.forall_mem_singleton.2 hv
  | cons w ws ih =>
    obtain ⟨hw, hws⟩ := List.forall_mem_cons.1 hvs
    rw [insertVersion]
    -- the two versions are merged, or one of them is inserted further on
    have hmerge : ∀ merged, w.merge? v = some merged → AllSound source (merged :: ws) := fun merged hmerged =>
      List.forall_mem_cons.2 ⟨(merge?_spec hmerged hw hv).1, hws⟩
    split
    · exact hvs
    · split
      · exact hmerge _ ‹_›
      · exact List.forall_mem_cons.2 ⟨hw, ih hws hv⟩
    · split
      · exact hmerge _ ‹_›
      · exact List.forall_mem_cons.2 ⟨hw, ih hws hv⟩
    · split
      · exact hmerge _ ‹_›
      · exact List.forall_mem_cons.2 ⟨hv, ih hws hw⟩
    · exact ih hws hv

/-- Dropping versions and repairing the best one keeps a reading sound. -/
theorem condense_sound (h : r.Sound source) : r.condense.1.Sound source := by
  unfold condense
  dsimp only
  have halive : AllSound source ((r.versions.filter (!·.isOver)).map (·.settleMark)) := by
    intro u hu
    obtain ⟨v, hv, rfl⟩ := List.mem_map.1 hu
    have hsound := h.versions v (List.mem_filter.1 hv).1
    exact ⟨hsound.laid, hsound.together, hsound.stuck⟩
  have hsorted : AllSound source (((r.versions.filter (!·.isOver)).map (·.settleMark)).foldl insertVersion []) :=
    List.foldlRecOn (motive := AllSound source) _ _ (fun _ h => nomatch h) fun vs hvs v hv =>
      insertVersion_sound hvs (halive v hv)
  generalize ((r.versions.filter (!·.isOver)).map (·.settleMark)).foldl insertVersion [] = sorted at hsorted ⊢
  have hr' : ({ r with versions := sorted.take maxVersions } : Reading).Sound source :=
    ⟨hsorted.sublist (List.take_sublist _ _), h.finished⟩
  have hkeep : ∀ {r' : Reading}, r'.Sound source →
      ({ r' with versions := r'.versions.filter (·.stuckAt.isNone) } : Reading).Sound source := fun hr' =>
    ⟨hr'.versions.sublist List.filter_sublist, hr'.finished⟩
  split
  · rename_i v l hstuck
    obtain ⟨u, hu, hl⟩ := Option.bind_eq_some_iff.1 hstuck
    obtain ⟨l, hl, heq⟩ := Option.map_eq_some_iff.1 hl
    cases heq
    split
    · exact hkeep (repair_sound hr' (List.head?_eq_getElem? ▸ hu) hl)
    · exact hkeep hr'
  · exact hkeep hr'

/-- The derivation that a sound reading comes to is in order. -/
theorem run_ordered (fuel : Nat) (h : r.Sound source) {d : Derivation} (hd : r.run fuel = some d) : d.Ordered := by
  induction fuel generalizing r with
  | zero => exact h.finished d hd
  | succ fuel ih =>
    rw [run] at hd
    have hr' := condense_sound (advanceAll_sound (i := 0) r.fuel h)
    dsimp only at hd
    split at hd
    · exact hr'.finished d hd
    · exact ih hr' hd

end

/-- A reading is sound before anything is read. -/
theorem initial_sound (source : List Char) : (initial source).Sound (Cursor.start source) := by
  refine ⟨List.forall_mem_singleton.2 ?_, by simp [initial]⟩
  refine (sound_of_allStacks (List.forall_mem_singleton.2 ⟨.initial ?_, rfl⟩) (by simp)).1
  split
  · exact Cursor.le_next _
  · exact le_rfl

end Reading

/-- The parts of the derivation of a source follow one another within it, and so on all the way down. -/
theorem derive?_ordered {source : List Char} {d : Derivation} (h : derive? source = some d) : d.Ordered :=
  Reading.run_ordered _ (Reading.initial_sound source) h

end DiffSlice.JavaScript
