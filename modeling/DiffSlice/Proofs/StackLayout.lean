import DiffSlice.JavaScript.Repair
import DiffSlice.Proofs.SourceOrder

/-!
# Stacks hold a source in order

The parts on a stack follow one another from the start of the source up to the place on top (`Laid`). Whatever is done
to a stack keeps this: reading a lexeme (`Laid.push`), completing a production (`reduce?_laid`), losing the state
(`Laid.lose`), passing over a lexeme (`passOver_laid`) and going back (`retreatTo?_laid`). Taking parts from the top
splits the frames in two (`popFrames_split`, `takeParts_split`), and the parts taken lie between the two places
(`Laid.split`).
-/

namespace DiffSlice.JavaScript

variable {source : Cursor}

/-! ## Frames -/

def partsOf (frames : List Frame) : List Derivation :=
  frames.reverse.filterMap (·.part)

theorem partsOf_cons (f : Frame) (frames : List Frame) : partsOf (f :: frames) = partsOf frames ++ f.part.toList := by
  rw [partsOf, List.reverse_cons, List.filterMap_append, partsOf]
  cases hf : f.part <;> simp [hf]

/-- The frames, from the top on, hold parts that follow one another from the start of the source on. -/
inductive Laid (source : Cursor) : List Frame → Prop
  | bottom {f : Frame} : f.part = none → source ≤ f.place → Laid source [f]
  | read {f g : Frame} {below : List Frame} {d : Derivation} : f.part = some d → f.place = d.stop →
      g.place ≤ d.start → d.Ordered → Laid source (g :: below) → Laid source (f :: g :: below)
  | lost {f g : Frame} {below : List Frame} : f.part = none → f.place = g.place → Laid source (g :: below) →
      Laid source (f :: g :: below)

namespace Laid

/-- The parts of frames that are laid out are in order up to the top. -/
theorem inOrder {f : Frame} {below : List Frame} (h : Laid source (f :: below)) :
    InOrder source (partsOf (f :: below)) f.place := by
  suffices ∀ frames, Laid source frames → ∀ f below, frames = f :: below → InOrder source (partsOf frames) f.place from
    this _ h f below rfl
  intro frames h
  induction h with
  | bottom hpart hle =>
    rintro f below ⟨⟩
    rw [partsOf_cons, hpart]
    exact .nil hle
  | read hpart hplace hstart hd _ ih =>
    rintro f below ⟨⟩
    rw [partsOf_cons, hpart, hplace]
    exact (ih _ _ rfl).append (.singleton hstart hd)
  | lost hpart hplace _ ih =>
    rintro f below ⟨⟩
    rw [partsOf_cons, hpart, hplace, Option.toList_none, List.append_nil]
    exact ih _ _ rfl

theorem source_le {f : Frame} {below : List Frame} (h : Laid source (f :: below)) : source ≤ f.place :=
  h.inOrder.le

/-- The frames below some others are laid out too, and the parts of those lie between the places on top. -/
theorem split {popped : List Frame} {s base : Stack} (h : Laid source s.frames)
    (hs : s.frames = popped ++ base.frames) :
    Laid source base.frames ∧ InOrder base.top.place (partsOf popped) s.top.place := by
  induction popped generalizing s with
  | nil =>
    have hframes : s.top = base.top := (List.cons.inj hs).1
    rw [hs] at h
    rw [hframes]
    exact ⟨h, .nil le_rfl⟩
  | cons f popped ih =>
    obtain ⟨hf, hbelow⟩ := List.cons.inj hs
    obtain ⟨g, below, hg⟩ : ∃ g below, popped ++ base.frames = g :: below :=
      List.exists_cons_of_ne_nil (by simp [Stack.frames])
    have hframes : s.frames = f :: g :: below := by rw [hs, List.cons_append, hg]
    rw [hframes] at h
    rw [partsOf_cons, hf]
    cases h with
    | read hpart hplace hstart hd h =>
      obtain ⟨hbase, hparts⟩ := ih (s := ⟨g, below⟩) h hg.symm
      rw [hpart, hplace]
      exact ⟨hbase, hparts.append (.singleton hstart hd)⟩
    | lost hpart hplace h =>
      obtain ⟨hbase, hparts⟩ := ih (s := ⟨g, below⟩) h hg.symm
      rw [hpart, hplace, Option.toList_none, List.append_nil]
      exact ⟨hbase, hparts⟩

/-- The place on top is the end of the part on top. -/
theorem stop_eq {f : Frame} {below : List Frame} {d : Derivation} (h : Laid source (f :: below))
    (hd : f.part = some d) : d.stop = f.place := by
  cases h with
  | bottom hpart => rw [hpart] at hd; cases hd
  | read hpart hplace => rw [hpart] at hd; cases hd; exact hplace.symm
  | lost hpart => rw [hpart] at hd; cases hd

/-- What is taken from a stack ends where the stack does. -/
theorem getLast?_stop {popped : List Frame} {s base : Stack} (h : Laid source s.frames)
    (hs : s.frames = popped ++ base.frames) (hsome : ∀ f ∈ popped, f.part.isSome = true) :
    ((partsOf popped).getLast?.map (·.stop)).getD s.top.place = s.top.place := by
  cases popped with
  | nil => rfl
  | cons f popped =>
    obtain ⟨d, hd⟩ := Option.isSome_iff_exists.1 (hsome f List.mem_cons_self)
    have htop : s.top = f := (List.cons.inj hs).1
    rw [partsOf_cons, hd]
    simpa using h.stop_eq (htop ▸ hd)

variable {s : Stack}

/-- A part that starts at the top or after it can be put there. -/
theorem push (h : Laid source s.frames) {d : Derivation} (hstart : s.top.place ≤ d.start) (hd : d.Ordered)
    (state : Option State) : Laid source (s.push state d).frames :=
  .read rfl rfl hstart hd h

/-- Giving up the state moves nothing. -/
theorem lose (h : Laid source s.frames) : Laid source s.lose.frames :=
  .lost rfl rfl h

theorem initial {c : Cursor} (h : source ≤ c) : Laid source (Stack.initial c).frames :=
  .bottom rfl h

/-- Parts in order can be put on top one after another. -/
theorem pushAll {ds : List Derivation} {e : Cursor} (h : Laid source s.frames) (hds : InOrder s.top.place ds e)
    (state : Option State) :
    Laid source (ds.foldl (fun s d => s.push state d) s).frames ∧
      (ds.foldl (fun s d => s.push state d) s).top.place = (ds.getLast?.map (·.stop)).getD s.top.place := by
  induction ds generalizing s with
  | nil => exact ⟨h, rfl⟩
  | cons d ds ih =>
    cases hds with
    | cons hstart hd hds =>
      obtain ⟨hlaid, hplace⟩ := ih (s := s.push state d) (h.push hstart hd state) hds
      refine ⟨hlaid, hplace.trans ?_⟩
      rw [List.getLast?_cons]
      cases ds.getLast? <;> rfl

/-- A part that is made of others takes their place, with what stands after them on top of it. -/
theorem pushMade {ds extras : List Derivation} {c e : Cursor} (h : Laid source s.frames)
    (hall : InOrder s.top.place (ds ++ extras) e) (hc : ds = [] → extras = [] ∧ s.top.place ≤ c) (label : Label)
    (weight : Int) (isExtra : Bool) (state : Option State) :
    Laid source (extras.foldl (fun s d => s.push state d) (s.push state (.ofParts label weight isExtra c ds))).frames ∧
      (extras.foldl (fun s d => s.push state d) (s.push state (.ofParts label weight isExtra c ds))).top.place =
        ((ds ++ extras).getLast?.map (·.stop)).getD c := by
  obtain ⟨m, hds, hextras⟩ := hall.exists_of_append
  by_cases hnil : ds = []
  · subst hnil
    obtain ⟨rfl, hle⟩ := hc rfl
    exact ⟨h.push (d := .ofParts label weight isExtra c []) hle (.nil le_rfl) state, rfl⟩
  · obtain ⟨hstart, hordered, hstop⟩ :=
      Derivation.ofParts_inOrder label weight isExtra (c := c) hds fun h => absurd h hnil
    obtain ⟨hlaid, hplace⟩ := (h.push hstart hordered state).pushAll (hextras.mono_left hstop) state
    refine ⟨hlaid, hplace.trans ?_⟩
    show (extras.getLast?.map (·.stop)).getD (Derivation.ofParts label weight isExtra c ds).stop = _
    rw [Derivation.ofParts_stop, List.getLast?_append]
    cases extras.getLast? <;> rfl

end Laid

theorem Stack.inOrder_parts {s : Stack} (h : Laid source s.frames) : InOrder source s.parts s.top.place :=
  h.inOrder

/-! ## Completing productions -/

namespace Stack

/-- What is taken from the frames is their parts. The last that is taken belongs to a phrase. -/
theorem popFrames_split {n : Nat} {frames : List Frame} {taken taken' : List Derivation} {base : Stack}
    (h : popFrames n frames taken = some (taken', base)) :
    ∃ popped, frames = popped ++ base.frames ∧ taken' = partsOf popped ++ taken ∧
      (∀ f ∈ popped, f.part.isSome = true) ∧
      (n = 0 ∧ popped = [] ∨ ∃ d rest, taken' = d :: rest ∧ d.isExtra = false) := by
  induction frames generalizing n taken with
  | nil => cases n <;> cases h
  | cons f frames ih =>
    cases n with
    | zero =>
      cases h
      exact ⟨[], rfl, rfl, by simp, .inl ⟨rfl, rfl⟩⟩
    | succ n =>
      obtain ⟨state, part, place, weight, cost, count⟩ := f
      cases part with
      | none => cases h
      | some d =>
        -- it ends with `d` only if `d` belongs to a phrase
        obtain ⟨m, hm, hd⟩ : ∃ m, popFrames m frames (d :: taken) = some (taken', base) ∧ (m = 0 → d.isExtra = false) := by
          rw [popFrames] at h
          split at h
          · exact ⟨n + 1, h, by simp⟩
          · exact ⟨n, h, fun _ => by simpa using ‹¬ d.isExtra = true›⟩
        obtain ⟨popped, rfl, rfl, hsome, hfirst⟩ := ih hm
        refine ⟨⟨state, some d, place, weight, cost, count⟩ :: popped, rfl, ?_, List.forall_mem_cons.2 ⟨rfl, hsome⟩,
          .inr ?_⟩
        · rw [partsOf_cons]
          simp
        · rcases hfirst with ⟨rfl, rfl⟩ | hfirst
          · exact ⟨d, taken, rfl, hd rfl⟩
          · exact hfirst

theorem splitExtras_eq (ds : List Derivation) :
    splitExtras ds = ((ds.reverse.dropWhile (·.isExtra)).reverse, (ds.reverse.takeWhile (·.isExtra)).reverse) := by
  have hds : ds = (ds.reverse.dropWhile (·.isExtra)).reverse ++ (ds.reverse.takeWhile (·.isExtra)).reverse := by
    rw [← List.reverse_append, List.takeWhile_append_dropWhile, List.reverse_reverse]
  have hlength : ds.length - (ds.reverse.takeWhile (·.isExtra)).reverse.length =
      (ds.reverse.dropWhile (·.isExtra)).reverse.length := by
    have := congrArg List.length hds
    rw [List.length_append] at this
    omega
  rw [splitExtras, hlength]
  congr 1
  exact (congrArg (List.take _) hds).trans List.take_left

/-- Splitting off comments loses no part. -/
theorem splitExtras_append (ds : List Derivation) : (splitExtras ds).1 ++ (splitExtras ds).2 = ds := by
  rw [splitExtras_eq, ← List.reverse_append, List.takeWhile_append_dropWhile, List.reverse_reverse]

/-- Where the first part belongs to a phrase, not all are split off. -/
theorem splitExtras_ne_nil {d : Derivation} (hd : d.isExtra = false) (ds : List Derivation) :
    (splitExtras (d :: ds)).1 ≠ [] := by
  intro h
  have hextras : ((d :: ds).reverse.takeWhile (·.isExtra)).reverse = d :: ds := by
    have hall := splitExtras_append (d :: ds)
    rwa [h, splitExtras_eq] at hall
  have hmem : d ∈ (d :: ds).reverse.takeWhile (·.isExtra) := by
    rw [← List.mem_reverse, hextras]
    exact List.mem_cons_self
  rw [List.all_eq_true.1 List.all_takeWhile d hmem] at hd
  cases hd

/-- What is completed takes the place of its parts, and comments after them stay where they are. -/
theorem reduce?_laid {s t : Stack} {p : Production} (h : s.reduce? p = some t) (hs : Laid source s.frames) :
    Laid source t.frames ∧ t.top.place = s.top.place := by
  simp only [reduce?, Option.bind_eq_bind, Option.bind_eq_some_iff] at h
  obtain ⟨⟨taken, base⟩, hpop, state, -, h⟩ := h
  split at h
  · cases h
  · cases h
    obtain ⟨popped, hframes, rfl, hsome, hfirst⟩ := popFrames_split hpop
    obtain ⟨hbase, htaken⟩ := hs.split hframes
    rw [List.append_nil] at hfirst ⊢
    have hsplit := splitExtras_append (partsOf popped)
    have hnone : (splitExtras (partsOf popped)).1 = [] → partsOf popped = [] := by
      intro hnone
      rcases hfirst with ⟨-, rfl⟩ | ⟨d, rest, heq, hd⟩
      · rfl
      · rw [heq] at hnone
        exact absurd hnone (splitExtras_ne_nil hd rest)
    have hmade := hbase.pushMade (c := s.top.place) (hsplit.symm ▸ htaken)
      (fun hnil => ⟨(List.append_eq_nil_iff.1 (hsplit.trans (hnone hnil))).2, htaken.le⟩)
      (.phrase p) p.weight false (some (state.after (.phrase p.phrase)))
    rwa [hsplit, hs.getLast?_stop hframes hsome] at hmade

end Stack

/-! ## Repairs -/

theorem Lexeme.After.ordered {c : Cursor} {l : Lexeme} (h : l.After c) : (Derivation.ofLexeme l).Ordered :=
  .nil h.start_le

namespace Version

/-- The parts that are taken are those of the frames on top. -/
theorem takeParts_split {n : Nat} {frames : List Frame} {taken taken' : List Derivation} {base : Stack}
    (h : takeParts n frames taken = some (taken', base)) :
    ∃ popped, frames = popped ++ base.frames ∧ taken' = partsOf popped ++ taken := by
  induction frames generalizing n taken with
  | nil => cases n <;> cases h
  | cons f frames ih =>
    cases n with
    | zero =>
      cases h
      exact ⟨[], rfl, rfl⟩
    | succ n =>
      obtain ⟨m, hm⟩ : ∃ m, takeParts m frames (f.part.toList ++ taken) = some (taken', base) := by
        rw [takeParts] at h
        split at h
        · rename_i d hd
          rw [hd]
          split at h
          · exact ⟨n + 1, h⟩
          · exact ⟨n, h⟩
        · rename_i hd
          rw [hd]
          exact ⟨n, h⟩
      obtain ⟨popped, rfl, rfl⟩ := ih hm
      refine ⟨f :: popped, rfl, ?_⟩
      rw [partsOf_cons, List.append_assoc]

/-- After a lexeme is passed over, the stack ends with it. -/
theorem passOver_laid {s : Stack} {l : Lexeme} (hs : Laid source s.frames) (hl : l.After s.top.place)
    (isFirst : Bool) :
    Laid source (passOver l isFirst s).frames ∧ (passOver l isFirst s).top.place = l.stop := by
  have hlexeme : InOrder s.top.place [Derivation.ofLexeme l] l.stop := .singleton hl.le_start hl.ordered
  unfold passOver
  dsimp only
  split
  · rename_i taken base htaken
    split at htaken
    · cases htaken
    · obtain ⟨popped, hframes, rfl⟩ := takeParts_split htaken
      obtain ⟨hbase, hparts⟩ := hs.split hframes
      rw [List.append_nil]
      have hall : InOrder base.top.place ((partsOf popped ++ [Derivation.ofLexeme l]) ++ []) l.stop := by
        rw [List.append_nil]
        exact hparts.append hlexeme
      have hmade := hbase.pushMade (c := l.start) hall (by simp) .skipped 0 false none
      simpa [Derivation.ofLexeme] using hmade
  · have hall : InOrder s.top.place ([Derivation.ofLexeme l] ++ []) l.stop := hlexeme
    exact hs.pushMade (c := l.start) hall (by simp) .skipped 0 false none

/-- The parts of a fault on top stand between the stack below it and the top. -/
theorem takeFault_laid {s : Stack} (h : Laid source s.frames) :
    Laid source (takeFault s).2.frames ∧ InOrder (takeFault s).2.top.place (takeFault s).1 s.top.place := by
  unfold takeFault
  split
  · rename_i top below hpart hbelow
    rw [Stack.frames, hbelow] at h
    cases h with
    | read hsome hplace hstart hordered h =>
      rw [hsome] at hpart
      cases hpart
      exact ⟨h, hplace ▸ InOrder.mono_left hordered hstart⟩
    | lost hnone =>
      rw [hnone] at hpart
      cases hpart
  · exact ⟨h, .nil le_rfl⟩

/-- Going back leaves a stack whose parts are in order. -/
theorem retreatTo?_laid {depth : Nat} {goal : State} {s t : Stack} (h : retreatTo? depth goal s = some t)
    (hs : Laid source s.frames) : Laid source t.frames := by
  simp only [retreatTo?, Option.bind_eq_bind, Option.bind_eq_some_iff] at h
  obtain ⟨⟨taken, base⟩, htake, state, -, h⟩ := h
  obtain ⟨popped, hframes, rfl⟩ := takeParts_split htake
  obtain ⟨hbase, htaken⟩ := hs.split hframes
  obtain ⟨hlaid, hbefore⟩ := takeFault_laid hbase
  split at h
  · cases h
  · cases h
    dsimp only
    rw [List.append_nil]
    generalize takeFault base = fault at hlaid hbefore ⊢
    have hall := hbefore.append htaken
    rw [← Stack.splitExtras_append (fault.1 ++ partsOf popped)] at hall
    split
    · rename_i hnone
      rw [List.isEmpty_iff.1 hnone] at hall
      exact (hlaid.pushAll hall (some goal)).1
    · rename_i hsome
      refine (hlaid.pushMade (c := s.top.place) hall (fun hnone => ?_) .fault 0 true (some goal)).1
      exact absurd (List.isEmpty_iff.2 hnone) hsome

end Version

end DiffSlice.JavaScript
