import DiffSlice.Proofs.PlacedLists
import DiffSlice.Proofs.StrayDecorators

/-!
# Decorators told by their places

A decorator runs from the line it starts in to the first line after which its parentheses balance, or to the end
(`DecoratorAt`). Lines outside of decorators and decorators follow one another, and the places between them are the
boundaries of the lines (`Boundary`); a line that looks like the start of a decorator is one only at a boundary. A group
is made of decorators right after one another, with none before and none after them (`GroupAt`).

No boundary lies inside a decorator (`Boundary.not_between`), so every boundary inside a group is one between two of its
decorators, and groups do not overlap (`GroupAt.unique`). What is left without stray decorators is what stands outside of
stray groups, in order, and is left again (`dropStray_groups`).
-/

namespace DiffSlice.Decorator

/-! ## Decorators -/

/-- The lines open as many parentheses as they close. -/
def Balanced (ls : List String) : Prop :=
  (ls.flatMap String.toList).count '(' = (ls.flatMap String.toList).count ')'

/-- A decorator that starts in line `i` ends before line `j`: its parentheses balance there first, or the lines end. -/
structure DecoratorAt (ls : List String) (i j : Nat) : Prop where
  start : ∃ l, ls[i]? = some l ∧ startsDecorator l = true
  lt : i < j
  le_length : j ≤ ls.length
  ends : Balanced ((ls.take j).drop i) ∨ j = ls.length
  first : ∀ k, i < k → k < j → ¬Balanced ((ls.take k).drop i)

/-- A decorator has one end. -/
theorem DecoratorAt.unique {ls : List String} {i j k : Nat} (hj : DecoratorAt ls i j) (hk : DecoratorAt ls i k) :
    j = k := by
  -- the one that ends first would balance inside the other
  have hle : ∀ {j k}, DecoratorAt ls i j → DecoratorAt ls i k → k ≤ j := by
    intro j k hj hk
    by_contra hlt
    rcases hj.ends with hends | hends
    · exact hk.first j hj.lt (by omega) hends
    · have hlength := hk.le_length
      omega
  exact Nat.le_antisymm (hle hk hj) (hle hj hk)

/-! ## Boundaries -/

/-- What starts in line `i`, a line or a decorator, ends before line `j`. -/
inductive NextAt (ls : List String) : Nat → Nat → Prop
  | line {i : Nat} {l : String} (here : ls[i]? = some l) (noDecorator : startsDecorator l = false) : NextAt ls i (i + 1)
  | decorator {i j : Nat} (decorator : DecoratorAt ls i j) : NextAt ls i j

/-- The place is not inside of a decorator: only lines and whole decorators stand before it. -/
inductive Boundary (ls : List String) : Nat → Prop
  | top : Boundary ls 0
  | next {i j : Nat} (before : Boundary ls i) (next : NextAt ls i j) : Boundary ls j

section

variable {ls : List String} {i j k m : Nat}

theorem NextAt.lt (h : NextAt ls i j) : i < j := by
  cases h with
  | line => exact Nat.lt_succ_self i
  | decorator h => exact h.lt

theorem not_decoratorAt {l : String} (here : ls[i]? = some l) (noDecorator : startsDecorator l = false) :
    ¬DecoratorAt ls i j := by
  intro h
  obtain ⟨l', hl', hstart⟩ := h.start
  rw [here] at hl'
  cases hl'
  rw [noDecorator] at hstart
  cases hstart

/-- What starts in a line has one end. -/
theorem NextAt.unique (hj : NextAt ls i j) (hk : NextAt ls i k) : j = k := by
  cases hj with
  | line here noDecorator =>
    cases hk with
    | line => rfl
    | decorator hk => exact absurd hk (not_decoratorAt here noDecorator)
  | decorator hj =>
    cases hk with
    | line here noDecorator => exact absurd hj (not_decoratorAt here noDecorator)
    | decorator hk => exact hj.unique hk

/-- No boundary lies inside of a decorator that starts at a boundary. -/
theorem Boundary.not_between (hm : Boundary ls m) (hi : Boundary ls i) (h : NextAt ls i j) : ¬(i < m ∧ m < j) := by
  induction hn : m using Nat.strongRecOn generalizing m i j with
  | ind n ih =>
    subst hn
    rintro ⟨him, hmj⟩
    cases hm with
    | top => exact Nat.not_lt_zero i him
    | @next p _ hp hnext =>
      -- what ends at `m` starts before, at or after `i`; in the first case `i` itself would lie inside of it
      rcases Nat.lt_trichotomy p i with hlt | rfl | hlt
      · exact ih i him hi hp hnext rfl ⟨hlt, him⟩
      · exact absurd (hnext.unique h) (Nat.ne_of_lt hmj)
      · exact ih p hnext.lt hp hi h rfl ⟨hlt, Nat.lt_trans hnext.lt hmj⟩

/-! ## Groups -/

/-- From line `i` up to line `j` there are decorators, each right after the one before. -/
inductive Decorators (ls : List String) : Nat → Nat → Prop
  | one {i j : Nat} (decorator : DecoratorAt ls i j) : Decorators ls i j
  | more {i j k : Nat} (decorator : DecoratorAt ls i j) (later : Decorators ls j k) : Decorators ls i k

/-- From line `i` up to line `j` there is a group: all decorators that stand together. -/
structure GroupAt (ls : List String) (i j : Nat) : Prop where
  boundary : Boundary ls i
  decorators : Decorators ls i j
  none_before : ∀ h, Boundary ls h → ¬DecoratorAt ls h i
  none_after : ∀ k, ¬DecoratorAt ls j k

/-- From line `i` up to line `j` there is a group that belongs to nothing: its last line does not carry the member, and
the line after it starts neither a declaration nor a field. -/
structure StrayAt (ls : List String) (i j : Nat) : Prop extends GroupAt ls i j where
  no_member : ∀ l, ls[j - 1]? = some l → carriesMember l = false
  no_declaration : ∀ l, ls[j]? = some l → startsDeclaration l = false ∧ startsField l = false

namespace Decorators

theorem lt (h : Decorators ls i j) : i < j := by
  induction h with
  | one decorator => exact decorator.lt
  | more decorator _ ih => exact Nat.lt_trans decorator.lt ih

/-- Decorators that start at a boundary end at one. -/
theorem boundary (h : Decorators ls i j) (hi : Boundary ls i) : Boundary ls j := by
  induction h with
  | one decorator => exact .next hi (.decorator decorator)
  | more decorator _ ih => exact ih (.next hi (.decorator decorator))

/-- A boundary in a row of decorators is where one of them starts. -/
theorem exists_from (h : Decorators ls i j) (hi : Boundary ls i) (hm : Boundary ls m) (him : i ≤ m) (hmj : m < j) :
    ∃ k, DecoratorAt ls m k := by
  induction h with
  | @one i j decorator =>
    rcases Nat.eq_or_lt_of_le him with rfl | hlt
    · exact ⟨j, decorator⟩
    · exact absurd ⟨hlt, hmj⟩ (hm.not_between hi (.decorator decorator))
  | @more i c j decorator later ih =>
    by_cases hc : c ≤ m
    · exact ih (.next hi (.decorator decorator)) hc hmj
    · rcases Nat.eq_or_lt_of_le him with rfl | hlt
      · exact ⟨c, decorator⟩
      · exact absurd ⟨hlt, Nat.lt_of_not_le hc⟩ (hm.not_between hi (.decorator decorator))

/-- A boundary in a row of decorators, or at its end, is where one of them ends. -/
theorem exists_to (h : Decorators ls i j) (hi : Boundary ls i) (hm : Boundary ls m) (him : i < m) (hmj : m ≤ j) :
    ∃ k, Boundary ls k ∧ DecoratorAt ls k m := by
  induction h with
  | @one i j decorator =>
    rcases Nat.eq_or_lt_of_le hmj with rfl | hlt
    · exact ⟨i, hi, decorator⟩
    · exact absurd ⟨him, hlt⟩ (hm.not_between hi (.decorator decorator))
  | @more i c j decorator later ih =>
    rcases Nat.lt_trichotomy m c with hlt | rfl | hlt
    · exact absurd ⟨him, hlt⟩ (hm.not_between hi (.decorator decorator))
    · exact ⟨i, hi, decorator⟩
    · exact ih (.next hi (.decorator decorator)) hlt hmj

end Decorators

/-- Groups that share a line are the same. -/
theorem GroupAt.unique {i' j' : Nat} (h : GroupAt ls i j) (h' : GroupAt ls i' j') (hk : i ≤ k ∧ k < j)
    (hk' : i' ≤ k ∧ k < j') : i = i' ∧ j = j' := by
  -- a group that starts inside another would have a decorator before it
  have hstart : ∀ {i j i' j'}, GroupAt ls i j → GroupAt ls i' j' → i' ≤ k → k < j → i' ≤ i := by
    intro i j i' j' h h' hk' hk
    by_contra hlt
    obtain ⟨p, hp, hdecorator⟩ := h.decorators.exists_to h.boundary h'.boundary (Nat.lt_of_not_le hlt) (by omega)
    exact h'.none_before p hp hdecorator
  -- a group that ends inside another would have a decorator after it
  have hend : ∀ {j j'}, GroupAt ls i j → GroupAt ls i j' → j' ≤ j := by
    intro j j' h h'
    by_contra hlt
    have hboundary := h.decorators.boundary h.boundary
    obtain ⟨p, hp⟩ :=
      h'.decorators.exists_from h'.boundary hboundary (Nat.le_of_lt h.decorators.lt) (Nat.lt_of_not_le hlt)
    exact h.none_after p hp
  obtain rfl : i = i' := Nat.le_antisymm (hstart h' h hk.1 hk'.2) (hstart h h' hk'.1 hk.2)
  exact ⟨rfl, Nat.le_antisymm (hend h' h) (hend h h')⟩

end

/-! ## What the lines start with -/

/-- How many more parentheses the lines open than they close. -/
def excess (ls : List String) : Int :=
  ((ls.flatMap String.toList).count '(' : Int) - (ls.flatMap String.toList).count ')'

@[simp] theorem excess_nil : excess [] = 0 :=
  rfl

theorem excess_cons (l : String) (ls : List String) : excess (l :: ls) = parenBalance l + excess ls := by
  simp only [excess, parenBalance, List.flatMap_cons, List.count_append]
  omega

theorem balanced_iff {ls : List String} : Balanced ls ↔ excess ls = 0 := by
  unfold Balanced excess
  omega

/-- A decorator ends where its parentheses balance first, or takes all lines. -/
theorem decoratorLines_first (depth : Int) (ls : List String) :
    (∀ k, 0 < k → k < (decoratorLines depth ls).1.length → depth + excess (ls.take k) ≠ 0) ∧
      (depth + excess (decoratorLines depth ls).1 = 0 ∨ (decoratorLines depth ls).2 = []) := by
  induction ls generalizing depth with
  | nil => exact ⟨fun k _ hk => absurd hk (Nat.not_lt_zero k), .inr rfl⟩
  | cons line rest ih =>
    have hline : ∀ ms, depth + excess (line :: ms) = depth + parenBalance line + excess ms := by
      intro ms
      rw [excess_cons]
      omega
    by_cases hend : depth + parenBalance line = 0
    · simp only [decoratorLines, if_pos hend]
      refine ⟨fun k hpos hk => ?_, .inl ?_⟩
      · simp at hk
        omega
      · simpa [hline] using hend
    · obtain ⟨hfirst, hends⟩ := ih (depth + parenBalance line)
      simp only [decoratorLines, if_neg hend]
      refine ⟨fun k hpos hk => ?_, ?_⟩
      · obtain ⟨k, rfl⟩ := Nat.exists_eq_add_of_lt hpos
        rw [Nat.zero_add, List.take_succ_cons, hline]
        rcases Nat.eq_zero_or_pos k with rfl | hpos
        · simpa using hend
        · exact hfirst k hpos (by simpa using hk)
      · rw [hline]
        exact hends

section

variable {ls group after kept : List String} {n : Nat}

theorem drop_of_append {front : List String} (h : front ++ after = ls.drop n) : after = ls.drop (n + front.length) := by
  rw [← List.drop_drop, ← h, List.drop_left]

theorem take_drop_of_append {front : List String} (h : front ++ after = ls.drop n) (k : Nat) :
    (ls.take (n + k)).drop n = (front ++ after).take k := by
  rw [h, List.take_drop]

/-- What is split off from a line that starts a decorator is that decorator. -/
theorem decoratorAt_of_start {line : String} (hline : ls[n]? = some line) (hstart : startsDecorator line = true) :
    DecoratorAt ls n (n + (decoratorLines 0 (ls.drop n)).1.length) := by
  have happend := decoratorLines_append_eq 0 (ls.drop n)
  obtain ⟨hfirst, hends⟩ := decoratorLines_first 0 (ls.drop n)
  have hn := (List.getElem?_eq_some_iff.1 hline).1
  have hlength := congrArg List.length happend
  rw [List.length_append, List.length_drop] at hlength
  refine ⟨⟨line, hline, hstart⟩, ?_, by omega, ?_, fun k hk hlt => ?_⟩
  · obtain ⟨more, hmore⟩ := decoratorLines_cons 0 line (ls.drop (n + 1))
    rw [List.drop_eq_getElem?_toList_append, hline]
    simp [hmore]
  · rw [take_drop_of_append happend, List.take_left, balanced_iff]
    refine hends.imp (by simp) fun hnil => ?_
    rw [hnil] at hlength
    simp at hlength
    omega
  · obtain ⟨d, rfl⟩ := Nat.exists_eq_add_of_lt hk
    rw [Nat.add_assoc, take_drop_of_append happend, happend, balanced_iff]
    simpa using hfirst (d + 1) (Nat.succ_pos d) (by omega)

/-- A group in front is a row of decorators. -/
theorem Grouped.decorators (h : Grouped (ls.drop n) group after) (hsome : group ≠ []) :
    Decorators ls n (n + group.length) := by
  generalize hls : ls.drop n = ms at h
  induction h generalizing n with
  | stop => exact absurd rfl hsome
  | @decorator line rest more after start later ih =>
    have hline : ls[n]? = some line := by rw [← List.head?_drop, hls, List.head?_cons]
    have hdecorator := decoratorAt_of_start hline start
    rw [hls] at hdecorator
    by_cases hmore : more = []
    · subst hmore
      rw [List.append_nil]
      exact .one hdecorator
    · rw [List.length_append, ← Nat.add_assoc]
      refine .more hdecorator (ih hmore ?_)
      exact (drop_of_append ((decoratorLines_append_eq 0 (line :: rest)).trans hls.symm)).symm

/-- If a decorator ends at the place, then none starts there. -/
def FreshAt (ls : List String) (n : Nat) : Prop :=
  ∀ h k, Boundary ls h → DecoratorAt ls h n → ¬DecoratorAt ls n k

/-- The group that lines start with is a group at their place. -/
theorem Grouped.groupAt (h : Grouped (ls.drop n) group after) (hsome : group ≠ []) (hn : Boundary ls n)
    (hfresh : FreshAt ls n) : GroupAt ls n (n + group.length) := by
  have hdecorators := h.decorators hsome
  refine ⟨hn, hdecorators, fun p hp hdecorator => ?_, fun k hk => ?_⟩
  · obtain ⟨k, hk⟩ := hdecorators.exists_from hn hn (Nat.le_refl n) hdecorators.lt
    exact hfresh p k hp hdecorator hk
  · obtain ⟨l, hl, hstart⟩ := hk.start
    have hafter := h.head?_after
    rw [drop_of_append h.append_eq, List.head?_drop] at hafter
    rw [hafter l hl] at hstart
    cases hstart

/-- A group in front belongs to nothing exactly if it is stray by its place. -/
theorem Grouped.strayAt_iff (h : Grouped (ls.drop n) group after) (hsome : group ≠ [])
    (hgroup : GroupAt ls n (n + group.length)) :
    StrayAt ls n (n + group.length) ↔ belongs group after.head? = false := by
  have hpos := List.length_pos_iff.2 hsome
  have hlast : ls[n + group.length - 1]? = group.getLast? := by
    rw [Nat.add_sub_assoc hpos, ← List.getElem?_drop, ← h.append_eq, List.getElem?_append_left (by omega),
      List.getLast?_eq_getElem?]
  have hnext : ls[n + group.length]? = after.head? := by
    rw [← List.head?_drop, ← drop_of_append h.append_eq]
  rw [belongs, ← hlast, ← hnext, Bool.or_eq_false_iff, Option.any_eq_false, Option.any_eq_false]
  simp only [Bool.or_eq_false_iff]
  exact ⟨fun hstray => ⟨hstray.no_member, hstray.no_declaration⟩, fun hnone => ⟨hgroup, hnone.1, hnone.2⟩⟩

/-! ## Lines outside of stray groups -/

/-- The line stands outside of all stray groups. -/
def KeptAt (ls : List String) (k : Nat) (l : String) : Prop :=
  ls[k]? = some l ∧ ∀ i j, StrayAt ls i j → ¬(i ≤ k ∧ k < j)

/-- Lines that stand together are listed by their places. -/
theorem lists_front {front : List String} (h : front ++ after = ls.drop n) :
    Lists (fun k l => (n ≤ k ∧ k < n + front.length) ∧ ls[k]? = some l) front := by
  have hplaces := lists_run (fun (_ : Unit) _ xs => xs) (fun _ _ => ()) (fun _ _ l => some l) (fun _ _ => rfl)
    (fun _ _ _ _ => rfl) () 0 front
  refine (hplaces.map_place (n + ·) fun _ _ _ _ _ _ hlt => Nat.add_lt_add_left hlt n).congr fun k l => ?_
  constructor
  · rintro ⟨d, rfl, _, hd, ⟨⟩⟩
    have hlength := (List.getElem?_eq_some_iff.1 hd).1
    refine ⟨⟨Nat.le_add_right n d, Nat.add_lt_add_left hlength n⟩, ?_⟩
    rw [← List.getElem?_drop, ← h, List.getElem?_append_left hlength, hd]
  · rintro ⟨⟨hle, hlt⟩, hl⟩
    obtain ⟨d, rfl⟩ := Nat.exists_eq_add_of_le hle
    rw [← List.getElem?_drop, ← h, List.getElem?_append_left (by omega)] at hl
    exact ⟨d, rfl, l, hl, rfl⟩

/-- Lines outside of stray groups stand before what is left of the lines after them. -/
theorem lists_front_append {front : List String} (h : front ++ after = ls.drop n)
    (hfront : ∀ k, n ≤ k ∧ k < n + front.length → ∀ i j, StrayAt ls i j → ¬(i ≤ k ∧ k < j))
    (hlater : Lists (fun k l => n + front.length ≤ k ∧ KeptAt ls k l) kept) :
    Lists (fun k l => n ≤ k ∧ KeptAt ls k l) (front ++ kept) := by
  refine ((lists_front h).append hlater ?_).congr fun k l => ?_
  · rintro i _ j _ ⟨⟨-, hi⟩, -⟩ ⟨hj, -⟩
    exact Nat.lt_of_lt_of_le hi hj
  · constructor
    · rintro (⟨hk, hl⟩ | ⟨hk, hkept⟩)
      · exact ⟨hk.1, hl, hfront k hk⟩
      · exact ⟨Nat.le_of_add_right_le hk, hkept⟩
    · rintro ⟨hk, hkept⟩
      by_cases hlt : k < n + front.length
      · exact .inl ⟨⟨hk, hlt⟩, hkept.1⟩
      · exact .inr ⟨Nat.le_of_not_lt hlt, hkept⟩

/-- No decorator ends behind a line that is outside of decorators. -/
theorem freshAt_succ {line : String} (hline : ls[n]? = some line) (hplain : startsDecorator line = false)
    (hn : Boundary ls n) : FreshAt ls (n + 1) := by
  intro p k hp hdecorator
  rcases Nat.eq_or_lt_of_le (Nat.le_of_lt_succ hdecorator.lt) with rfl | hlt
  · exact absurd hdecorator (not_decoratorAt hline hplain)
  · exact absurd ⟨hlt, Nat.lt_succ_self n⟩ (hn.not_between hp (.decorator hdecorator))

/-- From a boundary on, what is left are the lines outside of stray groups. -/
theorem Stripped.lists (h : Stripped (ls.drop n) kept) (hn : Boundary ls n) (hfresh : FreshAt ls n) :
    Lists (fun k l => n ≤ k ∧ KeptAt ls k l) kept := by
  generalize hls : ls.drop n = ms at h
  induction h generalizing n with
  | nil =>
    refine lists_nil ?_
    rintro k l ⟨hk, hl, -⟩
    have hlength := List.drop_eq_nil_iff.1 hls
    have hbound := (List.getElem?_eq_some_iff.1 hl).1
    omega
  | @line l rest kept noDecorator later ih =>
    have hline : ls[n]? = some l := by rw [← List.head?_drop, hls, List.head?_cons]
    have hrest : ls.drop (n + 1) = rest := by rw [← List.drop_drop, hls, List.drop_one, List.tail_cons]
    have hlater := ih (.next hn (.line hline noDecorator)) (freshAt_succ hline noDecorator hn) hrest
    have hfront : ∀ k, n ≤ k ∧ k < n + [l].length → ∀ i j, StrayAt ls i j → ¬(i ≤ k ∧ k < j) := by
      rintro k ⟨hle, hlt⟩ i j hstray ⟨hi, hj⟩
      obtain rfl : n = k := Nat.le_antisymm hle (Nat.le_of_lt_succ hlt)
      obtain ⟨k, hk⟩ := hstray.decorators.exists_from hstray.boundary hn hi hj
      exact not_decoratorAt hline noDecorator hk
    exact lists_front_append hls.symm hfront hlater
  | @attached ms group after kept grouped some attached later ih =>
    subst hls
    have hgroup := grouped.groupAt some hn hfresh
    have hlater := ih (hgroup.decorators.boundary hn) (fun _ k _ _ => hgroup.none_after k)
      (drop_of_append grouped.append_eq).symm
    refine lists_front_append grouped.append_eq (fun k hk i j hstray hin => ?_) hlater
    obtain ⟨rfl, rfl⟩ := hstray.toGroupAt.unique hgroup hin hk
    rw [(grouped.strayAt_iff some hgroup).1 hstray] at attached
    cases attached
  | @stray ms group after kept grouped some stray later ih =>
    subst hls
    have hgroup := grouped.groupAt some hn hfresh
    have hlater := ih (hgroup.decorators.boundary hn) (fun _ k _ _ => hgroup.none_after k)
      (drop_of_append grouped.append_eq).symm
    refine hlater.congr fun k l => and_congr_left fun hkept => ?_
    refine ⟨Nat.le_of_add_right_le, fun hk => Nat.le_of_not_lt fun hlt => ?_⟩
    exact hkept.2 n _ ((grouped.strayAt_iff some hgroup).2 stray) ⟨hk, hlt⟩

/-- The lines of a group are kept or dropped together. -/
theorem GroupAt.keptAt_iff {i j k : Nat} {l : String} (h : GroupAt ls i j) (hk : i ≤ k ∧ k < j) (hl : ls[k]? = some l) :
    KeptAt ls k l ↔ ¬StrayAt ls i j := by
  refine ⟨fun hkept hstray => hkept.2 i j hstray hk, fun hattached => ⟨hl, fun i' j' hstray hk' => ?_⟩⟩
  obtain ⟨rfl, rfl⟩ := hstray.toGroupAt.unique h hk' hk
  exact hattached hstray

/-- What is left without stray decorators are the lines outside of stray groups, in their order. So groups are kept or
dropped whole, and what is left is left again. -/
theorem dropStray_groups (ls : List String) :
    Lists (KeptAt ls) (dropStray ls) ∧ (dropStray ls).Sublist ls ∧
      (∀ i j k l, GroupAt ls i j → i ≤ k ∧ k < j → ls[k]? = some l → (KeptAt ls k l ↔ ¬StrayAt ls i j)) ∧
      dropStray (dropStray ls) = dropStray ls := by
  have hstripped := stripped_dropStray ls
  have hfresh : FreshAt ls 0 := fun p k _ hdecorator => absurd hdecorator.lt (Nat.not_lt_zero p)
  refine ⟨?_, hstripped.sublist, fun _ _ _ _ h hk hl => h.keptAt_iff hk hl, ?_⟩
  · exact (hstripped.lists (n := 0) .top hfresh).congr fun k l => and_iff_right (Nat.zero_le k)
  · exact hstripped.settled.stripped.dropStray_eq

/-- A group of two decorators, the second on two lines, and a group of one before a field. -/
example : dropStray ["let a;", "@Input()", "@Other(", "  @x)", "a + 1;", "@y", "b = 1;"] =
    ["let a;", "a + 1;", "@y", "b = 1;"] := by
  decide

end

end DiffSlice.Decorator
