import DiffSlice.Proofs.BlankLines
import DiffSlice.Slice.Decorator

/-!
# Groups of decorators

The decorators that lines start with, one right after the other, form a group (`Grouped`). Lines are stripped of the
groups that belong to nothing after them (`Stripped`, `stripped_dropStray`), and in what is left every group belongs
to something (`Settled`, `Stripped.settled`). This stays so if blank lines are thinned (`Settled.thinned`): no
decorator starts or ends at a blank line, and no blank line is what a group belongs to.
-/

namespace DiffSlice.Decorator

/-! ## One decorator -/

section DecoratorLines

variable (depth : Int)

/-- A decorator and the rest are all the lines. -/
theorem decoratorLines_append_eq (ls : List String) :
    (decoratorLines depth ls).1 ++ (decoratorLines depth ls).2 = ls := by
  fun_induction decoratorLines depth ls <;> simp_all

theorem decoratorLines_cons (line : String) (rest : List String) :
    ∃ more, (decoratorLines depth (line :: rest)).1 = line :: more := by
  rw [decoratorLines]
  split <;> exact ⟨_, rfl⟩

variable {ls ms : List String}

/-- A decorator ends where it did before, unless it had no end and so took all lines. -/
theorem decoratorLines_append (h : (decoratorLines depth ls).2 = [] → ms = []) :
    decoratorLines depth ((decoratorLines depth ls).1 ++ ms) = ((decoratorLines depth ls).1, ms) := by
  induction ls generalizing depth with
  | nil =>
    rw [h rfl]
    rfl
  | cons line rest ih =>
    by_cases hend : depth + parenBalance line = 0
    · simp [decoratorLines, hend]
    · simp only [decoratorLines, if_neg hend] at h ⊢
      simp only [List.cons_append, decoratorLines, if_neg hend, ih _ h]

theorem thinned_decoratorLines (h : Thinned ls ms) (hblank : ls.head? = some "" → depth ≠ 0) :
    Thinned (decoratorLines depth ls).1 (decoratorLines depth ms).1 ∧
      Thinned (decoratorLines depth ls).2 (decoratorLines depth ms).2 := by
  induction h generalizing depth with
  | nil => exact ⟨.nil, .nil⟩
  | @cons ls ms l later ih =>
    by_cases hend : depth + parenBalance l = 0
    · simp only [decoratorLines, if_pos hend]
      exact ⟨.refl _, later⟩
    · simp only [decoratorLines, if_neg hend]
      obtain ⟨hfirst, hrest⟩ := ih _ fun _ => hend
      exact ⟨.cons l hfirst, hrest⟩
  | @drop ls ms later ih =>
    -- inside parentheses a blank line ends nothing
    have hopen : ¬ depth + parenBalance "" = 0 := by simpa [parenBalance] using hblank rfl
    have hsame : depth + parenBalance "" = depth := by simp [parenBalance]
    obtain ⟨hfirst, hrest⟩ := ih depth fun _ => hblank rfl
    rw [decoratorLines, if_neg hopen, hsame]
    rw [decoratorLines, if_neg hopen] at hfirst hrest ⊢
    exact ⟨.drop hfirst, hrest⟩

end DecoratorLines

/-! ## Groups -/

/-- The lines start with a group of decorators, which may be empty, and no decorator comes after it. -/
inductive Grouped : List String → List String → List String → Prop
  | stop {ls : List String} (noDecorator : ∀ l ∈ ls.head?, startsDecorator l = false) : Grouped ls [] ls
  | decorator {line : String} {rest more after : List String} (start : startsDecorator line = true)
    (later : Grouped (decoratorLines 0 (line :: rest)).2 more after) :
    Grouped (line :: rest) ((decoratorLines 0 (line :: rest)).1 ++ more) after

theorem length_after_lt (line : String) (rest : List String) :
    (decoratorLines 0 (line :: rest)).2.length < (line :: rest).length := by
  have hlength := congrArg List.length (decoratorLines_append_eq 0 (line :: rest))
  obtain ⟨more, hmore⟩ := decoratorLines_cons 0 line rest
  rw [List.length_append, hmore, List.length_cons] at hlength
  omega

/-- All lines start with a group, which may be empty. -/
theorem exists_grouped (ls : List String) : ∃ group after, Grouped ls group after := by
  induction hn : ls.length using Nat.strongRecOn generalizing ls with
  | ind n ih =>
    subst hn
    by_cases hstop : ∀ l ∈ ls.head?, startsDecorator l = false
    · exact ⟨[], ls, .stop hstop⟩
    · cases ls with
      | nil => simp at hstop
      | cons line rest =>
        obtain ⟨more, after, hlater⟩ := ih _ (length_after_lt line rest) _ rfl
        exact ⟨_, after, .decorator (by simpa using hstop) hlater⟩

namespace Grouped

variable {ls ms group after : List String}

/-- A group and what stands after it are all the lines. -/
theorem append_eq (h : Grouped ls group after) : group ++ after = ls := by
  induction h with
  | stop => rfl
  | @decorator line rest more after _ _ ih => rw [List.append_assoc, ih, decoratorLines_append_eq]

/-- No decorator stands right after a group. -/
theorem head?_after (h : Grouped ls group after) : ∀ l ∈ after.head?, startsDecorator l = false := by
  induction h with
  | stop noDecorator => exact noDecorator
  | decorator _ _ ih => exact ih

theorem length_lt (h : Grouped ls group after) (hne : group ≠ []) : after.length < ls.length := by
  have hpos := List.length_pos_iff.2 hne
  rw [← h.append_eq, List.length_append]
  omega

/-- A group that is not empty starts with a decorator. -/
theorem exists_cons (h : Grouped ls group after) (hne : group ≠ []) :
    ∃ line rest, ls = line :: rest ∧ startsDecorator line = true := by
  cases h with
  | stop => exact absurd rfl hne
  | decorator start _ => exact ⟨_, _, rfl, start⟩

theorem eq_nil (h : Grouped ls group after) (hls : ∀ l ∈ ls.head?, startsDecorator l = false) : group = [] := by
  cases h with
  | stop => rfl
  | @decorator line _ _ _ start _ =>
    rw [hls line rfl] at start
    cases start

/-- A group is collected if there is fuel for all its lines. -/
theorem groupLines_eq (h : Grouped ls group after) {fuel : Nat} (hfuel : ls.length ≤ fuel) :
    groupLines fuel ls = (group, after) := by
  induction h generalizing fuel with
  | @stop ls noDecorator =>
    cases fuel with
    | zero => rfl
    | succ fuel =>
      cases ls with
      | nil => rfl
      | cons line rest => simp [groupLines, noDecorator line rfl]
  | @decorator line rest more after start later ih =>
    have hshort := length_after_lt line rest
    cases fuel with
    | zero => simp at hfuel
    | succ fuel =>
      have hlater := @ih fuel (by omega)
      simp only [groupLines, if_pos start, hlater]

/-- The group is the same before other lines, unless it took all lines. -/
theorem append (h : Grouped ls group after) (hms : ∀ l ∈ ms.head?, startsDecorator l = false)
    (hnil : after = [] → ms = []) : Grouped (group ++ ms) group ms := by
  induction h with
  | stop => exact .stop hms
  | @decorator line rest more after start later ih =>
    have hsame : decoratorLines 0 ((decoratorLines 0 (line :: rest)).1 ++ (more ++ ms)) =
        ((decoratorLines 0 (line :: rest)).1, more ++ ms) := by
      refine decoratorLines_append 0 fun hend => ?_
      have hlater := later.append_eq
      rw [hend, List.append_eq_nil_iff] at hlater
      rw [hlater.1, hnil hlater.2, List.append_nil]
    obtain ⟨first, hfirst⟩ := decoratorLines_cons 0 line rest
    rw [hfirst, List.cons_append] at hsame
    have hgroup := @Grouped.decorator line (first ++ (more ++ ms)) more ms start
    rw [hsame] at hgroup
    rw [hfirst, List.append_assoc, List.cons_append]
    exact hgroup (ih hnil)

/-- Where blank lines are thinned, those of a group are thinned and so are those after it. -/
theorem thinned (h : Grouped ls group after) (ht : Thinned ls ms) :
    ∃ group' after', Grouped ms group' after' ∧ Thinned group group' ∧ Thinned after after' := by
  induction h generalizing ms with
  | @stop ls noDecorator =>
    refine ⟨[], ms, .stop ?_, .nil, ht⟩
    rw [ht.head?_eq]
    exact noDecorator
  | @decorator line rest more after start later ih =>
    have hline : line ≠ "" := by
      rintro rfl
      exact absurd start (by decide)
    obtain ⟨hfirst, hrest⟩ := thinned_decoratorLines 0 ht (by simp [hline])
    obtain ⟨more', after', hgrouped, hmore, hafter⟩ := ih hrest
    cases ht with
    | cons _ _ => exact ⟨_, after', .decorator start hgrouped, hfirst.append hmore, hafter⟩
    | drop _ => exact absurd rfl hline

end Grouped

/-! ## Stray groups -/

/-- The group has a member on its last line, or belongs to the line after it. -/
def belongs (group : List String) (next : Option String) : Bool :=
  group.getLast?.any carriesMember || next.any fun line => startsDeclaration line || startsField line

/-- The second lines are the first without the groups that belong to nothing. -/
inductive Stripped : List String → List String → Prop
  | nil : Stripped [] []
  | line {l : String} {rest kept : List String} (noDecorator : startsDecorator l = false)
    (later : Stripped rest kept) : Stripped (l :: rest) (l :: kept)
  | attached {ls group after kept : List String} (grouped : Grouped ls group after) (some : group ≠ [])
    (attached : belongs group after.head? = true) (later : Stripped after kept) : Stripped ls (group ++ kept)
  | stray {ls group after kept : List String} (grouped : Grouped ls group after) (some : group ≠ [])
    (stray : belongs group after.head? = false) (later : Stripped after kept) : Stripped ls kept

/-- Every group of decorators in the lines belongs to something. -/
inductive Settled : List String → Prop
  | nil : Settled []
  | line {l : String} {rest : List String} (noDecorator : startsDecorator l = false) (later : Settled rest) :
    Settled (l :: rest)
  | group {ls group after : List String} (grouped : Grouped ls group after) (some : group ≠ [])
    (attached : belongs group after.head? = true) (later : Settled after) : Settled ls

/-- All lines can be stripped. -/
theorem exists_stripped (ls : List String) : ∃ kept, Stripped ls kept := by
  induction hn : ls.length using Nat.strongRecOn generalizing ls with
  | ind n ih =>
    subst hn
    obtain ⟨group, after, hgrouped⟩ := exists_grouped ls
    by_cases hsome : group = []
    · subst hsome
      obtain rfl : after = ls := hgrouped.append_eq
      cases after with
      | nil => exact ⟨[], .nil⟩
      | cons l rest =>
        obtain ⟨kept, hkept⟩ := ih _ (Nat.lt_succ_self _) rest rfl
        exact ⟨_, .line (hgrouped.head?_after l rfl) hkept⟩
    · obtain ⟨kept, hkept⟩ := ih _ (hgrouped.length_lt hsome) after rfl
      cases hattached : belongs group after.head? with
      | true => exact ⟨_, .attached hgrouped hsome hattached hkept⟩
      | false => exact ⟨_, .stray hgrouped hsome hattached hkept⟩

/-- A group is attached to the blocks after it if it belongs to the line after it. -/
theorem isAttached_blocksFrom {after : List String} (group : List String)
    (h : ∀ l ∈ after.head?, startsDecorator l = false) {fuel : Nat} (hfuel : after.length ≤ fuel) :
    isAttached group (blocksFrom fuel after) = belongs group after.head? := by
  cases after with
  | nil => cases fuel <;> rfl
  | cons line rest =>
    cases fuel with
    | zero => simp at hfuel
    | succ fuel => simp [blocksFrom, h line rfl, isAttached, belongs]

/-- A group in front is kept or dropped whole. -/
theorem Grouped.keptLines_eq {ls group after : List String} (h : Grouped ls group after) (hsome : group ≠ [])
    {fuel : Nat} (hfuel : ls.length ≤ fuel) : ∃ fewer, after.length ≤ fewer ∧
      keptLines (blocksFrom fuel ls) =
        if belongs group after.head? then group ++ keptLines (blocksFrom fewer after)
        else keptLines (blocksFrom fewer after) := by
  have hlt := h.length_lt hsome
  obtain ⟨line, rest, rfl, hstart⟩ := h.exists_cons hsome
  cases fuel with
  | zero => simp at hfuel
  | succ fuel =>
    have hle : after.length ≤ fuel := by omega
    have hgroup : groupLines (rest.length + 1) (line :: rest) = (group, after) := h.groupLines_eq (Nat.le_refl _)
    refine ⟨fuel, hle, ?_⟩
    rw [blocksFrom, if_pos hstart, hgroup, keptLines, isAttached_blocksFrom group h.head?_after hle]

namespace Stripped

variable {ls kept : List String}

theorem keptLines_eq (h : Stripped ls kept) {fuel : Nat} (hfuel : ls.length ≤ fuel) :
    keptLines (blocksFrom fuel ls) = kept := by
  induction h generalizing fuel with
  | nil => cases fuel <;> rfl
  | @line l rest kept noDecorator later ih =>
    cases fuel with
    | zero => simp at hfuel
    | succ fuel =>
      rw [blocksFrom, if_neg (by simp [noDecorator]), keptLines, ih (Nat.le_of_succ_le_succ hfuel)]
  | attached grouped some attached _ ih =>
    obtain ⟨fewer, hfewer, heq⟩ := grouped.keptLines_eq some hfuel
    rw [heq, if_pos attached, ih hfewer]
  | stray grouped some stray _ ih =>
    obtain ⟨fewer, hfewer, heq⟩ := grouped.keptLines_eq some hfuel
    rw [heq, if_neg (by simp [stray]), ih hfewer]

/-- What is left when stray groups are dropped is what stripping leaves. -/
theorem dropStray_eq (h : Stripped ls kept) : dropStray ls = kept :=
  h.keptLines_eq (Nat.le_refl _)

theorem sublist (h : Stripped ls kept) : kept.Sublist ls := by
  induction h with
  | nil => exact .slnil
  | line _ _ ih => exact ih.cons_cons _
  | attached grouped _ _ _ ih =>
    rw [← grouped.append_eq]
    exact ih.append_left _
  | stray grouped _ _ _ ih =>
    rw [← grouped.append_eq]
    exact ih.trans (List.sublist_append_right _ _)

theorem head?_eq (h : Stripped ls kept) (hls : ∀ l ∈ ls.head?, startsDecorator l = false) :
    kept.head? = ls.head? := by
  cases h with
  | nil => rfl
  | line => rfl
  | attached grouped some _ _ => exact absurd (grouped.eq_nil hls) some
  | stray grouped some _ _ => exact absurd (grouped.eq_nil hls) some

/-- Lines without decorators are all left. -/
theorem eq_self (h : Stripped ls kept) (hls : ∀ l ∈ ls, startsDecorator l = false) : kept = ls := by
  induction h with
  | nil => rfl
  | line _ _ ih => rw [ih fun l hl => hls l (List.mem_cons_of_mem _ hl)]
  | attached grouped some _ _ _ => exact absurd (grouped.eq_nil fun l hl => hls l (List.mem_of_head? hl)) some
  | stray grouped some _ _ _ => exact absurd (grouped.eq_nil fun l hl => hls l (List.mem_of_head? hl)) some

/-- What is left has no stray groups: a group that was dropped stood between two lines outside of groups. -/
theorem settled (h : Stripped ls kept) : Settled kept := by
  induction h with
  | nil => exact .nil
  | line noDecorator _ ih => exact .line noDecorator ih
  | @attached ls group after kept grouped some attached later ih =>
    have hhead := later.head?_eq grouped.head?_after
    refine .group (grouped.append ?_ ?_) some ?_ ih
    · rw [hhead]
      exact grouped.head?_after
    · rintro rfl
      exact List.head?_eq_none_iff.1 hhead
    · rw [hhead]
      exact attached
  | stray _ _ _ _ ih => exact ih

end Stripped

theorem stripped_dropStray (ls : List String) : Stripped ls (dropStray ls) := by
  obtain ⟨kept, hkept⟩ := exists_stripped ls
  rw [hkept.dropStray_eq]
  exact hkept

namespace Settled

variable {ls ms : List String}

theorem stripped (h : Settled ls) : Stripped ls ls := by
  induction h with
  | nil => exact .nil
  | line noDecorator _ ih => exact .line noDecorator ih
  | group grouped some attached _ ih =>
    have hstripped := Stripped.attached grouped some attached ih
    rw [grouped.append_eq] at hstripped
    exact hstripped

/-- Thinned blank lines leave every group with what it belongs to. -/
theorem thinned (h : Settled ls) (ht : Thinned ls ms) : Settled ms := by
  induction h generalizing ms with
  | nil =>
    cases ht
    exact .nil
  | line noDecorator _ ih =>
    cases ht with
    | cons _ later => exact .line noDecorator (ih later)
    | drop later => exact ih later
  | @group ls group after grouped some attached _ ih =>
    obtain ⟨group', after', hgrouped, hgroup, hafter⟩ := grouped.thinned ht
    refine .group hgrouped ?_ ?_ (ih hafter)
    · rintro rfl
      exact some (List.head?_eq_none_iff.1 hgroup.head?_eq.symm)
    · rw [belongs, hgroup.getLast?_eq, hafter.head?_eq]
      exact attached

end Settled

/-- What is left of lines without their stray decorators is left again, with its blank lines thinned or not. -/
theorem dropStray_of_thinned {ls ms : List String} (h : Thinned (dropStray ls) ms) : dropStray ms = ms :=
  ((stripped_dropStray ls).settled.thinned h).stripped.dropStray_eq

end DiffSlice.Decorator
