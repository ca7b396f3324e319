import DiffSlice.Proofs.TouchedCode

/-!
# What a slice keeps

A slice is made by marks in order, of which the last on a line counts. `LineKept` says without an order which lines are
kept, by what stands on them. Where siblings share no rows and a class has the rows of its members, the two agree
(`slice_content`): only the node that has a line can skip it, and only annotations that come to be kept with a later
declaration are marked again (`keepsLine_flatMap_iff`).

The more was touched, the more is kept, also where siblings share rows (`slice_mono`): a node that was skipped and is
now shown marks lines to be skipped only where it skipped all before (`keepsMore_sliceMarks`).
-/

namespace DiffSlice

open DiffSlice.Text

/-! ## Lines with their numbers -/

/-- A numbered line stands where its number says. -/
theorem mem_numbered_iff {x : SlicedLine} {number : Nat} {ls : List String} :
    x ∈ numbered number ls ↔ number ≤ x.number ∧ ls[x.number - number]? = some x.text := by
  induction ls generalizing number with
  | nil => simp [numbered]
  | cons text ls ih =>
    obtain ⟨k, t⟩ := x
    rw [numbered, List.mem_cons, ih, SlicedLine.mk.injEq]
    show k = number ∧ t = text ∨ number + 1 ≤ k ∧ ls[k - (number + 1)]? = some t ↔
      number ≤ k ∧ (text :: ls)[k - number]? = some t
    constructor
    · rintro (⟨rfl, rfl⟩ | ⟨hle, ht⟩)
      · simp
      · have hk : k - number = k - (number + 1) + 1 := by omega
        exact ⟨by omega, by rw [hk, List.getElem?_cons_succ, ht]⟩
    · rintro ⟨hle, ht⟩
      by_cases hk : k = number
      · rw [hk, Nat.sub_self, List.getElem?_cons_zero] at ht
        exact .inl ⟨hk, (Option.some.inj ht).symm⟩
      · have hk : k - number = k - (number + 1) + 1 := by omega
        rw [hk, List.getElem?_cons_succ] at ht
        exact .inr ⟨by omega, ht⟩

theorem pairwise_numbered (number : Nat) (ls : List String) :
    (numbered number ls).Pairwise fun x y => x.number < y.number := by
  induction ls generalizing number with
  | nil => exact .nil
  | cons text ls ih =>
    refine .cons (fun x hx => ?_) (ih (number + 1))
    have hle := (mem_numbered_iff.1 hx).1
    show number < x.number
    omega

/-! ## Marks of siblings -/

theorem keepsLine_congr {marks : List LineMark} {line : Nat} (h : ∃ m ∈ marks, m.covers line = true)
    (default default' : Bool) : keepsLine marks default line = keepsLine marks default' line := by
  rw [keepsLine_eq_lastOr, keepsLine_eq_lastOr]
  exact lastOr_congr h default default'

theorem keepsLine_singleton (mark : LineMark) {line : Nat} (h : mark.covers line = true) (default : Bool) :
    keepsLine [mark] default line = mark.keep := by
  simp [keepsLine, h]

theorem keepsLine_of_not_covers {marks : List LineMark} {line : Nat} (h : ∀ m ∈ marks, m.covers line = false)
    (default : Bool) : keepsLine marks default line = default := by
  rw [keepsLine_eq_lastOr]
  exact lastOr_eq (fun m hm hc => by rw [h m hm] at hc; cases hc) (.inl rfl)

/-- At most one item owns the line. It has marks there, while others only keep the line, and not before the item that
owns it. So the line is kept by the marks of its owner, by those of another item, or by default if it has no owner. -/
theorem keepsLine_flatMap_iff {α : Type} {items : List α} {owns : α → Bool} {marksAt : α → List LineMark} {line : Nat}
    (hfirst : items.Pairwise fun a b => owns b = true → owns a = false ∧ ∀ m ∈ marksAt a, m.covers line = false)
    (hown : ∀ a ∈ items, owns a = true → ∃ m ∈ marksAt a, m.covers line = true)
    (hother : ∀ a ∈ items, owns a = false → ∀ m ∈ marksAt a, m.covers line = true → m.keep = true) (default : Bool) :
    keepsLine (items.flatMap marksAt) default line = true ↔
      (∃ a ∈ items, owns a = true ∧ keepsLine (marksAt a) true line = true) ∨
      (∃ a ∈ items, owns a = false ∧ ∃ m ∈ marksAt a, m.covers line = true) ∨
      ((∀ a ∈ items, owns a = false) ∧ default = true) := by
  induction items generalizing default with
  | nil => simp [keepsLine]
  | cons a items ih =>
    obtain ⟨hlater, hfirst⟩ := List.pairwise_cons.1 hfirst
    have ih := ih hfirst (fun b hb => hown b (List.mem_cons_of_mem _ hb))
      (fun b hb => hother b (List.mem_cons_of_mem _ hb)) (keepsLine (marksAt a) default line)
    rw [List.flatMap_cons, keepsLine_append, ih]
    simp only [List.mem_cons, exists_eq_or_imp, forall_eq_or_imp]
    have hno : (∀ b ∈ items, owns b = false) →
        ¬ ∃ b ∈ items, owns b = true ∧ keepsLine (marksAt b) true line = true := by
      rintro hnone ⟨b, hb, h, _⟩
      rw [hnone b hb] at h
      cases h
    by_cases ha : owns a = true
    · have hnone : ∀ b ∈ items, owns b = false := fun b hb => Bool.eq_false_iff.2 fun h => by
        rw [(hlater b hb h).1] at ha
        cases ha
      have hsame := keepsLine_congr (hown a List.mem_cons_self ha) default true
      simp [ha, hsame, hno hnone, and_iff_right hnone, or_comm]
    · replace ha : owns a = false := Bool.eq_false_iff.2 ha
      by_cases hc : ∃ m ∈ marksAt a, m.covers line = true
      · -- a mark that keeps the line: the owner of the line, if there is one, came before
        have hkeep : keepsLine (marksAt a) default line = true :=
          keepsLine_of_keep (hother a List.mem_cons_self ha) (.inr hc)
        have hnone : ∀ b ∈ items, owns b = false := fun b hb => Bool.eq_false_iff.2 fun h => by
          obtain ⟨m, hm, hmc⟩ := hc
          rw [(hlater b hb h).2 m hm] at hmc
          cases hmc
        simp [ha, hkeep, hc, and_iff_right hnone]
      · have hdefault : keepsLine (marksAt a) default line = default :=
          keepsLine_of_not_covers (fun m hm => Bool.eq_false_iff.2 fun h => hc ⟨m, hm, h⟩) default
        simp [ha, hdefault, hc]

namespace Node

variable {n m a : Node} {nodes members before earlier : List Node} {line : Nat} {changes : ChangeSet} {c : String}

/-- The nodes share no row. -/
def Apart (a b : Node) : Prop :=
  a.endRow < b.startRow ∨ b.endRow < a.startRow

instance : DecidableRel Apart := fun a b =>
  inferInstanceAs (Decidable (a.endRow < b.startRow ∨ b.endRow < a.startRow))

theorem Apart.not_covers {a b : Node} (h : Apart a b) (hb : b.covers line = true) : a.covers line = false := by
  rw [Bool.eq_false_iff]
  intro ha
  have ha := covers_iff.1 ha
  have hb := covers_iff.1 hb
  rcases h with h | h <;> omega

/-- The lines of its annotations are not those of a node. -/
theorem not_covers_of_attached (h : nodes.Pairwise Apart) (hmem : (earlier, n) ∈ withEarlier [] nodes)
    (ha : a ∈ n.attached earlier) (hc : a.covers line = true) : n.covers line = false := by
  obtain ⟨front, rest, rfl, rfl⟩ := mem_withEarlier_iff.1 hmem
  have hfront : a ∈ front := by simpa using mem_of_mem_attachedTo ha
  have hapart : Apart a n := (List.pairwise_append.1 h).2.2 a hfront n List.mem_cons_self
  exact Apart.not_covers (Or.symm hapart) hc

/-- Nodes before the one that has a line do not reach it. -/
theorem pairwise_not_reaches (h : nodes.Pairwise Apart) (hbefore : ∀ b ∈ before, ∀ n ∈ nodes, Apart b n) (line : Nat) :
    (withEarlier before nodes).Pairwise fun x y =>
      y.2.covers line = true → x.2.covers line = false ∧ ¬ x.2.Reaches x.1 line := by
  induction nodes generalizing before with
  | nil => exact .nil
  | cons n nodes ih =>
    obtain ⟨hn, h⟩ := List.pairwise_cons.1 h
    refine .cons ?_ (ih h ?_)
    · rintro ⟨earlier, m⟩ hm hc
      replace hm := mem_of_mem_withEarlier hm
      refine ⟨(hn m hm).not_covers hc, fun hr => ?_⟩
      obtain ⟨b, hb, hbc⟩ := hr.exists_covers
      have hapart : Apart b m := by
        rcases hb with rfl | hb
        · exact hn m hm
        · exact hbefore b hb m (List.mem_cons_of_mem _ hm)
      rw [hapart.not_covers hc] at hbc
      cases hbc
    · intro b hb m hm
      rcases List.mem_cons.1 hb with rfl | hb
      · exact hn m hm
      · exact hbefore b hb m (List.mem_cons_of_mem _ hm)

theorem exists_mem_keepMarks_iff :
    (∃ mark ∈ n.keepMarks before, mark.covers line = true) ↔ n.Reaches before line := by
  simp only [keepMarks, List.mem_cons, exists_eq_or_imp]
  refine or_congr Iff.rfl ⟨?_, ?_⟩
  · rintro ⟨mark, hmark, hc⟩
    obtain ⟨a, ha, rfl⟩ := List.mem_map.1 hmark
    exact ⟨a, ha, hc⟩
  · rintro ⟨a, ha, hc⟩
    exact ⟨a.keepMark, List.mem_map_of_mem ha, hc⟩

/-- Siblings that share no row, each with marks on all its lines, none on lines of others but those of its annotations,
and skipping only its own: a line is kept by the sibling that has it, by a later one that keeps it as a line of an
annotation, or by default. -/
theorem keepsLine_siblings_iff (h : nodes.Pairwise Apart) {marksAt : List Node × Node → List LineMark}
    (hreach : ∀ x ∈ withEarlier [] nodes, ∀ mark ∈ marksAt x, mark.covers line = true → x.2.Reaches x.1 line)
    (hown : ∀ x ∈ withEarlier [] nodes, x.2.covers line = true → ∃ mark ∈ marksAt x, mark.covers line = true)
    (hskip : ∀ x ∈ withEarlier [] nodes, ∀ mark ∈ marksAt x, mark.keep ≠ true → mark.covers line = true →
      x.2.covers line = true) (default : Bool) :
    keepsLine ((withEarlier [] nodes).flatMap marksAt) default line = true ↔
      (∃ x ∈ withEarlier [] nodes, x.2.covers line = true ∧ keepsLine (marksAt x) true line = true) ∨
      (∃ x ∈ withEarlier [] nodes, x.2.covers line = false ∧ ∃ mark ∈ marksAt x, mark.covers line = true) ∨
      ((∀ x ∈ withEarlier [] nodes, x.2.covers line = false) ∧ default = true) := by
  refine keepsLine_flatMap_iff ?_ hown ?_ default
  · refine (pairwise_not_reaches h (by simp) line).imp_of_mem fun {x y} hx _ hxy hy => ?_
    refine ⟨(hxy hy).1, fun mark hmark => Bool.eq_false_iff.2 fun hc => ?_⟩
    exact (hxy hy).2 (hreach x hx mark hmark hc)
  · intro x hx hoff mark hmark hc
    by_contra hkeep
    exact Bool.eq_false_iff.1 hoff (hskip x hx mark hmark hkeep hc)

/-! ## Members of a class -/

/-- The member is shown whenever its class is: a variable, a field or a plain comment. -/
def IsPlainMember (m : Node) : Prop :=
  m.kind = .variableDeclaration ∨ m.kind = .fieldDefinition ∨ (m.kind = .comment ∧ m.isDocComment = false)

/-- The member is the constructor or a method that was touched. -/
def IsShownMethod (changes : ChangeSet) (className : String) (m : Node) : Prop :=
  m.kind = .methodDefinition ∧
    ∃ name, m.name = some name ∧ (name = "constructor" ∨ changes.keepsMethod className name = true)

/-- A line of a shown class that is kept: no member has it, or a plain member, a shown method or an annotation of such
a method has it. -/
inductive MemberLineKept (changes : ChangeSet) (className : String) (members : List Node) (line : Nat) : Prop
  | between (free : ∀ m ∈ members, m.covers line = false)
  | plain {m : Node} (mem : m ∈ members) (on : m.covers line = true) (kind : m.IsPlainMember)
  | method {m : Node} (mem : m ∈ members) (on : m.covers line = true) (shown : m.IsShownMethod changes className)
  | annotated {earlier : List Node} {m a : Node} (mem : (earlier, m) ∈ withEarlier [] members)
    (shown : m.IsShownMethod changes className) (attached : a ∈ m.attached earlier) (on : a.covers line = true)

/-- A plain member keeps its lines, a shown method also those of its annotations, and any other member skips its
lines. -/
theorem memberMarks_cases (changes : ChangeSet) (c : String) (before : List Node) (m : Node) :
    (m.IsPlainMember ∧ ¬ m.IsShownMethod changes c ∧ m.memberMarks c changes before = [m.keepMark]) ∨
    (m.IsShownMethod changes c ∧ m.memberMarks c changes before = m.keepMarks before) ∨
    (¬ m.IsPlainMember ∧ ¬ m.IsShownMethod changes c ∧ m.memberMarks c changes before = [m.skipMark]) := by
  by_cases hmethod : m.IsShownMethod changes c
  · refine .inr (.inl ⟨hmethod, ?_⟩)
    obtain ⟨hkind, name, hname, h⟩ := hmethod
    simp [memberMarks, keptMember, hkind, hname, h]
  · by_cases hplain : m.IsPlainMember
    · refine .inl ⟨hplain, hmethod, ?_⟩
      rcases hplain with h | h | ⟨h, hdoc⟩ <;> simp [memberMarks, keptMember, *]
    · refine .inr (.inr ⟨hplain, hmethod, ?_⟩)
      have hkept : m.keptMember c changes = false := by
        unfold IsShownMethod at hmethod
        unfold IsPlainMember at hplain
        unfold keptMember
        split <;> simp_all
        split <;> simp_all
      simp [memberMarks, hkept]

theorem exists_mem_keepMark_iff {mark : LineMark} (h : mark.covers line = n.covers line) :
    (∃ k ∈ [mark], k.covers line = true) ↔ n.covers line = true := by
  simp [h]

/-- The marks of a member are on its own lines, and those of a shown method on its annotations too. -/
theorem exists_mem_memberMarks_iff :
    (∃ mark ∈ m.memberMarks c changes before, mark.covers line = true) ↔
      m.covers line = true ∨ (m.IsShownMethod changes c ∧ ∃ a ∈ m.attached before, a.covers line = true) := by
  rcases memberMarks_cases changes c before m with ⟨_, hno, hm⟩ | ⟨hyes, hm⟩ | ⟨_, hno, hm⟩ <;> rw [hm]
  · rw [exists_mem_keepMark_iff rfl]
    simp [hno]
  · rw [exists_mem_keepMarks_iff]
    simp [Reaches, hyes]
  · rw [exists_mem_keepMark_iff rfl]
    simp [hno]

/-- A member skips no lines but its own. -/
theorem covers_of_mem_memberMarks {mark : LineMark} (h : mark ∈ m.memberMarks c changes before)
    (hkeep : mark.keep ≠ true) (hc : mark.covers line = true) : m.covers line = true := by
  rw [eq_skipMark_of_mem_memberMarks h hkeep] at hc
  exact hc

/-- A member keeps its own lines if it is shown. -/
theorem keepsLine_memberMarks_iff (hc : m.covers line = true) :
    keepsLine (m.memberMarks c changes before) true line = true ↔ m.IsPlainMember ∨ m.IsShownMethod changes c := by
  rcases memberMarks_cases changes c before m with ⟨hyes, _, hm⟩ | ⟨hyes, hm⟩ | ⟨hplain, hno, hm⟩ <;> rw [hm]
  · rw [keepsLine_singleton m.keepMark hc]
    simp [keepMark, hyes]
  · simp [keepsLine_keepMarks (.inl hc), hyes]
  · rw [keepsLine_singleton m.skipMark hc]
    simp [skipMark, hplain, hno]

def membersMarks (c : String) (changes : ChangeSet) (members : List Node) : List LineMark :=
  (withEarlier [] members).flatMap fun (earlier, m) => m.memberMarks c changes earlier

/-- In a shown class, the marks of the members keep what `MemberLineKept` says. -/
theorem keepsLine_membersMarks_iff (h : members.Pairwise Apart) :
    keepsLine (membersMarks c changes members) true line = true ↔ MemberLineKept changes c members line := by
  have hsiblings : keepsLine (membersMarks c changes members) true line = true ↔ _ :=
    keepsLine_siblings_iff h
      (fun x _ mark hmark hc => (exists_mem_memberMarks_iff.1 ⟨mark, hmark, hc⟩).imp_right And.right)
      (fun x _ hc => exists_mem_memberMarks_iff.2 (.inl hc))
      (fun x _ mark hmark hkeep hc => covers_of_mem_memberMarks hmark hkeep hc) true
  rw [hsiblings]
  constructor
  · rintro (⟨⟨earlier, m⟩, hm, hc, hk⟩ | ⟨⟨earlier, m⟩, hm, hc, hmark⟩ | ⟨hfree, _⟩)
    · rcases (keepsLine_memberMarks_iff hc).1 hk with hk | hk
      · exact .plain (mem_of_mem_withEarlier hm) hc hk
      · exact .method (mem_of_mem_withEarlier hm) hc hk
    · obtain ⟨hshown, a, ha, hac⟩ := (exists_mem_memberMarks_iff.1 hmark).resolve_left (Bool.eq_false_iff.1 hc)
      exact .annotated hm hshown ha hac
    · refine .between fun m hm => ?_
      obtain ⟨earlier, hm⟩ := exists_mem_withEarlier hm
      exact hfree _ hm
  · rintro (hfree | ⟨hm, hc, hk⟩ | ⟨hm, hc, hk⟩ | @⟨earlier, m, a, hm, hk, ha, hac⟩)
    · exact .inr (.inr ⟨fun x hx => hfree x.2 (mem_of_mem_withEarlier hx), rfl⟩)
    · obtain ⟨earlier, hm⟩ := exists_mem_withEarlier hm
      exact .inl ⟨_, hm, hc, (keepsLine_memberMarks_iff hc).2 (.inl hk)⟩
    · obtain ⟨earlier, hm⟩ := exists_mem_withEarlier hm
      exact .inl ⟨_, hm, hc, (keepsLine_memberMarks_iff hc).2 (.inr hk)⟩
    · have hoff := not_covers_of_attached h hm ha hac
      exact .inr (.inl ⟨_, hm, hoff, exists_mem_memberMarks_iff.2 (.inr ⟨hk, a, ha, hac⟩)⟩)

/-! ## Nodes at the top -/

/-- The node at the top is always shown: an import, a variable or a plain comment. -/
def IsPreamble (n : Node) : Prop :=
  n.kind = .importStatement ∨ n.kind = .variableDeclaration ∨ (n.kind = .comment ∧ n.isDocComment = false)

def IsTouchedFunction (changes : ChangeSet) (n : Node) : Prop :=
  n.kind = .functionDeclaration ∧ ∃ name, n.name = some name ∧ changes.keepsFunction name = true

def IsTouchedClass (changes : ChangeSet) (className : String) (n : Node) : Prop :=
  n.kind = .classDeclaration ∧ n.name = some className ∧ changes.keepsClass className = true

/-- A line that is kept: no node has it, or a node that is always shown, a touched function or an annotation of a
touched function or class has it, or it is a line of a touched class that is kept there. -/
inductive LineKept (changes : ChangeSet) (nodes : List Node) (line : Nat) : Prop
  | between (free : ∀ n ∈ nodes, n.covers line = false)
  | preamble {n : Node} (mem : n ∈ nodes) (on : n.covers line = true) (kind : n.IsPreamble)
  | function {n : Node} (mem : n ∈ nodes) (on : n.covers line = true) (touched : n.IsTouchedFunction changes)
  | annotated {earlier : List Node} {n a : Node} (mem : (earlier, n) ∈ withEarlier [] nodes)
    (touched : n.IsTouchedFunction changes ∨ ∃ c, n.IsTouchedClass changes c) (attached : a ∈ n.attached earlier)
    (on : a.covers line = true)
  | inClass {n : Node} {c : String} (mem : n ∈ nodes) (on : n.covers line = true) (touched : n.IsTouchedClass changes c)
    (inside : MemberLineKept changes c n.items line)

/-- What is always shown keeps its lines, a touched function also those of its annotations, a touched class these and
what its members keep, and any other node skips its lines. -/
theorem sliceMarks_cases (changes : ChangeSet) (before : List Node) (n : Node) :
    (n.IsPreamble ∧ ¬ n.IsTouchedFunction changes ∧ (∀ c, ¬ n.IsTouchedClass changes c) ∧
      n.sliceMarks changes before = [n.keepMark]) ∨
    (n.IsTouchedFunction changes ∧ (∀ c, ¬ n.IsTouchedClass changes c) ∧
      n.sliceMarks changes before = n.keepMarks before) ∨
    (∃ c, ¬ n.IsPreamble ∧ ¬ n.IsTouchedFunction changes ∧ n.IsTouchedClass changes c ∧
      n.sliceMarks changes before = n.keepMarks before ++ membersMarks c changes n.items) ∨
    (¬ n.IsPreamble ∧ ¬ n.IsTouchedFunction changes ∧ (∀ c, ¬ n.IsTouchedClass changes c) ∧
      n.sliceMarks changes before = [n.skipMark]) := by
  by_cases hpreamble : n.IsPreamble
  · refine .inl ⟨hpreamble, ?_⟩
    rcases hpreamble with h | h | ⟨h, hdoc⟩ <;>
      simp [IsTouchedFunction, IsTouchedClass, sliceMarks, keptTopLevel, *]
  by_cases hfunction : n.IsTouchedFunction changes
  · refine .inr (.inl ⟨hfunction, ?_⟩)
    obtain ⟨hkind, name, hname, h⟩ := hfunction
    simp [IsTouchedClass, sliceMarks, keptTopLevel, hkind, hname, h]
  by_cases hclass : ∃ c, n.IsTouchedClass changes c
  · obtain ⟨c, hclass⟩ := hclass
    refine .inr (.inr (.inl ⟨c, hpreamble, hfunction, hclass, ?_⟩))
    obtain ⟨hkind, hname, h⟩ := hclass
    simp [sliceMarks, keptTopLevel, hkind, hname, h, membersMarks]
  · refine .inr (.inr (.inr ⟨hpreamble, hfunction, not_exists.1 hclass, ?_⟩))
    have hkept : n.keptTopLevel changes = false := by
      unfold IsPreamble at hpreamble
      unfold IsTouchedFunction at hfunction
      unfold IsTouchedClass at hclass
      unfold keptTopLevel
      split <;> simp_all [Option.any_eq_false]
    simp [sliceMarks, hkept]

theorem IsTouchedClass.name_eq {c c' : String} (h : n.IsTouchedClass changes c) (h' : n.IsTouchedClass changes c') :
    c' = c :=
  Option.some.inj (h'.2.1.symm.trans h.2.1)

/-- The marks of a node are on its own lines, and those of a touched declaration on its annotations too. -/
theorem exists_mem_sliceMarks_iff (h : n.HoldsMembers) :
    (∃ mark ∈ n.sliceMarks changes before, mark.covers line = true) ↔
      n.covers line = true ∨ ((n.IsTouchedFunction changes ∨ ∃ c, n.IsTouchedClass changes c) ∧
        ∃ a ∈ n.attached before, a.covers line = true) := by
  rcases sliceMarks_cases changes before n with
    ⟨_, hf, hc, hm⟩ | ⟨hf, _, hm⟩ | ⟨c, _, _, hc, hm⟩ | ⟨_, hf, hc, hm⟩ <;> rw [hm]
  · rw [exists_mem_keepMark_iff rfl]
    simp [hf, hc]
  · rw [exists_mem_keepMarks_iff]
    simp [Reaches, hf]
  · have hmembers : (∃ mark ∈ membersMarks c changes n.items, mark.covers line = true) → n.covers line = true := by
      rintro ⟨mark, hmark, hmc⟩
      obtain ⟨⟨earlier, m⟩, hmem, hmark⟩ := List.mem_flatMap.1 hmark
      have hreach : m.Reaches earlier line :=
        (exists_mem_memberMarks_iff.1 ⟨mark, hmark, hmc⟩).imp_right And.right
      obtain ⟨b, hb, hbc⟩ := exists_covers_of_reaches hmem hreach
      exact h.covers hc.1 hb hbc
    have happend : (∃ mark ∈ n.keepMarks before ++ membersMarks c changes n.items, mark.covers line = true) ↔
        n.Reaches before line ∨ ∃ mark ∈ membersMarks c changes n.items, mark.covers line = true := by
      simp only [List.mem_append, or_and_right, exists_or, exists_mem_keepMarks_iff]
    rw [happend]
    constructor
    · rintro ((hn | ha) | hmem)
      · exact .inl hn
      · exact .inr ⟨.inr ⟨c, hc⟩, ha⟩
      · exact .inl (hmembers hmem)
    · rintro (hn | ⟨_, ha⟩)
      · exact .inl (.inl hn)
      · exact .inl (.inr ha)
  · rw [exists_mem_keepMark_iff rfl]
    simp [hf, hc]

/-- A node keeps its own lines if it is shown, and a touched class those that its members leave. -/
theorem keepsLine_sliceMarks_iff (hitems : n.kind = .classDeclaration → n.items.Pairwise Apart)
    (hon : n.covers line = true) :
    keepsLine (n.sliceMarks changes before) true line = true ↔
      n.IsPreamble ∨ n.IsTouchedFunction changes ∨
        ∃ c, n.IsTouchedClass changes c ∧ MemberLineKept changes c n.items line := by
  rcases sliceMarks_cases changes before n with
    ⟨hp, _, _, hm⟩ | ⟨hf, _, hm⟩ | ⟨c, hp, hf, hc, hm⟩ | ⟨hp, hf, hc, hm⟩ <;> rw [hm]
  · rw [keepsLine_singleton n.keepMark hon]
    simp [keepMark, hp]
  · rw [keepsLine_keepMarks (.inl hon)]
    simp [hf]
  · rw [keepsLine_append, keepsLine_keepMarks (.inl hon), keepsLine_membersMarks_iff (hitems hc.1)]
    constructor
    · exact fun h => .inr (.inr ⟨c, hc, h⟩)
    · rintro (h | h | ⟨c', hc', h⟩)
      · exact absurd h hp
      · exact absurd h hf
      · exact hc.name_eq hc' ▸ h
  · rw [keepsLine_singleton n.skipMark hon]
    simp [skipMark, hp, hf, hc]

/-- The marks of the nodes at the top keep what `LineKept` says. -/
theorem keepsLine_topLevel_iff (h : nodes.Pairwise Apart) (hrows : ∀ n ∈ nodes, n.HoldsMembers)
    (hitems : ∀ n ∈ nodes, n.kind = .classDeclaration → n.items.Pairwise Apart) :
    keepsLine ((withEarlier [] nodes).flatMap fun (before, n) => n.sliceMarks changes before) true line = true ↔
      LineKept changes nodes line := by
  have hholds : ∀ x ∈ withEarlier [] nodes, x.2.HoldsMembers := fun x hx => hrows x.2 (mem_of_mem_withEarlier hx)
  have hapart : ∀ x ∈ withEarlier [] nodes, x.2.kind = .classDeclaration → x.2.items.Pairwise Apart :=
    fun x hx => hitems x.2 (mem_of_mem_withEarlier hx)
  have hsiblings : keepsLine ((withEarlier [] nodes).flatMap fun (before, n) => n.sliceMarks changes before) true line
      = true ↔ _ :=
    keepsLine_siblings_iff h
      (fun x hx mark hmark hc => ((exists_mem_sliceMarks_iff (hholds x hx)).1 ⟨mark, hmark, hc⟩).imp_right And.right)
      (fun x hx hc => (exists_mem_sliceMarks_iff (hholds x hx)).2 (.inl hc))
      (fun x hx mark hmark hkeep hc => (covers_of_mem_sliceMarks (hholds x hx) hmark hkeep hc).1) true
  rw [hsiblings]
  constructor
  · rintro (⟨⟨earlier, n⟩, hn, hc, hk⟩ | ⟨⟨earlier, n⟩, hn, hc, hmark⟩ | ⟨hfree, _⟩)
    · have hmem := mem_of_mem_withEarlier hn
      rcases (keepsLine_sliceMarks_iff (hapart _ hn) hc).1 hk with hk | hk | ⟨c, hk, hinside⟩
      · exact .preamble hmem hc hk
      · exact .function hmem hc hk
      · exact .inClass hmem hc hk hinside
    · obtain ⟨htouched, a, ha, hac⟩ :=
        ((exists_mem_sliceMarks_iff (hholds _ hn)).1 hmark).resolve_left (Bool.eq_false_iff.1 hc)
      exact .annotated hn htouched ha hac
    · refine .between fun n hn => ?_
      obtain ⟨earlier, hn⟩ := exists_mem_withEarlier hn
      exact hfree _ hn
  · rintro (hfree | ⟨hn, hc, hk⟩ | ⟨hn, hc, hk⟩ | @⟨earlier, n, a, hn, hk, ha, hac⟩ | ⟨hn, hc, hk, hinside⟩)
    · exact .inr (.inr ⟨fun x hx => hfree x.2 (mem_of_mem_withEarlier hx), rfl⟩)
    · obtain ⟨earlier, hn⟩ := exists_mem_withEarlier hn
      exact .inl ⟨_, hn, hc, (keepsLine_sliceMarks_iff (hapart _ hn) hc).2 (.inl hk)⟩
    · obtain ⟨earlier, hn⟩ := exists_mem_withEarlier hn
      exact .inl ⟨_, hn, hc, (keepsLine_sliceMarks_iff (hapart _ hn) hc).2 (.inr (.inl hk))⟩
    · have hoff := not_covers_of_attached h hn ha hac
      exact .inr (.inl ⟨_, hn, hoff, (exists_mem_sliceMarks_iff (hholds _ hn)).2 (.inr ⟨hk, a, ha, hac⟩)⟩)
    · obtain ⟨earlier, hn⟩ := exists_mem_withEarlier hn
      exact .inl ⟨_, hn, hc, (keepsLine_sliceMarks_iff (hapart _ hn) hc).2 (.inr (.inr ⟨_, hk, hinside⟩))⟩

end Node

/-- The lines of a slice stand in order, each with its text, and are those of the source that `LineKept` names, where
siblings share no row and a class has the rows of its members. -/
theorem slice_content {tree : SyntaxTree} (hnodes : tree.nodes.Pairwise Node.Apart)
    (hrows : ∀ n ∈ tree.nodes, n.HoldsMembers)
    (hitems : ∀ n ∈ tree.nodes, n.kind = .classDeclaration → n.items.Pairwise Node.Apart) (changes : ChangeSet) :
    (slice tree changes).lineNumbers.Pairwise (· < ·) ∧
    (∀ x ∈ (slice tree changes).lines, 1 ≤ x.number ∧ tree.lines[x.number - 1]? = some x.text) ∧
    ∀ line, line ∈ (slice tree changes).lineNumbers ↔
      (1 ≤ line ∧ line ≤ tree.lineCount) ∧ Node.LineKept changes tree.nodes line := by
  refine ⟨?_, fun x hx => ?_, fun line => ?_⟩
  · rw [Slice.lineNumbers, List.pairwise_map]
    exact (pairwise_numbered 1 _).sublist List.filter_sublist
  · exact mem_numbered_iff.1 (List.mem_filter.1 hx).1
  · rw [slice, mem_lineNumbers_ofMarks, Node.keepsLine_topLevel_iff hnodes hrows hitems]
    have hcount : line < 1 + (lines tree.source).length ↔ line ≤ tree.lineCount := by
      rw [SyntaxTree.lineCount, SyntaxTree.lines]
      omega
    rw [hcount]

/-- The comment above a method is kept if the method is touched, and not otherwise. -/
theorem documentation_kept_if_touched :
    Node.LineKept (.record .empty ⟨[.inClass "C", .inFunction "m"]⟩) documentedMethod.nodes 2 ∧
      ¬ Node.LineKept .empty documentedMethod.nodes 2 := by
  have hcontent := slice_content (by decide : documentedMethod.nodes.Pairwise Node.Apart) (by decide) (by decide)
  constructor
  · exact (((hcontent _).2.2 2).1 (by decide +kernel)).2
  · exact fun h => absurd (((hcontent .empty).2.2 2).2 ⟨by decide, h⟩) (by decide +kernel)

/-! ## More changes -/

/-- Whatever the first marks keep of a line, the second ones keep too. -/
def KeepsMore (line : Nat) (xs ys : List LineMark) : Prop :=
  ∀ default default' : Bool, (default = true → default' = true) →
    keepsLine xs default line = true → keepsLine ys default' line = true

section KeepsMore

variable {line : Nat} {xs ys : List LineMark}

theorem keepsMore_refl (line : Nat) (xs : List LineMark) : KeepsMore line xs xs := by
  intro default default' hd h
  by_cases hc : ∃ m ∈ xs, m.covers line = true
  · rw [keepsLine_congr hc default' default]
    exact h
  · have hnone : ∀ m ∈ xs, m.covers line = false := fun m hm => Bool.eq_false_iff.2 fun hmc => hc ⟨m, hm, hmc⟩
    rw [keepsLine_of_not_covers hnone] at h ⊢
    exact hd h

theorem KeepsMore.append {xs' ys' : List LineMark} (h : KeepsMore line xs ys) (h' : KeepsMore line xs' ys') :
    KeepsMore line (xs ++ xs') (ys ++ ys') := by
  intro default default' hd hk
  rw [keepsLine_append] at hk ⊢
  exact h' _ _ (h default default' hd) hk

theorem KeepsMore.flatMap {α : Type} {items : List α} {f g : α → List LineMark}
    (h : ∀ a ∈ items, KeepsMore line (f a) (g a)) : KeepsMore line (items.flatMap f) (items.flatMap g) := by
  induction items with
  | nil => exact keepsMore_refl line []
  | cons a items ih =>
    rw [List.flatMap_cons, List.flatMap_cons]
    exact (h a List.mem_cons_self).append (ih fun b hb => h b (List.mem_cons_of_mem _ hb))

/-- Where only its own lines are skipped, more is kept than if a node is skipped. -/
theorem keepsMore_of_skip {n : Node}
    (h : ∀ m ∈ ys, m.keep ≠ true → m.covers line = true → n.covers line = true) :
    KeepsMore line [n.skipMark] ys := by
  intro default default' hd hk
  by_cases hc : n.covers line = true
  · rw [keepsLine_singleton n.skipMark hc] at hk
    cases hk
  · have hdefault : default = true := by
      rw [keepsLine_of_not_covers (fun m hm => ?_)] at hk
      · exact hk
      · rw [List.mem_singleton.1 hm]
        exact Bool.eq_false_iff.2 hc
    refine keepsLine_of_keep (fun m hm hmc => ?_) (.inl (hd hdefault))
    by_contra hskip
    exact hc (h m hm hskip hmc)

end KeepsMore

namespace Node

variable {n m : Node} {before : List Node} {s t : ChangeSet} (h : s.Le t)

include h

theorem keptMember_mono {c : String} (hm : m.keptMember c s = true) : m.keptMember c t = true := by
  unfold keptMember at hm ⊢
  split <;> simp_all
  split <;> simp_all
  exact hm.imp_right h.keepsMethod

theorem keptTopLevel_mono (hn : n.keptTopLevel s = true) : n.keptTopLevel t = true := by
  unfold keptTopLevel at hn ⊢
  split <;> simp_all [Option.any_eq_true]
  · obtain ⟨name, hname, hn⟩ := hn
    exact ⟨name, hname, h.keepsFunction hn⟩
  · obtain ⟨name, hname, hn⟩ := hn
    exact ⟨name, hname, h.keepsClass hn⟩

/-- A member that is shown for fewer changes has the same marks for more, and one that is not skips all its lines. -/
theorem keepsMore_memberMarks (line : Nat) (c : String) :
    KeepsMore line (m.memberMarks c s before) (m.memberMarks c t before) := by
  by_cases hs : m.keptMember c s = true
  · have hsame : m.memberMarks c t before = m.memberMarks c s before := by
      simp [memberMarks, hs, keptMember_mono h hs]
    rw [hsame]
    exact keepsMore_refl line _
  · have hskip : m.memberMarks c s before = [m.skipMark] := by simp [memberMarks, hs]
    rw [hskip]
    exact keepsMore_of_skip fun mark hmark hkeep hc => covers_of_mem_memberMarks hmark hkeep hc

/-- A node at the top that is shown for fewer changes differs in the marks of its members only, and one that is not
skips all its lines. -/
theorem keepsMore_sliceMarks (hrows : n.HoldsMembers) (line : Nat) :
    KeepsMore line (n.sliceMarks s before) (n.sliceMarks t before) := by
  by_cases hs : n.keptTopLevel s = true
  · unfold sliceMarks
    rw [if_pos hs, if_pos (keptTopLevel_mono h hs)]
    split
    · exact keepsMore_refl line _
    · refine (keepsMore_refl line _).append (.flatMap ?_)
      rintro ⟨earlier, m⟩ _
      exact keepsMore_memberMarks h line _
    · exact keepsMore_refl line _
  · have hskip : n.sliceMarks s before = [n.skipMark] := by simp [sliceMarks, hs]
    rw [hskip]
    exact keepsMore_of_skip fun mark hmark hkeep hc => (covers_of_mem_sliceMarks hrows hmark hkeep hc).1

end Node

/-- A slice for more changes has all lines of a slice for fewer, if a class has the rows of its members; siblings may
share rows. -/
theorem slice_mono {tree : SyntaxTree} (hrows : ∀ n ∈ tree.nodes, n.HoldsMembers) {s t : ChangeSet} (h : s.Le t) :
    ∀ line ∈ (slice tree s).lineNumbers, line ∈ (slice tree t).lineNumbers := by
  intro line hline
  rw [slice, mem_lineNumbers_ofMarks] at hline ⊢
  refine ⟨hline.1, KeepsMore.flatMap ?_ true true id hline.2⟩
  rintro ⟨before, n⟩ hn
  exact Node.keepsMore_sliceMarks h (hrows n (mem_of_mem_withEarlier hn)) line

/-- A class whose last line has a variable after it. -/
def variableAfterClass : SyntaxTree where
  source := "class C \x7b\n  m() \x7b\x7d \x7d var v\n"
  nodes := [{ kind := .classDeclaration, typeName := "class_declaration", startRow := 0, endRow := 1, text := ""
              name := some "C"
              items := [
                { kind := .methodDefinition, typeName := "method_definition", startRow := 1, endRow := 1, text := ""
                  name := some "m" }] },
            { kind := .variableDeclaration, typeName := "variable_declaration", startRow := 1, endRow := 1
              text := "" }]

/-- A variable behind a class, in its last row, is kept whether the class is touched or not. -/
theorem variable_kept_on_shared_row :
    2 ∈ (slice variableAfterClass .empty).lineNumbers ∧
      2 ∈ (slice variableAfterClass (.record .empty ⟨[.inClass "C"]⟩)).lineNumbers := by
  have hkept : 2 ∈ (slice variableAfterClass .empty).lineNumbers := by decide +kernel
  exact ⟨hkept, slice_mono (by decide) (ChangeSet.record_le .empty _) 2 hkept⟩

end DiffSlice
