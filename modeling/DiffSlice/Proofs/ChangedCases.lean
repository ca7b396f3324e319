import DiffSlice.Proofs.BlockLayout
import DiffSlice.Proofs.CaseMaps
import DiffSlice.Proofs.TextLines
import DiffSlice.Suite.Report

/-!
# Changed cases

Two texts are told apart by looking for a change in the script between their lines. That finds every difference and only
differences (`linesDiffer_iff`): a script without changes leads from a list of lines to itself, no character is lost
when a text is cut into lines, and the script of a list to itself has no change. So the report of two texts of a file
has exactly the new cases and those with another text, in the order of the new file (`detectChanges_exact`).
-/

namespace DiffSlice.Patch

open DiffSlice.Text

/-! ## The script of a text to itself -/

theorem commonLength_self (ls : List String) : commonLength ls ls = ls.length := by
  induction ls with
  | nil => rfl
  | cons l ls ih => simp [commonLength, ih]

/-- All lines stay between a list of lines and itself. -/
theorem find_self (ls : List String) : Script.find ls ls = runOf .equal ls := by
  simp [Script.find, search, commonLength_self, exchange, runOf]

/-- A pass with nothing to move leaves the script as it is. -/
theorem settle_of_not_moves {moves : Run → Bool} {weight : Nat} {before after : List Run}
    (h : ∀ run ∈ after, moves run = false) (fuel : Nat) :
    settle moves weight before after fuel = before.reverse ++ after := by
  induction fuel generalizing before after with
  | zero => rfl
  | succ fuel ih =>
    cases after with
    | nil => simp [settle]
    | cons run rest =>
      rw [settle, h run List.mem_cons_self]
      simp [ih fun r hr => h r (List.mem_cons_of_mem _ hr)]

theorem compact_runOf_equal (ls : List String) : (runOf .equal ls).compact = runOf .equal ls := by
  have hequal : ∀ moves : Run → Bool, moves (.equal ls) = false → ∀ run ∈ runOf .equal ls, moves run = false := by
    intro moves hmoves run hrun
    rw [runOf] at hrun
    split at hrun
    · cases hrun
    · rw [List.mem_singleton.1 hrun, hmoves]
  simp only [Script.compact]
  rw [settle_of_not_moves (hequal Run.isDelete rfl), List.reverse_nil, List.nil_append,
    settle_of_not_moves (hequal Run.isInsert rfl), List.reverse_nil, List.nil_append]

/-- No text differs from itself. -/
theorem linesDiffer_self (s : String) : linesDiffer s s = false := by
  rw [linesDiffer, segmentsBetween, find_self, compact_runOf_equal, runOf]
  split <;> rfl

/-- Some line differs exactly if the texts are different. -/
theorem linesDiffer_iff (before after : String) : linesDiffer before after = true ↔ before ≠ after := by
  constructor
  · rintro h rfl
    rw [linesDiffer_self] at h
    cases h
  · intro hne
    by_contra h
    have hsame := Block.old_eq_new (b := ⟨0, 0, segmentsBetween before after⟩) h
    rw [Block.old, Block.new, segmentsBetween_old, segmentsBetween_new] at hsame
    exact hne (terminatedLines_inj hsame)

end DiffSlice.Patch

namespace DiffSlice

open DiffSlice.Patch

/-! ## Reports -/

section

variable {old new : CaseMap} {c : TestCase} {name : String} {change : CaseChange}

/-- A case is new if there was none of its name. -/
theorem CaseMap.change?_eq_new_iff : old.change? c = some .new ↔ old.get? c.qualifiedName = none := by
  unfold CaseMap.change?
  split
  · simp_all
  · split <;> simp_all

/-- A case is modified if there was one of its name with another text. -/
theorem CaseMap.change?_eq_modified_iff :
    old.change? c = some .modified ↔ ∃ d, old.get? c.qualifiedName = some d ∧ d.bodyText ≠ c.bodyText := by
  unfold CaseMap.change?
  split
  · simp_all
  · rename_i d hd
    simp [hd, linesDiffer_iff]

/-- Changed cases are reported in the order of the new map. -/
theorem names_changedCases_sublist : ((changedCases old new).map (·.qualifiedName)).Sublist new.names := by
  unfold changedCases CaseMap.names
  induction new.cases with
  | nil => exact .slnil
  | cons c cases ih =>
    rw [List.filterMap_cons]
    cases old.change? c with
    | none => exact ih.cons _
    | some change => exact ih.cons_cons _

/-- A case is reported with the change against the old one of its name. -/
theorem mem_changedCases_iff (hnodup : new.names.Nodup) :
    ⟨name, change⟩ ∈ changedCases old new ↔ ∃ c, new.get? name = some c ∧ old.change? c = some change := by
  simp only [changedCases, List.mem_filterMap, Option.map_eq_some_iff, ChangedCase.mk.injEq,
    CaseMap.get?_eq_some_iff hnodup]
  constructor
  · rintro ⟨c, hc, _, hchange, hname, rfl⟩
    exact ⟨c, ⟨hc, hname⟩, hchange⟩
  · rintro ⟨c, ⟨hc, hname⟩, hchange⟩
    exact ⟨c, hc, change, hchange, hname, rfl⟩

/-- Nothing changes from a map to itself. -/
theorem changedCases_self (hnodup : new.names.Nodup) : changedCases new new = [] := by
  refine List.filterMap_eq_nil_iff.2 fun c hc => ?_
  have hget := (CaseMap.get?_eq_some_iff hnodup).2 ⟨hc, rfl⟩
  simp [CaseMap.change?, hget, linesDiffer_self]

end

/-- The text of a file had a case of that name. A text that cannot be parsed has no cases. -/
def HadCase (before : String) (language : SourceLanguage) (callees : TestSyntax) (name : String) (d : TestCase) :
    Prop :=
  ∃ tree, SyntaxTree.parse before language = .ok tree ∧ (CaseMap.ofTree tree callees).get? name = some d

section

variable {before after : String} {language : SourceLanguage} {callees : TestSyntax} {tree : SyntaxTree}

/-- The report is made against the cases that the old text had. -/
theorem exists_detectChanges (h : SyntaxTree.parse after language = .ok tree) (before : String)
    (callees : TestSyntax) : ∃ old : CaseMap,
      detectChanges before after language callees = .ok (changedCases old (.ofTree tree callees)) ∧
        ∀ name d, old.get? name = some d ↔ HadCase before language callees name d := by
  cases hbefore : SyntaxTree.parse before language with
  | ok oldTree =>
    refine ⟨.ofTree oldTree callees, ?_, fun name d => ?_⟩
    · simp [detectChanges, h, hbefore, bind, Except.bind, pure, Except.pure]
    · simp [HadCase, hbefore]
  | error failure =>
    refine ⟨⟨[]⟩, ?_, fun name d => ?_⟩
    · simp [detectChanges, h, hbefore, bind, Except.bind, pure, Except.pure]
    · simp [HadCase, hbefore, CaseMap.get?]

theorem detectChanges_self (h : SyntaxTree.parse after language = .ok tree) (callees : TestSyntax) :
    detectChanges after after language callees = .ok [] := by
  simp [detectChanges, h, bind, Except.bind, pure, Except.pure, changedCases_self, CaseMap.ofTree,
    CaseMap.nodup_names_ofList]

/-- There is no report of a text that cannot be parsed. -/
theorem exists_parse_of_detectChanges {changes : List ChangedCase}
    (h : (detectChanges before after language callees).toOption = some changes) :
    ∃ tree, SyntaxTree.parse after language = .ok tree ∧
      detectChanges before after language callees = .ok changes := by
  cases hafter : SyntaxTree.parse after language with
  | ok tree =>
    obtain ⟨old, hreport, -⟩ := exists_detectChanges hafter before callees
    rw [hreport] at h ⊢
    exact ⟨tree, rfl, congrArg Except.ok (Option.some.inj h)⟩
  | error failure => simp [detectChanges, hafter, bind, Except.bind, Except.toOption] at h

/-- Where the new text can be parsed, there is a report. Its names are names of the new file's cases, in their order and
without repetition. A case is reported as new exactly if the old text had none of its name, and as modified exactly if
the old text had one with another text. So a text that stays as it is has an empty report. -/
theorem detectChanges_exact (h : SyntaxTree.parse after language = .ok tree) (before : String)
    (callees : TestSyntax) :
    (∃ changes, detectChanges before after language callees = .ok changes ∧
      (changes.map (·.qualifiedName)).Sublist (CaseMap.ofTree tree callees).names ∧
      (changes.map (·.qualifiedName)).Nodup ∧
      ∀ name,
        (⟨name, .new⟩ ∈ changes ↔ ∃ c, (CaseMap.ofTree tree callees).get? name = some c ∧
          ∀ d, ¬ HadCase before language callees name d) ∧
        (⟨name, .modified⟩ ∈ changes ↔ ∃ c, (CaseMap.ofTree tree callees).get? name = some c ∧
          ∃ d, HadCase before language callees name d ∧ d.bodyText ≠ c.bodyText)) ∧
    detectChanges after after language callees = .ok [] ∧ ∀ a b, linesDiffer a b = true ↔ a ≠ b := by
  have hnodup : (CaseMap.ofTree tree callees).names.Nodup := CaseMap.nodup_names_ofList _
  obtain ⟨old, hreport, hold⟩ := exists_detectChanges h before callees
  refine ⟨⟨_, hreport, names_changedCases_sublist, hnodup.sublist names_changedCases_sublist, fun name => ⟨?_, ?_⟩⟩,
    detectChanges_self h callees, linesDiffer_iff⟩
  · rw [mem_changedCases_iff hnodup]
    refine exists_congr fun c => and_congr_right fun hc => ?_
    rw [CaseMap.change?_eq_new_iff, ((CaseMap.get?_eq_some_iff hnodup).1 hc).2, Option.eq_none_iff_forall_ne_some]
    simp only [ne_eq, hold]
  · rw [mem_changedCases_iff hnodup]
    refine exists_congr fun c => and_congr_right fun hc => ?_
    rw [CaseMap.change?_eq_modified_iff, ((CaseMap.get?_eq_some_iff hnodup).1 hc).2]
    simp only [hold]

/-- Of two cases one has another text than before and one is new. -/
theorem detectChanges_exact_two_cases :
    ∃ tree, SyntaxTree.parse "it(\"a\",f);it(\"b\")" .javaScript = .ok tree ∧
      (∃ c, (CaseMap.ofTree tree {}).get? "a" = some c ∧
        ∃ d, HadCase "it(\"a\")" .javaScript {} "a" d ∧ d.bodyText ≠ c.bodyText) ∧
      ∃ c, (CaseMap.ofTree tree {}).get? "b" = some c ∧ ∀ d, ¬ HadCase "it(\"a\")" .javaScript {} "b" d := by
  have hreport : (detectChanges "it(\"a\")" "it(\"a\",f);it(\"b\")" .javaScript {}).toOption =
      some [⟨"a", .modified⟩, ⟨"b", .new⟩] := by
    decide +kernel
  obtain ⟨tree, hparse, hchanges⟩ := exists_parse_of_detectChanges hreport
  obtain ⟨changes, hsame, -, -, hexact⟩ := (detectChanges_exact hparse "it(\"a\")" {}).1
  obtain rfl : [⟨"a", .modified⟩, ⟨"b", .new⟩] = changes := Except.ok.inj (hchanges.symm.trans hsame)
  exact ⟨tree, hparse, (hexact "a").2.1 (by simp), (hexact "b").1.1 (by simp)⟩

end

end DiffSlice
