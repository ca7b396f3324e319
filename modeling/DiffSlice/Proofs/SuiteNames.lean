import DiffSlice.Proofs.CaseMaps
import DiffSlice.Tree.Language
import Mathlib.Data.List.TakeWhile

/-!
# The names of cases

The path of a suite is one text, and the top of a file has the path `global`. So a suite that is described by that word
is taken for the top of the file: its description is not in the names of the cases inside (`qualify_foldl_topSuite`).
Other suites are spelled out, and a name is the full path exactly if the outermost suite is not described so
(`casesOf_named`).
-/

namespace DiffSlice

/-! ## Paths of suites -/

/-- The descriptions of suites and of what is in them, with a space between neighbours. -/
def spelled (suites : List String) (description : String) : String :=
  " ".intercalate (suites ++ [description])

theorem append_space_ne_topSuite (s t : String) : s ++ " " ++ t ≠ topSuite := by
  intro h
  have hmem : ' ' ∈ topSuite.toList := by simp [← h]
  revert hmem
  decide

/-- A path that is not the one at the top of a file is lengthened by every description. -/
theorem qualify_foldl_of_ne {s : String} (h : s ≠ topSuite) (suites : List String) (d : String) :
    qualify (suites.foldl qualify s) d = spelled (s :: suites) d := by
  induction suites generalizing s with
  | nil => simp [qualify, h, spelled, String.intercalate_cons_cons]
  | cons t suites ih =>
    have hstep : qualify s t = s ++ " " ++ t := by simp [qualify, h]
    rw [List.foldl_cons, hstep, ih (append_space_ne_topSuite s t)]
    simp only [spelled, List.cons_append]
    rw [String.intercalate_cons_cons, String.intercalate_cons_of_ne_nil (by simp),
      String.intercalate_cons_of_ne_nil (by simp)]
    simp only [String.append_assoc]

/-- A name has the descriptions of the suites, but for suites at its start that are described like the top of a file. -/
theorem qualify_foldl_topSuite (suites : List String) (d : String) :
    qualify (suites.foldl qualify topSuite) d = spelled (suites.dropWhile (· == topSuite)) d := by
  induction suites with
  | nil => simp [qualify, spelled]
  | cons s suites ih =>
    have hstep : qualify topSuite s = s := by simp [qualify]
    by_cases hs : s = topSuite
    · subst hs
      rw [List.foldl_cons, hstep, ih]
      simp
    · rw [List.foldl_cons, hstep, qualify_foldl_of_ne hs, List.dropWhile_cons_of_neg (by simpa using hs)]

/-! ## Names that leave suites out -/

/-- Every suite that is spelled makes a name longer. -/
theorem length_le_spelled_append (front suites : List String) (d : String) :
    front.length + (spelled suites d).length ≤ (spelled (front ++ suites) d).length := by
  induction front with
  | nil => simp
  | cons s front ih =>
    have hspace : " ".length = 1 := rfl
    have hcons : spelled (s :: front ++ suites) d = s ++ " " ++ spelled (front ++ suites) d := by
      simp [spelled, String.intercalate_cons_of_ne_nil]
    rw [hcons, List.length_cons, String.length_append, String.length_append]
    omega

/-- No suite is left out of a name exactly if the outermost one is not described like the top of a file. -/
theorem spelled_dropWhile_eq_iff (suites : List String) (d : String) :
    spelled (suites.dropWhile (· == topSuite)) d = spelled suites d ↔ suites.head? ≠ some topSuite := by
  constructor
  · intro heq hhead
    have hlonger := length_le_spelled_append (suites.takeWhile (· == topSuite)) (suites.dropWhile (· == topSuite)) d
    rw [List.takeWhile_append_dropWhile, heq] at hlonger
    obtain ⟨rest, rfl⟩ : ∃ rest, suites = topSuite :: rest := ⟨_, List.eq_cons_of_mem_head? hhead⟩
    rw [List.takeWhile_cons_of_pos (by simp), List.length_cons] at hlonger
    omega
  · intro hhead
    cases suites with
    | nil => rfl
    | cons s suites => rw [List.dropWhile_cons_of_neg (by simpa using hhead)]

/-- A name is the description alone exactly if all suites are described like the top of a file. -/
theorem spelled_dropWhile_eq_self_iff (suites : List String) (d : String) :
    spelled (suites.dropWhile (· == topSuite)) d = d ↔ ∀ s ∈ suites, s = topSuite := by
  have hnone : suites.dropWhile (· == topSuite) = [] ↔ ∀ s ∈ suites, s = topSuite := by
    simp [List.dropWhile_eq_nil_iff]
  have hself : spelled [] d = d := by simp [spelled]
  rw [← hnone]
  constructor
  · intro heq
    have hlonger := length_le_spelled_append (suites.dropWhile (· == topSuite)) [] d
    rw [List.append_nil, heq, hself] at hlonger
    exact List.eq_nil_of_length_eq_zero (by omega)
  · intro heq
    rw [heq, hself]

/-! ## The cases of a file -/

/-- At the place stands a case of which this is recorded: its name has the descriptions of the suites around it and its
own, but for outermost suites that are described like the top of a file. -/
def NamedAt (callees : TestSyntax) (nodes : List Node) (path : List Nat) (c : TestCase) : Prop :=
  ∃ suites head text, CaseAt callees nodes path suites head text ∧
    c = { qualifiedName := spelled (suites.dropWhile (· == topSuite)) head.caseDescription
          scope := suites.foldl qualify topSuite
          description := head.caseDescription
          bodyText := text }

/-- The cases of a file are cases of the walk, and the walk records each case at its place under the descriptions of the
suites around it, but for outermost suites that are described like the top of a file. So a name is the full path exactly
if the outermost suite is not described so, and it is the description alone exactly if all suites are. -/
theorem casesOf_named (tree : SyntaxTree) (callees : TestSyntax) :
    (∀ c ∈ (CaseMap.ofTree tree callees).cases, c ∈ Node.casesOf callees topSuite tree.nodes) ∧
      Lists (NamedAt callees tree.nodes) (Node.casesOf callees topSuite tree.nodes) ∧
      ∀ suites d,
        (spelled (suites.dropWhile (· == topSuite)) d = spelled suites d ↔ suites.head? ≠ some topSuite) ∧
        (spelled (suites.dropWhile (· == topSuite)) d = d ↔ ∀ s ∈ suites, s = topSuite) := by
  refine ⟨fun c hc => ?_, ?_, fun suites d => ?_⟩
  · have hget := (CaseMap.get?_eq_some_iff (CaseMap.nodup_names_ofList _)).2 ⟨hc, rfl⟩
    rw [CaseMap.get?_ofList] at hget
    exact (List.mem_filter.1 (List.mem_of_getLast? hget)).1
  · refine (Node.casesOf_lists callees topSuite tree.nodes).congr fun path c => ?_
    refine exists_congr fun suites => exists_congr fun head => exists_congr fun text => and_congr_right fun _ => ?_
    rw [TestCase.ofCall, qualify_foldl_topSuite]
  · exact ⟨spelled_dropWhile_eq_iff suites d, spelled_dropWhile_eq_self_iff suites d⟩

/-- A case in a suite that is described like the top of a file has its description alone for a name. -/
theorem suite_left_out_of_name : ∃ tree,
    SyntaxTree.parse "describe(\"global\",()=>\x7bit(\"x\")\x7d)" .javaScript = .ok tree ∧
      CaseAt {} tree.nodes [0, 0] ["global"] ⟨some "it", 1, some "\"x\""⟩ "it(\"x\")" ∧
      (CaseMap.ofTree tree {}).cases = [⟨"x", "global", "x", "it(\"x\")"⟩] ∧ spelled ["global"] "x" = "global x" := by
  have hparsed : ((SyntaxTree.parse "describe(\"global\",()=>\x7bit(\"x\")\x7d)" .javaScript).toOption.map fun t =>
      (t.nodes.map fun n => (n.kind, n.items.map fun m => (m.kind, m.text)), (CaseMap.ofTree t {}).cases)) =
        some ([(.call ⟨some "describe", 2, some "\"global\""⟩, [(.call ⟨some "it", 1, some "\"x\""⟩, "it(\"x\")")])],
          [⟨"x", "global", "x", "it(\"x\")"⟩]) := by
    decide +kernel
  cases hparse : SyntaxTree.parse "describe(\"global\",()=>\x7bit(\"x\")\x7d)" .javaScript with
  | error failure =>
    rw [hparse] at hparsed
    cases hparsed
  | ok tree =>
    rw [hparse] at hparsed
    obtain ⟨hnodes, hcases⟩ := Prod.mk.inj (Option.some.inj hparsed)
    refine ⟨tree, rfl, ?_, hcases, by decide⟩
    obtain ⟨n, hn, hsuite⟩ := List.map_eq_singleton_iff.1 hnodes
    obtain ⟨m, hm, hcase⟩ := List.map_eq_singleton_iff.1 (Prod.mk.inj hsuite).2
    have htext : m.text = "it(\"x\")" := (Prod.mk.inj hcase).2
    have hdescription : (⟨some "describe", 2, some "\"global\""⟩ : CallHead).suiteDescription = "global" := by decide
    have hinner : CaseAt {} n.items [0] [] ⟨some "it", 1, some "\"x\""⟩ m.text :=
      .here (by simp [hm]) (Prod.mk.inj hcase).1 (by decide)
    have hplace : CaseAt {} [n] [0, 0] [CallHead.suiteDescription ⟨some "describe", 2, some "\"global\""⟩]
        ⟨some "it", 1, some "\"x\""⟩ m.text :=
      .inside rfl (Prod.mk.inj hsuite).1 (by decide) (by decide) hinner
    rwa [hdescription, ← hn, htext] at hplace

end DiffSlice
