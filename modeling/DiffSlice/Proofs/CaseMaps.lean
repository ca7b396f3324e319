import DiffSlice.Proofs.PlacedLists
import DiffSlice.Suite.Case
import Mathlib.Data.List.Induction
import Mathlib.Data.List.Nodup

/-!
# The cases of a file

A case stands at a place of a source (`CaseAt`): a number for each list of statements on the way to it, which leads
through suites. The walk lists what is recorded of the cases in the order of these places (`casesOf_lists`), and the
cases of a file are those of the walk by name: names come in the order in which they first occur, and under a name is
the last case that has it (`ofTree_last_wins`).
-/

namespace DiffSlice

/-! ## Places of cases -/

/-- A case stands at a place, which is told by the number of a statement in each list on the way to it. The way leads
through calls of suites, whose descriptions are given from the outermost on. -/
inductive CaseAt (callees : TestSyntax) : List Node → List Nat → List String → CallHead → String → Prop
  | here {nodes : List Node} {i : Nat} {n : Node} {head : CallHead} (stands : nodes[i]? = some n)
    (called : n.kind = .call head) (isCase : head.isCase callees = true) : CaseAt callees nodes [i] [] head n.text
  | inside {nodes : List Node} {i : Nat} {n : Node} {suite head : CallHead} {path : List Nat} {suites : List String}
    {text : String} (stands : nodes[i]? = some n) (called : n.kind = .call suite)
    (notCase : suite.isCase callees = false) (isSuite : suite.isSuite callees = true)
    (inner : CaseAt callees n.items path suites head text) :
    CaseAt callees nodes (i :: path) (suite.suiteDescription :: suites) head text

/-- What is recorded of a case in a suite with the given path. -/
def TestCase.ofCall (scope : String) (head : CallHead) (text : String) : TestCase where
  qualifiedName := qualify scope head.caseDescription
  scope := scope
  description := head.caseDescription
  bodyText := text

/-- At the place stands a case of which this is recorded, where `suite` is the path of what is around the nodes. -/
def RecordAt (callees : TestSyntax) (suite : String) (nodes : List Node) (path : List Nat) (c : TestCase) : Prop :=
  ∃ suites head text, CaseAt callees nodes path suites head text ∧ c = .ofCall (suites.foldl qualify suite) head text

section

variable {callees : TestSyntax} {nodes : List Node} {n : Node} {i : Nat} {path : List Nat} {suite : String}
  {c : TestCase}

theorem not_recordAt_nil : ¬ RecordAt callees suite nodes [] c := by
  rintro ⟨suites, head, text, h, -⟩
  cases h

theorem lt_of_recordAt (h : RecordAt callees suite nodes (i :: path) c) : i < nodes.length := by
  obtain ⟨suites, head, text, hcase, -⟩ := h
  cases hcase with
  | here hi => exact (List.getElem?_eq_some_iff.1 hi).1
  | inside hi => exact (List.getElem?_eq_some_iff.1 hi).1

/-- At the call of a case stands that case, and nothing stands inside it. -/
theorem recordAt_of_isCase {head : CallHead} (hi : nodes[i]? = some n) (hcall : n.kind = .call head)
    (hcase : head.isCase callees = true) :
    RecordAt callees suite nodes (i :: path) c ↔ path = [] ∧ c = .ofCall suite head n.text := by
  constructor
  · rintro ⟨suites, head, text, h, rfl⟩
    cases h with
    | here hj hcall' => simp_all
    | inside hj hcall' hnot => simp_all
  · rintro ⟨rfl, rfl⟩
    exact ⟨[], head, n.text, .here hi hcall hcase, rfl⟩

/-- What stands in a suite is recorded under the path of the suite. -/
theorem recordAt_of_isSuite {head : CallHead} (hi : nodes[i]? = some n) (hcall : n.kind = .call head)
    (hnot : head.isCase callees = false) (hsuite : head.isSuite callees = true) :
    RecordAt callees suite nodes (i :: path) c ↔
      RecordAt callees (qualify suite head.suiteDescription) n.items path c := by
  constructor
  · rintro ⟨suites, head, text, h, rfl⟩
    cases h with
    | here hj hcall' hcase => simp_all
    | inside hj hcall' _ _ inner =>
      rw [hi] at hj
      cases hj
      rw [hcall] at hcall'
      cases hcall'
      exact ⟨_, _, _, inner, rfl⟩
  · rintro ⟨suites, head', text, h, rfl⟩
    exact ⟨_, _, _, .inside hi hcall hnot hsuite h, rfl⟩

/-- There are no cases in other statements. -/
theorem not_recordAt_of_other (hi : nodes[i]? = some n)
    (hother : ∀ head, n.kind = .call head → head.isCase callees = false ∧ head.isSuite callees = false) :
    ¬ RecordAt callees suite nodes (i :: path) c := by
  rintro ⟨suites, head, text, h, -⟩
  cases h with
  | here hj hcall hcase =>
    rw [hi] at hj
    cases hj
    simp [hother _ hcall] at hcase
  | inside hj hcall _ hsuite _ =>
    rw [hi] at hj
    cases hj
    simp [hother _ hcall] at hsuite

end

namespace Node

variable (callees : TestSyntax) (suite : String)

theorem casesOf_eq_flatMap (nodes : List Node) : casesOf callees suite nodes = nodes.flatMap (cases callees suite) := by
  induction nodes with
  | nil => rfl
  | cons n nodes ih => rw [casesOf, List.flatMap_cons, ih]

/-- A statement calls a case, or a suite and no case, or it has no cases. -/
theorem call_cases (n : Node) :
    (∃ head, n.kind = .call head ∧ head.isCase callees = true ∧
      cases callees suite n = [.ofCall suite head n.text]) ∨
    (∃ head, n.kind = .call head ∧ head.isCase callees = false ∧ head.isSuite callees = true ∧
      cases callees suite n = casesOf callees (qualify suite head.suiteDescription) n.items) ∨
    ((∀ head, n.kind = .call head → head.isCase callees = false ∧ head.isSuite callees = false) ∧
      cases callees suite n = []) := by
  obtain ⟨kind, typeName, startRow, endRow, text, name, items⟩ := n
  cases kind with
  | call head =>
    cases hcase : head.isCase callees with
    | true => exact .inl ⟨head, rfl, hcase, by simp [cases, hcase, TestCase.ofCall]⟩
    | false =>
      cases hsuite : head.isSuite callees with
      | true => exact .inr (.inl ⟨head, rfl, hcase, hsuite, by simp [cases, hcase, hsuite]⟩)
      | false => exact .inr (.inr ⟨by rintro _ ⟨⟩; exact ⟨hcase, hsuite⟩, by simp [cases, hcase, hsuite]⟩)
  | _ => exact .inr (.inr ⟨by simp, by simp [cases]⟩)

theorem sizeOf_items_lt {n : Node} {nodes : List Node} (h : n ∈ nodes) : sizeOf n.items < sizeOf nodes := by
  have hlt := List.sizeOf_lt_of_mem h
  obtain ⟨kind, typeName, startRow, endRow, text, name, items⟩ := n
  simp only [Node.mk.sizeOf_spec] at hlt ⊢
  omega

/-- The walk lists what is recorded of the cases, in the order of their places. -/
theorem casesOf_lists (suite : String) (nodes : List Node) :
    Lists (RecordAt callees suite nodes) (casesOf callees suite nodes) := by
  rw [casesOf_eq_flatMap]
  refine (Lists.flatMap (fun i p => RecordAt callees suite nodes (i :: p)) nodes fun i n hi => ?_).congr
    fun path c => ?_
  · rcases call_cases callees suite n with ⟨head, hcall, hcase, heq⟩ | ⟨head, hcall, hnot, hsuite, heq⟩ | ⟨hother, heq⟩
    · rw [heq]
      refine ⟨[([], .ofCall suite head n.text)], List.pairwise_singleton _ _, fun p c => ?_, rfl⟩
      rw [List.mem_singleton, Prod.mk.injEq]
      exact (recordAt_of_isCase hi hcall hcase).symm
    · rw [heq]
      have := sizeOf_items_lt (List.mem_of_getElem? hi)
      exact (casesOf_lists (qualify suite head.suiteDescription) n.items).congr fun p c =>
        (recordAt_of_isSuite hi hcall hnot hsuite).symm
    · rw [heq]
      exact lists_nil fun p c => not_recordAt_of_other hi hother
  · constructor
    · rintro ⟨i, p, rfl, -, h⟩
      exact h
    · intro h
      cases path with
      | nil => exact absurd h not_recordAt_nil
      | cons i p => exact ⟨i, p, rfl, lt_of_recordAt h, h⟩
termination_by sizeOf nodes

end Node

/-! ## Cases by name -/

theorem eraseDups_append_singleton (xs : List String) (x : String) :
    (xs ++ [x]).eraseDups = if x ∈ xs then xs.eraseDups else xs.eraseDups ++ [x] := by
  rw [List.eraseDups_append]
  by_cases hx : x ∈ xs <;> simp [List.removeAll, List.eraseDups_cons, hx]

namespace CaseMap

variable (map : CaseMap) (c : TestCase) (name : String)

/-- A case under a known name leaves the names as they are, and any other adds its name at the end. -/
theorem names_insert :
    (map.insert c).names = if c.qualifiedName ∈ map.names then map.names else map.names ++ [c.qualifiedName] := by
  obtain ⟨cases⟩ := map
  unfold names insert
  induction cases with
  | nil => rfl
  | cons d cases ih =>
    by_cases hd : d.qualifiedName = c.qualifiedName
    · simp [put, hd]
    · have hne : ¬ c.qualifiedName = d.qualifiedName := fun h => hd h.symm
      simp only [put, beq_iff_eq, hd, if_false, List.map_cons, ih, List.mem_cons, hne, false_or]
      split <;> simp

/-- A name belongs to the case that was inserted last under it. -/
theorem get?_insert : (map.insert c).get? name = if c.qualifiedName = name then some c else map.get? name := by
  obtain ⟨cases⟩ := map
  unfold get? insert
  induction cases with
  | nil => by_cases hc : c.qualifiedName = name <;> simp [put, hc]
  | cons d cases ih =>
    by_cases hd : d.qualifiedName = c.qualifiedName
    · by_cases hc : c.qualifiedName = name <;> simp [put, hd, hc]
    · have hput : put c (d :: cases) = d :: put c cases := by simp [put, hd]
      by_cases hname : d.qualifiedName = name
      · have hc : ¬ c.qualifiedName = name := fun h => hd (hname.trans h.symm)
        simp [hput, hname, hc]
      · rw [hput, List.find?_cons_of_neg (by simpa using hname), List.find?_cons_of_neg (by simpa using hname), ih]

theorem ofList_append_singleton (cases : List TestCase) : ofList (cases ++ [c]) = (ofList cases).insert c := by
  rw [ofList, List.foldl_append]
  rfl

variable (walk : List TestCase)

/-- No name is there twice. -/
theorem nodup_names_ofList : (ofList walk).names.Nodup := by
  induction walk using List.reverseRecOn with
  | nil => exact .nil
  | append_singleton walk c ih =>
    rw [ofList_append_singleton, names_insert]
    split
    · exact ih
    · rename_i hnew
      exact List.nodup_append_comm.1 (List.nodup_cons.2 ⟨hnew, ih⟩)

/-- The names are those of the walk, each at the place where it comes first. -/
theorem names_ofList : (ofList walk).names = (walk.map (·.qualifiedName)).eraseDups := by
  induction walk using List.reverseRecOn with
  | nil => rfl
  | append_singleton walk c ih =>
    rw [ofList_append_singleton, names_insert, ih, List.map_append, List.map_singleton, eraseDups_append_singleton]
    simp only [List.mem_eraseDups]

/-- Under a name is the last case of the walk that has it. -/
theorem get?_ofList : (ofList walk).get? name = (walk.filter (·.qualifiedName == name)).getLast? := by
  induction walk using List.reverseRecOn with
  | nil => rfl
  | append_singleton walk c ih =>
    rw [ofList_append_singleton, get?_insert, ih, List.filter_append]
    by_cases hc : c.qualifiedName = name <;> simp [hc]

/-- Where names are different, a case is found by its name. -/
theorem get?_eq_some_iff {map : CaseMap} {c : TestCase} {name : String} (hnodup : map.names.Nodup) :
    map.get? name = some c ↔ c ∈ map.cases ∧ c.qualifiedName = name := by
  constructor
  · intro h
    exact ⟨List.mem_of_find?_eq_some h, by simpa using List.find?_some h⟩
  · rintro ⟨hc, rfl⟩
    obtain ⟨front, rest, hcases⟩ := List.append_of_mem hc
    have hfront : ∀ d ∈ front, ¬ (d.qualifiedName == c.qualifiedName) = true := by
      intro d hd heq
      rw [names, hcases, List.map_append, List.map_cons] at hnodup
      refine List.disjoint_of_nodup_append hnodup (List.mem_map_of_mem hd) ?_
      rw [beq_iff_eq.1 heq]
      exact List.mem_cons_self
    rw [get?, hcases, List.find?_append, List.find?_eq_none.2 hfront, Option.none_or]
    simp

end CaseMap

/-- The walk of a source is the one list of what is recorded of its cases, by their places. The cases of the file have
different names, which are those of the walk in the order in which they first occur; under a name is the last case of
the walk that has it, and under other names there is none. -/
theorem ofTree_last_wins (tree : SyntaxTree) (callees : TestSyntax) :
    ∃ walk, (∀ cases, Lists (RecordAt callees topSuite tree.nodes) cases ↔ cases = walk) ∧
      (CaseMap.ofTree tree callees).names.Nodup ∧
      (CaseMap.ofTree tree callees).names = (walk.map (·.qualifiedName)).eraseDups ∧
      ∀ name, (CaseMap.ofTree tree callees).get? name = (walk.filter (·.qualifiedName == name)).getLast? ∧
        ((CaseMap.ofTree tree callees).get? name = none ↔ name ∉ walk.map (·.qualifiedName)) := by
  have hwalk := Node.casesOf_lists callees topSuite tree.nodes
  refine ⟨Node.casesOf callees topSuite tree.nodes, fun cases => ⟨fun h => h.unique hwalk, ?_⟩,
    CaseMap.nodup_names_ofList _, CaseMap.names_ofList _, fun name => ?_⟩
  · rintro rfl
    exact hwalk
  · have hget := CaseMap.get?_ofList name (Node.casesOf callees topSuite tree.nodes)
    refine ⟨hget, ?_⟩
    rw [CaseMap.ofTree, hget]
    simp

end DiffSlice
