import DiffSlice.Proofs.ReadingLayout
import DiffSlice.Tree.Language
import Mathlib.Data.Nat.Basic

/-!
# Nodes stand in the order of their rows

What a derivation shows stands in the order of the source (`shownAtTop_inOrder`), and so do the nodes of a tree, told
by their rows: each ends no later than the row in which the next one starts, and what a node holds lies within its rows
(`SyntaxTree.parse_inOrder`). A row may belong to several nodes, since statements can share a line.
-/

namespace DiffSlice

namespace JavaScript

/-! ## What a derivation shows -/

instance : Spanned Shown Cursor := ⟨Shown.start, Shown.stop, Shown.parts⟩

namespace Derivation

variable {a b m : Cursor} {tail : List Shown}

/-- A derivation shows nothing outside it, if its parts do not. -/
theorem shownBefore_inOrder {d : Derivation} (hd : d.start ≤ d.stop)
    (hparts : ∀ role steps tail b, InOrder d.stop tail b → InOrder d.start (shownParts role steps d.parts tail) b)
    (role : Option Role) (isName : Bool) (htail : InOrder d.stop tail b) :
    InOrder d.start (d.shownBefore role isName tail) b := by
  obtain ⟨label, start, stop, isExtra, weight, cost, count, parts⟩ := d
  unfold shownBefore
  dsimp only
  split
  · split
    · exact .cons le_rfl (.nil hd) htail
    · split
      · exact .cons le_rfl (.nil hd) htail
      · exact htail.mono_left hd
  · split
    · exact hparts _ _ _ _ htail
    · exact .cons le_rfl (hparts _ _ _ _ (.nil le_rfl)) htail
  · exact htail.mono_left hd

theorem shownParts_inOrder {ds : List Derivation} (h : InOrder a ds m) (role : Option Role) (steps : List Step)
    (htail : InOrder m tail b) : InOrder a (shownParts role steps ds tail) b := by
  induction h generalizing role steps tail b with
  | nil h =>
    rw [shownParts]
    exact htail.mono_left h
  | @cons a _ d ds hstart hparts _ ihparts ih =>
    have hshown : ∀ steps' part isName, InOrder a (d.shownBefore part isName (shownParts role steps' ds tail)) b :=
      fun steps' part isName => (shownBefore_inOrder hparts.le (fun role steps _ _ => ihparts role steps) part isName
        (ih role steps' htail)).mono_left hstart
    unfold shownParts
    split
    · exact hshown _ _ _
    · split
      · exact hshown _ _ _
      · exact hshown _ _ _

/-- The nodes at the top of a program are in order. -/
theorem shownAtTop_inOrder {d : Derivation} (h : d.Ordered) : InOrder d.start d.shownAtTop d.stop :=
  (shownBefore_inOrder h.le (fun role steps _ _ => shownParts_inOrder h role steps) none false
    (.nil le_rfl)).flatMap_parts

end Derivation

/-! ## What a node holds -/

namespace Shown

/-- The second node lies within the first, and its parts are in order. -/
structure Encloses (s t : Shown) : Prop where
  start_le : s.start ≤ t.start
  inOrder : InOrder t.start t.parts t.stop
  le_stop : t.stop ≤ s.stop

namespace Encloses

variable {s t u : Shown}

/-- A node whose parts are in order lies within itself. -/
theorem refl (h : InOrder s.start s.parts s.stop) : s.Encloses s :=
  ⟨le_rfl, h, le_rfl⟩

/-- The parts of what lies within a node lie within it. -/
theorem mem (h : s.Encloses t) (hu : u ∈ t.parts) : s.Encloses u := by
  obtain ⟨hstart, hparts, hstop⟩ := h.inOrder.mem hu
  exact ⟨h.start_le.trans hstart, hparts, hstop.trans h.le_stop⟩

theorem part? (h : s.Encloses t) {role : Role} (hu : t.part? role = some u) : s.Encloses u :=
  h.mem (List.mem_of_find?_eq_some hu)

theorem parts (h : s.Encloses t) : InOrder s.start t.parts s.stop :=
  (h.inOrder.mono_left h.start_le).mono_right h.le_stop

theorem getD_parts (hs : s.start ≤ s.stop) {part : Option Shown} (h : ∀ t, part = some t → s.Encloses t) :
    InOrder s.start ((part.map (·.parts)).getD []) s.stop := by
  cases part with
  | none => exact .nil hs
  | some t => exact (h t rfl).parts

end Encloses

variable {s : Shown}

/-- The statements of a declaration are in order within it. -/
theorem body_inOrder (h : InOrder s.start s.parts s.stop) : InOrder s.start s.body s.stop := by
  have hdeclaration : s.Encloses s.declaration := by
    unfold declaration
    split
    · cases hpart : s.part? .declaration with
      | none => exact .refl h
      | some t => exact (Encloses.refl h).part? hpart
    · exact .refl h
  unfold body
  split
  · exact Encloses.getD_parts h.le fun t => hdeclaration.part?
  · exact Encloses.getD_parts h.le fun t => hdeclaration.part?
  · exact Encloses.getD_parts h.le fun t => hdeclaration.part?
  · exact .nil h.le

/-- The statements of a callback are in order within the call. -/
theorem callback_inOrder {call : Shown} (hs : s.start ≤ s.stop) (h : s.Encloses call) :
    InOrder s.start call.callback s.stop := by
  have hargument : ∀ t ∈ call.arguments, s.Encloses t := by
    intro t ht
    unfold arguments at ht
    cases hpart : call.part? .arguments with
    | none =>
      rw [hpart] at ht
      cases ht
    | some list =>
      rw [hpart] at ht
      exact (h.part? hpart).mem ht
  unfold callback
  dsimp only
  split
  · rename_i block hblock
    obtain ⟨function, hfunction, hbody⟩ := Option.bind_eq_some_iff.1 hblock
    split
    · exact ((hargument function (List.mem_of_find?_eq_some hfunction)).part? hbody).parts
    · exact .nil hs
  · exact .nil hs

end Shown

/-! ## Rows -/

instance : Spanned Node Nat := ⟨Node.startRow, Node.endRow, Node.items⟩

/-- Nodes are in order by rows as what they show is by places. -/
theorem Shown.nodes_inOrder {a b : Cursor} {shown : List Shown} (h : InOrder a shown b) (depth : Nat) :
    InOrder a.row (nodes depth shown) b.row := by
  induction depth generalizing a b shown with
  | zero => exact .nil (Cursor.row_le h.le)
  | succ depth ih =>
    rw [nodes]
    induction h with
    | nil h => exact .nil (Cursor.row_le h)
    | @cons _ _ s _ hstart hparts _ _ ihrest =>
      refine .cons (Cursor.row_le hstart) (ih ?_) ihrest
      cases hcall : s.call? with
      | none => exact body_inOrder hparts
      | some call =>
        unfold call? at hcall
        split at hcall
        · exact callback_inOrder hparts.le ((Encloses.refl hparts).mem (List.mem_of_find?_eq_some hcall))
        · cases hcall

theorem parse_inOrder {source : String} {tree : SyntaxTree} (h : parse source = .ok tree) :
    ∃ lastRow, InOrder 0 tree.nodes lastRow := by
  unfold parse at h
  split at h
  · rename_i d hd
    split at h
    · cases h
      exact ⟨_, (Shown.nodes_inOrder (Derivation.shownAtTop_inOrder (derive?_ordered hd)) _).mono_left (Nat.zero_le _)⟩
    · cases h
  · cases h

end JavaScript

open JavaScript

/-- The nodes of a tree follow one another from row to row, and so do those inside each of them. -/
theorem SyntaxTree.parse_inOrder {source : String} {language : SourceLanguage} {tree : SyntaxTree}
    (h : SyntaxTree.parse source language = .ok tree) : ∃ lastRow, InOrder 0 tree.nodes lastRow := by
  unfold SyntaxTree.parse at h
  split at h
  · cases hparse : JavaScript.parse source with
    | ok parsed =>
      rw [hparse] at h
      cases h
      exact JavaScript.parse_inOrder hparse
    | error line =>
      rw [hparse] at h
      cases h
  · cases h

end DiffSlice
