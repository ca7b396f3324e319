import DiffSlice.Patch.Hunk
import DiffSlice.Patch.Edit
import Mathlib.Data.List.Forall2

/-!
# Reading hunks from lines

A diff is some lines without headers and then hunks, each a header with body lines below it (`Hunk.ReadFrom`). On such
lines both readers are described without their states: `hunksFrom` gives the hunks (`hunksFrom_cuts`), and `editsFrom`
gives the added and removed lines of each body, counted from the header (`editsFrom_cuts`). The reader of edits is the
more tolerant one: below a header it counts lines that say nothing as context (`BodyLine.counted`).
-/

namespace DiffSlice.Patch

open DiffSlice.Text

/-! ## Headers and body lines -/

section Lines

variable {line : String}

theorem startsWith_iff {start s : String} : startsWith start s = true ↔ start.toList <+: s.toList := by
  simp [startsWith]

/-- What can be read as a header is meant as one. -/
theorem isHeaderLine_of_parse? {h : Header} (hp : Header.parse? line = some h) : isHeaderLine line = true := by
  unfold Header.parse? at hp
  obtain ⟨s, hs, _⟩ := Option.bind_eq_some_iff.1 hp
  rw [List.isPrefixOf?_eq_some_iff_append_eq] at hs
  rw [isHeaderLine, startsWith_iff, ← hs]
  exact ⟨' ' :: '-' :: s, rfl⟩

theorem startsWith_eq_false {start : String} {c : Char} (hs : start.toList.head? = some c)
    (hl : line.toList.head? ≠ some c) : startsWith start line = false := by
  rw [Bool.eq_false_iff, ne_eq, startsWith_iff]
  rintro ⟨t, ht⟩
  refine hl ?_
  rw [← ht, List.head?_append, hs, Option.some_or]

theorem head?_of_ofLine? {b : BodyLine} (h : BodyLine.ofLine? line = some b) :
    line.toList.head? ∈ [none, some '+', some '-', some '\\', some ' '] := by
  unfold BodyLine.ofLine? at h
  split at h <;> simp_all

/-- A line of a body is not meant as a header. -/
theorem isHeaderLine_of_ofLine? {b : BodyLine} (h : BodyLine.ofLine? line = some b) : isHeaderLine line = false := by
  refine startsWith_eq_false (c := '@') rfl fun hc => ?_
  have := head?_of_ofLine? h
  simp [hc] at this

theorem opensSection_of_ofLine? {b : BodyLine} (h : BodyLine.ofLine? line = some b) : opensSection line = false := by
  refine startsWith_eq_false (c := 'd') rfl fun hc => ?_
  have := head?_of_ofLine? h
  simp [hc] at this

end Lines

theorem le_of_number? {digits : List Char} {n : Nat} (h : number? digits = some n) : n ≤ lineLimit := by
  rw [number?] at h
  split at h
  case isTrue hlimit =>
    cases h
    exact hlimit.2.2
  case isFalse => cases h

/-- A header starts within the limit on both sides. -/
theorem Header.le_of_parse? {line : String} {header : Header} (h : Header.parse? line = some header) :
    header.oldStart ≤ lineLimit ∧ header.newStart ≤ lineLimit := by
  simp only [Header.parse?, Option.bind_eq_bind, Option.bind_eq_some_iff, Option.pure_def, Option.some.injEq] at h
  obtain ⟨_, -, _, -, _, -, _, -, _, -, old, hold, new, hnew, rfl⟩ := h
  exact ⟨le_of_number? hold, le_of_number? hnew⟩

/-- The hunk is what the two readers take its lines for. -/
structure Hunk.ReadFrom (h : Hunk) (cut : String × List String) : Prop where
  header : Header.parse? cut.1 = some h.header
  body : cut.2.map BodyLine.ofLine? = h.body.map some

/-- The lines of hunks, each a header and what is below it. -/
def cutLines (cuts : List (String × List String)) : List String :=
  cuts.flatMap fun cut => cut.1 :: cut.2

/-! ## Hunks -/

/-- The lines of a body belong to the hunk that is open. -/
theorem hunksFrom_body {body : List String} {bs : List BodyLine} (h : body.map BodyLine.ofLine? = bs.map some)
    (rest : List String) :
    hunksFrom true (body ++ rest) = (bs ++ (hunksFrom true rest).1, (hunksFrom true rest).2) := by
  induction body generalizing bs with
  | nil => simp_all
  | cons l body ih =>
    cases bs with
    | nil => simp at h
    | cons b bs =>
      simp only [List.map_cons, List.cons.injEq] at h
      simp [hunksFrom, isHeaderLine_of_ofLine? h.1, opensSection_of_ofLine? h.1, ih h.2, h.1]

/-- The hunks are read from their lines. -/
theorem hunksFrom_cuts {cuts : List (String × List String)} {hunks : List Hunk}
    (h : List.Forall₂ (fun cut h => Hunk.ReadFrom h cut) cuts hunks) (isOpen : Bool) :
    hunksFrom isOpen (cutLines cuts) = ([], hunks) := by
  induction h generalizing isOpen with
  | nil => rfl
  | @cons cut hunk cuts hunks hr _ ih =>
    rw [cutLines, List.flatMap_cons, List.cons_append, ← cutLines, hunksFrom,
      if_pos (isHeaderLine_of_parse? hr.header), hr.header]
    simp [hunksFrom_body hr.body, ih]

/-- Lines above the first header say nothing. -/
theorem hunksFrom_preamble {preamble : List String} (h : ∀ l ∈ preamble, isHeaderLine l = false) (rest : List String) :
    (hunksFrom false (preamble ++ rest)).2 = (hunksFrom false rest).2 := by
  induction preamble with
  | nil => rfl
  | cons l preamble ih =>
    have ih := ih fun m hm => h m (List.mem_cons_of_mem _ hm)
    rw [List.cons_append, hunksFrom, if_neg (by simp [h l List.mem_cons_self])]
    split
    · exact ih
    · simpa using ih

/-! ## Edits -/

/-- The added lines of a body that comes after `n` new lines. -/
def addedIn (n : Nat) : List BodyLine → List LineEdit
  | [] => []
  | .added text :: body => ⟨n + 1, text, .added⟩ :: addedIn (n + 1) body
  | .context _ :: body => addedIn (n + 1) body
  | .removed _ :: body => addedIn n body
  | .noNewline :: body => addedIn n body

/-- The removed lines of a body that comes after `n` old lines. -/
def removedIn (n : Nat) : List BodyLine → List LineEdit
  | [] => []
  | .removed text :: body => ⟨n + 1, text, .removed⟩ :: removedIn (n + 1) body
  | .context _ :: body => removedIn (n + 1) body
  | .added _ :: body => removedIn n body
  | .noNewline :: body => removedIn n body

def Hunk.addedLines (h : Hunk) : List LineEdit :=
  addedIn (Counters.ofHeader h.header).new h.body

def Hunk.removedLines (h : Hunk) : List LineEdit :=
  removedIn (Counters.ofHeader h.header).old h.body

/-- What a line below a header counts as: one that says nothing counts as context. -/
def BodyLine.counted (line : String) : BodyLine :=
  (BodyLine.ofLine? line).getD (.context line)

/-- The hunk is what the reader of edits takes its lines for. -/
structure Hunk.CountedFrom (h : Hunk) (cut : String × List String) : Prop where
  header : Header.parse? cut.1 = some h.header
  body : h.body = cut.2.map BodyLine.counted
  noHeader : ∀ l ∈ cut.2, isHeaderLine l = false

theorem Hunk.ReadFrom.exists_ofLine? {h : Hunk} {cut : String × List String} (hr : h.ReadFrom cut) {l : String}
    (hl : l ∈ cut.2) : ∃ b, BodyLine.ofLine? l = some b := by
  have hmem : BodyLine.ofLine? l ∈ h.body.map some := by
    rw [← hr.body]
    exact List.mem_map_of_mem hl
  obtain ⟨b, _, hb⟩ := List.mem_map.1 hmem
  exact ⟨b, hb.symm⟩

/-- Where both readers see the same hunk, its lines count as what they say. -/
theorem Hunk.ReadFrom.countedFrom {h : Hunk} {cut : String × List String} (hr : h.ReadFrom cut) :
    h.CountedFrom cut where
  header := hr.header
  body := by
    have hsome : (cut.2.map BodyLine.counted).map some = h.body.map some := by
      rw [← hr.body, List.map_map]
      refine List.map_congr_left fun l hl => ?_
      obtain ⟨b, hb⟩ := hr.exists_ofLine? hl
      simp [BodyLine.counted, hb]
    exact (List.map_injective_iff.2 (fun _ _ => Option.some.inj) hsome).symm
  noHeader l hl := by
    obtain ⟨b, hb⟩ := hr.exists_ofLine? hl
    exact isHeaderLine_of_ofLine? hb

/-- Lines below a header make the edits of what they count as. -/
theorem editsFrom_body {body : List String} (h : ∀ l ∈ body, isHeaderLine l = false) {rest : List String}
    {later : Edits} (hrest : ∀ c i, editsFrom c i rest = later) (c : Counters) (i : Nat) :
    editsFrom (some c) i (body ++ rest) =
      { added := addedIn c.new (body.map BodyLine.counted) ++ later.added
        removed := removedIn c.old (body.map BodyLine.counted) ++ later.removed
        malformed := later.malformed } := by
  induction body generalizing c i with
  | nil => simp [hrest, addedIn, removedIn]
  | cons l body ih =>
    have hl := h l List.mem_cons_self
    have ih := ih fun m hm => h m (List.mem_cons_of_mem _ hm)
    cases hb : BodyLine.ofLine? l with
    | none => simp [editsFrom, hl, hb, ih, BodyLine.counted, addedIn, removedIn]
    | some b => cases b <;> simp [editsFrom, hl, hb, ih, BodyLine.counted, addedIn, removedIn]

/-- A header sets the counters. -/
theorem editsFrom_header {line : String} {header : Header} (h : Header.parse? line = some header)
    (c : Option Counters) (i : Nat) (rest : List String) :
    editsFrom c i (line :: rest) = editsFrom (some (Counters.ofHeader header)) (i + 1) rest := by
  cases c <;> simp [editsFrom, isHeaderLine_of_parse? h, h]

/-- The edits are read from the lines of the hunks. -/
theorem editsFrom_cuts {cuts : List (String × List String)} {hunks : List Hunk}
    (h : List.Forall₂ (fun cut h => Hunk.CountedFrom h cut) cuts hunks) (c : Option Counters) (i : Nat) :
    editsFrom c i (cutLines cuts) =
      { added := hunks.flatMap Hunk.addedLines, removed := hunks.flatMap Hunk.removedLines } := by
  induction h generalizing c i with
  | nil => rfl
  | @cons cut hunk cuts hunks hr _ ih =>
    rw [cutLines, List.flatMap_cons, List.cons_append, ← cutLines, editsFrom_header hr.header,
      editsFrom_body hr.noHeader ih, ← hr.body]
    rfl

theorem editsFrom_preamble {preamble : List String} (h : ∀ l ∈ preamble, isHeaderLine l = false) (rest : List String)
    (i : Nat) : editsFrom none i (preamble ++ rest) = editsFrom none (i + preamble.length) rest := by
  induction preamble generalizing i with
  | nil => rfl
  | cons l preamble ih =>
    have ih := ih (fun m hm => h m (List.mem_cons_of_mem _ hm)) (i + 1)
    rw [List.cons_append, editsFrom, if_neg (by simp [h l List.mem_cons_self])]
    simp only [List.length_cons]
    rw [ih]
    congr 1
    omega

/-! ## Counting within the limit -/

def BodyLine.isOld : BodyLine → Bool
  | .context _ => true
  | .removed _ => true
  | _ => false

def BodyLine.isNew : BodyLine → Bool
  | .context _ => true
  | .added _ => true
  | _ => false

/-- The counters that the header and the lines of a hunk come to are within the limit. -/
def Hunk.CountsWithin (h : Hunk) : Prop :=
  (Counters.ofHeader h.header).old + h.body.countP BodyLine.isOld ≤ lineLimit ∧
    (Counters.ofHeader h.header).new + h.body.countP BodyLine.isNew ≤ lineLimit

theorem countsThrough_header {line : String} {header : Header} (h : Header.parse? line = some header)
    (c : Option Counters) (rest : List String) :
    countsThrough c (line :: rest) = countsThrough (some (Counters.ofHeader header)) rest := by
  simp [countsThrough, isHeaderLine_of_parse? h, h]

def Counters.after (c : Counters) (b : BodyLine) : Counters :=
  ⟨c.old + (if b.isOld then 1 else 0), c.new + (if b.isNew then 1 else 0)⟩

/-- From counters within the limit, a line is counted exactly if those after it are within the limit too. -/
theorem Counters.next?_eq {c : Counters} (hold : c.old ≤ lineLimit) (hnew : c.new ≤ lineLimit) (l : String) :
    c.next? l = if (c.after (.counted l)).old ≤ lineLimit ∧ (c.after (.counted l)).new ≤ lineLimit then
      some (c.after (.counted l)) else none := by
  obtain ⟨old, new⟩ := c
  simp only at hold hnew
  cases hb : BodyLine.ofLine? l with
  | none => grind [Counters.next?, Counters.after, BodyLine.counted, BodyLine.isOld, BodyLine.isNew, countOn?]
  | some b =>
    cases b <;> grind [Counters.next?, Counters.after, BodyLine.counted, BodyLine.isOld, BodyLine.isNew, countOn?]

/-- No counter passes the limit below a header if the sums at the end of the body do not. -/
theorem countsThrough_body {body : List String} (h : ∀ l ∈ body, isHeaderLine l = false) {rest : List String}
    {later : Prop} (hrest : ∀ c, countsThrough c rest = true ↔ later) {c : Counters} (hold : c.old ≤ lineLimit)
    (hnew : c.new ≤ lineLimit) : countsThrough (some c) (body ++ rest) = true ↔
      (c.old + (body.map BodyLine.counted).countP BodyLine.isOld ≤ lineLimit ∧
        c.new + (body.map BodyLine.counted).countP BodyLine.isNew ≤ lineLimit) ∧ later := by
  induction body generalizing c with
  | nil => simp [hrest, hold, hnew]
  | cons l body ih =>
    have hl := h l List.mem_cons_self
    have hafter (side : BodyLine → Bool) (n : Nat) : n + (List.countP side (List.map BodyLine.counted (l :: body))) =
        n + (if side (.counted l) then 1 else 0) + List.countP side (List.map BodyLine.counted body) := by
      rw [List.map_cons, List.countP_cons]
      omega
    rw [hafter, hafter, List.cons_append, countsThrough, if_neg (by simp [hl])]
    by_cases hwithin : (c.after (.counted l)).old ≤ lineLimit ∧ (c.after (.counted l)).new ≤ lineLimit
    · simp only [Counters.next?_eq hold hnew, if_pos hwithin]
      exact ih (fun m hm => h m (List.mem_cons_of_mem _ hm)) hwithin.1 hwithin.2
    · simp only [Counters.next?_eq hold hnew, if_neg hwithin, Bool.false_eq_true, false_iff]
      rintro ⟨⟨hold', hnew'⟩, -⟩
      exact hwithin ⟨Nat.le_trans (Nat.le_add_right _ _) hold', Nat.le_trans (Nat.le_add_right _ _) hnew'⟩

/-- The lines of hunks can be counted through exactly if each of the hunks counts within the limit. -/
theorem countsThrough_cuts {cuts : List (String × List String)} {hunks : List Hunk}
    (h : List.Forall₂ (fun cut h => Hunk.CountedFrom h cut) cuts hunks) (c : Option Counters) :
    countsThrough c (cutLines cuts) = true ↔ ∀ h ∈ hunks, h.CountsWithin := by
  induction h generalizing c with
  | nil => simp [cutLines, countsThrough]
  | @cons cut hunk cuts hunks hr _ ih =>
    obtain ⟨hold, hnew⟩ := Header.le_of_parse? hr.header
    rw [cutLines, List.flatMap_cons, List.cons_append, ← cutLines, countsThrough_header hr.header,
      countsThrough_body hr.noHeader ih (Nat.le_trans (Nat.sub_le _ _) hold) (Nat.le_trans (Nat.sub_le _ _) hnew),
      ← hr.body, List.forall_mem_cons]
    rfl

theorem countsThrough_preamble {preamble : List String} (h : ∀ l ∈ preamble, isHeaderLine l = false)
    (rest : List String) : countsThrough none (preamble ++ rest) = countsThrough none rest := by
  induction preamble with
  | nil => rfl
  | cons l preamble ih =>
    rw [List.cons_append, countsThrough, if_neg (by simp [h l List.mem_cons_self])]
    exact ih fun m hm => h m (List.mem_cons_of_mem _ hm)

end DiffSlice.Patch
