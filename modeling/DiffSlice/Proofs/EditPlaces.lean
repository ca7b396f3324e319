import DiffSlice.Proofs.PlacedLists
import DiffSlice.Proofs.StandardDiff

/-!
# Edits told by their places

The edits of a diff are read with two counters that a header sets, that the lines below it move and that a malformed
header takes away. `EditAt` tells the same edits without counters, for any text: what is edited in a line depends on the
last header above it and on how many lines since then count for the side. The reader lists exactly these edits, and the
malformed headers, in the order of the lines (`ofDiff_lists`).

One line changes the counters by `nextCounters` (`editsFrom_cons`), and the counters that some lines lead to are those
of the last header among them, moved by the lines below it (`foldl_nextCounters_iff`).
-/

namespace DiffSlice.Patch

open DiffSlice.Text

/-! ## Sides -/

/-- The line is an edit of the side. -/
def Side.marks : Side → String → Bool
  | .added => readsAdded
  | .removed => readsRemoved

def Side.other : Side → Side
  | .added => .removed
  | .removed => .added

/-- The line counts for the side: it is no edit of the other side and no note on the line before. -/
def Side.counts (side : Side) (line : String) : Bool :=
  !side.other.marks line && !startsWith "\\" line

/-- The number of the first line that the header names on a side. -/
def Header.start (h : Header) : Side → Nat
  | .added => h.newStart
  | .removed => h.oldStart

/-- The number of the last line read on a side. -/
def Counters.on (c : Counters) : Side → Nat
  | .added => c.new
  | .removed => c.old

def Edits.on (e : Edits) : Side → List LineEdit
  | .added => e.added
  | .removed => e.removed

/-! ## Edits without counters -/

/-- Line `i` stands below the header in line `j`: that is the last line before it that is meant as a header, and line
`i` is not meant as one. -/
structure Below (ls : List String) (header : Header) (j i : Nat) : Prop where
  before : j < i
  top : ∃ top, ls[j]? = some top ∧ isHeaderLine top = true ∧ Header.parse? top = some header
  last : ∀ k line, j < k → k ≤ i → ls[k]? = some line → isHeaderLine line = false

/-- Line `i` is an edit of the side. Its number is that of the header's first line, and the number of lines that count
for the side since the header. -/
def EditAt (side : Side) (ls : List String) (i : Nat) (e : LineEdit) : Prop :=
  ∃ line header j, ls[i]? = some line ∧ Below ls header j i ∧ side.marks line = true ∧
    e = ⟨header.start side - 1 + ((ls.take (i + 1)).drop (j + 1)).countP side.counts, afterMark line, side⟩

/-- Line `i` is meant as a header and cannot be read. -/
def MalformedAt (ls : List String) (i : Nat) (m : MalformedHeader) : Prop :=
  ∃ line, ls[i]? = some line ∧ isHeaderLine line = true ∧ Header.parse? line = none ∧ m = ⟨i + 1, line⟩

/-! ## One line -/

/-- The counters after one more line. -/
def nextCounters (c : Option Counters) (line : String) : Option Counters :=
  if isHeaderLine line then (Header.parse? line).map Counters.ofHeader
  else c.map fun c =>
    { old := c.old + if Side.counts .removed line then 1 else 0
      new := c.new + if Side.counts .added line then 1 else 0 }

/-- The edit of a side that a line makes. -/
def editBy (side : Side) (c : Option Counters) (line : String) : Option LineEdit :=
  if side.marks line then c.map fun c => ⟨c.on side + 1, afterMark line, side⟩ else none

/-- The malformed header that a line is. -/
def malformedBy (i : Nat) (line : String) : Option MalformedHeader :=
  if isHeaderLine line && (Header.parse? line).isNone then some ⟨i + 1, line⟩ else none

/-- What a line below a header can say. -/
theorem ofLine?_cases (line : String) :
    (BodyLine.ofLine? line = some (.added (afterMark line)) ∧ readsAdded line = true ∧ readsRemoved line = false ∧
      startsWith "\\" line = false) ∨
    (BodyLine.ofLine? line = some (.removed (afterMark line)) ∧ readsAdded line = false ∧ readsRemoved line = true ∧
      startsWith "\\" line = false) ∨
    (BodyLine.ofLine? line = some .noNewline ∧ readsAdded line = false ∧ readsRemoved line = false ∧
      startsWith "\\" line = true) ∨
    ((BodyLine.ofLine? line = none ∨ ∃ t, BodyLine.ofLine? line = some (.context t)) ∧ readsAdded line = false ∧
      readsRemoved line = false ∧ startsWith "\\" line = false) := by
  unfold BodyLine.ofLine? readsAdded readsRemoved isAdded isRemoved namesFile afterMark
  split
  case h_6 hplus hminus hnote hspace hempty =>
    have hhead : line.toList.head? ≠ some '+' ∧ line.toList.head? ≠ some '-' ∧ line.toList.head? ≠ some '\\' := by
      refine ⟨?_, ?_, ?_⟩
      · exact fun h => hplus _ (List.eq_cons_of_mem_head? h)
      · exact fun h => hminus _ (List.eq_cons_of_mem_head? h)
      · exact fun h => hnote _ (List.eq_cons_of_mem_head? h)
    have hplain : startsWith "\\" line = false := startsWith_eq_false rfl hhead.2.2
    simp [hhead, hplain]
  case h_1 rest hl => cases hplus : startsWith "+++" line <;> simp_all [startsWith, List.isPrefixOf]
  case h_2 rest hl => cases hminus : startsWith "---" line <;> simp_all [startsWith, List.isPrefixOf]
  all_goals simp_all [startsWith, List.isPrefixOf]

theorem isHeaderLine_of_marks {side : Side} {line : String} (h : side.marks line = true) :
    isHeaderLine line = false := by
  refine startsWith_eq_false (c := '@') rfl fun hc => ?_
  cases side <;> simp [Side.marks, readsAdded, readsRemoved, isAdded, isRemoved, hc] at h

theorem counts_of_marks {side : Side} {line : String} (h : side.marks line = true) : side.counts line = true := by
  rcases ofLine?_cases line with ⟨-, ha, hr, hn⟩ | ⟨-, ha, hr, hn⟩ | ⟨-, ha, hr, hn⟩ | ⟨-, ha, hr, hn⟩ <;>
    cases side <;> simp_all [Side.marks, Side.counts, Side.other]

/-- A line makes its edit or is a malformed header, and the lines after it are read with the counters that it leads
to. -/
theorem editsFrom_cons (c : Option Counters) (i : Nat) (line : String) (rest : List String) :
    (∀ side, (editsFrom c i (line :: rest)).on side =
      (editBy side c line).toList ++ (editsFrom (nextCounters c line) (i + 1) rest).on side) ∧
    (editsFrom c i (line :: rest)).malformed =
      (malformedBy i line).toList ++ (editsFrom (nextCounters c line) (i + 1) rest).malformed := by
  by_cases hheader : isHeaderLine line = true
  · have hmarks : ∀ side, Side.marks side line = false := by
      intro side
      refine Bool.eq_false_iff.2 fun h => ?_
      rw [isHeaderLine_of_marks h] at hheader
      cases hheader
    cases hparse : Header.parse? line with
    | some header => simp [editsFrom, hheader, hparse, editBy, hmarks, malformedBy, nextCounters]
    | none =>
      refine ⟨fun side => ?_, ?_⟩
      · cases side <;> simp [editsFrom, hheader, hparse, editBy, hmarks, nextCounters, Edits.on]
      · simp [editsFrom, hheader, hparse, malformedBy, nextCounters]
  · cases c with
    | none => simp [editsFrom, hheader, editBy, malformedBy, nextCounters]
    | some c =>
      have hnew : Side.counts .added line = (!readsRemoved line && !startsWith "\\" line) := rfl
      have hold : Side.counts .removed line = (!readsAdded line && !startsWith "\\" line) := rfl
      rcases ofLine?_cases line with
        ⟨hb, ha, hr, hn⟩ | ⟨hb, ha, hr, hn⟩ | ⟨hb, ha, hr, hn⟩ | ⟨hb | ⟨t, hb⟩, ha, hr, hn⟩
      all_goals
        refine ⟨fun side => ?_, ?_⟩
        · cases side <;>
            simp [editsFrom, hheader, hb, editBy, nextCounters, hold, hnew, ha, hr, hn, Edits.on, Counters.on,
              Side.marks]
        · simp [editsFrom, hheader, hb, malformedBy, nextCounters, hold, hnew, ha, hr, hn]

/-! ## The counters that lines lead to -/

/-- Lines below a header move the counters by the lines that count for their sides. -/
theorem foldl_nextCounters_below {below : List String} (h : ∀ l ∈ below, isHeaderLine l = false) (c : Option Counters) :
    below.foldl nextCounters c =
      c.map fun c => ⟨c.old + below.countP (Side.counts .removed), c.new + below.countP (Side.counts .added)⟩ := by
  induction below generalizing c with
  | nil => cases c <;> rfl
  | cons l below ih =>
    have hl : ¬ isHeaderLine l = true := by simp [h l List.mem_cons_self]
    rw [List.foldl_cons, ih fun m hm => h m (List.mem_cons_of_mem _ hm), nextCounters, if_neg hl, Option.map_map]
    refine congrArg (fun f => c.map f) (funext fun c => ?_)
    simp [List.countP_cons, Nat.add_assoc, Nat.add_comm (List.countP _ below)]

/-- Lines have a last one that is meant as a header, or none. -/
theorem exists_last_header (ls : List String) :
    (∀ l ∈ ls, isHeaderLine l = false) ∨
      ∃ above top below, ls = above ++ top :: below ∧ isHeaderLine top = true ∧
        ∀ l ∈ below, isHeaderLine l = false := by
  induction ls with
  | nil => exact .inl (by simp)
  | cons l ls ih =>
    rcases ih with hnone | ⟨above, top, below, rfl, htop, hbelow⟩
    · by_cases hl : isHeaderLine l = true
      · exact .inr ⟨[], l, ls, rfl, hl, hnone⟩
      · exact .inl (List.forall_mem_cons.2 ⟨Bool.eq_false_iff.2 hl, hnone⟩)
    · exact .inr ⟨l :: above, top, below, rfl, htop, hbelow⟩

theorem foldl_nextCounters_append {above below : List String} {top : String} (htop : isHeaderLine top = true)
    (hbelow : ∀ l ∈ below, isHeaderLine l = false) (c : Option Counters) :
    (above ++ top :: below).foldl nextCounters c = (Header.parse? top).map fun header =>
      ⟨header.oldStart - 1 + below.countP (Side.counts .removed),
        header.newStart - 1 + below.countP (Side.counts .added)⟩ := by
  rw [List.foldl_append, List.foldl_cons, foldl_nextCounters_below hbelow, nextCounters, if_pos htop, Option.map_map]
  rfl

/-- There are counters where the last line that is meant as a header can be read. They stand at its ranges, moved by the
lines below it. -/
theorem foldl_nextCounters_iff {ls : List String} {c : Counters} :
    ls.foldl nextCounters none = some c ↔
      ∃ above top below header, ls = above ++ top :: below ∧ Header.parse? top = some header ∧
        (∀ l ∈ below, isHeaderLine l = false) ∧
          ∀ side, c.on side = header.start side - 1 + below.countP side.counts := by
  constructor
  · intro h
    rcases exists_last_header ls with hnone | ⟨above, top, below, rfl, htop, hbelow⟩
    · rw [foldl_nextCounters_below hnone] at h
      cases h
    · rw [foldl_nextCounters_append htop hbelow] at h
      obtain ⟨header, hparse, rfl⟩ := Option.map_eq_some_iff.1 h
      refine ⟨above, top, below, header, rfl, hparse, hbelow, fun side => ?_⟩
      cases side <;> rfl
  · rintro ⟨above, top, below, header, rfl, hparse, hbelow, hc⟩
    rw [foldl_nextCounters_append (isHeaderLine_of_parse? hparse) hbelow, hparse]
    have hold := hc .removed
    have hnew := hc .added
    obtain ⟨old, new⟩ := c
    simp_all [Counters.on, Header.start]

/-! ## Places -/

/-- A line stands below a header if the lines before it end in the header and lines that are not meant as headers. -/
theorem below_iff {ls : List String} {line : String} {header : Header} {j i : Nat} (hi : ls[i]? = some line)
    (hline : isHeaderLine line = false) :
    Below ls header j i ↔ ∃ above top below, ls.take i = above ++ top :: below ∧ j = above.length ∧
      Header.parse? top = some header ∧ ∀ l ∈ below, isHeaderLine l = false := by
  have hlength : (ls.take i).length = i := by
    rw [List.length_take]
    exact Nat.min_eq_left (Nat.le_of_lt (List.getElem?_eq_some_iff.1 hi).1)
  constructor
  · rintro ⟨hj, ⟨top, htop, -, hparse⟩, hlast⟩
    have htake : (ls.take i)[j]? = some top := by rw [List.getElem?_take_of_lt hj, htop]
    obtain ⟨hlt, hget⟩ := List.getElem?_eq_some_iff.1 htake
    refine ⟨(ls.take i).take j, top, (ls.take i).drop (j + 1), ?_, ?_, hparse, fun l hl => ?_⟩
    · rw [← hget, ← List.drop_eq_getElem_cons hlt, List.take_append_drop]
    · rw [List.length_take, hlength, Nat.min_eq_left (Nat.le_of_lt hj)]
    · obtain ⟨k, hk⟩ := List.mem_iff_getElem?.1 hl
      rw [List.getElem?_drop] at hk
      have hbound := (List.getElem?_eq_some_iff.1 hk).1
      rw [List.getElem?_take_of_lt (by omega)] at hk
      exact hlast _ l (by omega) (by omega) hk
  · rintro ⟨above, top, below, htake, rfl, hparse, hbelow⟩
    have hsize : above.length + (below.length + 1) = i := by
      rw [← hlength, htake]
      simp
    refine ⟨by omega, ⟨top, ?_, isHeaderLine_of_parse? hparse, hparse⟩, fun k l hk hki hl => ?_⟩
    · rw [← List.getElem?_take_of_lt (show above.length < i by omega), htake]
      simp
    · rcases Nat.lt_or_eq_of_le hki with hlt | rfl
      · rw [← List.getElem?_take_of_lt hlt, htake, List.getElem?_append_right (Nat.le_of_lt hk)] at hl
        obtain ⟨d, hd⟩ := Nat.exists_eq_add_of_lt hk
        rw [show k - above.length = d + 1 by omega, List.getElem?_cons_succ] at hl
        exact hbelow l (List.mem_of_getElem? hl)
      · rw [hi] at hl
        cases hl
        exact hline

/-- An edit counts as one of the lines since the header. -/
theorem countP_counts_of_marks {side : Side} {ls above below : List String} {top line : String} {i : Nat}
    (hi : ls[i]? = some line) (hmarks : side.marks line = true) (htake : ls.take i = above ++ top :: below) :
    ((ls.take (i + 1)).drop (above.length + 1)).countP side.counts = below.countP side.counts + 1 := by
  rw [List.take_add_one, htake, hi]
  simp [counts_of_marks hmarks]

/-- A line makes an edit, in the state that the lines before it lead to, exactly if it is one by its place. -/
theorem editBy_eq_some_iff {side : Side} {ls : List String} {i : Nat} {e : LineEdit} :
    (∃ line, ls[i]? = some line ∧ editBy side ((ls.take i).foldl nextCounters none) line = some e) ↔
      EditAt side ls i e := by
  constructor
  · rintro ⟨line, hi, hedit⟩
    rw [editBy] at hedit
    split at hedit
    case isFalse => cases hedit
    case isTrue hmarks =>
      obtain ⟨c, hc, rfl⟩ := Option.map_eq_some_iff.1 hedit
      obtain ⟨above, top, below, header, htake, hparse, hbelow, hon⟩ := foldl_nextCounters_iff.1 hc
      refine ⟨line, header, above.length, hi, ?_, hmarks, ?_⟩
      · exact (below_iff hi (isHeaderLine_of_marks hmarks)).2 ⟨above, top, below, htake, rfl, hparse, hbelow⟩
      · rw [countP_counts_of_marks hi hmarks htake, hon, Nat.add_assoc]
  · rintro ⟨line, header, j, hi, hbelow, hmarks, rfl⟩
    obtain ⟨above, top, below, htake, rfl, hparse, hplain⟩ :=
      (below_iff hi (isHeaderLine_of_marks hmarks)).1 hbelow
    obtain ⟨c, hon⟩ : ∃ c : Counters, ∀ side, c.on side = header.start side - 1 + below.countP side.counts :=
      ⟨⟨_, _⟩, fun side => by cases side <;> rfl⟩
    have hc : (ls.take i).foldl nextCounters none = some c :=
      foldl_nextCounters_iff.2 ⟨above, top, below, header, htake, hparse, hplain, hon⟩
    refine ⟨line, hi, ?_⟩
    rw [editBy, if_pos hmarks, hc, Option.map_some, countP_counts_of_marks hi hmarks htake, hon, Nat.add_assoc]

theorem malformedBy_eq_some_iff {ls : List String} {i : Nat} {m : MalformedHeader} :
    (∃ line, ls[i]? = some line ∧ malformedBy i line = some m) ↔ MalformedAt ls i m := by
  refine exists_congr fun line => and_congr_right fun _ => ?_
  simp [malformedBy, and_assoc, eq_comm (a := m)]

/-- Of any text the reader lists, in the order of the lines, the lines that are meant as headers and cannot be read, and
the lines that are edits by the last header above them. -/
theorem ofDiff_lists (diff : String) :
    Lists (MalformedAt (lines diff)) (Edits.ofDiff diff).malformed ∧
      Lists (EditAt .added (lines diff)) (Edits.ofDiff diff).added ∧
      Lists (EditAt .removed (lines diff)) (Edits.ofDiff diff).removed := by
  have hedits : ∀ side, Lists (EditAt side (lines diff)) ((Edits.ofDiff diff).on side) := by
    intro side
    refine (lists_run (fun c i ls => (editsFrom c i ls).on side) nextCounters (fun c _ line => editBy side c line) ?_
      (fun c i line rest => (editsFrom_cons c i line rest).1 side) none 0 (lines diff)).congr
        fun _ _ => editBy_eq_some_iff
    intro c i
    cases side <;> rfl
  refine ⟨?_, hedits .added, hedits .removed⟩
  refine (lists_run (fun c i ls => (editsFrom c i ls).malformed) nextCounters (fun _ i line => malformedBy i line)
    (fun _ _ => rfl) (fun c i line rest => (editsFrom_cons c i line rest).2) none 0 (lines diff)).congr fun i m => ?_
  rw [Nat.zero_add]
  exact malformedBy_eq_some_iff

end DiffSlice.Patch
