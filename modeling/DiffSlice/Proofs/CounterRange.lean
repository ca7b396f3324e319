import DiffSlice.Proofs.EditPlaces

/-!
# Line numbers within the limit

Counters are kept within the limit by counting on only below it (`countsThrough`). The counters that lines lead to
are those of `nextCounters`, and none of them passes the limit exactly if the lines can be counted through
(`countsThrough_iff`). Said by places: the start of a header and the lines that count since then come to no more than
the limit (`edits_within_limit`). A header can start at the limit itself, so two lines below it suffice to pass it
(`counter_past_limit`).
-/

namespace DiffSlice.Patch

open DiffSlice.Text

/-! ## One line -/

def Counters.Within (c : Counters) : Prop :=
  ∀ side, c.on side ≤ lineLimit

theorem Counters.within_iff {c : Counters} : c.Within ↔ c.old ≤ lineLimit ∧ c.new ≤ lineLimit := by
  constructor
  · exact fun h => ⟨h .removed, h .added⟩
  · rintro ⟨hold, hnew⟩ (_ | _)
    · exact hnew
    · exact hold

/-- A header starts within the limit on both sides. -/
theorem Header.start_le {line : String} {header : Header} (h : Header.parse? line = some header) (side : Side) :
    header.start side ≤ lineLimit := by
  cases side with
  | added => exact (Header.le_of_parse? h).2
  | removed => exact (Header.le_of_parse? h).1

/-- Right below a header the counters are within the limit. -/
theorem within_ofHeader {line : String} {header : Header} (h : Header.parse? line = some header) :
    (Counters.ofHeader header).Within := by
  have hold := Header.start_le h .removed
  have hnew := Header.start_le h .added
  exact Counters.within_iff.2 ⟨Nat.le_trans (Nat.sub_le _ _) hold, Nat.le_trans (Nat.sub_le _ _) hnew⟩

/-- Below a header the next counters are those after what the line counts as. -/
theorem nextCounters_below (c : Counters) {line : String} (hline : isHeaderLine line = false) :
    nextCounters (some c) line = some (c.after (.counted line)) := by
  have hadded : Side.counts .added line = (!readsRemoved line && !startsWith "\\" line) := rfl
  have hremoved : Side.counts .removed line = (!readsAdded line && !startsWith "\\" line) := rfl
  rcases ofLine?_cases line with
    ⟨hb, ha, hr, hn⟩ | ⟨hb, ha, hr, hn⟩ | ⟨hb, ha, hr, hn⟩ | ⟨hb | ⟨t, hb⟩, ha, hr, hn⟩ <;>
  simp [nextCounters, hline, hadded, hremoved, ha, hr, hn, Counters.after, BodyLine.counted, hb, BodyLine.isOld,
    BodyLine.isNew]

/-- From counters within the limit, a line below a header is counted exactly if those after it are within it too. -/
theorem Counters.next?_cases {c : Counters} (hc : c.Within) (line : String) :
    (c.after (.counted line)).Within ∧ c.next? line = some (c.after (.counted line)) ∨
      ¬(c.after (.counted line)).Within ∧ c.next? line = none := by
  obtain ⟨hold, hnew⟩ := Counters.within_iff.1 hc
  rw [Counters.within_iff, Counters.next?_eq hold hnew]
  split
  case isTrue hwithin => exact .inl ⟨hwithin, rfl⟩
  case isFalse hwithin => exact .inr ⟨hwithin, rfl⟩

/-! ## All lines -/

/-- All counters on the way through the lines are within the limit. -/
def StaysWithin (c : Option Counters) (ls : List String) : Prop :=
  ∀ i d, (ls.take i).foldl nextCounters c = some d → d.Within

/-- Counters stay within the limit if they are so before the first line and stay so from the next one on. -/
theorem staysWithin_cons {c : Option Counters} {line : String} {rest : List String} :
    StaysWithin c (line :: rest) ↔ (∀ d, c = some d → d.Within) ∧ StaysWithin (nextCounters c line) rest := by
  constructor
  · exact fun h => ⟨h 0, fun i => h (i + 1)⟩
  · rintro ⟨hfirst, hrest⟩ (_ | i)
    · exact hfirst
    · exact hrest i

/-- Lines can be counted through exactly if all counters on the way are within the limit. -/
theorem countsThrough_iff {c : Option Counters} (hc : ∀ d, c = some d → d.Within) (ls : List String) :
    countsThrough c ls = true ↔ StaysWithin c ls := by
  induction ls generalizing c with
  | nil => exact iff_of_true rfl fun i => by simpa using hc
  | cons line rest ih =>
    rw [staysWithin_cons, and_iff_right hc]
    cases hheader : isHeaderLine line with
    | true =>
      have hnext : nextCounters c line = (Header.parse? line).map Counters.ofHeader := by simp [nextCounters, hheader]
      have hwithin : ∀ d, nextCounters c line = some d → d.Within := by
        intro d hd
        obtain ⟨header, hparse, rfl⟩ := Option.map_eq_some_iff.1 (hnext ▸ hd)
        exact within_ofHeader hparse
      rw [← ih hwithin, hnext]
      simp [countsThrough, hheader]
    | false =>
      cases c with
      | none =>
        have hnext : nextCounters none line = none := by simp [nextCounters, hheader]
        rw [hnext, ← ih hc]
        simp [countsThrough, hheader]
      | some c =>
        rw [nextCounters_below c hheader]
        obtain ⟨hwithin, hnext⟩ | ⟨hwithin, hnext⟩ := Counters.next?_cases (hc c rfl) line
        · rw [← ih fun d hd => Option.some.inj hd ▸ hwithin]
          simp [countsThrough, hheader, hnext]
        · refine iff_of_false ?_ fun h => hwithin (h 0 _ rfl)
          simp [countsThrough, hheader, hnext]

/-- An edit has the number that its line moves the counter of its side to. -/
theorem exists_next_of_editBy {side : Side} {c : Option Counters} {line : String} {e : LineEdit}
    (h : editBy side c line = some e) : ∃ d, nextCounters c line = some d ∧ d.on side = e.number := by
  rw [editBy] at h
  split at h
  case isFalse => cases h
  case isTrue hmarks =>
    obtain ⟨c, rfl, rfl⟩ := Option.map_eq_some_iff.1 h
    have hcounts := counts_of_marks hmarks
    rw [nextCounters, isHeaderLine_of_marks hmarks]
    refine ⟨_, rfl, ?_⟩
    cases side <;> simp [Counters.on, hcounts]

/-- What is read while the counters stay within the limit is numbered within it. -/
theorem number_le_of_staysWithin {c : Option Counters} {ls : List String} (h : StaysWithin c ls) (i : Nat) (side : Side) :
    ∀ e ∈ (editsFrom c i ls).on side, e.number ≤ lineLimit := by
  induction ls generalizing c i with
  | nil => cases side <;> simp [editsFrom, Edits.on]
  | cons line rest ih =>
    obtain ⟨-, hrest⟩ := staysWithin_cons.1 h
    intro e he
    rw [(editsFrom_cons c i line rest).1 side, List.mem_append, Option.mem_toList] at he
    rcases he with he | he
    · obtain ⟨d, hd, hnumber⟩ := exists_next_of_editBy he
      rw [← hnumber]
      exact hrest 0 d hd side
    · exact ih hrest (i + 1) e he

/-! ## Places -/

/-- The counters that the start of a header and the lines that count since then come to, at a line below the header. -/
def CountedAt (ls : List String) (header : Header) (j i : Nat) (c : Counters) : Prop :=
  ∀ side, c.on side = header.start side - 1 + ((ls.take (i + 1)).drop (j + 1)).countP side.counts

/-- A line below a header leads to the counters that are told by its place. -/
theorem Below.exists_countedAt {ls : List String} {header : Header} {j i : Nat} (hi : i < ls.length)
    (h : Below ls header j i) :
    ∃ c, (ls.take (i + 1)).foldl nextCounters none = some c ∧ CountedAt ls header j i c := by
  have hline : ls[i]? = some ls[i] := List.getElem?_eq_getElem hi
  have hplain := h.last i _ h.before (Nat.le_refl i) hline
  obtain ⟨above, top, below, htake, rfl, hparse, hnone⟩ := (below_iff hline hplain).1 h
  have hnext : ls.take (i + 1) = above ++ top :: (below ++ [ls[i]]) := by
    rw [List.take_add_one, htake, hline]
    simp
  obtain ⟨c, hon⟩ : ∃ c : Counters, ∀ side,
      c.on side = header.start side - 1 + (below ++ [ls[i]]).countP side.counts :=
    ⟨⟨_, _⟩, fun side => by cases side <;> rfl⟩
  refine ⟨c, foldl_nextCounters_iff.2 ⟨above, top, _, header, hnext, hparse, ?_, hon⟩, fun side => ?_⟩
  · simpa [or_imp, forall_and, hplain] using hnone
  · rw [hon, hnext]
    simp

/-- Counters are those of a header right above, or are told by the place of a line below one. -/
theorem exists_countedAt {ls : List String} {i : Nat} {c : Counters} (h : (ls.take i).foldl nextCounters none = some c) :
    ∃ line header, Header.parse? line = some header ∧
      ((∀ side, c.on side = header.start side - 1) ∨
        ∃ j k, k < ls.length ∧ Below ls header j k ∧ CountedAt ls header j k c) := by
  obtain ⟨above, top, below, header, htake, hparse, hnone, hon⟩ := foldl_nextCounters_iff.1 h
  refine ⟨top, header, hparse, ?_⟩
  rcases List.eq_nil_or_concat' below with rfl | ⟨earlier, line, rfl⟩
  · exact .inl hon
  · have hls : ls = (above ++ top :: earlier) ++ line :: ls.drop i := by
      conv_lhs => rw [← List.take_append_drop i ls, htake]
      simp
    generalize hplace : (above ++ top :: earlier).length = place
    have hline : ls[place]? = some line := by
      rw [hls, ← hplace, List.getElem?_append_right (Nat.le_refl _)]
      simp
    have hfirst : ls.take place = above ++ top :: earlier := by
      rw [hls, ← hplace, List.take_left]
    refine .inr ⟨above.length, place, (List.getElem?_eq_some_iff.1 hline).1, ?_, fun side => ?_⟩
    · refine (below_iff hline (hnone line (by simp))).2 ⟨above, top, earlier, hfirst, rfl, hparse, ?_⟩
      exact fun l hl => hnone l (List.mem_append_left _ hl)
    · rw [hon, List.take_add_one, hfirst, hline]
      simp

/-- All counters are within the limit exactly if, at every line below a header, the start of the header and the lines
that count since then come to no more than the limit. -/
theorem staysWithin_iff {ls : List String} : StaysWithin none ls ↔
    ∀ header j i side, i < ls.length → Below ls header j i →
      header.start side - 1 + ((ls.take (i + 1)).drop (j + 1)).countP side.counts ≤ lineLimit := by
  constructor
  · intro h header j i side hi hbelow
    obtain ⟨c, hc, hcounted⟩ := hbelow.exists_countedAt hi
    rw [← hcounted side]
    exact h (i + 1) c hc side
  · intro h i c hc side
    obtain ⟨line, header, hparse, hstart | ⟨j, k, hk, hbelow, hcounted⟩⟩ := exists_countedAt hc
    · rw [hstart]
      exact Nat.le_trans (Nat.sub_le _ _) (Header.start_le hparse side)
    · rw [hcounted]
      exact h header j k side hk hbelow

/-- A diff can be read within the limit exactly if, at every line below a header, the start of the header and the lines
that count since then come to no more than the limit. Then its edits are numbered within the limit. Starts and numbers
of lines up to half of the limit are enough. -/
theorem edits_within_limit (diff : String) :
    ((Edits.ofDiff? diff).isSome ↔
      ∀ header j i side, i < (lines diff).length → Below (lines diff) header j i →
        header.start side - 1 + (((lines diff).take (i + 1)).drop (j + 1)).countP side.counts ≤ lineLimit) ∧
    (∀ edits, Edits.ofDiff? diff = some edits →
      edits = .ofDiff diff ∧ ∀ side, ∀ e ∈ edits.on side, e.number ≤ lineLimit) ∧
    ((lines diff).length < Nat.pow 2 63 →
      (∀ line ∈ lines diff, ∀ header, Header.parse? line = some header →
        ∀ side, header.start side ≤ Nat.pow 2 63) → (Edits.ofDiff? diff).isSome) := by
  have hthrough : countsThrough none (lines diff) = true ↔ StaysWithin none (lines diff) :=
    countsThrough_iff (by simp) (lines diff)
  have hsome : (Edits.ofDiff? diff).isSome ↔ StaysWithin none (lines diff) := by
    rw [← hthrough, Edits.ofDiff?]
    split <;> simp_all
  refine ⟨hsome.trans staysWithin_iff, fun edits hedits => ?_, fun hlength hstart => ?_⟩
  · have hwithin := hsome.1 (by rw [hedits]; rfl)
    rw [Edits.ofDiff?, if_pos (hthrough.2 hwithin)] at hedits
    cases hedits
    exact ⟨rfl, number_le_of_staysWithin hwithin 0⟩
  · rw [hsome, staysWithin_iff]
    intro header j i side hi hbelow
    obtain ⟨top, htop, -, hparse⟩ := hbelow.top
    have hfirst := hstart top (List.mem_of_getElem? htop) header hparse side
    have hcount : (((lines diff).take (i + 1)).drop (j + 1)).countP side.counts ≤ i := by
      refine Nat.le_trans List.countP_le_length ?_
      rw [List.length_drop, List.length_take]
      omega
    have hlimit : Nat.pow 2 63 - 1 + (Nat.pow 2 63 - 1) ≤ lineLimit := by decide
    omega

/-- A header that starts at the limit is read, and with two lines below it the counter passes the limit. -/
theorem counter_past_limit :
    (lines "@@ -18446744073709551615 +1 @@\n a\n b\n").length < Nat.pow 2 63 ∧
      Header.parse? "@@ -18446744073709551615 +1 @@" = some ⟨lineLimit, 1, 1, 1⟩ ∧
      (lines "@@ -18446744073709551615 +1 @@\n a\n b\n").foldl nextCounters none = some ⟨lineLimit + 1, 2⟩ ∧
      Edits.ofDiff? "@@ -18446744073709551615 +1 @@\n a\n b\n" = none := by
  decide

end DiffSlice.Patch
