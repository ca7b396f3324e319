import Mathlib.Data.List.Pairwise

/-!
# Lists told by places

A list can be told by saying what stands at which place: it has these things in the order of their places (`Lists`).
There is at most one such list (`Lists.unique`).

- The places may be named in another way that keeps their order (`Lists.map_place`).
- A list that is put together from parts is told by the number of the part and the place in it (`Lists.flatMap`).
- What a run through a list puts out is told by what it puts out at each element, in the state that the elements before
  it lead to (`lists_run`).
-/

namespace DiffSlice

/-- The list has what stands at each place, once and in the order of the places. -/
def Lists {ι α : Type} [LT ι] (stands : ι → α → Prop) (xs : List α) : Prop :=
  ∃ placed : List (ι × α), placed.Pairwise (fun a b => a.1 < b.1) ∧ (∀ i x, (i, x) ∈ placed ↔ stands i x) ∧
    placed.map Prod.snd = xs

section

variable {ι α : Type} [LT ι] {stands : ι → α → Prop} {xs ys : List α}

theorem lists_nil (h : ∀ i x, ¬ stands i x) : Lists stands [] :=
  ⟨[], .nil, fun i x => iff_of_false List.not_mem_nil (h i x), rfl⟩

theorem Lists.congr {stands' : ι → α → Prop} (h : ∀ i x, stands i x ↔ stands' i x) (hx : Lists stands xs) :
    Lists stands' xs := by
  obtain ⟨placed, horder, hmem, hxs⟩ := hx
  exact ⟨placed, horder, fun i x => (hmem i x).trans (h i x), hxs⟩

/-- What stands in the one list and, further on, what stands in the other. -/
theorem Lists.append {stands' : ι → α → Prop} (hx : Lists stands xs) (hy : Lists stands' ys)
    (h : ∀ i x j y, stands i x → stands' j y → i < j) : Lists (fun i x => stands i x ∨ stands' i x) (xs ++ ys) := by
  obtain ⟨first, horder, hmem, rfl⟩ := hx
  obtain ⟨second, horder', hmem', rfl⟩ := hy
  refine ⟨first ++ second, ?_, fun i x => ?_, List.map_append⟩
  · refine List.pairwise_append.2 ⟨horder, horder', fun a ha b hb => ?_⟩
    exact h a.1 a.2 b.1 b.2 ((hmem _ _).1 ha) ((hmem' _ _).1 hb)
  · rw [List.mem_append, hmem, hmem']

/-- What stands at the places stands in the same order at the places that a map takes them to, if it keeps their
order. -/
theorem Lists.map_place {κ : Type} [LT κ] (f : ι → κ) (hx : Lists stands xs)
    (h : ∀ i x j y, stands i x → stands j y → i < j → f i < f j) :
    Lists (fun k x => ∃ i, k = f i ∧ stands i x) xs := by
  obtain ⟨placed, horder, hmem, rfl⟩ := hx
  refine ⟨placed.map fun a => (f a.1, a.2), ?_, fun k x => ?_, ?_⟩
  · refine List.pairwise_map.2 (horder.imp_of_mem fun {a b} ha hb hlt => ?_)
    exact h a.1 a.2 b.1 b.2 ((hmem _ _).1 ha) ((hmem _ _).1 hb) hlt
  · simp only [List.mem_map, Prod.mk.injEq, Prod.exists]
    constructor
    · rintro ⟨i, y, hy, rfl, rfl⟩
      exact ⟨i, rfl, (hmem i y).1 hy⟩
    · rintro ⟨i, rfl, hi⟩
      exact ⟨i, x, (hmem i x).2 hi, rfl, rfl⟩
  · rw [List.map_map]
    rfl

/-- There is only one list of what stands at the places. -/
theorem Lists.unique [Std.Asymm (LT.lt : ι → ι → Prop)] (hx : Lists stands xs) (hy : Lists stands ys) : xs = ys := by
  obtain ⟨first, horder, hmem, rfl⟩ := hx
  obtain ⟨second, horder', hmem', rfl⟩ := hy
  have hnodup : ∀ {placed : List (ι × α)}, placed.Pairwise (fun a b => a.1 < b.1) → placed.Nodup := by
    intro placed h
    refine h.imp fun {a b} hlt heq => ?_
    rw [heq] at hlt
    exact Std.Asymm.asymm _ _ hlt hlt
  have hperm : first.Perm second := by
    refine (List.perm_ext_iff_of_nodup (hnodup horder) (hnodup horder')).2 fun a => ?_
    exact (hmem a.1 a.2).trans (hmem' a.1 a.2).symm
  rw [hperm.eq_of_pairwise (fun _ _ _ _ hab hba => absurd hba (Std.Asymm.asymm _ _ hab)) horder horder']

end

/-- What stands in the parts of a list, told by the number of the part and the place in it. -/
theorem Lists.flatMap {α β : Type} {f : α → List β} (stands : Nat → List Nat → β → Prop) (xs : List α)
    (h : ∀ i x, xs[i]? = some x → Lists (stands i) (f x)) :
    Lists (fun path y => ∃ i p, path = i :: p ∧ i < xs.length ∧ stands i p y) (xs.flatMap f) := by
  induction xs generalizing stands with
  | nil => exact lists_nil (by simp)
  | cons x xs ih =>
    have hfirst := (h 0 x rfl).map_place (List.cons 0) fun p _ q _ _ _ hlt => List.Lex.cons hlt
    have hrest := (ih (fun i => stands (i + 1)) fun i y hy => h (i + 1) y hy).map_place (List.modifyHead (· + 1)) (by
      rintro _ y _ z ⟨i, p, rfl, _⟩ ⟨j, q, rfl, _⟩ hlt
      simpa [List.cons_lt_cons_iff] using hlt)
    rw [List.flatMap_cons]
    refine (hfirst.append hrest ?_).congr fun path y => ?_
    · rintro _ y _ z ⟨p, rfl, _⟩ ⟨_, rfl, i, q, rfl, _⟩
      exact List.Lex.rel (Nat.succ_pos i)
    · constructor
      · rintro (⟨p, rfl, hp⟩ | ⟨_, rfl, i, p, rfl, hi, hp⟩)
        · exact ⟨0, p, rfl, Nat.succ_pos _, hp⟩
        · exact ⟨i + 1, p, rfl, Nat.succ_lt_succ hi, hp⟩
      · rintro ⟨i, p, rfl, hi, hp⟩
        cases i with
        | zero => exact .inl ⟨p, rfl, hp⟩
        | succ i => exact .inr ⟨i :: p, rfl, i, p, rfl, Nat.lt_of_succ_lt_succ hi, hp⟩

/-- A run that goes from state to state lists what it puts out at each element, in the state that the elements before it
lead to. It numbers the elements from `i` on. -/
theorem lists_run {σ α β : Type} (run : σ → Nat → List α → List β) (next : σ → α → σ)
    (out : σ → Nat → α → Option β) (hnil : ∀ s i, run s i [] = [])
    (hcons : ∀ s i a rest, run s i (a :: rest) = (out s i a).toList ++ run (next s a) (i + 1) rest) (s : σ) (i : Nat)
    (xs : List α) :
    Lists (fun k y => ∃ a, xs[k]? = some a ∧ out ((xs.take k).foldl next s) (i + k) a = some y) (run s i xs) := by
  induction xs generalizing s i with
  | nil =>
    rw [hnil]
    exact lists_nil (by simp)
  | cons a xs ih =>
    have hfirst : Lists (fun k y => k = 0 ∧ out s i a = some y) (out s i a).toList := by
      cases out s i a with
      | none => exact lists_nil (by simp)
      | some y => exact ⟨[(0, y)], List.pairwise_singleton _ _, by simp [eq_comm], rfl⟩
    have hrest := (ih (next s a) (i + 1)).map_place (· + 1) fun _ _ _ _ _ _ hlt => Nat.succ_lt_succ hlt
    rw [hcons]
    refine (hfirst.append hrest ?_).congr fun k y => ?_
    · rintro _ y _ z ⟨rfl, _⟩ ⟨k, rfl, _⟩
      exact Nat.succ_pos k
    · cases k with
      | zero => simp
      | succ k => simp [Nat.add_assoc, Nat.add_comm 1]

end DiffSlice
