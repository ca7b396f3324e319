/-!
# Tables

A table keeps the values of a function at the numbers below a power of two, in a binary tree by the bits of the
number, the lowest bit first. Looking a value up gives what the function gives (`get_ofFn`). A list can also be laid
out by keys (`group`).
-/

namespace DiffSlice.JavaScript

/-- The values of a function. -/
inductive Table (α : Type) where
  | value (a : α)
  | halves (even odd : Table α)

namespace Table

/-- The table of a function at the numbers of at most `bits` bits. -/
def ofFn {α : Type} : Nat → (Nat → α) → Table α
  | 0, f => value (f 0)
  | bits + 1, f => halves (ofFn bits fun i => f (2 * i)) (ofFn bits fun i => f (2 * i + 1))

/-- The elements of a list by their keys of at most `bits` bits, in the order of the list. -/
def group {α : Type} : Nat → List (Nat × α) → Table (List α)
  | 0, entries => value (entries.map (·.2))
  | bits + 1, entries =>
    let halved := entries.map fun (key, a) => (key % 2, key / 2, a)
    halves (group bits (halved.filterMap fun (bit, entry) => if bit == 0 then some entry else none))
      (group bits (halved.filterMap fun (bit, entry) => if bit == 0 then none else some entry))

def get {α : Type} : Table α → Nat → α
  | value a, _ => a
  | halves even odd, i => if i % 2 == 0 then even.get (i / 2) else odd.get (i / 2)

/-- The table has the values of the function. -/
theorem get_ofFn {α : Type} (bits : Nat) (f : Nat → α) (i : Nat) (h : i < Nat.pow 2 bits) :
    (ofFn bits f).get i = f i := by
  induction bits generalizing f i with
  | zero =>
    have : i = 0 := by simpa using h
    simp [ofFn, get, this]
  | succ bits ih =>
    have half : i / 2 < Nat.pow 2 bits := by
      have : Nat.pow 2 (bits + 1) = 2 * Nat.pow 2 bits := by simp [Nat.pow_succ, Nat.mul_comm]
      omega
    by_cases even : i % 2 = 0
    · simp only [ofFn, get, even, beq_self_eq_true, if_true, ih _ _ half]
      congr 1
      omega
    · have odd : i % 2 = 1 := by omega
      simp only [ofFn, get, odd, ih _ _ half]
      simp only [show ((1 : Nat) == 0) = false from rfl, if_false, Bool.false_eq_true]
      congr 1
      omega

end Table

end DiffSlice.JavaScript
