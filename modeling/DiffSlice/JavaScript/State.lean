import DiffSlice.JavaScript.Production

/-!
# States of reading

While a text is read, a state holds the productions that have been begun and could still be completed: the items. Each
knows the steps that are left to read and the tokens that may follow it. All else is a function of the items, as no
step is ever empty: the tokens that can come next (`State.expected`), the state after a symbol (`State.after`), and
what to do at a token (`State.decision`).
-/

namespace DiffSlice.JavaScript

/-- A production of which the first steps have been read. -/
structure Item where
  production : Production
  /-- The number of steps read. -/
  dot : Nat
  /-- The steps left. -/
  rest : List Step
  /-- The tokens that may follow the production. -/
  ahead : TokenSet

namespace Item

/-- Tells apart the items of a state. -/
def key (i : Item) : Nat := 32 * i.production.id + i.dot

def same (a b : Item) : Bool := a.key == b.key && a.ahead == b.ahead

/-- The tokens that can come next. -/
def expected (i : Item) : TokenSet :=
  match i.rest with
  | step :: _ => step.first
  | [] => i.ahead

/-- The tokens that can come after the next step. -/
def beyond (i : Item) : TokenSet :=
  match i.rest with
  | _ :: step :: _ => step.first
  | _ => i.ahead

/-- The item after its next step, if that is the symbol. -/
def after? (x : Symbol) (i : Item) : Option Item :=
  match i.rest with
  | step :: rest => if step.symbol == x then some { i with dot := i.dot + 1, rest } else none
  | [] => none

/-- The item for a production that starts where a phrase is expected, which the tokens of `beyond` may follow. -/
def ofStart (beyond : TokenSet) (s : Start) : Item where
  production := s.production
  dot := 1
  rest := s.production.steps.drop 1
  ahead := if s.isWhole then s.within.union beyond else s.within

/-- Puts an item in front of a list of items with higher keys; `rest` merges the items that come after it. -/
def mergeFirst (i : Item) (is : List Item) (rest : List Item → List Item) : List Item → List Item
  | [] => i :: is
  | j :: js =>
    if i.key < j.key then i :: rest (j :: js)
    else if j.key < i.key then j :: mergeFirst i is rest js
    else { i with ahead := i.ahead.union j.ahead } :: rest js

/-- Merges two lists in the order of keys. Of an item that both have, the tokens that may follow it are united. -/
def merge : List Item → List Item → List Item
  | [], js => js
  | i :: is, js => mergeFirst i is (merge is) js

end Item

/-- The productions that have been begun, in the order of keys. -/
structure State where
  items : List Item

/-- What to do at a token. Both parts together mean that both ways are tried. -/
structure Decision where
  /-- The productions to complete before the token. -/
  completed : List Production
  /-- The state after the token, if it is read. -/
  next : Option State

namespace State

def initial : State where
  items := (productionsOf .program).map fun p => ⟨p, 0, p.steps, .single .endOfText⟩

def same (a b : State) : Bool :=
  a.items.length == b.items.length && (a.items.zip b.items).all fun (i, j) => i.same j

/-- The tokens that can come next; comments always can. -/
def expected (s : State) : TokenSet :=
  s.items.foldl (fun set i => set.union i.expected) (.ofList [.comment, .htmlComment])

/-- The phrases that are expected next, each with what can follow it. -/
def expectedPhrases (s : State) : List (Phrase × TokenSet) :=
  s.items.foldl
    (fun found i =>
      match i.rest with
      | ⟨.phrase p, _, _, _⟩ :: _ =>
        match found.find? (·.1 == p) with
        | some _ => found.map fun (q, set) => if q == p then (q, set.union i.beyond) else (q, set)
        | none => (p, i.beyond) :: found
      | _ => found)
    []

/-- The state after a symbol, without items if the symbol cannot come next. -/
def after (s : State) (x : Symbol) : State where
  items := s.expectedPhrases.foldl
    (fun items (p, beyond) => Item.merge ((starts p x).map (Item.ofStart beyond)) items)
    (s.items.filterMap (Item.after? x))

/-- Nothing could be read. -/
def isEmpty (s : State) : Bool := s.items.isEmpty

/-! ## Choosing between actions -/

/-- The productions that could be completed at a token, and what stands against a token that could be read. -/
structure Completions where
  productions : List Production := []
  rank : Option Rank := none
  phrases : List Phrase := []
  left : Bool := false
  right : Bool := false
  neutral : Bool := false

/-- Adds a production, unless those found bind more strongly; if they bind less, it replaces them. -/
def Completions.add (c : Completions) (p : Production) : Completions :=
  let added (c : Completions) : Completions :=
    { productions := c.productions ++ [p], rank := p.rank, phrases := p.phrase :: c.phrases,
      left := c.left || p.side == some .left, right := c.right || p.side == some .right,
      neutral := c.neutral || p.side == none }
  if c.productions.isEmpty then added c
  else
    match compareStanding (p.rank, [p.phrase]) (c.rank, c.phrases) with
    | .gt => added {}
    | .eq => added c
    | .lt => c

/-- The productions that are complete and that the token may follow. -/
def completions (s : State) (t : Token) : Completions :=
  s.items.foldl
    (fun c i => if i.rest.isEmpty && i.ahead.has t then c.add i.production else c)
    {}

/-- How the items that could go on with the token stand against the complete ones. -/
def goingOn (s : State) (t : Token) (c : Completions) : List Ordering :=
  s.items.filterMap fun i =>
    match i.rest with
    | step :: _ =>
      if i.dot != 0 && step.first.has t then
        some (compareStanding (i.production.rank, [i.production.phrase]) (c.rank, c.phrases))
      else none
    | [] => none

/-- What to do at a token. If a production could be completed and the token could as well be read on, the stronger
side wins. Between equals the side that the production leans to decides, and where that is open too, both remain. -/
def decision (s : State) (t : Token) : Decision :=
  let c := s.completions t
  let next := s.after (.token t)
  if next.isEmpty then ⟨c.productions, none⟩
  else if c.productions.isEmpty then ⟨[], some next⟩
  else
    let standing := s.goingOn t c
    let more := standing.contains .gt
    let less := standing.contains .lt
    if more && !less then ⟨[], some next⟩
    else if less && !more then ⟨c.productions, none⟩
    else if !less && !more && c.left && !c.right && !c.neutral then ⟨c.productions, none⟩
    else if !less && !more && c.right && !c.left && !c.neutral then ⟨[], some next⟩
    else ⟨c.productions, some next⟩

end State

end DiffSlice.JavaScript
