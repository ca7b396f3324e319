import DiffSlice.JavaScript.Grammar
import DiffSlice.JavaScript.Table

/-!
# Productions and what they begin with

A production is a phrase with one of its alternatives. As no alternative is empty but that of an empty program, all
that a phrase may begin with is found along the first symbols of the productions: `leading` has the phrases, and
`firstOf` the tokens. When a phrase is expected at a place, `starts` has the productions of it, or of a phrase that it
begins with, whose first symbol is a given one, and what can follow each of them there.
-/

namespace DiffSlice.JavaScript

/-- One of the ways to make a phrase. -/
structure Production where
  /-- The place among all productions. -/
  id : Nat
  phrase : Phrase
  steps : List Step
  rank : Option Rank
  side : Option Side
  weight : Int

def Phrase.productions (p : Phrase) : List Production :=
  p.rule.alternatives.zipIdx.map fun (a, i) =>
    { id := 256 * p.ctorIdx + i, phrase := p, steps := a.steps, rank := a.rank, side := a.side, weight := a.weight }

/-- The values of a function at all phrases, with `other` at the numbers that belong to none. -/
def Phrase.table {α : Type} (other : α) (f : Phrase → α) : Table α :=
  Table.ofFn 8 fun i => if i < Phrase.count then f (Phrase.ofNat i) else other

def Table.of {α : Type} (t : Table α) (p : Phrase) : α := t.get p.ctorIdx

def productionTable : Table (List Production) := Phrase.table [] Phrase.productions

/-- The productions of a phrase, from the table. -/
def productionsOf (p : Phrase) : List Production := productionTable.of p

/-! ## Phrases at the beginning -/

/-- The phrase of a symbol, if it is one. -/
def Symbol.phrases : Symbol → PhraseSet
  | token _ => .empty
  | phrase p => .single p

/-- The phrases related to those of a set, and the phrases of the set themselves, after any number of steps of a
relation. -/
def PhraseSet.reach (next : Phrase → PhraseSet) : Nat → PhraseSet → PhraseSet
  | 0, s => s
  | n + 1, s =>
    let more := s.union (.unions (s.toList.map next))
    if more == s then s else reach next n more

/-- All that each phrase is related to after any number of steps of a relation, the phrase itself among them. -/
def Phrase.reachTable (next : Phrase → PhraseSet) : Table PhraseSet :=
  let direct := Phrase.table .empty next
  Phrase.table .empty fun p => PhraseSet.reach direct.of Phrase.count (.single p)

/-- The phrases that each phrase may begin with, itself among them. -/
def leading : Table PhraseSet :=
  Phrase.reachTable fun p =>
    .unions ((productionsOf p).map fun production => .unions (production.steps.take 1 |>.map (·.symbol.phrases)))

/-- The phrases that can be the whole of each phrase, itself among them. -/
def wholly : Table PhraseSet :=
  Phrase.reachTable fun p =>
    .unions ((productionsOf p).map fun production =>
      match production.steps with
      | [step] => step.symbol.phrases
      | _ => .empty)

/-! ## First tokens -/

/-- The tokens of a step, if it is no phrase; where no word is reserved, a name says so. -/
def Step.tokens (s : Step) : TokenSet :=
  match s.symbol with
  | .token t => if s.isFree && t == .identifier then .ofList [t, .anyName] else .single t
  | .phrase _ => .empty

/-- The tokens at the beginning of the productions of each phrase. -/
def headTokens : Table TokenSet :=
  Phrase.table .empty fun p =>
    .unions ((productionsOf p).map fun production => .unions (production.steps.take 1 |>.map (·.tokens)))

/-- The tokens that each phrase may begin with. -/
def firstTable : Table TokenSet :=
  Phrase.table .empty fun p => .unions ((leading.of p).toList.map headTokens.of)

/-- The tokens that a phrase may begin with. -/
def firstOf (p : Phrase) : TokenSet := firstTable.of p

/-- The tokens that a step may begin with. -/
def Step.first (s : Step) : TokenSet :=
  match s.symbol with
  | .token _ => s.tokens
  | .phrase p => firstOf p

/-! ## Productions that begin where a phrase is expected -/

/-- The phrases at the beginning of longer productions: each with the phrase of the production and with what can
follow it there. -/
def heads : List (Phrase × Phrase × TokenSet) :=
  Phrase.all.flatMap fun p => (productionsOf p).filterMap fun production =>
    match production.steps with
    | first :: second :: _ =>
      match first.symbol with
      | .phrase q => some (q, p, second.first)
      | .token _ => none
    | _ => none

/-- For each phrase, the phrases that have a longer production beginning with it, with what can follow it there. -/
def headTable : Table (List (Phrase × TokenSet)) :=
  Phrase.table [] fun p => heads.filterMap fun (q, r, set) => if q == p then some (r, set) else none

/-- For each phrase, the phrases that it can be the whole of. -/
def whollyIn : Table (List Phrase) :=
  Phrase.table [] fun q => Phrase.all.filter fun p => (wholly.of p).has q

/-- Where `p` is expected: for each phrase that it may begin with, what can follow that phrase within `p`. -/
def followsWithin (p : Phrase) : Table TokenSet :=
  let leads := leading.of p
  let direct := Phrase.table .empty fun q =>
    TokenSet.unions ((headTable.of q).filterMap fun (r, set) => if leads.has r then some set else none)
  Phrase.table .empty fun q => .unions ((whollyIn.of q).map direct.of)

/-- A production whose first symbol has been read where some phrase was expected. -/
structure Start where
  production : Production
  /-- What can follow it within the expected phrase. -/
  within : TokenSet
  /-- It can be the whole of the expected phrase, so that what follows that one follows it too. -/
  isWhole : Bool

/-- For each phrase that is expected and each symbol, by its place, the productions that start with the symbol. -/
def startTable : Table (Table (List Start)) :=
  Phrase.table (.value []) fun p =>
    let follows := followsWithin p
    let wholes := wholly.of p
    Table.group 9 ((leading.of p).toList.flatMap fun q =>
      let within := follows.of q
      let isWhole := wholes.has q
      (productionsOf q).filterMap fun production =>
        production.steps.head?.map fun step => (step.symbol.index, { production, within, isWhole }))

/-- The productions that start with the symbol where the phrase is expected. -/
def starts (p : Phrase) (x : Symbol) : List Start :=
  (startTable.of p).get x.index

end DiffSlice.JavaScript
