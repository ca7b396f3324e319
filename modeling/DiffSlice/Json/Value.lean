/-!
# JSON values

Options are read from JSON and results are written in it. Of numbers only the naturals below `2 ^ 64` matter; any
other keeps its text.
-/

namespace DiffSlice

/-- A JSON value. Fields keep their order. -/
inductive Json where
  | null
  | bool (value : Bool)
  | natural (value : Nat)
  | number (text : String)
  | string (text : String)
  | array (items : List Json)
  | object (fields : List (String × Json))
deriving Inhabited

namespace Json

/-- The value of a field; of several with the same name, the last. -/
def field? (name : String) : Json → Option Json
  | object fields => (fields.reverse.find? fun f => f.1 == name).map (·.2)
  | _ => none

def string? : Json → Option String
  | string text => some text
  | _ => none

def natural? : Json → Option Nat
  | natural n => some n
  | _ => none

/-- The items of an array, each read by `item?`. -/
def arrayOf? {α : Type} (item? : Json → Option α) : Json → Option (List α)
  | array items => items.mapM item?
  | _ => none

def strings (texts : List String) : Json :=
  array (texts.map string)

def orNull : Option Json → Json
  | some value => value
  | none => null

end Json

end DiffSlice
