import RouteAtlas.Table
import RouteAtlas.Text.Wide

/-!
# JSON values

The values of JSON texts. Whole numbers are exact and kept apart from floating-point ones, and the
members of an object keep their order. In texts and names halves of surrogate pairs may stand alone.
-/

namespace RouteAtlas

/-- A JSON value. -/
inductive Json where
  | null
  | bool (b : Bool)
  /-- A number written without fraction and exponent. -/
  | int (n : Int)
  /-- A number written with a fraction or an exponent, or one of the special numbers. -/
  | float (x : Float)
  | text (s : WideText)
  | list (items : List Json)
  /-- Members in order. What has been read has distinct names. -/
  | object (members : List (WideText × Json))
deriving Inhabited, Repr

namespace Json

/-- The value of a member of an object. -/
def member? (name : String) : Json → Option Json
  | .object members => Table.lookup (.plain name) members
  | _ => none

/-- The items of a list. -/
def items? : Json → Option (List Json)
  | .list items => some items
  | _ => none

/-- The text that a value is, if it is one of characters. -/
def text? : Json → Option String
  | .text (.plain s) => some s
  | _ => none

/-- The value of a truth value. -/
def bool? : Json → Option Bool
  | .bool b => some b
  | _ => none

/-- The value of a whole number. -/
def int? : Json → Option Int
  | .int n => some n
  | _ => none

/-- An object with these members. -/
def record (members : List (String × Json)) : Json :=
  .object (members.map fun m => (.plain m.1, m.2))

/-- A text, or null. -/
def ofText? : Option String → Json
  | none => .null
  | some s => .text s

/-- A list of texts. -/
def ofTexts (items : List String) : Json := .list (items.map fun s : String => .text s)

end Json

end RouteAtlas
