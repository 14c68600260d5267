import RouteAtlas.Fault.Named
import RouteAtlas.Table
import RouteAtlas.Value

/-!
# Shapes of objects

The shape of objects of one type: the names of their fields, in order, with values for those that may
be left out. `Shape.fieldsOf` gives fields their values by place and `Shape.fieldsByName` by name;
values that are missing or too many are refused.
-/

namespace RouteAtlas

open Fault (wrongType)

/-- A type of objects with named fields. -/
structure Shape where
  /-- The name of the type. -/
  type : String
  /-- By what the objects are compared. -/
  keying : Keying
  /-- The fields, each with its value where none is given. -/
  fields : List (String × Option Value)

namespace Shape

/-- Names in quotes, one after another. -/
def listing : List String → String
  | [] => ""
  | [a] => Text.quoted a
  | [a, b] => Text.quoted a ++ " and " ++ Text.quoted b
  | names =>
    String.intercalate ", " (names.dropLast.map Text.quoted) ++ ", and "
      ++ Text.quoted (names.getLast?.getD "")

/-- The fault of making an object with wrong values. -/
def wrong (s : Shape) (message : String) : Fault := wrongType (s.type ++ ".__init__() " ++ message)

/-- The fault of fields that have no values. -/
def missing (s : Shape) (names : List String) : Fault :=
  s.wrong ("missing " ++ toString names.length ++ " required positional argument"
    ++ (if names.length = 1 then "" else "s") ++ ": " ++ listing names)

/-- The fault of more values than fields. The object itself is counted among them. -/
def tooMany (s : Shape) (given : Nat) : Fault :=
  let most := s.fields.length + 1
  let least := (s.fields.filter fun f => f.2.isNone).length + 1
  s.wrong ("takes " ++ (if least = most then "" else "from " ++ toString least ++ " to ")
    ++ toString most ++ " positional arguments but " ++ toString (given + 1) ++ " were given")

/-- The fields with values by place. -/
def fill : List (String × Option Value) → List Value → List (String × Option Value)
  | (name, _) :: fields, v :: rest => (name, some v) :: fill fields rest
  | fields, _ => fields

/-- The fields with their values, where all have one. -/
def complete (s : Shape) (filled : List (String × Option Value)) :
    Except Fault (List (String × Value)) :=
  match (filled.filter fun f => f.2.isNone).map Prod.fst with
  | [] => .ok (filled.map fun f => (f.1, f.2.getD .none))
  | names => .error (s.missing names)

/-- The fields for values in order. -/
def fieldsOf (s : Shape) (parts : List Value) : Except Fault (List (String × Value)) :=
  if s.fields.length < parts.length then .error (s.tooMany parts.length)
  else s.complete (fill s.fields parts)

/-- The fields for values by name. -/
def fieldsByName (s : Shape) (given : List (String × Value)) :
    Except Fault (List (String × Value)) :=
  match given.find? fun g => !(s.fields.map Prod.fst).contains g.1 with
  | some (name, _) => .error (s.wrong ("got an unexpected keyword argument " ++ Text.quoted name))
  | none => s.complete (s.fields.map fun f => (f.1, (Table.lookup f.1 given.reverse).or f.2))

/-- The object with values in order, for a type without description. -/
def make (s : Shape) (parts : List Value) : Except Fault Value := do
  return .object s.type s.keying (← s.fieldsOf parts) none

end Shape

end RouteAtlas
