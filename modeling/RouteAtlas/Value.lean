import RouteAtlas.Fault
import RouteAtlas.Json
import RouteAtlas.Moment

/-!
# Values

What can be handed to the JSON output: plain data, dates, members of enumerations, sequences,
mappings with any keys, objects with named fields, and anything else that has a text.
-/

namespace RouteAtlas

/-- What a member of an enumeration is worth. -/
inductive Worth where
  | number (n : Int)
  | word (s : String)
deriving DecidableEq, Repr

/-- A member of an enumeration. -/
structure Member where
  /-- The enumeration. -/
  enumeration : String
  /-- The member's name in it. -/
  name : String
  worth : Worth
  /-- Whether the member shows as its worth instead of its name. -/
  showsWorth : Bool := false
  /-- Whether the member and its worth are equal. -/
  isWorth : Bool := false
deriving DecidableEq, Repr

/-- The kinds of sequences. -/
inductive SequenceKind where
  | list
  | tuple
  | set
  | frozenSet
deriving DecidableEq, Repr

/-- By what objects are compared as keys of mappings. -/
inductive Keying where
  /-- They cannot be keys. -/
  | never
  | byFields
  /-- By their fields without the one of this name. -/
  | byFieldsExcept (name : String)
deriving DecidableEq, Repr

/-- A value. -/
inductive Value where
  | none
  | bool (b : Bool)
  | int (n : Int)
  | float (x : Float)
  | text (s : WideText)
  | moment (m : Moment)
  | member (m : Member)
  | bytes (b : List UInt8)
  /-- A path, as it shows. -/
  | path (shown : String)
  /-- The numbers from `start` to before `stop` by `step`. -/
  | range (start stop step : Int)
  /-- A fault, with its description where it has one. Making the description may fail. -/
  | fault (f : Fault) (description : Option (Except Fault Value))
  | sequence (kind : SequenceKind) (items : List Value)
  | mapping (readOnly : Bool) (entries : List (Value × Value))
  /-- An object with named fields. It may have a description of its own, which then stands for the
  fields on output. Making it may fail, too. -/
  | object (type : String) (keying : Keying) (fields : List (String × Value))
    (description : Option (Except Fault Value))
deriving Repr, Inhabited

namespace Value

mutual

/-- The value of a JSON value. -/
def ofJson : Json → Value
  | .null => .none
  | .bool b => .bool b
  | .int n => .int n
  | .float x => .float x
  | .text s => .text s
  | .list items => .sequence .list (ofJsonItems items)
  | .object members => .mapping false (ofJsonMembers members)

/-- The values of the items of a list. -/
def ofJsonItems : List Json → List Value
  | [] => []
  | v :: rest => ofJson v :: ofJsonItems rest

/-- The entries of an object. -/
def ofJsonMembers : List (WideText × Json) → List (Value × Value)
  | [] => []
  | (name, v) :: rest => (.text name, ofJson v) :: ofJsonMembers rest

end

/-- A list of texts. -/
def ofTexts (items : List String) : Value := .sequence .list (items.map fun s : String => .text s)

/-- A text, or nothing. -/
def ofText? : Option String → Value
  | some s => .text s
  | Option.none => .none

/-- A mapping from names. -/
def record (entries : List (String × Value)) : Value :=
  .mapping false (entries.map fun p => (.text p.1, p.2))

end Value

end RouteAtlas
