import RouteAtlas.Numeral.Truncate
import RouteAtlas.Value.Items

/-!
# Keys of mappings

Keys that are equal are one key: numbers by their value, whatever their kind, and sequences item by
item. Some values cannot be keys.
-/

namespace RouteAtlas

/-- Whether a field does not count when objects are compared. -/
def Keying.skips : Keying → String → Bool
  | byFieldsExcept name, field => name == field
  | _, _ => false

namespace Value

/-- What a value of a simple kind is compared by. -/
inductive KeyAtom where
  | nothing
  | text (s : WideText)
  | whole (n : Int)
  | fraction (x : Float)
  /-- A moment without a distance from universal time, in microseconds. -/
  | localTime (n : Int)
  /-- A moment of universal time, in microseconds. -/
  | instant (n : Int)
  | member (m : Member)
  | bytes (b : List UInt8)
  | path (s : String)
  /-- The number of items of a range, and the first and the step where they matter. -/
  | range (length : Nat) (start step : Option Int)

/-- Whether two values of simple kinds are one key. A number that is no number is a key of its own.
-/
def KeyAtom.same : KeyAtom → KeyAtom → Bool
  | nothing, nothing => true
  | text s, text t => s == t
  | whole m, whole n => m == n
  | fraction x, fraction y => x == y
  | localTime m, localTime n => m == n
  | instant m, instant n => m == n
  | member m, member n => m == n
  | bytes a, bytes b => a == b
  | path s, path t => s == t
  | range m a s, range n b t => m == n && a == b && s == t
  | _, _ => false

/-- What a value is compared by, if it is of a simple kind. Members that are equal to what they are
worth are compared by it, and ranges by their items. -/
def keyAtom? : Value → Option KeyAtom
  | .none => some .nothing
  | .bool b => some (.whole (if b then 1 else 0))
  | .int n => some (.whole n)
  | .float x =>
    match Numeral.whole? x with
    | some n => some (.whole n)
    | Option.none => some (.fraction x)
  | .text s => some (.text s)
  | .moment m =>
    match m.offset with
    | some offset => some (.instant (m.microseconds - offset))
    | Option.none => some (.localTime m.microseconds)
  | .member m =>
    if m.isWorth then
      match m.worth with
      | .number n => some (.whole n)
      | .word s => some (.text s)
    else some (.member m)
  | .bytes b => some (.bytes b)
  | .path s => some (.path s)
  | .range start stop step =>
    let length := rangeLength start stop step
    some (.range length (if length = 0 then Option.none else some start)
      (if length ≤ 1 then Option.none else some step))
  | _ => Option.none

mutual

/-- Whether two values are one key. -/
def sameKey (a b : Value) : Bool :=
  match a with
  | .sequence .tuple items =>
    match b with | .sequence .tuple items' => sameItems items items' | _ => false
  | .sequence .frozenSet items =>
    match b with | .sequence .frozenSet items' => sameItems items items' | _ => false
  | .object type keying fields _ =>
    match b with
    | .object type' _ fields' _ => type == type' && sameFields keying fields fields'
    | _ => false
  | a =>
    match keyAtom? a, keyAtom? b with
    | some x, some y => x.same y
    | _, _ => false

/-- Whether the items of two sequences are the same keys. -/
def sameItems (as bs : List Value) : Bool :=
  match as with
  | [] => bs.isEmpty
  | a :: rest => match bs with | [] => false | b :: rest' => sameKey a b && sameItems rest rest'

/-- Whether the fields of two objects are the same keys. -/
def sameFields (keying : Keying) (as bs : List (String × Value)) : Bool :=
  match as with
  | [] => bs.isEmpty
  | (name, a) :: rest =>
    match bs with
    | [] => false
    | (_, b) :: rest' => (keying.skips name || sameKey a b) && sameFields keying rest rest'

end

mutual

/-- The type of the first part of a value that keeps it from being a key. -/
def unkeyed? : Value → Option String
  | .sequence .list _ => some "list"
  | .sequence .set _ => some "set"
  | .sequence .tuple items => unkeyedItem? items
  | .sequence .frozenSet _ => Option.none
  | .mapping readOnly _ => some (if readOnly then "mappingproxy" else "dict")
  | .object type keying fields _ =>
    if keying = .never then some type else unkeyedField? keying fields
  | _ => Option.none

/-- The first item that keeps a sequence from being a key. -/
def unkeyedItem? : List Value → Option String
  | [] => Option.none
  | v :: rest => match unkeyed? v with | some t => some t | Option.none => unkeyedItem? rest

/-- The first field that keeps an object from being a key. -/
def unkeyedField? (keying : Keying) : List (String × Value) → Option String
  | [] => Option.none
  | (name, v) :: rest =>
    match if keying.skips name then Option.none else unkeyed? v with
    | some t => some t
    | Option.none => unkeyedField? keying rest

end

/-- Binds a key: an equal key keeps its place and its form. -/
def bindKey (key value : Value) : List (Value × Value) → List (Value × Value)
  | [] => [(key, value)]
  | (k, v) :: rest =>
    if sameKey k key then (k, value) :: rest else (k, v) :: bindKey key value rest

/-- Adds an entry, unless its key cannot be one. -/
def addEntry (entries : List (Value × Value)) (key value : Value) :
    Except Fault (List (Value × Value)) :=
  match unkeyed? key with
  | some type => .error (.unhashable type)
  | Option.none => .ok (bindKey key value entries)

/-- Adds an item to those of a set, unless it cannot be in a set. -/
def addItem (items : List Value) (v : Value) : Except Fault (List Value) :=
  match unkeyed? v with
  | some type => .error (.unhashable type)
  | Option.none => .ok (if items.any (sameKey v) then items else items ++ [v])

end Value

end RouteAtlas
