import RouteAtlas.Value

/-!
# What values consist of

Texts, byte strings, ranges, sequences and mappings have items: characters, numbers, members, and
keys. Every value has the name of its type, and some objects have a description.
-/

namespace RouteAtlas.Value

/-- The name of the type of a value. -/
def typeName : Value → String
  | .none => "NoneType"
  | .bool _ => "bool"
  | .int _ => "int"
  | .float _ => "float"
  | .text _ => "str"
  | .moment _ => "datetime.datetime"
  | .member m => m.enumeration
  | .bytes _ => "bytes"
  | .path _ => "PurePosixPath"
  | .range .. => "range"
  | .fault f _ => f.name
  | .sequence .list _ => "list"
  | .sequence .tuple _ => "tuple"
  | .sequence .set _ => "set"
  | .sequence .frozenSet _ => "frozenset"
  | .mapping readOnly _ => if readOnly then "mappingproxy" else "dict"
  | .object type .. => type

/-- The number of items of a range. -/
def rangeLength (start stop step : Int) : Nat :=
  if 0 < step then ((stop - start + step - 1).fdiv step).toNat
  else if step < 0 then ((start - stop - step - 1).fdiv (-step)).toNat
  else 0

/-- The characters of a text. -/
def characters : WideText → List Value
  | .plain s => s.toList.map fun c => .text c.toString
  | .unpaired codes => codes.map fun n => .text (.ofCodes [n])

/-- Whether it is no value. -/
def isNone : Value → Bool
  | .none => true
  | _ => false

/-- The whole number that a value is: truth values are one and zero. -/
def whole? : Value → Option Int
  | .bool b => some (if b then 1 else 0)
  | .int n => some n
  | .member m =>
    match m.isWorth, m.worth with
    | true, .number n => some n
    | _, _ => Option.none
  | _ => Option.none

/-- The text that a value is. -/
def text? : Value → Option WideText
  | .text s => some s
  | .member m =>
    match m.isWorth, m.worth with
    | true, .word s => some s
    | _, _ => Option.none
  | _ => Option.none

/-- The most items that can be counted. -/
def mostCounted : Nat := 9223372036854775807

/-- The most items that there is memory for. -/
def mostItems : Nat := 1073741824

/-- The numbers of a range. -/
def rangeItems (start stop step : Int) : Except Fault (List Value) :=
  let n := rangeLength start stop step
  if mostCounted < n then
    .error (.other "OverflowError" [.text "Python int too large to convert to C ssize_t"])
  else if mostItems < n then .error (.outOfMemory [])
  else .ok ((List.range n).map fun i : Nat => .int (start + i * step))

/-- The items of a value, if it has items. -/
def items : Value → Except Fault (List Value)
  | .text s => .ok (characters s)
  | .bytes b => .ok (b.map fun n => .int n.toNat)
  | .range start stop step => rangeItems start stop step
  | .sequence _ items => .ok items
  | .mapping _ entries => .ok (entries.map Prod.fst)
  | .member m =>
    match m.isWorth, m.worth with
    | true, .word s => .ok (characters s)
    | _, _ => .error (.notIterable m.enumeration)
  | v => .error (.notIterable v.typeName)

/-- The description that a value has. -/
def described : Value → Except Fault Value
  | .object _ _ _ (some description) | .fault _ (some description) => description
  | v => .error (.lacks v.typeName "to_dict")

end RouteAtlas.Value
