import RouteAtlas.Numeral.FloatText
import RouteAtlas.Value.Items

/-!
# Values as they are written

`Value.written` gives the JSON value that writes a value as it is: plain data, members of
enumerations that are what they are worth, lists, tuples, and mappings whose keys have a form as
names. Everything else is refused, and so are whole numbers that are too long. `Value.isPlain` tells
which values reading gives back.
-/

namespace RouteAtlas.Value

/-- The name of a type without the name of what it belongs to. -/
def shortTypeName (v : Value) : String :=
  String.ofList (v.typeName.toList.reverse.takeWhile (· ≠ '.')).reverse

/-- A whole number that is to be written, unless it has too many digits. -/
def writtenNumber (n : Int) : Except Fault Int :=
  if Json.mostDigits < (Nat.toDigits 10 n.natAbs).length then .error .tooLongToWrite else .ok n

/-- The name that a key becomes. -/
def writtenName : Value → Except Fault WideText
  | .text s => .ok s
  | .none => .ok "null"
  | .bool b => .ok (if b then "true" else "false")
  | .float x => .ok (Numeral.floatText Numeral.json x)
  | .int n => do return toString (← writtenNumber n)
  | v =>
    match v.text?, v.whole? with
    | some s, _ => .ok s
    | Option.none, some n => do return toString (← writtenNumber n)
    | Option.none, Option.none => .error (.noJsonName v.shortTypeName)

mutual

/-- The JSON value that writes a value. -/
def written : Value → Except Fault Json
  | .none => .ok .null
  | .bool b => .ok (.bool b)
  | .int n => (writtenNumber n).map .int
  | .float x => .ok (.float x)
  | .text s => .ok (.text s)
  | .sequence .list items => (writtenItems items).map .list
  | .sequence .tuple items => (writtenItems items).map .list
  | .mapping false entries => (writtenEntries entries).map .object
  | v =>
    match v.text?, v.whole? with
    | some s, _ => .ok (.text s)
    | Option.none, some n => (writtenNumber n).map .int
    | Option.none, Option.none => .error (.noJsonForm v.shortTypeName)

/-- The JSON values that write items. -/
def writtenItems : List Value → Except Fault (List Json)
  | [] => .ok []
  | v :: rest => do
    let first ← written v
    return first :: (← writtenItems rest)

/-- The members that write entries. -/
def writtenEntries : List (Value × Value) → Except Fault (List (WideText × Json))
  | [] => .ok []
  | (k, v) :: rest => do
    let name ← writtenName k
    let first ← written v
    return (name, first) :: (← writtenEntries rest)

end

mutual

/-- Whether reading what is written gives the value back: it has no tuples, and its keys are texts. -/
def isPlain : Value → Bool
  | .sequence kind items => kind == .list && arePlain items
  | .mapping _ entries => entriesArePlain entries
  | _ => true

/-- Whether all items are plain. -/
def arePlain : List Value → Bool
  | [] => true
  | v :: rest => isPlain v && arePlain rest

/-- Whether all entries are plain. -/
def entriesArePlain : List (Value × Value) → Bool
  | [] => true
  | (k, v) :: rest => k.text?.isSome && isPlain v && entriesArePlain rest

end

end RouteAtlas.Value
