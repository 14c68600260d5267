import RouteAtlas.Numeral.FloatText
import RouteAtlas.Value

/-!
# The text of values

`Value.shown` is the plain text of a value and `Value.quoted` its text inside other values, where
texts stand in quotes. Keys of mappings become plain text on output.
-/

namespace RouteAtlas

namespace Member

/-- The text of what a member is worth. -/
def worthText (m : Member) : String :=
  match m.worth with
  | .number n => toString n
  | .word s => s

/-- The member as plain text. -/
def shown (m : Member) : String :=
  if m.showsWorth then m.worthText else m.enumeration ++ "." ++ m.name

/-- The member inside other values. -/
def quoted (m : Member) : String :=
  let worth := match m.worth with | .number n => toString n | .word s => Text.quoted s
  "<" ++ m.enumeration ++ "." ++ m.name ++ ": " ++ worth ++ ">"

end Member

/-- A fault inside other values: its name and details, without those that are paths. -/
def Fault.quoted (f : Fault) : String :=
  let call (details : List String) : String := f.name ++ "(" ++ String.intercalate ", " details ++ ")"
  match f with
  | .system kind details =>
    let kept := if namesPath kind details then details.take 2 else details
    call (kept.map Detail.quoted)
  | .outOfMemory details | .missingKey details | .stop _ details | .other _ details =>
    call (details.map Detail.quoted)
  | .undecodable bytes start finish reason =>
    call [Text.quoted "utf-8", Text.quotedBytes bytes, toString start, toString finish,
      Text.quoted reason]
  | f => call [Text.quoted f.text]

namespace Value

/-- The numbers of a range, in parentheses. -/
def rangeText (start stop step : Int) : String :=
  "range(" ++ toString start ++ ", " ++ toString stop
    ++ (if step = 1 then "" else ", " ++ toString step) ++ ")"

/-- Items between the brackets of their sequence. -/
def sequenceText (kind : SequenceKind) (items : List String) : String :=
  let inner := String.intercalate ", " items
  match kind with
  | .list => "[" ++ inner ++ "]"
  | .tuple => if items.length = 1 then "(" ++ inner ++ ",)" else "(" ++ inner ++ ")"
  | .set => if items.isEmpty then "set()" else "\x7b" ++ inner ++ "\x7d"
  | .frozenSet => if items.isEmpty then "frozenset()" else "frozenset(\x7b" ++ inner ++ "\x7d)"

/-- Entries between the braces of their mapping. -/
def mappingText (readOnly : Bool) (entries : List String) : String :=
  let inner := "\x7b" ++ String.intercalate ", " entries ++ "\x7d"
  if readOnly then "mappingproxy(" ++ inner ++ ")" else inner

mutual

/-- The text of a value inside others. -/
def quoted : Value → String
  | .none => "None"
  | .bool b => if b then "True" else "False"
  | .int n => toString n
  | .float x => Numeral.floatText Numeral.plain x
  | .text s => Text.quotedWide s
  | .moment m => m.quoted
  | .member m => m.quoted
  | .bytes b => Text.quotedBytes b
  | .path shown => "PurePosixPath(" ++ Text.quoted shown ++ ")"
  | .range start stop step => rangeText start stop step
  | .fault f _ => f.quoted
  | .sequence kind items => sequenceText kind (quotedItems items)
  | .mapping readOnly entries => mappingText readOnly (quotedEntries entries)
  | .object type _ fields _ => type ++ "(" ++ String.intercalate ", " (quotedFields fields) ++ ")"

/-- The texts of the items of a sequence. -/
def quotedItems : List Value → List String
  | [] => []
  | v :: rest => quoted v :: quotedItems rest

/-- The texts of the entries of a mapping. -/
def quotedEntries : List (Value × Value) → List String
  | [] => []
  | (k, v) :: rest => (quoted k ++ ": " ++ quoted v) :: quotedEntries rest

/-- The texts of the fields of an object. -/
def quotedFields : List (String × Value) → List String
  | [] => []
  | (name, v) :: rest => (name ++ "=" ++ quoted v) :: quotedFields rest

end

/-- The plain text of a value. -/
def shown : Value → WideText
  | .text s => s
  | .moment m => m.text " "
  | .member m => m.shown
  | .path s => s
  | .fault f _ => f.text
  | v => quoted v

end Value

end RouteAtlas
