import RouteAtlas.Table
import RouteAtlas.Value.Shown

/-!
# Values as JSON

`Value.primitive` gives the JSON value that stands for a value on output. Numbers that JSON does not
know become null, dates their text, members of enumerations their worth, keys their plain text, and
what has no rule its plain text. `Value.output` refuses a value with a part whose description fails.
-/

namespace RouteAtlas.Value

mutual

/-- The JSON value that stands for a value. -/
def primitive : Value → Json
  | .none => .null
  | .bool b => .bool b
  | .int n => .int n
  | .float x => if x.isNaN || x.isInf then .null else .float x
  | .text s => .text s
  | .moment m => .text m.iso
  | .member m => match m.worth with | .number n => .int n | .word s => .text s
  | .bytes b => .text (quoted (.bytes b))
  | .path s => .text s
  | .range start stop step => .text (rangeText start stop step)
  | .fault _ (some (.ok description)) => primitive description
  | .fault _ (some (.error _)) => .null
  | .fault f Option.none => .text f.text
  | .sequence _ items => .list (primitiveItems items)
  | .mapping _ entries => .object (primitiveEntries [] entries)
  | .object _ _ _ (some (.ok description)) => primitive description
  | .object _ _ _ (some (.error _)) => .null
  | .object _ _ fields Option.none => .object (primitiveFields [] fields)

/-- The JSON values of items. -/
def primitiveItems : List Value → List Json
  | [] => []
  | v :: rest => primitive v :: primitiveItems rest

/-- Adds the members for entries to those done. Keys with one text are one member: the first gives
the place and the last the value. -/
def primitiveEntries (done : List (WideText × Json)) :
    List (Value × Value) → List (WideText × Json)
  | [] => done
  | (k, v) :: rest => primitiveEntries (Table.assign (shown k) (primitive v) done) rest

/-- Adds the members for fields to those done. -/
def primitiveFields (done : List (WideText × Json)) :
    List (String × Value) → List (WideText × Json)
  | [] => done
  | (name, v) :: rest => primitiveFields (Table.assign (.plain name) (primitive v) done) rest

end

mutual

/-- The first fault among the descriptions of a value and of its parts. -/
def flaw? : Value → Option Fault
  | .sequence _ items => itemFlaw? items
  | .mapping _ entries => entryFlaw? entries
  | .fault _ (some (.ok description)) => flaw? description
  | .fault _ (some (.error f)) => some f
  | .object _ _ _ (some (.ok description)) => flaw? description
  | .object _ _ _ (some (.error f)) => some f
  | .object _ _ fields Option.none => fieldFlaw? fields
  | _ => Option.none

/-- The first fault among items. -/
def itemFlaw? : List Value → Option Fault
  | [] => Option.none
  | v :: rest => (flaw? v).or (itemFlaw? rest)

/-- The first fault among the values of entries. -/
def entryFlaw? : List (Value × Value) → Option Fault
  | [] => Option.none
  | (_, v) :: rest => (flaw? v).or (entryFlaw? rest)

/-- The first fault among fields. -/
def fieldFlaw? : List (String × Value) → Option Fault
  | [] => Option.none
  | (_, v) :: rest => (flaw? v).or (fieldFlaw? rest)

end

/-- The JSON value that stands for a value, unless a description fails. -/
def output (v : Value) : Except Fault Json :=
  match v.flaw? with
  | some f => .error f
  | Option.none => .ok v.primitive

end RouteAtlas.Value
