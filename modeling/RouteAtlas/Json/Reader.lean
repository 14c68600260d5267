import RouteAtlas.Json
import RouteAtlas.Json.Number
import RouteAtlas.Json.Token

/-!
# Reading JSON texts

`Json.read` reads one value and nothing after it. It accepts the names `NaN`, `Infinity` and
`-Infinity` besides the numbers, and lets the last of two members with one name win. Two limits are
refusals of their own: the number of digits of a whole number, and the depth of nesting.
-/

namespace RouteAtlas.Json

/-- What a list or an object is, for a message. -/
inductive Bracket where
  | list
  | object
deriving DecidableEq, Repr

/-- Why a text is not read. -/
inductive Refusal where
  /-- The text is no JSON value. -/
  | malformed
  /-- A whole number has more digits than are converted. -/
  | tooManyDigits (digits : Nat)
  /-- A list or an object opens deeper than is followed. -/
  | tooDeep (bracket : Bracket)
deriving DecidableEq, Repr

/-- The most digits of a whole number. -/
def mostDigits : Nat := 4300

/-- The most brackets open at one place, where no other number is given. How many there may be is a matter
of what the program runs on. -/
def mostOpen : Nat := 984

/-- The value of a number, unless it has too many digits. -/
def numberValue (w : Written) : Except Refusal Json :=
  if w.isWhole then
    if mostDigits < w.whole.length then .error (.tooManyDigits w.whole.length)
    else .ok (.int w.toInt)
  else .ok (.float w.toFloat)

/-- The value of a number or a name. Of a number with something wrong after it, too many digits are
noticed first. -/
def bareValue (lexeme : List Char) : Except Refusal Json :=
  if lexeme = "null".toList then .ok .null
  else if lexeme = "true".toList then .ok (.bool true)
  else if lexeme = "false".toList then .ok (.bool false)
  else if lexeme = "NaN".toList then .ok (.float (0 / 0))
  else if lexeme = "Infinity".toList then .ok (.float (1 / 0))
  else if lexeme = "-Infinity".toList then .ok (.float (-1 / 0))
  else
    match Written.read? lexeme with
    | none => .error .malformed
    | some (w, rest) => do
      let v ← numberValue w
      if rest.isEmpty then return v else .error .malformed

/-- A list or an object that has been opened. -/
inductive Opened where
  /-- The items so far, last one first. -/
  | list (items : List Json)
  /-- The members so far, and the name whose value comes next. -/
  | object (members : List (WideText × Json)) (name : WideText)
deriving Repr

/-- What may come next. -/
inductive Expecting where
  | value
  /-- The first item of a list, or its end. -/
  | itemOrEnd
  /-- The first name of an object, or its end. -/
  | nameOrEnd (members : List (WideText × Json))
  /-- A further name. -/
  | name (members : List (WideText × Json))
  /-- The colon after a name. -/
  | colon (members : List (WideText × Json)) (name : WideText)
  /-- What follows a complete value. -/
  | after (v : Json)
deriving Repr

/-- Opens a bracket at a depth, unless that is too deep. -/
def openBracket (most depth : Nat) (b : Bracket) : Except Refusal Expecting :=
  if most ≤ depth then .error (.tooDeep b)
  else
    match b with
    | .list => .ok .itemOrEnd
    | .object => .ok (.nameOrEnd [])

/-- Reads on. The lists and objects that are open come innermost first; the one whose first item or
name is expected is not yet among them. -/
def readFrom (most : Nat) (expecting : Expecting) (opened : List Opened) (depth : Nat) :
    List Token → Except Refusal Json
  | [] =>
    match expecting, opened with
    | .after v, [] => .ok v
    | _, _ => .error .malformed
  | t :: rest =>
    match expecting with
    | .after v =>
      match opened, t with
      | .list items :: opened, .comma => readFrom most .value (.list (v :: items) :: opened) depth rest
      | .list items :: opened, .closeList =>
        readFrom most (.after (.list (v :: items).reverse)) opened (depth - 1) rest
      | .object members name :: opened, .comma =>
        readFrom most (.name (Table.assign name v members)) opened depth rest
      | .object members name :: opened, .closeObject =>
        readFrom most (.after (.object (Table.assign name v members))) opened (depth - 1) rest
      | _, _ => .error .malformed
    | .itemOrEnd =>
      match t with
      | .closeList => readFrom most (.after (.list [])) opened (depth - 1) rest
      | .openList => do
        readFrom most (← openBracket most depth .list) (.list [] :: opened) (depth + 1) rest
      | .openObject => do
        readFrom most (← openBracket most depth .object) (.list [] :: opened) (depth + 1) rest
      | .text s => readFrom most (.after (.text s)) (.list [] :: opened) depth rest
      | .bare lexeme => do
        readFrom most (.after (← bareValue lexeme)) (.list [] :: opened) depth rest
      | _ => .error .malformed
    | .value =>
      match t with
      | .openList => do readFrom most (← openBracket most depth .list) opened (depth + 1) rest
      | .openObject => do readFrom most (← openBracket most depth .object) opened (depth + 1) rest
      | .text s => readFrom most (.after (.text s)) opened depth rest
      | .bare lexeme => do readFrom most (.after (← bareValue lexeme)) opened depth rest
      | _ => .error .malformed
    | .nameOrEnd members =>
      match t with
      | .closeObject => readFrom most (.after (.object members)) opened (depth - 1) rest
      | .text s => readFrom most (.colon members s) opened depth rest
      | _ => .error .malformed
    | .name members =>
      match t with
      | .text s => readFrom most (.colon members s) opened depth rest
      | _ => .error .malformed
    | .colon members name =>
      match t with
      | .colon => readFrom most .value (.object members name :: opened) depth rest
      | _ => .error .malformed

/-- The value that a text writes, with this many brackets open at most. -/
def read (s : String) (most : Nat := mostOpen) : Except Refusal Json :=
  readFrom most .value [] 0 (Token.scan s)

end RouteAtlas.Json
