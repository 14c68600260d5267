import RouteAtlas.Json
import RouteAtlas.Numeral.FloatText
import RouteAtlas.Text.Hex

/-!
# Writing JSON texts

`Json.pretty` writes a value over several lines, two spaces deeper at each level, and `Json.compact`
on one line. Both write every character but the printable ones of ASCII as an escape.
-/

namespace RouteAtlas.Json

/-- An escape by number. -/
def escapeUnit (n : Nat) : List Char := '\\' :: 'u' :: Text.Hex.digits 4 n

/-- How a character is written inside a text. -/
def escapeChar (c : Char) : List Char :=
  let n := c.toNat
  if c = '"' then ['\\', '"']
  else if c = '\\' then ['\\', '\\']
  else if c = '\n' then ['\\', 'n']
  else if c = '\r' then ['\\', 'r']
  else if c = '\t' then ['\\', 't']
  else if c = '\x0c' then ['\\', 'f']
  else if c = '\x08' then ['\\', 'b']
  else if 0x20 ≤ n && n < 0x7F then [c]
  else if n < 0x10000 then escapeUnit n
  else escapeUnit (0xD800 + (n - 0x10000) / 0x400) ++ escapeUnit (0xDC00 + (n - 0x10000) % 0x400)

/-- How a code point is written inside a text. -/
def escapeCode (n : Nat) : List Char :=
  if WideText.isHalf n then escapeUnit n else escapeChar (Char.ofNat n)

/-- A text in its quotes. -/
def textLiteral (s : String) : String :=
  String.ofList ('"' :: s.toList.flatMap escapeChar ++ ['"'])

/-- A text in its quotes, halves of surrogate pairs as escapes. -/
def wideLiteral : WideText → String
  | .plain s => textLiteral s
  | .unpaired codes => String.ofList ('"' :: codes.flatMap escapeCode ++ ['"'])

/-- A line end and the spaces of a level. -/
def newline (level : Nat) : String := String.ofList ('\n' :: List.replicate (2 * level) ' ')

/-- Items between brackets, each on a line of its own. -/
def bracketLines (open_ close : String) (level : Nat) (items : List String) : String :=
  if items.isEmpty then open_ ++ close
  else
    open_ ++ newline (level + 1) ++ String.intercalate ("," ++ newline (level + 1)) items
      ++ newline level ++ close

mutual

/-- The value over several lines, at a level of nesting. -/
def prettyAt (level : Nat) : Json → String
  | .null => "null"
  | .bool b => if b then "true" else "false"
  | .int n => toString n
  | .float x => Numeral.floatText Numeral.json x
  | .text s => wideLiteral s
  | .list items => bracketLines "[" "]" level (prettyItems (level + 1) items)
  | .object members => bracketLines "\x7b" "\x7d" level (prettyMembers (level + 1) members)

/-- The items of a list. -/
def prettyItems (level : Nat) : List Json → List String
  | [] => []
  | v :: rest => prettyAt level v :: prettyItems level rest

/-- The members of an object. -/
def prettyMembers (level : Nat) : List (WideText × Json) → List String
  | [] => []
  | (name, v) :: rest => (wideLiteral name ++ ": " ++ prettyAt level v) :: prettyMembers level rest

end

/-- The value over several lines. -/
def pretty (v : Json) : String := prettyAt 0 v

mutual

/-- The value on one line. -/
def compact : Json → String
  | .null => "null"
  | .bool b => if b then "true" else "false"
  | .int n => toString n
  | .float x => Numeral.floatText Numeral.json x
  | .text s => wideLiteral s
  | .list items => "[" ++ String.intercalate ", " (compactItems items) ++ "]"
  | .object members => "\x7b" ++ String.intercalate ", " (compactMembers members) ++ "\x7d"

/-- The items of a list. -/
def compactItems : List Json → List String
  | [] => []
  | v :: rest => compact v :: compactItems rest

/-- The members of an object. -/
def compactMembers : List (WideText × Json) → List String
  | [] => []
  | (name, v) :: rest => (wideLiteral name ++ ": " ++ compact v) :: compactMembers rest

end

end RouteAtlas.Json
