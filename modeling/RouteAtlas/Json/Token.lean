import RouteAtlas.Text.Hex
import RouteAtlas.Text.Wide

/-!
# The tokens of JSON texts

A text is cut into tokens one character at a time. Texts are unescaped here; numbers and names are
kept as written and given a meaning where a value is expected. Everything after a fault is one
`Token.fault`.
-/

namespace RouteAtlas.Json

/-- A token of a JSON text. -/
inductive Token where
  | openList
  | closeList
  | openObject
  | closeObject
  | comma
  | colon
  /-- A text, unescaped. -/
  | text (s : WideText)
  /-- A number or a name, as written. -/
  | bare (lexeme : List Char)
  /-- What is no token. -/
  | fault
deriving DecidableEq, Repr

/-- What the characters read last belong to. Texts are built from their code points, last one first,
and `first?` is the first half of a surrogate pair whose second half may follow. -/
inductive Lexing where
  | between
  | bare (lexeme : List Char)
  | text (codes : List Nat) (first? : Option Nat)
  /-- After a backslash. -/
  | escape (codes : List Nat) (first? : Option Nat)
  /-- Inside the four digits of an escape by number. -/
  | number (codes : List Nat) (first? : Option Nat) (digits value : Nat)
  | broken
deriving Repr

/-- The characters of numbers and names. -/
def isBare (c : Char) : Bool := c.isAlphanum || c == '+' || c == '-' || c == '.'

/-- The characters between tokens. -/
def isSpace (c : Char) : Bool := c == ' ' || c == '\t' || c == '\n' || c == '\r'

/-- Adds a first half without a second. -/
def settle (codes : List Nat) : Option Nat → List Nat
  | none => codes
  | some first => first :: codes

/-- Adds the code point `n` that an escape writes: a first half waits for its second, and a second
half completes a first one that waits. -/
def putCode (codes : List Nat) (first? : Option Nat) (n : Nat) : Lexing :=
  if WideText.isFirstHalf n then .text (settle codes first?) (some n)
  else
    match first? with
    | some first =>
      if WideText.isSecondHalf n then .text (WideText.join first n :: codes) none
      else .text (n :: first :: codes) none
    | none => .text (n :: codes) none

/-- The character that a backslash and `c` write. -/
def unescape? (c : Char) : Option Char :=
  if c = '"' ∨ c = '\\' ∨ c = '/' then some c
  else if c = 'b' then some '\x08'
  else if c = 'f' then some '\x0c'
  else if c = 'n' then some '\n'
  else if c = 'r' then some '\r'
  else if c = 't' then some '\t'
  else none

/-- The token that a character between tokens is, with the state after it. -/
def startToken (c : Char) : Option Token × Lexing :=
  if c = '[' then (some .openList, .between)
  else if c = ']' then (some .closeList, .between)
  else if c = '{' then (some .openObject, .between)
  else if c = '}' then (some .closeObject, .between)
  else if c = ',' then (some .comma, .between)
  else if c = ':' then (some .colon, .between)
  else if c = '"' then (none, .text [] none)
  else if isSpace c then (none, .between)
  else if isBare c then (none, .bare [c])
  else (some .fault, .broken)

/-- Cuts the rest of a text. The tokens done so far are in reverse order. -/
def Token.scanFrom (state : Lexing) (done : List Token) : List Char → List Token
  | [] =>
    match state with
    | .between | .broken => done.reverse
    | .bare lexeme => (Token.bare lexeme.reverse :: done).reverse
    | .text .. | .escape .. | .number .. => (Token.fault :: done).reverse
  | c :: rest =>
    match state with
    | .broken => scanFrom .broken done rest
    | .between =>
      match startToken c with
      | (some t, next) => scanFrom next (t :: done) rest
      | (none, next) => scanFrom next done rest
    | .bare lexeme =>
      if isBare c then scanFrom (.bare (c :: lexeme)) done rest
      else
        match startToken c with
        | (some t, next) => scanFrom next (t :: Token.bare lexeme.reverse :: done) rest
        | (none, next) => scanFrom next (Token.bare lexeme.reverse :: done) rest
    | .text codes first? =>
      if c = '"' then
        scanFrom .between (Token.text (.ofCodes (settle codes first?).reverse) :: done) rest
      else if c = '\\' then scanFrom (.escape codes first?) done rest
      else if c.toNat < 0x20 then scanFrom .broken (Token.fault :: done) rest
      else scanFrom (.text (c.toNat :: settle codes first?) none) done rest
    | .escape codes first? =>
      if c = 'u' then scanFrom (.number codes first? 0 0) done rest
      else
        match unescape? c with
        | some d => scanFrom (.text (d.toNat :: settle codes first?) none) done rest
        | none => scanFrom .broken (Token.fault :: done) rest
    | .number codes first? digits value =>
      match Text.Hex.digitValue? c with
      | none => scanFrom .broken (Token.fault :: done) rest
      | some d =>
        let value := 16 * value + d
        if digits = 3 then scanFrom (putCode codes first? value) done rest
        else scanFrom (.number codes first? (digits + 1) value) done rest

/-- The tokens of a text. -/
def Token.scan (s : String) : List Token := Token.scanFrom .between [] s.toList

end RouteAtlas.Json
