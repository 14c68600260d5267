import RouteAtlas.Numeral.FloatText
import RouteAtlas.Text.Blank
import RouteAtlas.Text.Digit

/-!
# Numbers in plain text

A number may stand between gaps, have a sign of either kind, and have single underscores between its
digits, which may be of any script. A floating-point number may lack the digits on one side of its
point, and has names for what is infinite and for what is not a number.
-/

namespace RouteAtlas.Numeral

/-! ## The characters of numbers -/

/-- A character of a number in ASCII: a blank beyond it is a space, and a digit of any script is the
digit of its value. -/
def asciiForm? (c : Char) : Option Char :=
  if c.toNat < 0x7F then some c
  else if Text.isBlank c then some ' '
  else (Text.decimalValue? c).map fun d => Char.ofNat (48 + d)

/-- A text in ASCII. A question mark, which is part of no number, stands for the first character
without such a form and for all that follow it. -/
def asciiForm : List Char → List Char
  | [] => []
  | c :: rest =>
    match asciiForm? c with
    | some d => d :: asciiForm rest
    | none => ['?']

/-- The text without gaps around it. -/
def trimGaps (s : List Char) : List Char := ((s.dropWhile Text.isGap).reverse.dropWhile Text.isGap).reverse

/-! ## Digits and signs -/

/-- Goes on with a run of digits, which comes last digit first. -/
def digitRunFrom (done : List Char) : List Char → List Char × List Char
  | [] => (done.reverse, [])
  | c :: rest =>
    if c.isDigit then digitRunFrom (c :: done) rest
    else
      match c, rest with
      | '_', d :: rest' =>
        if d.isDigit && !done.isEmpty then digitRunFrom (d :: done) rest' else (done.reverse, c :: rest)
      | _, _ => (done.reverse, c :: rest)

/-- The digits that a text starts with, and what is left. A single underscore may stand between two
digits. -/
def digitRun (s : List Char) : List Char × List Char := digitRunFrom [] s

/-- The sign that a text starts with, as whether it is a minus, and what is left. -/
def readSign : List Char → Bool × List Char
  | '-' :: rest => (true, rest)
  | '+' :: rest => (false, rest)
  | s => (false, s)

/-- The value of a run of digits. -/
def digitsValue (digits : List Char) : Nat :=
  digits.foldl (fun n c => 10 * n + (c.toNat - 48)) 0

/-! ## Numbers -/

/-- The sign and the digits of the whole number that a text starts with, and what is left: nothing
but gaps, if the text is a number. -/
def wholeStart? (s : String) : Option (Bool × List Char × List Char) :=
  let (negative, rest) := readSign ((asciiForm s.toList).dropWhile Text.isGap)
  let (digits, rest) := digitRun rest
  if digits.isEmpty || rest.head? == some '_' then none else some (negative, digits, rest)

/-- The power of ten that an exponent asks for. Beyond a million its size no longer matters, so the
digits are cut there. -/
def exponentValue (negative : Bool) (digits : List Char) : Int :=
  let significant := digits.dropWhile (· == '0')
  let n : Int := if significant.length ≤ 7 then digitsValue significant else 10000000
  if negative then -n else n

/-- The exponent that a text is; none at its end. -/
def exponentLiteral? : List Char → Option Int
  | [] => some 0
  | c :: rest =>
    if c = 'e' ∨ c = 'E' then
      let (negative, rest) := readSign rest
      match digitRun rest with
      | (digits, []) => if digits.isEmpty then none else some (exponentValue negative digits)
      | _ => none
    else none

/-- The floating-point number that a text writes in decimal, less its sign. -/
def decimalLiteral? (negative : Bool) (s : List Char) : Option Float :=
  let (whole, rest) := digitRun s
  let (fraction, rest) := match rest with
    | '.' :: rest => digitRun rest
    | rest => ([], rest)
  if whole.isEmpty && fraction.isEmpty then none
  else
    (exponentLiteral? rest).map fun e =>
      floatOfDecimal negative (digitsValue (whole ++ fraction)) (e - fraction.length)

/-- The floating-point number that a text writes. -/
def floatLiteral? (s : String) : Option Float :=
  let (negative, rest) := readSign (trimGaps (asciiForm s.toList))
  let signed (x : Float) : Option Float := some (if negative then -x else x)
  match String.ofList (rest.map Char.toLower) with
  | "inf" | "infinity" => signed (1 / 0)
  | "nan" => some (0 / 0)
  | _ => decimalLiteral? negative rest

end RouteAtlas.Numeral
