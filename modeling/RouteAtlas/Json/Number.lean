import RouteAtlas.Numeral.Literal

/-!
# Numbers in JSON texts

A number has a sign, digits without leading zero, and perhaps a fraction and an exponent. Without
the last two it is whole and exact; otherwise it is the nearest floating-point number.
-/

namespace RouteAtlas.Json

/-- A number as written. -/
structure Written where
  /-- Whether it starts with a minus sign. -/
  negative : Bool
  /-- The digits before the point. -/
  whole : List Char
  /-- The digits after the point; none where there is no point. -/
  fraction : List Char
  /-- The exponent's sign and digits, where there is an exponent. -/
  exponent? : Option (Bool × List Char)
deriving DecidableEq, Repr

/-- Reads an exponent, if it has a digit, and gives what is left. -/
def readExponent (s : List Char) : Option (Bool × List Char) × List Char :=
  match s with
  | [] => (none, [])
  | c :: rest =>
    if c = 'e' ∨ c = 'E' then
      let (negative, rest) := Numeral.readSign rest
      let digits := rest.takeWhile Char.isDigit
      if digits = [] then (none, s) else (some (negative, digits), rest.dropWhile Char.isDigit)
    else (none, s)

/-- Reads a fraction, if a digit follows the point, and gives what is left. -/
def readFraction (s : List Char) : List Char × List Char :=
  match s with
  | '.' :: rest =>
    let digits := rest.takeWhile Char.isDigit
    if digits = [] then ([], s) else (digits, rest.dropWhile Char.isDigit)
  | s => ([], s)

/-- Reads the digits before the point and gives what is left. After a leading zero no further digit
belongs to the number. -/
def readWhole (s : List Char) : List Char × List Char :=
  match s with
  | '0' :: rest => (['0'], rest)
  | s => (s.takeWhile Char.isDigit, s.dropWhile Char.isDigit)

/-- Reads the part of a number after its sign. -/
def readUnsigned? (negative : Bool) (s : List Char) : Option (Written × List Char) :=
  let (whole, rest) := readWhole s
  let (fraction, rest) := readFraction rest
  let (exponent?, rest) := readExponent rest
  if whole = [] then none else some (⟨negative, whole, fraction, exponent?⟩, rest)

/-- The longest number that a text starts with, and what is left. -/
def Written.read? : List Char → Option (Written × List Char)
  | '-' :: rest => readUnsigned? true rest
  | s => readUnsigned? false s

/-- Whether the number has neither fraction nor exponent. -/
def Written.isWhole (w : Written) : Bool := w.fraction.isEmpty && w.exponent?.isNone

/-- The value of a whole number. -/
def Written.toInt (w : Written) : Int :=
  if w.negative then -(Numeral.digitsValue w.whole : Int) else Numeral.digitsValue w.whole

/-- The power of ten of an exponent. -/
def exponentValue : Option (Bool × List Char) → Int
  | none => 0
  | some (negative, digits) => Numeral.exponentValue negative digits

/-- The floating-point number nearest to the one written. -/
def Written.toFloat (w : Written) : Float :=
  Numeral.floatOfDecimal w.negative (Numeral.digitsValue (w.whole ++ w.fraction))
    (exponentValue w.exponent? - w.fraction.length)

end RouteAtlas.Json
