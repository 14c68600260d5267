import RouteAtlas.Numeral.Shortest

/-!
# The text of floating-point numbers

A number is written with the fewest digits that read back, in positions where its size allows and
with an exponent otherwise. Reading is exact rounding of the decimal.
-/

namespace RouteAtlas.Numeral

/-- The choices of a number format. -/
structure Layout where
  /-- A decimal point more than this many places left of the first digit asks for an exponent. -/
  leastPoint : Int
  /-- A decimal point more than this many places right of the first digit asks for an exponent. -/
  mostPoint : Int
  /-- The least number of digits of an exponent. -/
  exponentWidth : Nat
  /-- The text of an infinite number, less its sign. -/
  infinity : String
  /-- The text of what is not a number. -/
  notANumber : String
deriving DecidableEq, Repr

/-- A number is positional from one ten-thousandth up to below ten to the sixteenth. -/
def plain : Layout := ⟨-3, 16, 2, "inf", "nan"⟩

/-- As `plain`, with the names that JSON readers know. -/
def json : Layout := { plain with infinity := "Infinity", notANumber := "NaN" }

/-- The exponent's sign and digits. -/
def exponentText (l : Layout) (e : Int) : String :=
  let digits := toString e.natAbs
  (if e < 0 then "e-" else "e+") ++ String.ofList (List.replicate (l.exponentWidth - digits.length) '0')
    ++ digits

/-- The text of a positive decimal. -/
def Decimal.text (l : Layout) (d : Decimal) : String :=
  let digits := toString d.digits
  let point : Int := digits.length + d.exponent
  let zeros (n : Int) : String := String.ofList (List.replicate n.toNat '0')
  if point < l.leastPoint ∨ l.mostPoint < point then
    let tail := String.ofList (digits.toList.drop 1)
    String.ofList (digits.toList.take 1) ++ (if tail.isEmpty then "" else "." ++ tail)
      ++ exponentText l (point - 1)
  else if point ≤ 0 then "0." ++ zeros (-point) ++ digits
  else if digits.length ≤ point then digits ++ zeros (point - digits.length) ++ ".0"
  else
    String.ofList (digits.toList.take point.toNat) ++ "." ++
      String.ofList (digits.toList.drop point.toNat)

/-- The text of a number. -/
def floatText (l : Layout) (x : Float) : String :=
  if x.isNaN then l.notANumber
  else
    (if isNegative x then "-" else "") ++
      (if x.isInf then l.infinity else if x == 0 then "0.0" else (ofFloat x).text l)

/-- The number nearest to `digits · 10 ^ exponent`. Beyond the range of the exponents that matter
the answer is infinite or zero. -/
def floatOfDecimal (negative : Bool) (digits : Nat) (exponent : Int) : Float :=
  let size : Int := (toString digits).length + exponent
  let magnitude : Float :=
    if digits = 0 then 0
    else if 400 < size then 1 / 0
    else if size < -400 then 0
    else Float.ofScientific digits (exponent < 0) exponent.natAbs
  if negative then -magnitude else magnitude

/-- The number nearest to an integer, unless it is too large for any. -/
def floatOfInt? (n : Int) : Option Float :=
  let x := floatOfDecimal (n < 0) n.natAbs 0
  if x.isInf then none else some x

end RouteAtlas.Numeral
