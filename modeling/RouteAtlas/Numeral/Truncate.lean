import RouteAtlas.Numeral.Binary

/-!
# Whole parts of floating-point numbers

The whole number that a floating-point number is, or that is left when its fraction is dropped.
-/

namespace RouteAtlas.Numeral

/-- A natural number with a sign. -/
def signed (negative : Bool) (n : Nat) : Int := if negative then -(n : Int) else n

/-- The number without its fraction; zero for what is not finite. -/
def truncate (x : Float) : Int :=
  if x.isNaN || x.isInf then 0
  else
    let b := Binary.ofFloat x
    signed b.negative
      (b.significand * Nat.pow 2 b.exponent.toNat / Nat.pow 2 (-b.exponent).toNat)

/-- The whole number that a number equals, if any. -/
def whole? (x : Float) : Option Int :=
  if x.isNaN || x.isInf then none
  else
    let b := Binary.ofFloat x
    if b.significand % Nat.pow 2 (-b.exponent).toNat = 0 then some (truncate x) else none

end RouteAtlas.Numeral
