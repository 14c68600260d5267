/-!
# Binary floating-point numbers

The sign, the significand and the exponent of a double-precision number, from its 64 bits: one for
the sign, eleven for the exponent and fifty-two for the fraction.
-/

namespace RouteAtlas.Numeral

/-- A finite number `significand · 2 ^ exponent` with a sign. -/
structure Binary where
  negative : Bool
  significand : Nat
  exponent : Int
  /-- Whether the next number towards zero has a smaller exponent. -/
  narrow : Bool
deriving DecidableEq, Repr

/-- The parts of a finite number. A number whose exponent bits are all zero has no leading one. -/
def Binary.ofFloat (x : Float) : Binary :=
  let bits := x.toBits
  let e := (bits >>> 52 &&& 0x7ff).toNat
  let f := (bits &&& 0xfffffffffffff).toNat
  { negative := bits >>> 63 == 1
    significand := if e = 0 then f else f + 0x10000000000000
    exponent := if e = 0 then -1074 else (e : Int) - 1075
    narrow := f == 0 && 1 < e }

/-- Whether the sign of a number is minus, that of zero too. -/
def isNegative (x : Float) : Bool := (Binary.ofFloat x).negative

end RouteAtlas.Numeral
