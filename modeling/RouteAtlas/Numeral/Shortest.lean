import RouteAtlas.Numeral.Binary

/-!
# The fewest digits that read back

A binary floating-point number stands for every real number that rounds to it. `shortest` finds the
decimal with the fewest digits among them, and of those with as few digits the one nearest to the
number. It works in exact arithmetic on the significand and the exponent.
-/

namespace RouteAtlas.Numeral

/-- A positive decimal `digits · 10 ^ exponent`. -/
structure Decimal where
  /-- The digits, read as one number. -/
  digits : Nat
  /-- The power of ten that they are multiplied by. -/
  exponent : Int
deriving DecidableEq, Repr

namespace Shortest

/-- A positive number `num / den` with the ends of its rounding interval, all over one denominator. -/
structure Interval where
  /-- The numerator of the number. -/
  num : Nat
  /-- The numerator of the lower end. -/
  low : Nat
  /-- The numerator of the upper end. -/
  high : Nat
  /-- The common denominator. -/
  den : Nat
  /-- Whether the ends round to the number too. -/
  closed : Bool
deriving Repr

/-- The rounding interval of `m · 2 ^ q`. Its lower half is half as wide when the number below has a
smaller exponent (`narrow`). Ties go to even significands, so the ends belong to an even `m`. -/
def interval (m : Nat) (q : Int) (narrow : Bool) : Interval :=
  let step := Nat.pow 2 q.toNat
  let up := 4 * step
  { num := m * up
    low := m * up - (if narrow then step else 2 * step)
    high := m * up + 2 * step
    den := 4 * Nat.pow 2 (-q).toNat
    closed := m % 2 == 0 }

/-- Whether `n · 10 ^ e` lies in the interval. -/
def Interval.holds (i : Interval) (n : Nat) (e : Int) : Bool :=
  let x := n * Nat.pow 10 e.toNat * i.den
  let scale := Nat.pow 10 (-e).toNat
  if i.closed then i.low * scale ≤ x && x ≤ i.high * scale
  else i.low * scale < x && x < i.high * scale

/-- How far `n · 10 ^ e` is from the number, over a denominator that depends on `e` only. -/
def Interval.distance (i : Interval) (n : Nat) (e : Int) : Nat :=
  let x := n * Nat.pow 10 e.toNat * i.den
  let y := i.num * Nat.pow 10 (-e).toNat
  (x - y) + (y - x)

/-- The decimal of the grid `10 ^ e` in the interval that is nearest to the number, if the grid has
one there: it is one of the number's two neighbours. Of two that are as near it is the one with an
even last digit. -/
def Interval.onGrid? (i : Interval) (e : Int) : Option Decimal :=
  let below := i.num * Nat.pow 10 (-e).toNat / (i.den * Nat.pow 10 e.toNat)
  let above := below + 1
  match i.holds below e, i.holds above e with
  | true, true =>
    let up := i.distance above e
    let down := i.distance below e
    if up < down || (up == down && below % 2 == 1) then some ⟨above, e⟩ else some ⟨below, e⟩
  | true, false => some ⟨below, e⟩
  | false, true => some ⟨above, e⟩
  | false, false => none

/-- The first hit on `fuel` grids, each ten times as fine as the one before. -/
def Interval.firstHit (i : Interval) (e : Int) : Nat → Decimal
  | 0 => ⟨i.num / i.den, 0⟩
  | fuel + 1 =>
    match i.onGrid? e with
    | some d => if d.digits = 0 then i.firstHit (e - 1) fuel else d
    | none => i.firstHit (e - 1) fuel

/-- The number of decimal digits of `n`, for `n` below `10 ^ fuel`. -/
def decimalLength (n : Nat) : Nat → Nat
  | 0 => 0
  | fuel + 1 => if n = 0 then 0 else decimalLength (n / 10) fuel + 1

/-- The shortest decimal of the positive number `m · 2 ^ q`. The coarsest grid tried is the power of
ten above the number; seventeen digits always suffice, and a number below one has at most 324 zeros
before its first digit. -/
def shortest (m : Nat) (q : Int) (narrow : Bool) : Decimal :=
  let i := interval m q narrow
  i.firstHit (decimalLength (i.num / i.den) 400) 800

end Shortest

/-- The decimal without trailing zeros, for `digits` below `10 ^ fuel`. -/
def Decimal.trim (d : Decimal) : Nat → Decimal
  | 0 => d
  | fuel + 1 =>
    if d.digits ≠ 0 ∧ d.digits % 10 = 0 then Decimal.trim ⟨d.digits / 10, d.exponent + 1⟩ fuel else d

/-- The shortest decimal that reads back as the absolute value of a finite `x` other than zero. -/
def ofFloat (x : Float) : Decimal :=
  let b := Binary.ofFloat x
  (Shortest.shortest b.significand b.exponent b.narrow).trim 400

end RouteAtlas.Numeral
