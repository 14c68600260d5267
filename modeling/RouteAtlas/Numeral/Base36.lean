/-!
# Numerals in base 36

The shortest numeral of a natural number with the digits `0` to `9` and `a` to `z`, as request
identifiers write their time stamps.
-/

namespace RouteAtlas.Numeral.Base36

/-- The digit of a value below 36. -/
def digit (n : Nat) : Char := if n < 10 then Char.ofNat (48 + n) else Char.ofNat (87 + n)

/-- Writes the digits of `n` in front of `done`, none for zero. -/
def digitsOnto (n : Nat) (done : List Char) : List Char :=
  if h : n = 0 then done
  else digitsOnto (n / 36) (digit (n % 36) :: done)
termination_by n
decreasing_by exact Nat.div_lt_self (Nat.pos_of_ne_zero h) (by decide)

/-- The numeral of `n`. -/
def encode (n : Nat) : String :=
  if n = 0 then "0" else String.ofList (digitsOnto n [])

end RouteAtlas.Numeral.Base36
