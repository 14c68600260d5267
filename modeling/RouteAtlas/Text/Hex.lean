import RouteAtlas.Text.Blank

/-!
# Hexadecimal digits

Numbers of a fixed width in base sixteen, as escapes in text and bytes write them, and bytes as pairs
of digits. `value?_digits` says that reading undoes writing.
-/

namespace RouteAtlas.Text.Hex

/-- The digit of a value below sixteen. -/
def digit (n : Nat) : Char := if n < 10 then Char.ofNat (48 + n) else Char.ofNat (87 + n)

/-- The value of a digit, small or capital. -/
def digitValue? (c : Char) : Option Nat :=
  let n := c.toNat
  if 48 ≤ n ∧ n ≤ 57 then some (n - 48)
  else if 97 ≤ n ∧ n ≤ 102 then some (n - 87)
  else if 65 ≤ n ∧ n ≤ 70 then some (n - 55)
  else none

/-- The last `width` digits of `n`. -/
def digits : Nat → Nat → List Char
  | 0, _ => []
  | width + 1, n => digits width (n / 16) ++ [digit (n % 16)]

/-- Reads digits onto a value read before. -/
def valueOnto? (n : Nat) : List Char → Option Nat
  | [] => some n
  | c :: rest => (digitValue? c).bind fun d => valueOnto? (16 * n + d) rest

/-- The number that the digits write, if all are digits. -/
def value? (s : List Char) : Option Nat := valueOnto? 0 s

/-- The bytes that pairs of digits write, with blanks of ASCII between the pairs; `place` is the place
of the first character. What is refused is given by its place. -/
def bytesFrom (place : Nat) : List Char → Except Nat (List UInt8)
  | [] => .ok []
  | [c] => if isGap c then .ok [] else .error (if (digitValue? c).isSome then place + 1 else place)
  | c :: d :: rest =>
    if isGap c then bytesFrom (place + 1) (d :: rest)
    else
      match digitValue? c, digitValue? d with
      | none, _ => .error place
      | some _, none => .error (place + 1)
      | some high, some low =>
        (bytesFrom (place + 2) rest).map (UInt8.ofNat (16 * high + low) :: ·)

/-- The bytes that a text writes. A character that is not of ASCII is refused first. -/
def bytes (s : String) : Except Nat (List UInt8) :=
  match s.toList.findIdx? fun c => 0x7F < c.toNat with
  | some place => .error place
  | none => bytesFrom 0 s.toList

theorem digitValue?_digit {n : Nat} (h : n < 16) : digitValue? (digit n) = some n := by
  have : ∀ m : Fin 16, digitValue? (digit m) = some m.val := by decide
  exact this ⟨n, h⟩

theorem valueOnto?_append (n : Nat) (s t : List Char) :
    valueOnto? n (s ++ t) = (valueOnto? n s).bind fun m => valueOnto? m t := by
  induction s generalizing n with
  | nil => rfl
  | cons c rest ih =>
    rw [List.cons_append, valueOnto?, valueOnto?]
    cases digitValue? c with
    | none => rfl
    | some d => exact ih _

theorem valueOnto?_digits (m width n : Nat) :
    valueOnto? m (digits width n) =
      some (Nat.pow 16 width * m + n % Nat.pow 16 width) := by
  induction width generalizing n with
  | zero => simp [digits, valueOnto?, Nat.mod_one]
  | succ width ih =>
    have hd := digitValue?_digit (Nat.mod_lt n (by decide : 0 < 16))
    have hm : n % (Nat.pow 16 width * 16) = 16 * (n / 16 % Nat.pow 16 width) + n % 16 := by
      rw [Nat.mul_comm, Nat.mod_mul]; omega
    have hp : Nat.pow 16 width * 16 * m = 16 * (Nat.pow 16 width * m) := by ac_rfl
    have hs : Nat.pow 16 (width + 1) = Nat.pow 16 width * 16 := rfl
    rw [digits, valueOnto?_append, ih, hs]
    simp only [Option.bind_some, valueOnto?, hd, Option.some.injEq]
    omega

theorem value?_digits (width n : Nat) :
    value? (digits width n) = some (n % Nat.pow 16 width) := by
  rw [value?, valueOnto?_digits, Nat.mul_zero, Nat.zero_add]

end RouteAtlas.Text.Hex
