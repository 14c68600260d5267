/-!
# Wide texts

An escape by number can name half of a surrogate pair, and the other half need not follow. No
character is such a half, so a text that holds one alone is kept as the list of its code points.
-/

namespace RouteAtlas

/-- A text in which halves of surrogate pairs may stand alone. -/
inductive WideText where
  /-- A text of characters. -/
  | plain (s : String)
  /-- The code points of a text with a half that stands alone. -/
  | unpaired (codes : List Nat)
deriving DecidableEq, Repr

namespace WideText

instance : Coe String WideText := ⟨plain⟩

instance : Inhabited WideText := ⟨plain ""⟩

/-- Whether a code point is the first half of a surrogate pair. -/
def isFirstHalf (n : Nat) : Bool := 0xD800 ≤ n && n < 0xDC00

/-- Whether a code point is the second half of a surrogate pair. -/
def isSecondHalf (n : Nat) : Bool := 0xDC00 ≤ n && n < 0xE000

/-- The code point of a pair of halves. -/
def join (first second : Nat) : Nat := 0x10000 + (first - 0xD800) * 0x400 + (second - 0xDC00)

/-- Whether a code point is half of a surrogate pair. -/
def isHalf (n : Nat) : Bool := isFirstHalf n || isSecondHalf n

theorem isHalf_toNat (c : Char) : isHalf c.toNat = false := by
  have hvalid : c.toNat < 0xD800 ∨ 0xDFFF < c.toNat ∧ c.toNat < 0x110000 := c.valid
  simp only [isHalf, isFirstHalf, isSecondHalf, Bool.or_eq_false_iff, Bool.and_eq_false_iff,
    decide_eq_false_iff_not]
  omega

theorem toNat_ofNat {n : Nat} (hn : n < 0x110000) (hhalf : isHalf n = false) :
    (Char.ofNat n).toNat = n := by
  have hvalid : n.isValidChar := by
    simp only [isHalf, isFirstHalf, isSecondHalf, Bool.or_eq_false_iff, Bool.and_eq_false_iff,
      decide_eq_false_iff_not] at hhalf
    show n < 0xD800 ∨ 0xDFFF < n ∧ n < 0x110000
    omega
  rw [Char.ofNat, dif_pos hvalid]
  rfl

/-- The text with the code points `codes`. -/
def ofCodes (codes : List Nat) : WideText :=
  if codes.any isHalf then unpaired codes else plain (String.ofList (codes.map Char.ofNat))

/-- The code points of a text. -/
def codes : WideText → List Nat
  | plain s => s.toList.map Char.toNat
  | unpaired codes => codes

/-- The texts of a list, one after another. Halves that come together stay halves. -/
def concat (parts : List WideText) : WideText := ofCodes (parts.flatMap codes)

/-- What is shown for half of a surrogate pair. -/
def replacement : Char := '\ufffd'

/-- The text with a mark for every half that stands alone. -/
def rendition : WideText → String
  | plain s => s
  | unpaired codes =>
    String.ofList (codes.map fun n => if isHalf n then replacement else Char.ofNat n)

/-- Whether the text is the characters of `s` and nothing else. -/
def spells (w : WideText) (s : String) : Bool := w == plain s

end WideText

end RouteAtlas
