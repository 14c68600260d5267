/-!
# Blank characters

The white space that may stand between the tokens of a declaration.
-/

namespace RouteAtlas.Text

/-- The blank characters: the line and separator controls and the space, next line and no-break
space, and the spaces and line separators of the general planes. -/
def isBlank (c : Char) : Bool :=
  let n := c.toNat
  (0x09 ≤ n && n ≤ 0x0D) || (0x1C ≤ n && n ≤ 0x20) || n == 0x85 || n == 0xA0 || n == 0x1680 ||
    (0x2000 ≤ n && n ≤ 0x200A) || n == 0x2028 || n == 0x2029 || n == 0x202F || n == 0x205F ||
    n == 0x3000

/-- Whether a character is a blank around numbers and between pairs of hexadecimal digits: a line
control or the space, but no separator control. -/
def isGap (c : Char) : Bool := c == ' ' || ('\t' ≤ c && c ≤ '\r')

/-- The text after its leading blanks. -/
def skipBlanks (s : List Char) : List Char := s.dropWhile isBlank

theorem length_skipBlanks_le (s : List Char) : (skipBlanks s).length ≤ s.length :=
  (List.dropWhile_sublist _).length_le

end RouteAtlas.Text
