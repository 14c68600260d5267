import RouteAtlas.Text.Hex
import RouteAtlas.Text.Printable
import RouteAtlas.Text.Wide

/-!
# Quoted text

Messages show a text or a byte string in quotes, with escapes for what would not show as itself.
-/

namespace RouteAtlas.Text

/-- The quote around a text: single, unless the text holds single quotes and no double quote. -/
def quoteFor (s : List Char) : Char :=
  if s.contains '\'' && !s.contains '"' then '"' else '\''

/-- A character that is not shown as itself, by its number in the shortest of three widths. -/
def escapeByNumber (c : Char) : List Char :=
  let n := c.toNat
  if n < 0x100 then '\\' :: 'x' :: Hex.digits 2 n
  else if n < 0x10000 then '\\' :: 'u' :: Hex.digits 4 n
  else '\\' :: 'U' :: Hex.digits 8 n

/-- How a character is written between the quotes. -/
def quoteChar (quote c : Char) : List Char :=
  if c = quote ∨ c = '\\' then ['\\', c]
  else if c = '\n' then ['\\', 'n']
  else if c = '\r' then ['\\', 'r']
  else if c = '\t' then ['\\', 't']
  else if isPrintable c then [c]
  else escapeByNumber c

/-- A text in quotes. -/
def quoted (s : String) : String :=
  let cs := s.toList
  let quote := quoteFor cs
  String.ofList (quote :: cs.flatMap (quoteChar quote) ++ [quote])

/-- A text in quotes in which halves of surrogate pairs may stand alone. They are written by number.
-/
def quotedWide : WideText → String
  | .plain s => quoted s
  | .unpaired codes =>
    let quote := quoteFor (WideText.unpaired codes).rendition.toList
    let write (n : Nat) : List Char :=
      if WideText.isHalf n then '\\' :: 'u' :: Hex.digits 4 n else quoteChar quote (Char.ofNat n)
    String.ofList (quote :: codes.flatMap write ++ [quote])

/-- A byte string in quotes, after the letter that marks it. Only the printable characters of ASCII
are shown as themselves. -/
def quotedBytes (bytes : List UInt8) : String :=
  let cs := bytes.map fun b => Char.ofNat b.toNat
  let quote := quoteFor cs
  let write (c : Char) : List Char := if c.toNat < 0x7F then quoteChar quote c else escapeByNumber c
  String.ofList ('b' :: quote :: cs.flatMap write ++ [quote])

end RouteAtlas.Text
