import RouteAtlas.Text.Occurrences
import RouteAtlas.Urlconf.Lexeme

/-!
# The block of url patterns

The first `urlpatterns = [...]` of a text, up to the first closing bracket after it.
-/

namespace RouteAtlas.Urlconf.Block

/-- The characters of the word that opens the block. -/
def word : List Char := ['u', 'r', 'l', 'p', 'a', 't', 't', 'e', 'r', 'n', 's']

/-- The rest after the word, the equals sign and the opening bracket. -/
def head? (s : List Char) : Option (List Char) :=
  (word? word s).bind fun s =>
  (wordAfterBlanks? ['='] s).bind fun s =>
  wordAfterBlanks? ['['] s

/-- Reads a block and gives its text. -/
def read? : Text.Recogniser (List Char) := fun s =>
  (head? s).bind fun body =>
  match body.dropWhile (· != ']') with
  | [] => none
  | _ :: rest => some (s.take (s.length - rest.length), rest)

end RouteAtlas.Urlconf.Block

/-- The first block of a text. -/
def RouteAtlas.Urlconf.block? (s : List Char) : Option (List Char) :=
  Text.firstOccurrence? Block.read? s
