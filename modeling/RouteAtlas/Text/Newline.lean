/-!
# Line ends

Text files may end their lines with a line feed, a carriage return, or the two together. Read text
has line feeds only.
-/

namespace RouteAtlas.Text

/-- Writes each pair of carriage return and line feed, and each remaining carriage return, as one
line feed. The second argument is the text done so far, last character first. -/
def unifyNewlinesOnto : List Char → List Char → List Char
  | [], done => done.reverse
  | '\r' :: '\n' :: rest, done => unifyNewlinesOnto rest ('\n' :: done)
  | '\r' :: rest, done => unifyNewlinesOnto rest ('\n' :: done)
  | c :: rest, done => unifyNewlinesOnto rest (c :: done)

/-- The text with every line end written as one line feed. -/
def unifyNewlines (s : List Char) : List Char := unifyNewlinesOnto s []

end RouteAtlas.Text
