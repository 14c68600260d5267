import RouteAtlas.Text.LowerCase.Data

/-!
# Lower casing

Full lower casing of a text. Every capital goes to its small letter; `İ` goes to `i` with a dot
above; a capital sigma that ends a word goes to the final form. The sigma makes the result depend on
the neighbours of a character, so lower casing a part of a text need not give a part of the lower
cased text.
-/

namespace RouteAtlas.Text

/-- The code point of the small letter of `n`, or `n` itself. -/
def lowerCodePoint (n : Nat) : List CapitalRun → Nat
  | [] => n
  | run :: rest =>
    if n < run.first then n
    else if n ≤ run.last && (n - run.first) % run.step == 0 then (n + run.offset).toNat
    else lowerCodePoint n rest

/-- The small letter of a character that has a simple one. -/
def lowerChar (c : Char) : Char := Char.ofNat (lowerCodePoint c.toNat capitalRuns)

/-- Whether the next character that casing does not look through has case. -/
def casedAhead : List Char → Bool
  | [] => false
  | c :: rest =>
    if caseIgnorable.has c.toNat then casedAhead rest else cased.has c.toNat

/-- Lower cases a text. `before` is the part that comes before, and `done` its lower case, both last
character first. -/
def lowerFrom (before done : List Char) : List Char → List Char
  | [] => done.reverse
  | c :: rest =>
    if c.toNat < 0x80 then lowerFrom (c :: before) (c.toLower :: done) rest
    else if c = 'İ' then lowerFrom (c :: before) ('\u0307' :: 'i' :: done) rest
    else if c = 'Σ' then
      let small := if casedAhead before && !casedAhead rest then 'ς' else 'σ'
      lowerFrom (c :: before) (small :: done) rest
    else lowerFrom (c :: before) (lowerChar c :: done) rest

/-- The lower case of a text. -/
def lower (s : String) : String := String.ofList (lowerFrom [] [] s.toList)

end RouteAtlas.Text
