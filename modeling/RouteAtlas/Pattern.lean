import RouteAtlas.Text.Occurrences

/-!
# Patterns

Patterns over texts and the ways in which they match. `Pattern.ways` lists every way in which a
pattern matches at the start of a text, the preferred one first: a run of characters is tried from
its longest length downwards or from its shortest upwards, and an optional part is tried before it
is left out. A search takes the first way at the leftmost position that has any.
-/

namespace RouteAtlas

/-- A pattern over texts. -/
inductive Pattern where
  /-- Nothing at all. -/
  | nothing
  /-- One character of a class. -/
  | one (isIn : Char → Bool)
  /-- Any number of characters of a class, as many as possible. -/
  | most (isIn : Char → Bool)
  /-- Any number of characters of a class, as few as possible. -/
  | fewest (isIn : Char → Bool)
  /-- One pattern and then another. -/
  | seq (p q : Pattern)
  /-- A pattern or, failing that, nothing. -/
  | optional (p : Pattern)
  /-- A pattern whose text is kept. -/
  | keep (p : Pattern)

namespace Pattern

/-- A way in which a pattern matches at the start of a text. -/
structure Way where
  /-- The kept texts, in the order of their beginnings. -/
  kept : List (List Char)
  /-- The text after the match. -/
  rest : List Char
deriving DecidableEq, Repr

/-- The rests after the runs of a class at the start of a text, the longest run first. -/
def restsAfter (isIn : Char → Bool) : List Char → List (List Char)
  | [] => [[]]
  | c :: s => if isIn c then restsAfter isIn s ++ [c :: s] else [c :: s]

/-- Every way in which a pattern matches at the start of a text, the preferred one first. -/
def ways : Pattern → List Char → List Way
  | nothing, s => [⟨[], s⟩]
  | one _, [] => []
  | one isIn, c :: s => if isIn c then [⟨[], s⟩] else []
  | most isIn, s => (restsAfter isIn s).map fun rest => ⟨[], rest⟩
  | fewest isIn, s => (restsAfter isIn s).reverse.map fun rest => ⟨[], rest⟩
  | seq p q, s =>
    (ways p s).flatMap fun w => (ways q w.rest).map fun v => ⟨w.kept ++ v.kept, v.rest⟩
  | optional p, s => ways p s ++ [⟨[], s⟩]
  | keep p, s =>
    (ways p s).map fun w => ⟨s.take (s.length - w.rest.length) :: w.kept, w.rest⟩

/-- One after another. -/
def inTurn (ps : List Pattern) : Pattern := ps.foldr seq nothing

/-- The characters of a word. -/
def word (w : List Char) : Pattern := inTurn (w.map fun c => one (· == c))

/-- At least one character of a class, as many as possible. -/
def some (isIn : Char → Bool) : Pattern := seq (one isIn) (most isIn)

/-! ## Searching -/

/-- The texts that the preferred way keeps, with the text after it. A match of nothing does not
count. -/
def recogniser (p : Pattern) : Text.Recogniser (List (List Char)) := fun s =>
  ((p.ways s).head?.filter fun w => w.rest.length < s.length).map fun w => (w.kept, w.rest)

theorem recogniser_consumes (p : Pattern) : p.recogniser.Consumes := by
  intro s kept rest h
  obtain ⟨w, hw, he⟩ := Option.map_eq_some_iff.mp h
  obtain ⟨-, rfl⟩ := Prod.mk.inj he
  exact of_decide_eq_true (Option.filter_eq_some_iff.mp hw).2

/-- What is kept at the successive leftmost matches, none of which overlap. -/
def findAll (p : Pattern) (s : List Char) : List (List (List Char)) :=
  Text.occurrences p.recogniser p.recogniser_consumes s

/-- What is kept at the leftmost match. -/
def find? (p : Pattern) (s : List Char) : Option (List (List Char)) :=
  Text.firstOccurrence? p.recogniser s

end Pattern

end RouteAtlas
