/-!
# Paths

A path is an anchor and the names after it. Reading a path drops empty names and single dots; double
dots stay, since what they mean depends on links. Two paths are compared name by name, without
looking at any file.
-/

namespace RouteAtlas

/-- Where a path starts. -/
inductive Anchor where
  /-- At the current directory. -/
  | none
  /-- At the root. -/
  | root
  /-- At the root, written with two slashes. -/
  | doubleRoot
deriving DecidableEq, Repr

/-- The text of an anchor. -/
def Anchor.text : Anchor → String
  | .none => ""
  | .root => "/"
  | .doubleRoot => "//"

/-- A path. -/
structure Path where
  anchor : Anchor
  /-- The names after the anchor, none of them empty or a single dot. -/
  names : List String
deriving DecidableEq, Repr

namespace Path

/-- The pieces of a text between slashes. -/
def pieces : List Char → List (List Char)
  | [] => [[]]
  | c :: rest =>
    if c = '/' then [] :: pieces rest
    else
      match pieces rest with
      | [] => [[c]]
      | piece :: more => (c :: piece) :: more

/-- The names of a text: its pieces without the empty ones and the single dots. -/
def namesOf (s : List Char) : List String :=
  ((pieces s).filter fun p => p ≠ [] && p ≠ ['.']).map String.ofList

/-- The anchor of a text: exactly two slashes at the start are an anchor of their own. -/
def anchorOf : List Char → Anchor
  | '/' :: '/' :: '/' :: _ => .root
  | '/' :: '/' :: _ => .doubleRoot
  | '/' :: _ => .root
  | _ => .none

/-- The path that a text writes. -/
def ofString (s : String) : Path := ⟨anchorOf s.toList, namesOf s.toList⟩

/-- The text of a path; a dot for the path without anchor and names. -/
def toString (p : Path) : String :=
  if p.anchor = .none ∧ p.names = [] then "."
  else p.anchor.text ++ String.intercalate "/" p.names

instance : ToString Path := ⟨toString⟩

/-- The parts of a path: its anchor, where it has one, and its names. -/
def parts (p : Path) : List String :=
  match p.anchor with
  | .none => p.names
  | a => a.text :: p.names

/-- The last name, or the empty text. -/
def name (p : Path) : String := p.names.getLast?.getD ""

/-- Whether the path starts at a root. -/
def isAbsolute (p : Path) : Bool := p.anchor != .none

/-- The path with more names. -/
def append (p : Path) (names : List String) : Path := { p with names := p.names ++ names }

/-- The path without its last name. -/
def parent (p : Path) : Path := { p with names := p.names.dropLast }

/-- The path read from `p` on: an absolute one stands for itself. -/
def join (p q : Path) : Path := if q.isAbsolute then q else p.append q.names

/-- What is left of `names` after `start`. -/
def dropStart? : List String → List String → Option (List String)
  | [], names => some names
  | _ :: _, [] => none
  | a :: start, b :: names => if a = b then dropStart? start names else none

/-- The names of `p` below `base`, where `p` lies there. Every path without anchor lies below the
path without anchor and names; a path with anchor does not. -/
def relativeTo? (p base : Path) : Option (List String) :=
  if p.anchor = base.anchor then dropStart? base.names p.names else none

theorem dropStart?_eq_some {start names rest : List String} :
    dropStart? start names = some rest ↔ names = start ++ rest := by
  induction start generalizing names with
  | nil => simp [dropStart?, eq_comm]
  | cons a start ih =>
    cases names with
    | nil => simp [dropStart?]
    | cons b names =>
      by_cases h : a = b
      · simp [dropStart?, h, ih]
      · simp [dropStart?, h, Ne.symm h]

theorem relativeTo?_eq_some {p base : Path} {rest : List String} :
    p.relativeTo? base = some rest ↔ p = base.append rest := by
  obtain ⟨a, names⟩ := p
  obtain ⟨b, start⟩ := base
  by_cases h : a = b <;> simp [relativeTo?, append, dropStart?_eq_some, h]

end Path

end RouteAtlas
