/-!
# Labels and keys of files

A file is labelled by the last two segments of its path, and keyed by the label without the suffix
of a module. Either kind of slash separates segments, so that keys of files agree with the keys of
module references.
-/

namespace RouteAtlas.FileKey

/-- The characters that separate segments. -/
def isSeparator (c : Char) : Bool := c == '/' || c == '\\'

/-- The segments of a path, empty ones included. -/
def segments : List Char → List (List Char)
  | [] => [[]]
  | c :: rest =>
    if isSeparator c then [] :: segments rest
    else
      match segments rest with
      | [] => [[c]]
      | segment :: more => (c :: segment) :: more

/-- The last two items. -/
def lastTwo {α : Type} (items : List α) : List α := items.drop (items.length - 2)

/-- The last two segments with a slash between them. -/
def tail (path : List Char) : List Char := List.intercalate ['/'] (lastTwo (segments path))

/-- The suffix of a module, last character first. -/
def reversedSuffix : List Char := ['y', 'p', '.']

/-- Drops the suffix of a module, if it is there. -/
def dropSuffix (s : List Char) : List Char :=
  let r := s.reverse
  if reversedSuffix.isPrefixOf r then (r.drop reversedSuffix.length).reverse else s

/-- The label of a file: its parent directory and its name. -/
def label (path : String) : String := String.ofList (tail path.toList)

/-- The key of a file in tables of namespaces. -/
def subpath (path : String) : String := String.ofList (dropSuffix (tail path.toList))

end RouteAtlas.FileKey
