import RouteAtlas.Path
import RouteAtlas.Text.Wide
import RouteAtlas.Value.Shape

/-!
# Changes of files

What the operating system says about files, and the changes of watched files that follow from it. A
move is a deletion at one path and a creation at another, and what happens to folders says nothing
about files.
-/

namespace RouteAtlas.Watch

/-- How a file changed. -/
inductive ChangeKind where
  | created
  | modified
  | deleted
deriving DecidableEq, Repr

/-- The word for a kind of change. -/
def ChangeKind.word : ChangeKind → String
  | .created => "created"
  | .modified => "modified"
  | .deleted => "deleted"

/-- A change of the file at a path. -/
structure FileChange where
  path : String
  kind : ChangeKind
deriving DecidableEq, Repr

/-- The shape of changes as objects. -/
def FileChange.shape : Shape := ⟨"FileChange", .byFields, [("path", none), ("event_type", none)]⟩

/-- What the operating system says. -/
inductive Event where
  | created (path : String)
  | modified (path : String)
  | deleted (path : String)
  /-- A file was moved. The destination is empty if it is not known. -/
  | moved (source destination : String)
  /-- Something happened to a folder. -/
  | ofFolder
deriving DecidableEq, Repr

/-- The changes that follow from an event, in order. -/
def Event.changes : Event → List FileChange
  | .created path => [⟨path, .created⟩]
  | .modified path => [⟨path, .modified⟩]
  | .deleted path => [⟨path, .deleted⟩]
  | .moved source destination =>
    ⟨source, .deleted⟩ :: if destination.isEmpty then [] else [⟨destination, .created⟩]
  | .ofFolder => []

/-- Which files are watched. -/
structure Filter where
  /-- The name of watched files. -/
  fileName : WideText
  /-- The names of folders whose files are not watched. -/
  ignored : List String
  /-- The watched folder, if it is known: names at and above it do not count. -/
  root : Option Path := none
deriving DecidableEq, Repr

namespace Filter

/-- The parts of a path that count: those below the root if the path lies there, else all of them.
-/
def partsOf (f : Filter) (p : Path) : List String :=
  match f.root with
  | none => p.parts
  | some root => (p.relativeTo? root).getD p.parts

/-- Whether a path names a watched file. -/
def covers (f : Filter) (path : String) : Bool :=
  let p := Path.ofString path
  f.fileName.spells p.name && !(f.partsOf p).dropLast.any f.ignored.contains

end Filter

end RouteAtlas.Watch
