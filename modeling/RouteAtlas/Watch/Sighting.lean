import RouteAtlas.Table
import RouteAtlas.Watch.Change

/-!
# Watching by looking

Where nobody tells of changes, looking twice shows them: each look gives every file a mark, and a
file whose mark is another one has changed.
-/

namespace RouteAtlas.Watch

/-- The files of one look with their marks. -/
abbrev Sighting := Table String String

namespace Sighting

/-- What became of a file that is seen now. -/
def eventOf (before : Sighting) (path mark : String) : Option Event :=
  match before.get? path with
  | none => some (.created path)
  | some old => if old = mark then none else some (.modified path)

/-- What happened between two looks: first the files that are gone, then those that are new or
changed. -/
def eventsSince (before now : Sighting) : List Event :=
  (before.keys.filter fun path => !now.contains path).map Event.deleted
    ++ now.entries.filterMap fun e => before.eventOf e.1 e.2

end Sighting

end RouteAtlas.Watch
