import RouteAtlas.Snapshot.Query

/-!
# Choices for a selection list

The routes of a snapshot as a flat list, with what a list shows for each.
-/

namespace RouteAtlas

/-- A route that can be chosen, with its file. -/
structure Choice where
  record : FileRecord
  route : Route
deriving DecidableEq, Repr

/-- What a list shows for a route. -/
structure PickItem where
  label : String
  description : String
  detail : String
deriving DecidableEq, Repr

namespace Choice

/-- The path of the file. -/
def path (c : Choice) : String := c.record.path

/-- The name, or the url of a route without name; then the url; then the label of the file. -/
def pickItem (c : Choice) : PickItem where
  label := if c.route.name.isEmpty then c.route.url else c.route.name
  description := c.route.url
  detail := c.record.label

/-- The choice in columns on one line. -/
def line (c : Choice) : String :=
  let item := c.pickItem
  Text.padRight 30 item.label ++ " " ++ Text.padRight 40 item.description ++ " (" ++ item.detail ++ ")"

/-- The choices of a snapshot. A query that is given and not empty leaves those whose name, url or file
label holds it. -/
def all (s : Snapshot) (query : Option String) : List Choice :=
  (s.routes.filter fun p => query.all fun q => q.isEmpty || p.2.matches p.1 q).map fun p => ⟨p.1, p.2⟩

theorem all_none (s : Snapshot) : all s none = s.routes.map fun p => ⟨p.1, p.2⟩ := by
  unfold all
  rw [List.filter_eq_self.mpr (fun p _ => by rfl)]

end Choice

end RouteAtlas
