import RouteAtlas.Snapshot
import RouteAtlas.Snippet
import RouteAtlas.Text.LowerCase
import RouteAtlas.Text.Part

/-!
# Queries over a snapshot

A query text selects the routes whose name, url or file label holds it, whatever the case. A search
by criteria selects by equality.
-/

namespace RouteAtlas

/-- Whether the query stands in the name, the url or the label of the file, all in lower case. -/
def Route.matches (record : FileRecord) (route : Route) (query : String) : Bool :=
  let needle := (Text.lower query).toList
  let within (s : String) : Bool := Text.isPartOf needle (Text.lower s).toList
  within route.name || within route.url || within record.label

namespace Snapshot

/-- The routes that a query selects. Without a query, or with an empty one, it is all of them. -/
def select (s : Snapshot) (query : Option String) : List (FileRecord × Route) :=
  match query with
  | none => s.routes
  | some q => if q.isEmpty then s.routes else s.routes.filter fun p => p.2.matches p.1 q

/-- Whether a criterion is absent or met. -/
def meets (criterion : Option String) (s : String) : Bool :=
  match criterion with
  | none => true
  | some c => c == s

/-- The routes that meet every criterion given: name, url, and label of the file. -/
def find (s : Snapshot) (name url label : Option String) : List (FileRecord × Route) :=
  s.routes.filter fun p => meets name p.2.name && meets url p.2.url && meets label p.1.label

/-- The snippet for a route of the file at `path`. -/
def snippet (s : Snapshot) (t : Template) (path : String) (route : Route) : WideText :=
  Snippet.renderForFile t path route s.namespaces

end Snapshot

end RouteAtlas
