import RouteAtlas.Urlconf.Block
import RouteAtlas.Urlconf.Declaration
import RouteAtlas.Urlconf.Include

/-!
# What a routing module says

The routes and namespaces that the text of a routing module declares. Any text can be read: what is
no declaration declares nothing.
-/

namespace RouteAtlas

/-- The routes and the namespaces of one text. -/
structure Urlconf where
  /-- The declared routes, in order. -/
  routes : List Route
  /-- The namespaces given to module keys. -/
  namespaces : Table String String
deriving DecidableEq, Repr

namespace Urlconf

/-- The routes of a text. With `blockOnly` only the first block of url patterns counts, and a text
without one declares no route. -/
def routesOf (blockOnly : Bool) (text : List Char) : List Route :=
  if blockOnly then
    match block? text with
    | none => []
    | some block => routesIn block
  else routesIn text

/-- What a text declares. Includes count wherever they stand. -/
def read (blockOnly : Bool) (text : String) : Urlconf where
  routes := routesOf blockOnly text.toList
  namespaces := namespacesIn text.toList

/-- Whether any route is declared. -/
def hasRoutes (u : Urlconf) : Bool := !u.routes.isEmpty

end Urlconf

end RouteAtlas
