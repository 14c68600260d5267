import RouteAtlas.Fault
import RouteAtlas.FileKey
import RouteAtlas.Snippet.Template
import RouteAtlas.Table
import RouteAtlas.Urlconf.Declaration

/-!
# Snippets

A snippet refers to a route by name, qualified by the namespace of its file where there is one.
-/

namespace RouteAtlas.Snippet

/-- What the user is told about a text that is no template. -/
def templateAdvice : String :=
  "Snippet template may only use \x7bname\x7d and \x7breference\x7d; " ++
    "write literal braces as \x7b\x7b and \x7d\x7d."

/-- The report of a text that is no template. -/
def templateReport (s : WideText) (e : Template.Refusal) : Report :=
  Report.validation ("Invalid snippet template " ++ Text.quotedWide s ++ ": " ++ e.text)
    (some templateAdvice) .invalidArguments

/-- The template with a text, or the report that it is none. -/
def template (s : WideText) : Except Fault Template :=
  match Template.ofWide s with
  | .ok t => .ok t
  | .error e => .error (.report (templateReport s e) none)

/-- The name of a route of the file with key `key`, after the namespace bound to the key, if any. -/
def reference (key name : String) (namespaces : Table String String) : String :=
  match namespaces.get? key with
  | some space => space ++ ":" ++ name
  | none => name

/-- The snippet for a route of the file with key `key`. -/
def render (t : Template) (key : String) (route : Route) (namespaces : Table String String) :
    WideText :=
  t.fill route.name (reference key route.name namespaces)

/-- The snippet for a route of the file at `path`. -/
def renderForFile (t : Template) (path : String) (route : Route)
    (namespaces : Table String String) : WideText :=
  render t (FileKey.subpath path) route namespaces

end RouteAtlas.Snippet
