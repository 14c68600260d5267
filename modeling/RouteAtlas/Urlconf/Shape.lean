import RouteAtlas.Pattern
import RouteAtlas.Urlconf

/-!
# The shapes of declarations

Route declarations, namespaced includes and the block of url patterns, each as a pattern, and what
they say where the patterns are searched for by trying. The readers of the other modules find the
same in one pass.
-/

namespace RouteAtlas.Urlconf.Shape

open Pattern (inTurn one most fewest word optional keep)

/-- Any number of blanks. -/
def blanks : Pattern := most Text.isBlank

/-- A quote of either kind. -/
def quote : Pattern := one isQuote

/-- A quoted text, which is kept. -/
def quoted : Pattern := inTurn [quote, keep (Pattern.some (!isQuote ·)), quote]

/-- A character after blanks. -/
def mark (c : Char) : Pattern := inTurn [blanks, one (· == c)]

/-- `path(<url>, <handler>[, name=<name>])`, up to the handler or the name. -/
def declaration : Pattern :=
  inTurn
    [word "path".toList, mark '(', blanks, quoted, mark ',', blanks,
      Pattern.some Declaration.isHandler, blanks,
      optional (inTurn [one (· == ','), blanks, word "name".toList, mark '=', blanks, quoted])]

/-- `include((<module>, <app>), namespace=<namespace>`. -/
def includeCall : Pattern :=
  inTurn
    [word "include".toList, mark '(', mark '(', blanks, quoted, mark ',', blanks, most (· != ')'),
      one (· == ')'), mark ',', blanks, word "namespace".toList, mark '=', blanks, quoted]

/-- `urlpatterns = [...]`, up to the first closing bracket. -/
def block : Pattern :=
  keep (inTurn
    [word "urlpatterns".toList, mark '=', mark '[', fewest fun _ => true, one (· == ']')])

/-- The route of the texts that a declaration keeps. -/
def routeOf (kept : List (List Char)) : Route :=
  ⟨String.ofList (kept.getD 0 []), String.ofList (kept.getD 1 [])⟩

/-- The binding of the texts that an include keeps. -/
def bindingOf (kept : List (List Char)) : Binding :=
  ⟨moduleKey (String.ofList (kept.getD 0 [])), String.ofList (kept.getD 1 [])⟩

/-- The routes at the matches of the declaration. -/
def routes (s : List Char) : List Route := (declaration.findAll s).map routeOf

/-- The bindings at the matches of the include. -/
def bindings (s : List Char) : List Binding := (includeCall.findAll s).map bindingOf

/-- The text of the first match of the block. -/
def firstBlock? (s : List Char) : Option (List Char) := (block.find? s).map (·.getD 0 [])

end RouteAtlas.Urlconf.Shape
