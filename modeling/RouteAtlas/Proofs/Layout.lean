import RouteAtlas.Proofs.Lexeme
import RouteAtlas.Urlconf

/-!
# Routing modules as they are written

The items of a routing module with every choice that their writing leaves open: which quotes, and
which blanks between the tokens. An item is a plain route or the include of another module under a
namespace. `Layout.file` is the text of a module, and `Item.route` and `Item.binding?` are what an
item means.
-/

namespace RouteAtlas.Urlconf.Layout

/-- The blanks between two tokens. -/
abbrev Gap := {b : List Char // Blanks b}

/-- A quoted text as it is written. -/
structure Literal where
  /-- The quote before the text. -/
  opening : Char
  /-- The quote after the text, which may be of the other kind. -/
  closing : Char
  body : List Char
  opening_quote : IsQuote opening
  closing_quote : IsQuote closing
  unquoted : ∀ c ∈ body, ¬ IsQuote c

/-- The text of a quoted text, with its quotes. -/
def Literal.text (l : Literal) : List Char := l.opening :: (l.body ++ [l.closing])

/-- The word that starts a route. -/
inductive Keyword where
  | path
  | rePath

/-- The text of a keyword. -/
def Keyword.text : Keyword → List Char
  | .path => ['p', 'a', 't', 'h']
  | .rePath => ['r', 'e', '_', 'p', 'a', 't', 'h']

/-- The word of includes. It starts an include wherever it stands outside of one. -/
def includeWord : List Char := ['i', 'n', 'c', 'l', 'u', 'd', 'e']

/-- The word of routes. -/
def pathWord : List Char := ['p', 'a', 't', 'h']

/-- A route up to the comma after its url. -/
structure Opening where
  keyword : Keyword
  afterKeyword : Gap
  beforeUrl : Gap
  url : Literal
  afterUrl : Gap
  url_nonempty : url.body ≠ []
  url_noInclude : ¬ includeWord <:+: url.body

/-- The text of a route up to the comma after its url. -/
def Opening.text (o : Opening) : List Char :=
  o.keyword.text ++ o.afterKeyword ++ ['('] ++ o.beforeUrl ++ o.url.text ++ o.afterUrl ++ [',']

/-- A name with its keyword and the comma before it. -/
structure Naming where
  beforeKeyword : Gap
  afterKeyword : Gap
  beforeName : Gap
  name : Literal
  name_nonempty : name.body ≠ []
  name_noInclude : ¬ includeWord <:+: name.body

/-- The text of a name with its keyword and the comma before it. -/
def Naming.text (n : Naming) : List Char :=
  [','] ++ n.beforeKeyword ++ ['n', 'a', 'm', 'e'] ++ n.afterKeyword ++ ['='] ++ n.beforeName
    ++ n.name.text

/-- A route with a handler, which is any text without commas and closing parentheses. -/
structure Plain where
  opening : Opening
  beforeHandler : Gap
  handler : List Char
  afterHandler : Gap
  naming : Option Naming
  beforeEnd : Gap
  handler_nonempty : handler ≠ []
  handler_unbroken : ∀ c ∈ handler, c ≠ ',' ∧ c ≠ ')'
  handler_noInclude : ¬ includeWord <:+: handler

/-- The text of the name of a plain route, if it has one. -/
def Plain.namingText (p : Plain) : List Char :=
  match p.naming with
  | some n => n.text
  | none => []

/-- The text of a plain route. -/
def Plain.text (p : Plain) : List Char :=
  p.opening.text ++ p.beforeHandler ++ p.handler ++ p.afterHandler ++ p.namingText ++ p.beforeEnd
    ++ [')']

/-- A route whose handler includes another module under a namespace. -/
structure Included where
  opening : Opening
  beforeInclude : Gap
  afterInclude : Gap
  beforePair : Gap
  beforeName : Gap
  /-- The included module. -/
  name : Literal
  afterName : Gap
  beforeApp : Gap
  /-- The name of its application. -/
  app : Literal
  afterApp : Gap
  afterPair : Gap
  beforeKeyword : Gap
  afterKeyword : Gap
  beforeSpace : Gap
  /-- The namespace. -/
  space : Literal
  afterSpace : Gap
  beforeEnd : Gap
  name_nonempty : name.body ≠ []
  name_unbroken : ∀ c ∈ name.body, c ≠ ',' ∧ c ≠ ')'
  app_unbroken : ')' ∉ app.body
  app_noPath : ¬ pathWord <:+: app.body
  space_nonempty : space.body ≠ []
  space_noPath : ¬ pathWord <:+: space.body

/-- The text from the word of the include to the module that is included. -/
def Included.nameText (i : Included) : List Char :=
  includeWord ++ i.afterInclude ++ ['('] ++ i.beforePair ++ ['('] ++ i.beforeName ++ i.name.text
    ++ i.afterName

/-- The text from the comma after the included module to the parenthesis that ends the pair. -/
def Included.appText (i : Included) : List Char :=
  [','] ++ i.beforeApp ++ i.app.text ++ i.afterApp ++ [')']

/-- The text of the namespace with its keyword and the comma before it. -/
def Included.spaceText (i : Included) : List Char :=
  i.afterPair ++ [','] ++ i.beforeKeyword ++ ['n', 'a', 'm', 'e', 's', 'p', 'a', 'c', 'e']
    ++ i.afterKeyword ++ ['='] ++ i.beforeSpace ++ i.space.text

/-- The text of a route that includes another module. -/
def Included.text (i : Included) : List Char :=
  i.opening.text ++ i.beforeInclude ++ i.nameText ++ i.appText ++ i.spaceText ++ i.afterSpace ++ [')']
    ++ i.beforeEnd ++ [')']

/-- An item of a routing module. -/
inductive Item where
  | plain (p : Plain)
  | included (i : Included)

namespace Item

/-- The text of an item. -/
def text : Item → List Char
  | .plain p => p.text
  | .included i => i.text

/-- The route that an item declares. -/
def route : Item → Route
  | .plain p =>
    ⟨String.ofList p.opening.url.body, match p.naming with
      | some n => String.ofList n.name.body
      | none => ""⟩
  | .included i => ⟨String.ofList i.opening.url.body, ""⟩

/-- The namespace that an item binds, if any. -/
def binding? : Item → Option Binding
  | .plain _ => none
  | .included i => some ⟨moduleKey (String.ofList i.name.body), String.ofList i.space.body⟩

end Item

/-- The text of items, each followed by a comma and the end of the line. -/
def lines (items : List Item) : List Char := items.flatMap fun item => item.text ++ [',', '\n']

/-- The text of a routing module. -/
def file (items : List Item) : String :=
  String.ofList ("urlpatterns = [".toList ++ lines items ++ [']'])

end RouteAtlas.Urlconf.Layout
