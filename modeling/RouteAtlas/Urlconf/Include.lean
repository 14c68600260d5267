import RouteAtlas.Table
import RouteAtlas.Text.Occurrences
import RouteAtlas.Urlconf.Lexeme

/-!
# Namespaced includes

An include binds a namespace to the routing module that it names:
`include((<module>, <app>), namespace=<namespace>)`. What stands after the module, up to the first
closing parenthesis, is skipped.
-/

namespace RouteAtlas

/-- A module key with the namespace that an include gives it. -/
structure Binding where
  /-- The module reference with its first dot written as a slash. -/
  key : String
  /-- The namespace. -/
  space : String
deriving DecidableEq, Repr

namespace Urlconf

/-- Writes the first dot as a slash. -/
def slashFirstDot : List Char → List Char
  | [] => []
  | c :: rest => if c = '.' then '/' :: rest else c :: slashFirstDot rest

/-- The key of a module reference: only its first dot becomes a slash. -/
def moduleKey (reference : String) : String := String.ofList (slashFirstDot reference.toList)

namespace Include

/-- Reads the word, the parentheses, the module and the comma. -/
def head? (s : List Char) : Option (List Char × List Char) :=
  (word? ['i', 'n', 'c', 'l', 'u', 'd', 'e'] s).bind fun s =>
  (wordAfterBlanks? ['('] s).bind fun s =>
  (wordAfterBlanks? ['('] s).bind fun s =>
  (quotedAfterBlanks? s).bind fun (name, s) =>
  (wordAfterBlanks? [','] s).map fun s => (name, s)

/-- Reads what follows the parenthesis that ends the module and its application. -/
def namespace? (s : List Char) : Option (List Char × List Char) :=
  (wordAfterBlanks? [','] s).bind fun s =>
  (wordAfterBlanks? ['n', 'a', 'm', 'e', 's', 'p', 'a', 'c', 'e'] s).bind fun s =>
  (wordAfterBlanks? ['='] s).bind fun s =>
  quotedAfterBlanks? s

/-- Reads an include. -/
def read? : Text.Recogniser Binding := fun s =>
  (head? s).bind fun (name, s) =>
  (word? [')'] (s.dropWhile (· != ')'))).bind fun s =>
  (namespace? s).map fun (space, s) =>
  (⟨moduleKey (String.ofList name), String.ofList space⟩, s)

theorem length_head? {s name rest : List Char} (h : head? s = some (name, rest)) :
    rest.length < s.length := by
  simp only [head?, Option.bind_eq_some_iff, Option.map_eq_some_iff, Prod.mk.injEq] at h
  obtain ⟨s₁, h₁, s₂, h₂, s₃, h₃, ⟨u, s₄⟩, h₄, s₅, h₅, -, rfl⟩ := h
  dsimp only at h₅
  have := length_word? h₁
  have := length_wordAfterBlanks? h₂
  have := length_wordAfterBlanks? h₃
  have := length_quotedAfterBlanks? h₄
  have := length_wordAfterBlanks? h₅
  omega

theorem length_namespace? {s space rest : List Char} (h : namespace? s = some (space, rest)) :
    rest.length < s.length := by
  simp only [namespace?, Option.bind_eq_some_iff] at h
  obtain ⟨s₁, h₁, s₂, h₂, s₃, h₃, h₄⟩ := h
  have := length_wordAfterBlanks? h₁
  have := length_wordAfterBlanks? h₂
  have := length_wordAfterBlanks? h₃
  have := length_quotedAfterBlanks? h₄
  omega

theorem read?_consumes : read?.Consumes := by
  intro s binding rest h
  simp only [read?, Option.bind_eq_some_iff, Option.map_eq_some_iff, Prod.mk.injEq] at h
  obtain ⟨⟨name, s₁⟩, h₁, s₂, h₂, ⟨space, s₃⟩, h₃, -, rfl⟩ := h
  dsimp only at h₂ ⊢
  have := length_head? h₁
  have := (List.dropWhile_sublist (l := s₁) (· != ')')).length_le
  have := length_word? h₂
  have := length_namespace? h₃
  omega

end Include

/-- The bindings that a text makes, in order, repeated keys included. -/
def bindingsIn (s : List Char) : List Binding :=
  Text.occurrences Include.read? Include.read?_consumes s

/-- The namespaces that a text gives to module keys: the last include of a module wins. -/
def namespacesIn (s : List Char) : Table String String :=
  Table.ofList ((bindingsIn s).map fun b => (b.key, b.space))

end Urlconf

end RouteAtlas
