import RouteAtlas.Text.Occurrences
import RouteAtlas.Urlconf.Lexeme

/-!
# Route declarations

A declaration reads `path(<url>, <handler>[, name=<name>])`. The handler is skipped and not parsed:
it runs up to the first comma or closing parenthesis. The word need not stand alone, so `re_path`
declares too.
-/

namespace RouteAtlas

/-- A declared route: the literal pattern text, and its name or the empty text. -/
structure Route where
  /-- The pattern text, as written. -/
  url : String
  /-- The name, empty when the declaration gives none. -/
  name : String := ""
deriving DecidableEq, Repr, Inhabited

/-- How a tree shows the route. -/
def Route.label (r : Route) : String := r.url ++ "[" ++ r.name ++ "]"

namespace Urlconf.Declaration

/-- The characters of a handler. -/
def isHandler (c : Char) : Bool := c != ',' && c != ')'

/-- Reads the name that may follow a handler. -/
def name? (s : List Char) : Option (List Char × List Char) :=
  (word? [','] s).bind fun s =>
  (wordAfterBlanks? ['n', 'a', 'm', 'e'] s).bind fun s =>
  (wordAfterBlanks? ['='] s).bind fun s =>
  quotedAfterBlanks? s

/-- Reads the word, the parenthesis, the url and the comma. -/
def head? (s : List Char) : Option (List Char × List Char) :=
  (word? ['p', 'a', 't', 'h'] s).bind fun s =>
  (wordAfterBlanks? ['('] s).bind fun s =>
  (quotedAfterBlanks? s).bind fun (url, s) =>
  (wordAfterBlanks? [','] s).map fun s => (url, s)

/-- Reads a declaration. A handler of blanks alone will do; a name that is not well formed is left
unread. -/
def read? : Text.Recogniser Route := fun s =>
  (head? s).bind fun (url, s) =>
  let handler := s.takeWhile isHandler
  let rest := s.dropWhile isHandler
  if handler.isEmpty then none
  else
    match name? rest with
    | some (name, rest) => some (⟨String.ofList url, String.ofList name⟩, rest)
    | none => some (⟨String.ofList url, ""⟩, rest)

theorem length_name? {s name rest : List Char} (h : name? s = some (name, rest)) :
    rest.length < s.length := by
  simp only [name?, Option.bind_eq_some_iff] at h
  obtain ⟨s₁, h₁, s₂, h₂, s₃, h₃, h₄⟩ := h
  have := length_word? h₁
  have := length_wordAfterBlanks? h₂
  have := length_wordAfterBlanks? h₃
  have := length_quotedAfterBlanks? h₄
  omega

theorem length_head? {s url rest : List Char} (h : head? s = some (url, rest)) :
    rest.length < s.length := by
  simp only [head?, Option.bind_eq_some_iff, Option.map_eq_some_iff, Prod.mk.injEq] at h
  obtain ⟨s₁, h₁, s₂, h₂, ⟨u, s₃⟩, h₃, s₄, h₄, -, rfl⟩ := h
  dsimp only at h₄
  have := length_word? h₁
  have := length_wordAfterBlanks? h₂
  have := length_quotedAfterBlanks? h₃
  have := length_wordAfterBlanks? h₄
  omega

theorem read?_consumes : read?.Consumes := by
  intro s route rest h
  simp only [read?, Option.bind_eq_some_iff] at h
  obtain ⟨⟨url, s₁⟩, h₁, h₂⟩ := h
  dsimp only at h₂
  have hlt := length_head? h₁
  have hle := (List.dropWhile_sublist (l := s₁) isHandler).length_le
  split at h₂
  · exact absurd h₂ (by simp)
  · split at h₂
    · rename_i hn
      have := length_name? hn
      obtain ⟨-, rfl⟩ : _ ∧ _ := by simpa using h₂
      omega
    · obtain ⟨-, rfl⟩ : _ ∧ _ := by simpa using h₂
      omega

end Urlconf.Declaration

/-- The routes that a text declares, in order. -/
def Urlconf.routesIn (s : List Char) : List Route :=
  Text.occurrences Declaration.read? Declaration.read?_consumes s

end RouteAtlas
