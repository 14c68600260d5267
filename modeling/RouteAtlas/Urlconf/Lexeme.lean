import RouteAtlas.Text.Blank

/-!
# The lexemes of declarations

Words, quoted texts and the blanks between them. Each function reads at the start of a text and
gives the rest; the lemmas say that the rest is a shorter or equal end of the text.
-/

namespace RouteAtlas.Urlconf

/-- The rest of a text that starts with `word`. -/
def word? : List Char → List Char → Option (List Char)
  | [], s => some s
  | _ :: _, [] => none
  | w :: word, c :: s => if w = c then word? word s else none

/-- The rest after blanks and a text that follows them. -/
def wordAfterBlanks? (word s : List Char) : Option (List Char) := word? word (Text.skipBlanks s)

/-- Single and double quotes. They need not match. -/
def isQuote (c : Char) : Bool := c == '\'' || c == '"'

/-- A text of at least one character between two quotes, without quotes inside. -/
def quotedText? : List Char → Option (List Char × List Char)
  | [] => none
  | quote :: s =>
    if isQuote quote then
      match s.takeWhile (!isQuote ·), s.dropWhile (!isQuote ·) with
      | c :: body, _ :: rest => some (c :: body, rest)
      | _, _ => none
    else none

/-- A quoted text after blanks. -/
def quotedAfterBlanks? (s : List Char) : Option (List Char × List Char) :=
  quotedText? (Text.skipBlanks s)

/-! ## The rest is shorter -/

theorem length_word? {word s rest : List Char} (h : word? word s = some rest) :
    rest.length + word.length = s.length := by
  induction word generalizing s with
  | nil => cases s <;> simp_all [word?]
  | cons w word ih =>
    cases s with
    | nil => simp [word?] at h
    | cons c s =>
      rw [word?] at h
      split at h
      · have := ih h
        simp only [List.length_cons]
        omega
      · exact absurd h (by simp)

theorem length_wordAfterBlanks? {word s rest : List Char}
    (h : wordAfterBlanks? word s = some rest) : rest.length + word.length ≤ s.length := by
  have h₁ := length_word? h
  have h₂ := Text.length_skipBlanks_le s
  omega

theorem length_quotedText? {s body rest : List Char} (h : quotedText? s = some (body, rest)) :
    rest.length < s.length := by
  cases s with
  | nil => simp [quotedText?] at h
  | cons quote s =>
    have hle := (List.dropWhile_sublist (l := s) (!isQuote ·)).length_le
    simp only [quotedText?] at h
    split at h
    · split at h
      · rename_i hd
        obtain ⟨-, rfl⟩ : _ ∧ _ := by simpa using h
        rw [hd] at hle
        simp only [List.length_cons] at hle ⊢
        omega
      · exact absurd h (by simp)
    · exact absurd h (by simp)

theorem length_quotedAfterBlanks? {s body rest : List Char}
    (h : quotedAfterBlanks? s = some (body, rest)) : rest.length < s.length := by
  have h₁ := length_quotedText? h
  have h₂ := Text.length_skipBlanks_le s
  omega

end RouteAtlas.Urlconf
