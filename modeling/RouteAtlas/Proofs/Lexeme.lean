import Mathlib.Data.List.TakeWhile
import RouteAtlas.Urlconf.Lexeme

/-!
# The grammar of lexemes

Blanks and quoted texts as sets of texts, and what the readers of lexemes accept: exactly these, and
in one way only.
-/

namespace RouteAtlas.Urlconf

open Text (isBlank skipBlanks)

/-- Any number of blanks. -/
def Blanks (b : List Char) : Prop := ∀ c ∈ b, isBlank c = true

instance (b : List Char) : Decidable (Blanks b) :=
  decidable_of_iff (b.all isBlank = true) List.all_eq_true

/-- A single or a double quote. -/
def IsQuote (c : Char) : Prop := c = '\'' ∨ c = '"'

/-- A text that may stand between quotes and be read back: it holds no quote and is not empty. -/
def Quotable (body : List Char) : Prop := body ≠ [] ∧ ∀ c ∈ body, ¬ IsQuote c

/-- `written` is `body` between two quotes, which need not be of one kind. -/
def Quoted (body written : List Char) : Prop :=
  ∃ q q', IsQuote q ∧ IsQuote q' ∧ Quotable body ∧ written = q :: (body ++ [q'])

theorem isQuote_iff {c : Char} : isQuote c = true ↔ IsQuote c := by
  simp [isQuote, IsQuote]

theorem isQuote_eq_false_iff {c : Char} : isQuote c = false ↔ ¬ IsQuote c := by
  rw [← isQuote_iff, Bool.not_eq_true]

/-- A quote is no blank. -/
theorem IsQuote.not_blank {c : Char} (h : IsQuote c) : isBlank c = false := by
  rcases h with rfl | rfl <;> decide

/-! ## Runs of a class -/

/-- The longest run of a class at the start of a text is the one that a character of another class,
or the end, follows. -/
theorem takeWhile_append_of_stop {p : Char → Bool} {run rest : List Char}
    (hrun : ∀ c ∈ run, p c = true) (hrest : ∀ c ∈ rest.head?, p c = false) :
    (run ++ rest).takeWhile p = run := by
  rw [List.takeWhile_append_of_pos hrun]
  cases rest with
  | nil => simp
  | cons c rest => simp [hrest c rfl]

/-- What follows the longest run of a class. -/
theorem dropWhile_append_of_stop {p : Char → Bool} {run rest : List Char}
    (hrun : ∀ c ∈ run, p c = true) (hrest : ∀ c ∈ rest.head?, p c = false) :
    (run ++ rest).dropWhile p = rest := by
  rw [List.dropWhile_append_of_pos hrun]
  cases rest with
  | nil => rfl
  | cons c rest => simp [hrest c rfl]

/-- A character of another class, or nothing, follows the longest run of a class. -/
theorem head?_dropWhile_stop (p : Char → Bool) (s : List Char) :
    ∀ c ∈ (s.dropWhile p).head?, p c = false := by
  intro c hc
  have h := List.head?_dropWhile_not p s
  rw [hc] at h
  simpa using h

/-- What is left from a mark on starts with the first one. -/
theorem dropWhile_eq_cons_iff {mark c : Char} {s rest : List Char} :
    s.dropWhile (· != mark) = c :: rest ↔ c = mark ∧ ∃ run, mark ∉ run ∧ s = run ++ mark :: rest := by
  constructor
  · intro h
    have hstop := head?_dropWhile_stop (· != mark) s c (by rw [h]; rfl)
    obtain rfl : c = mark := by simpa using hstop
    refine ⟨rfl, s.takeWhile (· != c), ?_, ?_⟩
    · intro hmem
      simpa using List.mem_takeWhile_imp hmem
    · rw [← h, List.takeWhile_append_dropWhile]
  · rintro ⟨rfl, run, hrun, rfl⟩
    have hclass : ∀ d ∈ run, (d != c) = true := by
      intro d hd
      have hne : d ≠ c := fun h => hrun (h ▸ hd)
      simpa using hne
    exact dropWhile_append_of_stop hclass (by simp)

/-- There is a run of a class where a character of the class stands. -/
theorem takeWhile_ne_nil_iff {p : Char → Bool} {s : List Char} :
    s.takeWhile p ≠ [] ↔ ∃ c rest, s = c :: rest ∧ p c = true := by
  cases s with
  | nil => simp
  | cons c s => cases h : p c <;> simp [h]

theorem skipBlanks_append {b s : List Char} (hb : Blanks b) : skipBlanks (b ++ s) = skipBlanks s :=
  List.dropWhile_append_of_pos hb

theorem skipBlanks_cons_of_not_blank {c : Char} {s : List Char} (hc : isBlank c = false) :
    skipBlanks (c :: s) = c :: s := by
  simp [skipBlanks, hc]

/-- A text is its leading blanks and the rest. -/
theorem exists_blanks_append (s : List Char) : ∃ b, Blanks b ∧ s = b ++ skipBlanks s :=
  ⟨s.takeWhile isBlank, fun _ => List.mem_takeWhile_imp, List.takeWhile_append_dropWhile.symm⟩

/-! ## What the readers accept -/

/-- A word is read where it stands. -/
theorem word?_eq_some_iff {word s rest : List Char} : word? word s = some rest ↔ s = word ++ rest := by
  induction word generalizing s with
  | nil => cases s <;> simp [word?, eq_comm]
  | cons w word ih =>
    cases s with
    | nil => simp [word?]
    | cons c s =>
      rw [word?]
      by_cases hwc : w = c
      · subst hwc
        simp [ih]
      · simp [hwc, Ne.symm hwc]

theorem word?_eq_none_iff {word s : List Char} : word? word s = none ↔ ¬ word <+: s := by
  rw [Option.eq_none_iff_forall_ne_some]
  constructor
  · rintro h ⟨rest, rfl⟩
    exact h rest (word?_eq_some_iff.mpr rfl)
  · intro h rest hrest
    exact h ⟨rest, (word?_eq_some_iff.mp hrest).symm⟩

/-- A word that starts with no blank is read after any blanks. -/
theorem wordAfterBlanks?_eq_some_iff {w : Char} {word s rest : List Char} (hw : isBlank w = false) :
    wordAfterBlanks? (w :: word) s = some rest ↔
      ∃ b, Blanks b ∧ s = b ++ (w :: word ++ rest) := by
  rw [wordAfterBlanks?, word?_eq_some_iff]
  constructor
  · intro h
    obtain ⟨b, hb, hs⟩ := exists_blanks_append s
    exact ⟨b, hb, by rw [hs, h]⟩
  · rintro ⟨b, hb, rfl⟩
    rw [skipBlanks_append hb, List.cons_append, skipBlanks_cons_of_not_blank hw]

/-- A quoted text is read up to the quote that ends it. -/
theorem quotedText?_eq_some_iff {s body rest : List Char} :
    quotedText? s = some (body, rest) ↔ ∃ t, Quoted body t ∧ s = t ++ rest := by
  constructor
  · intro h
    cases s with
    | nil => exact absurd h (by simp [quotedText?])
    | cons q s =>
      simp only [quotedText?] at h
      split at h
      · rename_i hq
        split at h
        · rename_i c run q' after htake hdrop
          obtain ⟨rfl, rfl⟩ : c :: run = body ∧ after = rest := by simpa using h
          have hq' := head?_dropWhile_stop (!isQuote ·) s q' (by rw [hdrop]; rfl)
          have hs : s = (c :: run) ++ q' :: after := by
            rw [← htake, ← hdrop, List.takeWhile_append_dropWhile]
          refine ⟨q :: ((c :: run) ++ [q']), ⟨q, q', isQuote_iff.mp hq, isQuote_iff.mp ?_,
            ⟨by simp, fun x hx => ?_⟩, rfl⟩, by rw [hs]; simp⟩
          · simpa using hq'
          · have hmem := List.mem_takeWhile_imp (htake ▸ hx)
            exact isQuote_eq_false_iff.mp (by simpa using hmem)
        · exact absurd h (by simp)
      · exact absurd h (by simp)
  · rintro ⟨t, ⟨q, q', hq, hq', ⟨hne, hbody⟩, rfl⟩, rfl⟩
    have hrun : ∀ c ∈ body, (!isQuote c) = true := fun c hc => by
      rw [isQuote_eq_false_iff.mpr (hbody c hc)]; rfl
    have hstop : ∀ c ∈ (q' :: rest).head?, (!isQuote c) = false := by
      rintro c ⟨⟩
      rw [isQuote_iff.mpr hq']; rfl
    have happ : q :: (body ++ [q']) ++ rest = q :: (body ++ q' :: rest) := by simp
    rw [happ, quotedText?, if_pos (isQuote_iff.mpr hq), takeWhile_append_of_stop hrun hstop,
      dropWhile_append_of_stop hrun hstop]
    cases body with
    | nil => exact absurd rfl hne
    | cons c run => rfl

/-- A quoted text is read after any blanks. -/
theorem quotedAfterBlanks?_eq_some_iff {s body rest : List Char} :
    quotedAfterBlanks? s = some (body, rest) ↔
      ∃ b t, Blanks b ∧ Quoted body t ∧ s = b ++ (t ++ rest) := by
  rw [quotedAfterBlanks?, quotedText?_eq_some_iff]
  constructor
  · rintro ⟨t, ht, hs⟩
    obtain ⟨b, hb, hbs⟩ := exists_blanks_append s
    exact ⟨b, t, hb, ht, by rw [hbs, hs]⟩
  · rintro ⟨b, t, hb, ht, rfl⟩
    refine ⟨t, ht, ?_⟩
    obtain ⟨q, q', hq, -, -, rfl⟩ := ht
    rw [skipBlanks_append hb, List.cons_append, skipBlanks_cons_of_not_blank hq.not_blank]

end RouteAtlas.Urlconf
