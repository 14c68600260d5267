/-!
# Occurrences from left to right

A recogniser reads a value at the start of a text and gives the rest. `occurrences` finds the values
that it reads at the successive leftmost positions, each at or after the end of the one before. Two
recognisers that agree everywhere find the same (`occurrences_congr`).
-/

namespace RouteAtlas.Text

/-- Reads a value at the start of a text, with the text after it. -/
abbrev Recogniser (α : Type) := List Char → Option (α × List Char)

/-- What is read is never empty. -/
def Recogniser.Consumes {α : Type} (read? : Recogniser α) : Prop :=
  ∀ s a rest, read? s = some (a, rest) → rest.length < s.length

variable {α : Type}

/-- The values read at the successive leftmost positions, added to those `done` before, which are in
reverse order. -/
def occurrencesOnto (read? : Recogniser α) (consumes : read?.Consumes) (done : List α)
    (s : List Char) : List α :=
  match _h : read? s with
  | some (a, rest) => occurrencesOnto read? consumes (a :: done) rest
  | none =>
    match s with
    | [] => done.reverse
    | _ :: rest => occurrencesOnto read? consumes done rest
termination_by s.length
decreasing_by
  · exact consumes _ _ _ _h
  · simp

/-- The values read at the successive leftmost positions. -/
def occurrences (read? : Recogniser α) (consumes : read?.Consumes) (s : List Char) : List α :=
  occurrencesOnto read? consumes [] s

/-- The value read at the leftmost position where one is read. -/
def firstOccurrence? (read? : Recogniser α) : List Char → Option α
  | [] => (read? []).map Prod.fst
  | c :: rest =>
    match read? (c :: rest) with
    | some (a, _) => some a
    | none => firstOccurrence? read? rest

theorem occurrencesOnto_eq (read? : Recogniser α) (consumes : read?.Consumes) (done : List α)
    (s : List Char) :
    occurrencesOnto read? consumes done s = done.reverse ++ occurrences read? consumes s := by
  suffices H : ∀ n s done, s.length ≤ n →
      occurrencesOnto read? consumes done s =
        done.reverse ++ occurrencesOnto read? consumes [] s from H _ s done (Nat.le_refl _)
  intro n
  induction n with
  | zero =>
    intro s done hs
    obtain rfl : s = [] := List.length_eq_zero_iff.mp (Nat.le_zero.mp hs)
    rw [occurrencesOnto, occurrencesOnto.eq_def read? consumes []]
    split
    · rename_i h
      exact absurd (consumes _ _ _ h) (by simp)
    · simp
  | succ n ih =>
    intro s done hs
    rw [occurrencesOnto, occurrencesOnto.eq_def read? consumes [] s]
    split
    · rename_i a rest h
      have hlt := consumes _ _ _ h
      rw [ih rest _ (by omega), ih rest [a] (by omega)]
      simp
    · cases s with
      | nil => simp
      | cons c rest => exact ih rest done (by simpa using hs)

theorem occurrences_of_some {read? : Recogniser α} {consumes : read?.Consumes} {s rest : List Char}
    {a : α} (h : read? s = some (a, rest)) :
    occurrences read? consumes s = a :: occurrences read? consumes rest := by
  rw [occurrences, occurrencesOnto]
  split
  · rename_i a' rest' h'
    obtain ⟨rfl, rfl⟩ : a' = a ∧ rest' = rest := by simpa [h] using h'.symm
    exact occurrencesOnto_eq read? consumes [a'] rest'
  · rename_i h'
    simp [h] at h'

theorem occurrences_cons_of_none {read? : Recogniser α} {consumes : read?.Consumes} {c : Char}
    {rest : List Char} (h : read? (c :: rest) = none) :
    occurrences read? consumes (c :: rest) = occurrences read? consumes rest := by
  rw [occurrences, occurrencesOnto]
  split
  · rename_i h'
    simp [h] at h'
  · rfl

theorem occurrences_nil (read? : Recogniser α) (consumes : read?.Consumes) :
    occurrences read? consumes [] = [] := by
  rw [occurrences, occurrencesOnto]
  split
  · rename_i h
    exact absurd (consumes _ _ _ h) (by simp)
  · rfl

theorem occurrences_congr {r r' : Recogniser α} (consumes : r.Consumes) (consumes' : r'.Consumes)
    (h : ∀ s, r s = r' s) (s : List Char) : occurrences r consumes s = occurrences r' consumes' s := by
  obtain rfl : r = r' := funext h
  rfl

end RouteAtlas.Text
