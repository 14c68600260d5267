import Mathlib.Data.List.Basic
import RouteAtlas.Text.Occurrences

/-!
# Leftmost occurrences

What `Text.occurrences` finds, said without a reader: the values at the successive smallest places,
each at or after the end of the one before. A reader that reads exactly what a relation allows finds
exactly the leftmost values of the relation (`leftmost_iff_occurrences`).
-/

namespace RouteAtlas.Text

variable {α β : Type}

/-- Whether a value stands at place `i` of a text, where `At s a rest` says that `a` stands at the
start of `s` and that `rest` follows it. -/
def StandsAt (At : List Char → α → List Char → Prop) (s : List Char) (i : Nat) : Prop :=
  ∃ a rest, At (s.drop i) a rest

/-- The values at the successive smallest places of a text. The search goes on where the last value
has ended, and it ends when no place is left. -/
inductive Leftmost (At : List Char → α → List Char → Prop) : List Char → List α → Prop where
  /-- Nothing stands anywhere. -/
  | none {s : List Char} (h : ∀ i, ¬ StandsAt At s i) : Leftmost At s []
  /-- The first value stands after some skipped characters. -/
  | next {skipped s rest : List Char} {a : α} {values : List α}
      (h : ∀ i < skipped.length, ¬ StandsAt At (skipped ++ s) i) (ha : At s a rest)
      (hrest : Leftmost At rest values) : Leftmost At (skipped ++ s) (a :: values)

/-! ## Skipping -/

/-- Where nothing is read, nothing is found. -/
theorem occurrences_eq_nil {read? : Recogniser α} {consumes : read?.Consumes} {s : List Char}
    (h : ∀ i, read? (s.drop i) = none) : occurrences read? consumes s = [] := by
  induction s with
  | nil => exact occurrences_nil read? consumes
  | cons c s ih =>
    rw [occurrences_cons_of_none (h 0)]
    exact ih fun i => h (i + 1)

/-- Characters where nothing is read can be skipped. -/
theorem occurrences_append {read? : Recogniser α} {consumes : read?.Consumes}
    {skipped s : List Char} (h : ∀ i < skipped.length, read? ((skipped ++ s).drop i) = none) :
    occurrences read? consumes (skipped ++ s) = occurrences read? consumes s := by
  induction skipped with
  | nil => rfl
  | cons c skipped ih =>
    have h0 : read? (c :: (skipped ++ s)) = none := h 0 (by simp)
    rw [List.cons_append, occurrences_cons_of_none h0]
    exact ih fun i hi => h (i + 1) (by simpa using hi)

/-- Either nothing is read at any place of a text, or there is a first place where something is. -/
theorem exists_first_read (read? : Recogniser α) (s : List Char) :
    (∀ i, read? (s.drop i) = none) ∨
      ∃ skipped t a rest, s = skipped ++ t ∧ read? t = some (a, rest) ∧
        ∀ i < skipped.length, read? ((skipped ++ t).drop i) = none := by
  induction s with
  | nil =>
    cases h : read? [] with
    | none => exact Or.inl fun i => by simpa using h
    | some p => exact Or.inr ⟨[], [], p.1, p.2, rfl, h, by simp⟩
  | cons c s ih =>
    cases h : read? (c :: s) with
    | some p => exact Or.inr ⟨[], c :: s, p.1, p.2, rfl, h, by simp⟩
    | none =>
      rcases ih with hs | ⟨skipped, t, a, rest, rfl, ht, hskip⟩
      · refine Or.inl fun i => ?_
        cases i with
        | zero => exact h
        | succ i => exact hs i
      · refine Or.inr ⟨c :: skipped, t, a, rest, rfl, ht, fun i hi => ?_⟩
        cases i with
        | zero => exact h
        | succ i => exact hskip i (by simpa using hi)

/-! ## The first occurrence -/

/-- What is read at the start of a text is found first. -/
theorem firstOccurrence?_of_some {read? : Recogniser α} {s rest : List Char} {a : α}
    (h : read? s = some (a, rest)) : firstOccurrence? read? s = some a := by
  cases s with
  | nil => rw [firstOccurrence?, h, Option.map_some]
  | cons c s => rw [firstOccurrence?, h]

theorem firstOccurrence?_cons_of_none {read? : Recogniser α} {c : Char} {s : List Char}
    (h : read? (c :: s) = none) : firstOccurrence? read? (c :: s) = firstOccurrence? read? s := by
  rw [firstOccurrence?, h]

/-- Characters where nothing is read can be skipped. -/
theorem firstOccurrence?_append {read? : Recogniser α} {skipped s : List Char}
    (h : ∀ i < skipped.length, read? ((skipped ++ s).drop i) = none) :
    firstOccurrence? read? (skipped ++ s) = firstOccurrence? read? s := by
  induction skipped with
  | nil => rfl
  | cons c skipped ih =>
    have h0 : read? (c :: (skipped ++ s)) = none := h 0 (by simp)
    rw [List.cons_append, firstOccurrence?_cons_of_none h0]
    exact ih fun i hi => h (i + 1) (by simpa using hi)

/-- Where nothing is read, nothing is found. -/
theorem firstOccurrence?_eq_none {read? : Recogniser α} {s : List Char}
    (h : ∀ i, read? (s.drop i) = none) : firstOccurrence? read? s = none := by
  induction s with
  | nil =>
    have hnil : read? [] = none := h 0
    rw [firstOccurrence?, hnil, Option.map_none]
  | cons c s ih =>
    rw [firstOccurrence?_cons_of_none (h 0)]
    exact ih fun i => h (i + 1)

/-- Changing every value that is read changes the one that is found first. -/
theorem map_firstOccurrence? {r : Recogniser α} {r' : Recogniser β} {f : α → β}
    (h : ∀ s, (r s).map (fun p => (f p.1, p.2)) = r' s) (s : List Char) :
    (firstOccurrence? r s).map f = firstOccurrence? r' s := by
  induction s with
  | nil => rw [firstOccurrence?, firstOccurrence?, ← h []]; simp [Function.comp_def]
  | cons c s ih =>
    cases hr : r (c :: s) with
    | some p =>
      have hr' : r' (c :: s) = some (f p.1, p.2) := by rw [← h (c :: s), hr]; rfl
      rw [firstOccurrence?_of_some hr, firstOccurrence?_of_some hr', Option.map_some]
    | none =>
      have hr' : r' (c :: s) = none := by rw [← h (c :: s), hr]; rfl
      rw [firstOccurrence?_cons_of_none hr, firstOccurrence?_cons_of_none hr', ih]

/-! ## The reader and the relation -/

/-- Nothing stands where a reader of the relation reads nothing. -/
theorem not_standsAt_iff {At : List Char → α → List Char → Prop} {read? : Recogniser α}
    (hread : ∀ s a rest, read? s = some (a, rest) ↔ At s a rest) {s : List Char} {i : Nat} :
    ¬ StandsAt At s i ↔ read? (s.drop i) = none := by
  constructor
  · intro h
    by_contra hne
    obtain ⟨⟨a, rest⟩, hsome⟩ := Option.ne_none_iff_exists'.mp hne
    exact h ⟨a, rest, (hread _ _ _).mp hsome⟩
  · rintro h ⟨a, rest, hat⟩
    rw [(hread _ _ _).mpr hat] at h
    exact absurd h (by simp)

/-- A reader that reads what the relation allows, and nothing else, finds its leftmost values. -/
theorem leftmost_iff_occurrences {At : List Char → α → List Char → Prop} {read? : Recogniser α}
    (consumes : read?.Consumes) (hread : ∀ s a rest, read? s = some (a, rest) ↔ At s a rest)
    {s : List Char} {values : List α} :
    Leftmost At s values ↔ values = occurrences read? consumes s := by
  constructor
  · intro h
    induction h with
    | none h => exact (occurrences_eq_nil fun i => (not_standsAt_iff hread).mp (h i)).symm
    | next h ha _ ih =>
      rw [occurrences_append fun i hi => (not_standsAt_iff hread).mp (h i hi),
        occurrences_of_some ((hread _ _ _).mpr ha), ih]
  · rintro rfl
    -- induction on the length: the rest after a value is shorter
    induction hn : s.length using Nat.strongRecOn generalizing s with
    | _ n ih =>
      rcases exists_first_read read? s with hs | ⟨skipped, t, a, rest, rfl, ht, hskip⟩
      · rw [occurrences_eq_nil hs]
        exact Leftmost.none fun i => (not_standsAt_iff hread).mpr (hs i)
      · rw [occurrences_append hskip, occurrences_of_some ht]
        have hlt : rest.length < n := by
          have := consumes _ _ _ ht
          simp only [List.length_append] at hn
          omega
        exact Leftmost.next (fun i hi => (not_standsAt_iff hread).mpr (hskip i hi))
          ((hread _ _ _).mp ht) (ih _ hlt rfl)

/-- A property of every value that stands somewhere holds of every leftmost value. -/
theorem Leftmost.forall_mem {At : List Char → α → List Char → Prop} {P : α → Prop}
    (hP : ∀ s a rest, At s a rest → P a) {s : List Char} {values : List α}
    (h : Leftmost At s values) : ∀ a ∈ values, P a := by
  induction h with
  | none _ => intro a ha; exact absurd ha (by simp)
  | next _ ha _ ih =>
    intro b hb
    rcases List.mem_cons.mp hb with rfl | hb
    · exact hP _ _ _ ha
    · exact ih b hb

/-- Changing every value that is read changes every value that is found. -/
theorem map_occurrences {r : Recogniser α} {r' : Recogniser β} {f : α → β} (consumes : r.Consumes)
    (consumes' : r'.Consumes) (h : ∀ s, (r s).map (fun p => (f p.1, p.2)) = r' s) (s : List Char) :
    (occurrences r consumes s).map f = occurrences r' consumes' s := by
  induction hn : s.length using Nat.strongRecOn generalizing s with
  | _ n ih =>
    cases hr : r s with
    | some p =>
      have hr' : r' s = some (f p.1, p.2) := by rw [← h s, hr]; rfl
      have hlt := consumes _ _ _ hr
      rw [occurrences_of_some hr, occurrences_of_some hr', List.map_cons, ih _ (hn ▸ hlt) _ rfl]
    | none =>
      have hr' : r' s = none := by rw [← h s, hr]; rfl
      cases s with
      | nil => rw [occurrences_nil, occurrences_nil, List.map_nil]
      | cons c s =>
        rw [occurrences_cons_of_none hr, occurrences_cons_of_none hr']
        exact ih s.length (by rw [← hn]; simp) s rfl

end RouteAtlas.Text
