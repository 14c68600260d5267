import Mathlib.Data.List.Basic
import RouteAtlas.Text.LowerCase

/-!
# Lower casing a part of a text

Every character but a capital sigma has one lower case, wherever it stands. A sigma takes its final form
at the end of a word, so it may change its form when a part of a text is cut out. The lower case of a part
stands where the part stands if and only if no sigma of the part does (`lowerWithin_eq_iff`). A text that
keeps its sigmas whatever is written around it is steady, and this can be told by one letter on either side
(`steady_of_keeps`).
-/

namespace RouteAtlas.Text

/-! ## Lower casing in its place -/

/-- Whether a sigma between two texts takes the final form. -/
def endsWord (before after : List Char) : Bool := casedAhead before.reverse && !casedAhead after

/-- The lower case of a character between two texts. -/
def lowerBetween (before : List Char) (c : Char) (after : List Char) : List Char :=
  if c.toNat < 0x80 then [c.toLower]
  else if c = 'İ' then ['i', '\u0307']
  else if c = 'Σ' then [if endsWord before after then 'ς' else 'σ']
  else [lowerChar c]

/-- The lower case of a part between two texts. -/
def lowerWithin (before after : List Char) : List Char → List Char
  | [] => []
  | c :: rest => lowerBetween before c (rest ++ after) ++ lowerWithin (before ++ [c]) after rest

theorem lowerFrom_eq (before done s : List Char) :
    lowerFrom before.reverse done s = done.reverse ++ lowerWithin before [] s := by
  induction s generalizing before done with
  | nil => simp [lowerFrom, lowerWithin]
  | cons c rest ih =>
    have hnext : ∀ d, lowerFrom (c :: before.reverse) (d ++ done) rest =
        done.reverse ++ (d.reverse ++ lowerWithin (before ++ [c]) [] rest) := by
      intro d
      have h := ih (before ++ [c]) (d ++ done)
      rw [List.reverse_append, List.reverse_singleton, List.singleton_append] at h
      rw [h, List.reverse_append, List.append_assoc]
    rw [lowerWithin, lowerBetween, lowerFrom, List.append_nil]
    split
    · exact hnext [c.toLower]
    · split
      · exact hnext ['\u0307', 'i']
      · split
        · exact hnext [_]
        · exact hnext [lowerChar c]

theorem toList_lower (s : String) : (lower s).toList = lowerWithin [] [] s.toList := by
  rw [lower, String.toList_ofList]
  exact lowerFrom_eq [] [] s.toList

theorem lowerWithin_append (before after s t : List Char) :
    lowerWithin before after (s ++ t) =
      lowerWithin before (t ++ after) s ++ lowerWithin (before ++ s) after t := by
  induction s generalizing before with
  | nil => simp [lowerWithin]
  | cons c s ih =>
    rw [List.cons_append, lowerWithin, lowerWithin, ih]
    simp only [List.append_assoc, List.singleton_append]

/-! ## Sigmas -/

/-- The sigmas of a part have the form between two texts that they have in the part alone. -/
def Keeps (before after part : List Char) : Prop :=
  ∀ u v, part = u ++ 'Σ' :: v → endsWord (before ++ u) (v ++ after) = endsWord u v

theorem length_lowerBetween (before before' after after' : List Char) (c : Char) :
    (lowerBetween before c after).length = (lowerBetween before' c after').length := by
  simp only [lowerBetween]
  split
  · rfl
  · split
    · rfl
    · split <;> rfl

theorem lowerBetween_sigma (before after : List Char) :
    lowerBetween before 'Σ' after = [if endsWord before after then 'ς' else 'σ'] := rfl

theorem lowerBetween_eq_iff {before before' after after' : List Char} {c : Char} :
    lowerBetween before c after = lowerBetween before' c after' ↔
      (c = 'Σ' → endsWord before after = endsWord before' after') := by
  by_cases hc : c = 'Σ'
  · rw [hc, lowerBetween_sigma, lowerBetween_sigma]
    cases endsWord before after <;> cases endsWord before' after' <;> decide
  · simp [lowerBetween, hc]

/-- The lower case of a part stands where the part stands if and only if the sigmas keep their form. -/
theorem lowerWithin_eq_iff {before after part : List Char} :
    lowerWithin before after part = lowerWithin [] [] part ↔ Keeps before after part := by
  -- the induction is on what is left of the part, after `read` has been compared
  suffices h : ∀ read, lowerWithin (before ++ read) after part = lowerWithin read [] part ↔
      ∀ u v, part = u ++ 'Σ' :: v →
        endsWord (before ++ read ++ u) (v ++ after) = endsWord (read ++ u) v by
    have h := h []
    rwa [List.append_nil] at h
  induction part with
  | nil =>
    intro read
    simp [lowerWithin]
  | cons c rest ih =>
    intro read
    have hlength := length_lowerBetween (before ++ read) read (rest ++ after) (rest ++ []) c
    rw [lowerWithin, lowerWithin, List.append_eq_append_iff_of_size_eq_left hlength, lowerBetween_eq_iff,
      List.append_assoc, ih (read ++ [c]), List.append_nil]
    constructor
    · rintro ⟨hfirst, hrest⟩ u v hsplit
      cases u with
      | nil =>
        obtain ⟨rfl, rfl⟩ := List.cons.inj hsplit
        simpa using hfirst rfl
      | cons d u =>
        obtain ⟨rfl, rfl⟩ := List.cons.inj hsplit
        simpa using hrest u v rfl
    · intro h
      refine ⟨?_, ?_⟩
      · rintro rfl
        simpa using h [] rest rfl
      · rintro u v rfl
        simpa using h (c :: u) v rfl

theorem length_lowerWithin (before before' after after' part : List Char) :
    (lowerWithin before after part).length = (lowerWithin before' after' part).length := by
  induction part generalizing before before' with
  | nil => rfl
  | cons c rest ih =>
    rw [lowerWithin, lowerWithin, List.length_append, List.length_append, ih (before ++ [c]) (before' ++ [c]),
      length_lowerBetween before before' (rest ++ after) (rest ++ after') c]

/-- The lower case of a part that keeps its sigmas is a part of the lower case of the text. -/
theorem Keeps.lowerWithin_infix {before after part : List Char} (h : Keeps before after part) :
    lowerWithin [] [] part <:+: lowerWithin [] [] (before ++ part ++ after) := by
  rw [List.append_assoc, lowerWithin_append, lowerWithin_append, List.append_nil, List.nil_append,
    List.append_nil, lowerWithin_eq_iff.mpr h]
  exact ⟨_, _, List.append_assoc _ _ _⟩

/-- A sigma is a sigma in lower case. -/
theorem exists_sigma {part : List Char} (h : 'Σ' ∈ part) (before after : List Char) :
    ∃ c ∈ lowerWithin before after part, c = 'σ' ∨ c = 'ς' := by
  obtain ⟨u, v, rfl⟩ := List.append_of_mem h
  rw [lowerWithin_append, lowerWithin, lowerBetween_sigma]
  refine ⟨_, List.mem_append_right _ (List.mem_append_left _ (List.mem_singleton_self _)), ?_⟩
  cases endsWord (before ++ u) (v ++ after) <;> simp

/-! ## Steady texts -/

/-- The sigmas of a text keep their form whatever is written around it. -/
def Steady (part : List Char) : Prop := ∀ before after, Keeps before after part

/-- A text without sigmas is steady. -/
theorem steady_of_notMem {part : List Char} (h : 'Σ' ∉ part) : Steady part := by
  rintro before after u v rfl
  simp at h

/-- Whether casing looks through all of a text. -/
def isIgnored (s : List Char) : Bool := s.all fun c => caseIgnorable.has c.toNat

theorem casedAhead_append (a b : List Char) :
    casedAhead (a ++ b) = if isIgnored a then casedAhead b else casedAhead a := by
  induction a with
  | nil => rfl
  | cons c a ih =>
    have hcons : isIgnored (c :: a) = (caseIgnorable.has c.toNat && isIgnored a) := rfl
    rw [List.cons_append, casedAhead, casedAhead, ih, hcons]
    cases caseIgnorable.has c.toNat <;> rfl

theorem casedAhead_of_isIgnored {s : List Char} (h : isIgnored s = true) : casedAhead s = false := by
  have hs := casedAhead_append s []
  rwa [List.append_nil, if_pos h] at hs

/-- A text is steady if its sigmas keep their form after a letter and before a letter. -/
theorem steady_of_keeps {part : List Char} {x y : Char} (hx : casedAhead [x] = true)
    (hy : casedAhead [y] = true) (hbefore : Keeps [x] [] part) (hafter : Keeps [] [y] part) :
    Steady part := by
  intro before after u v hsplit
  have hleft := hbefore u v hsplit
  have hright := hafter u v hsplit
  rw [List.append_nil] at hleft
  rw [List.nil_append] at hright
  simp only [endsWord, List.reverse_append, casedAhead_append, List.reverse_singleton, hx, hy]
    at hleft hright ⊢
  cases hv : casedAhead v with
  | true =>
    -- a letter after the sigma in the text itself: it never ends a word
    have hlooks : isIgnored v = false := by
      by_contra hignored
      rw [casedAhead_of_isIgnored (by simpa using hignored)] at hv
      contradiction
    simp [hlooks]
  | false =>
    have hlooks : isIgnored u.reverse = false := by
      by_contra hignored
      have hignored : isIgnored u.reverse = true := by simpa using hignored
      rw [if_pos hignored, hv, casedAhead_of_isIgnored hignored] at hleft
      contradiction
    cases hu : casedAhead u.reverse with
    | false => simp [hlooks]
    | true =>
      have hlooks' : isIgnored v = false := by
        by_contra hignored
        rw [if_pos (by simpa using hignored), hv, hu] at hright
        contradiction
      simp [hlooks, hlooks']

/-- A small letter: casing sees it, and its lower case is itself. -/
def IsSmall (x : Char) : Prop := casedAhead [x] = true ∧ ∀ before after, lowerBetween before x after = [x]

theorem exists_isSmall (o : Option Char) : ∃ x, IsSmall x ∧ o ≠ some x := by
  by_cases ho : o = some 'a'
  · exact ⟨'b', ⟨by decide, fun _ _ => rfl⟩, by rw [ho]; decide⟩
  · exact ⟨'a', ⟨by decide, fun _ _ => rfl⟩, ho⟩

theorem IsSmall.lowerWithin {x : Char} (hx : IsSmall x) (before after : List Char) :
    lowerWithin before after [x] = [x] := by
  rw [Text.lowerWithin, hx.2]
  rfl

/-- Only the lower case of a steady text is found in the lower case of every text around it. -/
theorem steady_of_infix {part : List Char}
    (h : ∀ before after, lowerWithin [] [] part <:+: lowerWithin [] [] (before ++ part ++ after)) :
    Steady part := by
  -- a letter that the lower case does not begin with, and one that it does not end in: then it can be
  -- found beside them in one place only
  obtain ⟨x, hx, hhead⟩ := exists_isSmall (lowerWithin [] [] part).head?
  obtain ⟨y, hy, hlast⟩ := exists_isSmall (lowerWithin [] [] part).getLast?
  have hkeeps : ∀ {before after}, lowerWithin [] [] part <:+: lowerWithin before after part →
      Keeps before after part := fun hpart =>
    lowerWithin_eq_iff.mp (hpart.eq_of_length (length_lowerWithin _ _ _ _ _)).symm
  refine steady_of_keeps hx.1 hy.1 (hkeeps ?_) (hkeeps ?_)
  · have hpart := h [x] []
    rw [List.append_nil, lowerWithin_append, hx.lowerWithin, List.singleton_append, List.infix_cons_iff,
      List.prefix_cons_iff] at hpart
    rcases hpart with (hnil | ⟨rest, hrest, -⟩) | hpart
    · rw [hnil]
      exact List.nil_infix
    · rw [hrest] at hhead
      exact absurd rfl hhead
    · exact hpart
  · have hpart := h [] [y]
    rw [List.nil_append, lowerWithin_append, hy.lowerWithin, List.infix_concat_iff,
      List.suffix_concat_iff] at hpart
    rcases hpart with (hnil | ⟨rest, hrest, -⟩) | hpart
    · rw [hnil]
      exact List.nil_infix
    · rw [hrest] at hlast
      exact absurd List.getLast?_concat hlast
    · exact hpart

end RouteAtlas.Text
