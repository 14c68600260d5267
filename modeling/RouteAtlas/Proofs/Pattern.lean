import RouteAtlas.Proofs.Lexeme
import RouteAtlas.Urlconf.Shape

/-!
# Patterns that leave no choice

Most patterns of this library match a text in one way at most, and the reader of the same lexeme
finds that way (`Reads`). Trying all lengths of a run is then the same as taking the longest: a
shorter run leaves a character of its class, and what follows the run refuses it
(`ways_most_seq`).
-/

namespace RouteAtlas.Pattern

open Urlconf (word? wordAfterBlanks? quotedText? isQuote)
open Text (isBlank skipBlanks)

/-- The ways of a pattern that matches in at most one way, given by what it keeps and the rest. -/
def oneWay (found : Option (List (List Char) × List Char)) : List Way :=
  found.toList.map fun p => ⟨p.1, p.2⟩

/-- A pattern matches in the way that a reader finds and in no other. -/
def Reads (p : Pattern) (read? : Text.Recogniser (List (List Char))) : Prop :=
  ∀ s, p.ways s = oneWay (read? s)

/-- A way with more texts kept before it. -/
def Way.after (kept : List (List Char)) (w : Way) : Way := ⟨kept ++ w.kept, w.rest⟩

@[simp]
theorem oneWay_none : oneWay none = [] := rfl

@[simp]
theorem oneWay_some (found : List (List Char) × List Char) :
    oneWay (Option.some found) = [⟨found.1, found.2⟩] := rfl

@[simp]
theorem ways_nothing (s : List Char) : nothing.ways s = [⟨[], s⟩] := rfl

theorem ways_seq (p q : Pattern) (s : List Char) :
    (seq p q).ways s = (p.ways s).flatMap fun w => (q.ways w.rest).map (Way.after w.kept) := rfl

theorem ways_seq_congr {p q q' : Pattern} (h : ∀ s, q.ways s = q'.ways s) (s : List Char) :
    (seq p q).ways s = (seq p q').ways s := by
  simp only [ways_seq, h]

theorem ways_one_cons (isIn : Char → Bool) (c : Char) (s : List Char) :
    (one isIn).ways (c :: s) = if isIn c then [⟨[], s⟩] else [] := rfl

/-- Nothing follows a pattern that does not match. -/
theorem Reads.ways_seq_of_none {p q : Pattern} {read? : Text.Recogniser (List (List Char))}
    {s : List Char} (h : Reads p read?) (hs : read? s = none) : (seq p q).ways s = [] := by
  rw [ways_seq, h s, hs, oneWay_none, List.flatMap_nil]

/-- A pattern that leaves no choice, followed by another. -/
theorem Reads.ways_seq_of_some {p q : Pattern} {read? : Text.Recogniser (List (List Char))}
    {s : List Char} {found : List (List Char) × List Char} (h : Reads p read?)
    (hs : read? s = Option.some found) :
    (seq p q).ways s = (q.ways found.2).map (Way.after found.1) := by
  rw [ways_seq, h s, hs, oneWay_some, List.flatMap_singleton]

/-- A sequence can be cut anywhere. -/
theorem ways_inTurn_append (ps qs : List Pattern) (s : List Char) :
    (inTurn (ps ++ qs)).ways s = (seq (inTurn ps) (inTurn qs)).ways s := by
  induction ps generalizing s with
  | nil =>
    have h : inTurn [] = nothing := rfl
    rw [List.nil_append, ways_seq, h, ways_nothing, List.flatMap_singleton]
    exact (List.map_id _).symm
  | cons p ps ih =>
    have h : ∀ ps, inTurn (p :: ps) = seq p (inTurn ps) := fun _ => rfl
    simp only [List.cons_append, h, ways_seq, ih, List.flatMap_assoc, List.map_flatMap,
      List.flatMap_map, List.map_map]
    congr 1
    funext w
    congr 1
    funext v
    congr 1
    funext u
    simp [Way.after]

/-- Reads with one reader and then with another. -/
def andThen (r r' : Text.Recogniser (List (List Char))) : Text.Recogniser (List (List Char)) :=
  fun s => (r s).bind fun x => (r' x.2).map fun y => (x.1 ++ y.1, y.2)

/-- Patterns that leave no choice leave none when they follow each other. -/
theorem Reads.seq {p q : Pattern} {r r' : Text.Recogniser (List (List Char))} (hp : Reads p r)
    (hq : Reads q r') : Reads (seq p q) (andThen r r') := by
  intro s
  rw [andThen]
  cases hr : r s with
  | none => exact hp.ways_seq_of_none hr
  | some x =>
    rw [hp.ways_seq_of_some hr, Option.bind_some, hq x.2]
    cases r' x.2 with
    | none => rfl
    | some y => rfl

theorem reads_nothing : Reads nothing fun s => Option.some ([], s) := fun _ => rfl

theorem andThen_nothing (r : Text.Recogniser (List (List Char))) :
    andThen r (fun s => Option.some ([], s)) = r := by
  funext s
  cases h : r s <;> simp [andThen, h]

/-- A sequence that ends in a pattern that leaves no choice. -/
theorem Reads.inTurn_singleton {p : Pattern} {r : Text.Recogniser (List (List Char))}
    (h : Reads p r) : Reads (inTurn [p]) r := by
  have hseq := h.seq reads_nothing
  rwa [andThen_nothing] at hseq

/-! ## Runs -/

/-- What remains after the longest run comes first. -/
theorem restsAfter_eq_cons (isIn : Char → Bool) (s : List Char) :
    ∃ shorter, restsAfter isIn s = s.dropWhile isIn :: shorter := by
  induction s with
  | nil => exact ⟨[], rfl⟩
  | cons c s ih =>
    rw [restsAfter, List.dropWhile_cons]
    split
    · obtain ⟨shorter, h⟩ := ih
      exact ⟨shorter ++ [c :: s], by rw [h, List.cons_append]⟩
    · exact ⟨[], rfl⟩

/-- What remains after a run is the text without some characters of the class. -/
theorem exists_append_of_mem_restsAfter {isIn : Char → Bool} {s rest : List Char}
    (h : rest ∈ restsAfter isIn s) : ∃ run, (∀ c ∈ run, isIn c = true) ∧ s = run ++ rest := by
  induction s with
  | nil =>
    obtain rfl : rest = [] := by simpa [restsAfter] using h
    exact ⟨[], by simp, rfl⟩
  | cons c s ih =>
    rw [restsAfter] at h
    split at h
    · rename_i hc
      rcases List.mem_append.mp h with h | h
      · obtain ⟨run, hrun, rfl⟩ := ih h
        exact ⟨c :: run, by simpa [hc] using hrun, rfl⟩
      · obtain rfl : rest = c :: s := by simpa using h
        exact ⟨[], by simp, rfl⟩
    · obtain rfl : rest = c :: s := by simpa using h
      exact ⟨[], by simp, rfl⟩

/-- The empty run is among the runs. -/
theorem self_mem_restsAfter (isIn : Char → Bool) (s : List Char) : s ∈ restsAfter isIn s := by
  cases s with
  | nil => simp [restsAfter]
  | cons c s =>
    rw [restsAfter]
    split <;> simp

theorem ways_most (isIn : Char → Bool) (s : List Char) :
    (most isIn).ways s = (restsAfter isIn s).map fun rest => ⟨[], rest⟩ := rfl

/-- A run that a pattern follows, over all lengths of the run. -/
theorem ways_most_seq_eq_flatMap (isIn : Char → Bool) (q : Pattern) (s : List Char) :
    (seq (most isIn) q).ways s = (restsAfter isIn s).flatMap q.ways := by
  rw [ways_seq, ways_most, List.flatMap_map]
  congr 1
  funext rest
  exact List.map_id _

/-- Where the characters of a class are refused, only the longest run can come before. -/
theorem flatMap_restsAfter {β : Type} {isIn : Char → Bool} {f : List Char → List β}
    (hf : ∀ c s, isIn c = true → f (c :: s) = []) (s : List Char) :
    (restsAfter isIn s).flatMap f = f (s.dropWhile isIn) := by
  induction s with
  | nil => simp [restsAfter]
  | cons c s ih =>
    rw [restsAfter, List.dropWhile_cons]
    split
    · rename_i hc
      rw [List.flatMap_append, ih, List.flatMap_singleton, hf c s hc, List.append_nil]
    · exact List.flatMap_singleton ..

/-- Where a pattern refuses the characters of a class, only the longest run can stand before it. -/
theorem ways_most_seq {isIn : Char → Bool} {q : Pattern}
    (hq : ∀ c s, isIn c = true → q.ways (c :: s) = []) (s : List Char) :
    (seq (most isIn) q).ways s = q.ways (s.dropWhile isIn) := by
  rw [ways_most_seq_eq_flatMap, flatMap_restsAfter hq]

/-- A shortest run that a pattern follows is empty where the text ends. -/
theorem ways_fewest_seq_nil (isIn : Char → Bool) (q : Pattern) :
    (seq (fewest isIn) q).ways [] = q.ways [] := by
  rw [ways_seq, Pattern.ways, restsAfter, List.reverse_singleton, List.map_singleton,
    List.flatMap_singleton]
  exact List.map_id _

/-- A shortest run that a pattern follows is tried from the empty run upwards. -/
theorem ways_fewest_seq_cons (isIn : Char → Bool) (q : Pattern) (c : Char) (s : List Char) :
    (seq (fewest isIn) q).ways (c :: s) =
      q.ways (c :: s) ++ if isIn c then (seq (fewest isIn) q).ways s else [] := by
  have hways : ∀ s, (seq (fewest isIn) q).ways s = (restsAfter isIn s).reverse.flatMap q.ways := by
    intro s
    rw [ways_seq, Pattern.ways, List.flatMap_map]
    congr 1
    funext rest
    exact List.map_id _
  rw [hways, hways, restsAfter]
  split
  · rw [List.reverse_append, List.reverse_singleton, List.singleton_append, List.flatMap_cons]
  · rw [List.reverse_singleton, List.flatMap_singleton, List.append_nil]

theorem ways_some_cons (isIn : Char → Bool) (c : Char) (s : List Char) :
    (Pattern.some isIn).ways (c :: s) =
      if isIn c then (restsAfter isIn s).map fun rest => ⟨[], rest⟩ else [] := by
  rw [Pattern.some, ways_seq, ways_one_cons]
  split
  · rw [List.flatMap_singleton]
    exact List.map_id _
  · rfl

theorem ways_some_nil (isIn : Char → Bool) : (Pattern.some isIn).ways [] = [] := rfl

/-- Where every way of beginning leads to one preferred way or to none, that one is preferred. -/
theorem head?_flatMap_of_forall {β : Type} {l : List (List Char)} {f : List Char → List β} {b : β}
    (hall : ∀ x ∈ l, f x = [] ∨ (f x).head? = Option.some b) (hsome : ∃ x ∈ l, f x ≠ []) :
    (l.flatMap f).head? = Option.some b := by
  induction l with
  | nil => exact absurd hsome (by simp)
  | cons x l ih =>
    rw [List.flatMap_cons]
    rcases hall x (by simp) with hx | hx
    · rw [hx, List.nil_append]
      refine ih (fun y hy => hall y (List.mem_cons_of_mem _ hy)) ?_
      obtain ⟨y, hy, hne⟩ := hsome
      rcases List.mem_cons.mp hy with rfl | hy
      · exact absurd hx hne
      · exact ⟨y, hy, hne⟩
    · rw [List.head?_append, hx, Option.some_or]

/-! ## The lexemes as patterns -/

theorem reads_one (c : Char) :
    Reads (one (· == c)) fun s => (word? [c] s).map fun rest => ([], rest) := by
  intro s
  cases s with
  | nil => rfl
  | cons d s =>
    rw [ways_one_cons]
    by_cases h : c = d
    · simp [word?, h]
    · simp [word?, h, Ne.symm h]

theorem reads_word (w : List Char) : Reads (word w) fun s => (word? w s).map fun rest => ([], rest) := by
  induction w with
  | nil => intro s; cases s <;> rfl
  | cons c w ih =>
    have h := (reads_one c).seq ih
    intro s
    refine (h s).trans ?_
    congr 1
    cases s with
    | nil => rfl
    | cons d s => by_cases hcd : c = d <;> simp [andThen, word?, hcd, Function.comp_def]

/-- Blanks before a pattern that refuses them are skipped. -/
theorem Reads.blanks {p : Pattern} {r : Text.Recogniser (List (List Char))} (h : Reads p r)
    (hrefuse : ∀ c s, isBlank c = true → r (c :: s) = none) :
    Reads (.seq Urlconf.Shape.blanks p) fun s => r (skipBlanks s) := by
  intro s
  have hways : ∀ c s, isBlank c = true → p.ways (c :: s) = [] := fun c s hc => by
    rw [h, hrefuse c s hc, oneWay_none]
  exact (ways_most_seq hways s).trans (h _)

/-- A word that starts with no blank refuses blanks. -/
theorem word?_of_blank {w c : Char} {word s : List Char} (hw : isBlank w = false)
    (hc : isBlank c = true) : word? (w :: word) (c :: s) = none := by
  have hne : w ≠ c := by
    rintro rfl
    rw [hw] at hc
    exact absurd hc (by simp)
  simp [word?, hne]

/-- A quoted text refuses blanks. -/
theorem quotedText?_of_blank {c : Char} {s : List Char} (hc : isBlank c = true) :
    quotedText? (c :: s) = none := by
  cases hq : isQuote c with
  | false => simp [quotedText?, hq]
  | true => exact absurd hc (by simp [(Urlconf.isQuote_iff.mp hq).not_blank])

/-- A character that is no blank, after any blanks. -/
theorem reads_mark {c : Char} (hc : isBlank c = false) :
    Reads (Urlconf.Shape.mark c) fun s => (wordAfterBlanks? [c] s).map fun rest => ([], rest) :=
  Reads.blanks (reads_word [c]) fun d s hd => by rw [word?_of_blank hc hd]; rfl

/-- A character of a class that is refused by what follows, or any longer run of it, is kept whole. -/
theorem ways_keep_some_seq {isIn : Char → Bool} {q : Pattern}
    (hq : ∀ c s, isIn c = true → q.ways (c :: s) = []) {c : Char} (hc : isIn c = true)
    (s : List Char) :
    (seq (keep (Pattern.some isIn)) q).ways (c :: s) =
      (q.ways (s.dropWhile isIn)).map (Way.after [c :: s.takeWhile isIn]) := by
  let kept (rest : List Char) : List Char := (c :: s).take ((c :: s).length - rest.length)
  have hways : (seq (keep (Pattern.some isIn)) q).ways (c :: s) =
      (restsAfter isIn s).flatMap fun rest => (q.ways rest).map (Way.after [kept rest]) := by
    rw [ways_seq, Pattern.ways, ways_some_cons, if_pos hc, List.map_map, List.flatMap_map]
    rfl
  have hkept : kept (s.dropWhile isIn) = c :: s.takeWhile isIn := by
    have hs := List.takeWhile_append_dropWhile (p := isIn) (l := s)
    have hlen := congrArg List.length hs
    have hsub : (c :: s).length - (s.dropWhile isIn).length = (c :: s.takeWhile isIn).length := by
      simp only [List.length_append, List.length_cons] at hlen ⊢
      omega
    calc kept (s.dropWhile isIn) = (c :: s).take (c :: s.takeWhile isIn).length := by rw [← hsub]
      _ = (c :: s.takeWhile isIn ++ s.dropWhile isIn).take (c :: s.takeWhile isIn).length := by
        rw [List.cons_append, hs]
      _ = c :: s.takeWhile isIn := List.take_left
  rw [hways, flatMap_restsAfter fun d t hd => by rw [hq d t hd, List.map_nil], hkept]

theorem ways_quote_nil : Urlconf.Shape.quote.ways [] = [] := rfl

theorem ways_quote_cons (q : Char) (s : List Char) :
    Urlconf.Shape.quote.ways (q :: s) = if isQuote q then [⟨[], s⟩] else [] := rfl

/-- A quoted text leaves no choice: what is between the quotes cannot be shorter. -/
theorem reads_quoted :
    Reads Urlconf.Shape.quoted fun s => (quotedText? s).map fun p => ([p.1], p.2) := by
  intro s
  have hrefuse : ∀ c s, (!isQuote c) = true → (inTurn [Urlconf.Shape.quote]).ways (c :: s) = [] := by
    intro c s hc
    have hc' : isQuote c = false := by simpa using hc
    simp [inTurn, ways_seq, ways_quote_cons, hc']
  have hshape : Urlconf.Shape.quoted = seq Urlconf.Shape.quote
      (seq (keep (Pattern.some (!isQuote ·))) (inTurn [Urlconf.Shape.quote])) := rfl
  rw [hshape, ways_seq]
  cases s with
  | nil => rfl
  | cons q s =>
    rw [ways_quote_cons]
    cases hq : isQuote q with
    | false => simp [quotedText?, hq]
    | true =>
      rw [if_pos rfl, List.flatMap_singleton]
      cases s with
      | nil => simp [quotedText?, Pattern.ways, ways_some_nil]
      | cons c s =>
        cases hc : isQuote c with
        | true => simp [quotedText?, hc, Pattern.ways, ways_some_cons]
        | false =>
          have hc' : (!isQuote c) = true := by simp [hc]
          dsimp only
          rw [ways_keep_some_seq hrefuse hc']
          have hstop := Urlconf.head?_dropWhile_stop (!isQuote ·) s
          cases hd : s.dropWhile (!isQuote ·) with
          | nil => simp [quotedText?, hq, hc, hd, inTurn, ways_seq, ways_quote_nil]
          | cons q' rest =>
            have hq' : isQuote q' = true := by
              have := hstop q' (by rw [hd]; rfl)
              simpa using this
            simp [quotedText?, hq, hc, hd, inTurn, ways_seq, ways_quote_cons, hq', Way.after]

end RouteAtlas.Pattern
