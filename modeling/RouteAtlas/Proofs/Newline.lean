import RouteAtlas.Proofs.Utf8
import RouteAtlas.Source

/-!
# Line ends

The line ends of a text are unified in one pass over it, which comes to two replacements one after the
other: first of the pairs of carriage return and line feed, then of the carriage returns that remain
(`Text.unifyNewlines_eq`).
-/

namespace RouteAtlas

namespace Text

/-- The text with each pair of carriage return and line feed written as one line feed. -/
def withoutPairs : List Char → List Char
  | [] => []
  | '\r' :: '\n' :: rest => '\n' :: withoutPairs rest
  | c :: rest => c :: withoutPairs rest

/-- The text with each carriage return written as a line feed. -/
def withoutReturns (s : List Char) : List Char := s.map fun c => if c = '\r' then '\n' else c

/-- The text with each line feed written as another line end. -/
def withLineEnd (ending s : List Char) : List Char :=
  s.flatMap fun c => if c = '\n' then ending else [c]

theorem withoutReturns_append (s t : List Char) :
    withoutReturns (s ++ t) = withoutReturns s ++ withoutReturns t := List.map_append

theorem withLineEnd_cons (ending : List Char) (c : Char) (s : List Char) :
    withLineEnd ending (c :: s) = (if c = '\n' then ending else [c]) ++ withLineEnd ending s :=
  List.flatMap_cons

theorem unifyNewlinesOnto_eq (s done : List Char) :
    unifyNewlinesOnto s done = done.reverse ++ withoutReturns (withoutPairs s) := by
  induction s, done using unifyNewlinesOnto.induct with
  | case1 done => simp [unifyNewlinesOnto, withoutPairs, withoutReturns]
  | case2 done rest ih => simp [unifyNewlinesOnto, withoutPairs, withoutReturns, ih]
  | case3 done rest hfeed ih =>
    rw [unifyNewlinesOnto, withoutPairs, ih]
    · simp [withoutReturns]
    · exact fun rest' _ h => hfeed rest' h
    · exact hfeed
  | case4 c rest done hpair hreturn ih =>
    rw [unifyNewlinesOnto, withoutPairs, ih]
    · have hc : c ≠ '\r' := fun h => hreturn h
      simp [withoutReturns, hc]
    · exact hpair
    · exact hpair
    · exact hreturn

theorem unifyNewlines_eq (s : List Char) : unifyNewlines s = withoutReturns (withoutPairs s) :=
  unifyNewlinesOnto_eq s []

theorem notMem_withoutReturns (s : List Char) : '\r' ∉ withoutReturns s := by
  intro h
  obtain ⟨c, -, hc⟩ := List.mem_map.mp h
  split_ifs at hc with hreturn
  · exact absurd hc (by decide)
  · exact hreturn hc

theorem withoutPairs_cons {c : Char} (hc : c ≠ '\r') (s : List Char) :
    withoutPairs (c :: s) = c :: withoutPairs s := by
  rw [withoutPairs]
  exact fun rest h _ => hc h

/-- Any other character stays where it is. -/
theorem unifyNewlines_cons {c : Char} (hc : c ≠ '\r') (s : List Char) :
    unifyNewlines (c :: s) = c :: unifyNewlines s := by
  rw [unifyNewlines_eq, unifyNewlines_eq, withoutPairs_cons hc]
  simp [withoutReturns, hc]

/-- A pair becomes one line feed. -/
theorem unifyNewlines_pair (s : List Char) :
    unifyNewlines ('\r' :: '\n' :: s) = '\n' :: unifyNewlines s := by
  rw [unifyNewlines_eq, unifyNewlines_eq, withoutPairs]
  simp [withoutReturns]

/-- Without a carriage return there is no line end to write anew. -/
theorem unifyNewlines_of_notMem {s : List Char} (hs : '\r' ∉ s) : unifyNewlines s = s := by
  induction s with
  | nil => rfl
  | cons c s ih =>
    obtain ⟨hc, hs⟩ := List.ne_and_not_mem_of_not_mem_cons hs
    rw [unifyNewlines_cons hc.symm, ih hs]

theorem withoutPairs_of_notMem {s : List Char} (hs : '\n' ∉ s) : withoutPairs s = s := by
  induction s using withoutPairs.induct with
  | case1 => rfl
  | case2 rest => exact absurd (by simp) hs
  | case3 c rest hpair ih =>
    rw [withoutPairs, ih fun h => hs (List.mem_cons_of_mem c h)]
    exact hpair

theorem withoutReturns_withLineEnd {s : List Char} (hs : '\r' ∉ s) :
    withoutReturns (withLineEnd ['\r'] s) = s := by
  induction s with
  | nil => rfl
  | cons c s ih =>
    obtain ⟨hc, hs⟩ := List.ne_and_not_mem_of_not_mem_cons hs
    rw [withLineEnd_cons, withoutReturns_append, ih hs]
    by_cases hfeed : c = '\n'
    · simp [withoutReturns, hfeed]
    · simp [withoutReturns, hfeed, hc.symm]

theorem notMem_withLineEnd (s : List Char) : '\n' ∉ withLineEnd ['\r'] s := by
  intro h
  obtain ⟨c, -, hc⟩ := List.mem_flatMap.mp h
  split_ifs at hc with hfeed
  · exact absurd hc (by decide)
  · exact hfeed (List.mem_singleton.mp hc).symm

/-- The line ends of a text can be written in any of the three ways. -/
theorem unifyNewlines_withLineEnd {ending s : List Char}
    (hending : ending ∈ [['\n'], ['\r', '\n'], ['\r']]) (hs : '\r' ∉ s) :
    unifyNewlines (withLineEnd ending s) = s := by
  simp only [List.mem_cons, List.not_mem_nil, or_false] at hending
  rcases hending with rfl | rfl | rfl
  · have hsame : withLineEnd ['\n'] s = s := by
      refine (List.flatMap_congr fun c _ => ?_).trans (List.flatMap_singleton' s)
      split_ifs with hfeed
      · rw [hfeed]
      · rfl
    rw [hsame, unifyNewlines_of_notMem hs]
  · induction s with
    | nil => rfl
    | cons c s ih =>
      obtain ⟨hc, hs⟩ := List.ne_and_not_mem_of_not_mem_cons hs
      rw [withLineEnd_cons]
      by_cases hfeed : c = '\n'
      · rw [if_pos hfeed, hfeed, List.cons_append, List.singleton_append, unifyNewlines_pair, ih hs]
      · rw [if_neg hfeed, List.singleton_append, unifyNewlines_cons hc.symm, ih hs]
  · rw [unifyNewlines_eq, withoutPairs_of_notMem (notMem_withLineEnd s),
      withoutReturns_withLineEnd hs]

end Text

namespace Source

/-- The text of a file with the bytes of a text is the text with its line ends unified. -/
theorem decode_bytes (s : String) :
    decode s.toUTF8.toList = .ok (String.ofList (Text.unifyNewlines s.toList)) := by
  rw [decode, Text.Utf8.toList_toUTF8, Text.Utf8.decode_encode]

/-- Text without carriage returns comes out of a file as it was. -/
theorem decode_of_notMem {s : String} (hs : '\r' ∉ s.toList) : decode s.toUTF8.toList = .ok s := by
  rw [decode_bytes, Text.unifyNewlines_of_notMem hs, String.ofList_toList]

end Source

end RouteAtlas
