import Mathlib.Data.List.Basic
import RouteAtlas.Proofs.Occurrences

/-!
# Texts in which a word cannot start

A text is free of a word when no occurrence of the word starts inside it, whatever comes after. Free
texts can be put together, so that what lies between two declarations can be skipped piece by piece.
-/

namespace RouteAtlas.Text

/-- No occurrence of `word` starts inside `t`, whatever follows `t`. -/
def Free (word t : List Char) : Prop := ∀ rest, ∀ i < t.length, ¬ word <+: (t ++ rest).drop i

/-- A word that starts before a character that it does not hold also ends before it. -/
theorem prefix_of_prefix_append_cons {word a rest : List Char} {c : Char}
    (h : word <+: a ++ c :: rest) (hc : c ∉ word) : word <+: a := by
  rcases List.prefix_or_prefix_of_prefix h (List.prefix_append a (c :: rest)) with hpre | ⟨z, rfl⟩
  · exact hpre
  · cases z with
    | nil => simp
    | cons d z =>
      have hz := (List.prefix_append_right_inj a).mp h
      have hd : d = c := by
        obtain ⟨tail, htail⟩ := hz
        exact (List.cons.inj htail).1
      exact absurd (by simp [hd]) hc

namespace Free

variable {word a b t : List Char}

theorem nil (word : List Char) : Free word [] := by
  intro rest i hi
  exact absurd hi (by simp)

theorem append (ha : Free word a) (hb : Free word b) : Free word (a ++ b) := by
  intro rest i hi
  rw [List.append_assoc]
  by_cases hia : i < a.length
  · exact ha _ i hia
  · rw [List.drop_append, List.drop_eq_nil_of_le (by omega), List.nil_append]
    refine hb rest _ ?_
    rw [List.length_append] at hi
    omega

/-- A text without the first character of the word is free of it. -/
theorem of_notMem {w : Char} (h : w ∉ t) : Free (w :: word) t := by
  rintro rest i hi ⟨tail, htail⟩
  rw [List.drop_append_of_le_length (by omega), List.drop_eq_getElem_cons hi] at htail
  have hw : w = t[i] := (List.cons.inj htail).1
  exact h (hw ▸ List.getElem_mem hi)

/-- A text without the word is free of it when a character that the word does not hold follows. -/
theorem append_of_stop (ha : ¬ word <:+: a) (hb : Free word b)
    (hstop : ∃ c ∈ b.head?, c ∉ word) : Free word (a ++ b) := by
  intro rest i hi hpre
  rw [List.append_assoc] at hpre
  by_cases hia : i < a.length
  · obtain ⟨c, hc, hword⟩ := hstop
    obtain ⟨b', rfl⟩ : ∃ b', b = c :: b' := by
      cases b with
      | nil => exact absurd hc (by simp)
      | cons d b' => exact ⟨b', by rw [Option.some.inj hc]⟩
    rw [List.drop_append_of_le_length (by omega), List.cons_append] at hpre
    have hdrop := prefix_of_prefix_append_cons hpre hword
    exact ha (hdrop.isInfix.trans (List.drop_suffix i a).isInfix)
  · rw [List.drop_append, List.drop_eq_nil_of_le (by omega), List.nil_append] at hpre
    refine hb rest _ ?_ hpre
    rw [List.length_append] at hi
    omega

/-- The same with a run of characters that the word does not hold in between. -/
theorem append_run_of_stop {w : Char} {run : List Char} (ha : ¬ w :: word <:+: a)
    (hrun : ∀ c ∈ run, c ∉ w :: word) (hb : Free (w :: word) b)
    (hstop : ∃ c ∈ b.head?, c ∉ w :: word) : Free (w :: word) (a ++ (run ++ b)) := by
  have hfree : Free (w :: word) run := of_notMem fun hw => hrun w hw (by simp)
  refine append_of_stop ha (hfree.append hb) ?_
  cases run with
  | nil => exact hstop
  | cons c run => exact ⟨c, rfl, hrun c (by simp)⟩

end Free

/-- A text that is free of the word with which everything that is read starts can be skipped. -/
theorem occurrences_append_of_free {α : Type} {read? : Recogniser α} {consumes : read?.Consumes}
    {word t : List Char} (hword : ∀ s, ¬ word <+: s → read? s = none) (ht : Free word t)
    (rest : List Char) : occurrences read? consumes (t ++ rest) = occurrences read? consumes rest :=
  occurrences_append fun i hi => hword _ (ht rest i hi)

end RouteAtlas.Text
