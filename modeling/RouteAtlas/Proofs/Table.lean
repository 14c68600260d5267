import Mathlib.Data.List.Nodup
import RouteAtlas.Table

/-!
# Binding many pairs

What a table holds after the pairs of a list have been bound in turn: each key has the value of its
last pair, and the keys stand in the order in which they first came.
-/

namespace RouteAtlas

/-- A list without repetitions has none to drop. -/
theorem eraseDups_of_nodup {κ : Type} [DecidableEq κ] {l : List κ} (h : l.Nodup) :
    l.eraseDups = l := by
  induction l with
  | nil => rfl
  | cons k l ih =>
    obtain ⟨hk, hl⟩ := List.nodup_cons.mp h
    have hfilter : (l.filter fun x => !x == k) = l := by
      refine List.filter_eq_self.mpr fun x hx => ?_
      have hne : x ≠ k := fun hxk => hk (hxk ▸ hx)
      simpa using hne
    rw [List.eraseDups_cons, hfilter, ih hl]

namespace Table

variable {κ α : Type} [DecidableEq κ]

/-- The value of the last pair with key `k`. -/
def lastValue (k : κ) (pairs : List (κ × α)) : Option α :=
  ((pairs.filter fun p => p.1 = k).getLast?).map Prod.snd

theorem lastValue_cons (k : κ) (p : κ × α) (pairs : List (κ × α)) :
    lastValue k (p :: pairs) = (lastValue k pairs).or (if p.1 = k then some p.2 else none) := by
  by_cases h : p.1 = k
  · rw [lastValue, List.filter_cons_of_pos (by simpa using h), List.getLast?_cons, if_pos h, lastValue]
    cases (pairs.filter fun p => p.1 = k).getLast? <;> rfl
  · rw [lastValue, List.filter_cons_of_neg (by simpa using h), if_neg h, Option.or_none, lastValue]

theorem putAll_cons (t : Table κ α) (p : κ × α) (pairs : List (κ × α)) :
    t.putAll (p :: pairs) = (t.put p.1 p.2).putAll pairs := rfl

/-- The last pair of a key wins, and keys without a pair keep their value. -/
theorem get?_putAll (t : Table κ α) (pairs : List (κ × α)) (k : κ) :
    (t.putAll pairs).get? k = (lastValue k pairs).or (t.get? k) := by
  induction pairs generalizing t with
  | nil => rfl
  | cons p pairs ih =>
    rw [putAll_cons, ih, lastValue_cons, get?_put, Option.or_assoc]
    by_cases h : p.1 = k <;> simp [h]

theorem keys_put (t : Table κ α) (k : κ) (a : α) :
    (t.put k a).keys = if k ∈ t.keys then t.keys else t.keys ++ [k] := by
  suffices h : ∀ l : List (κ × α), (assign k a l).map Prod.fst =
      if k ∈ l.map Prod.fst then l.map Prod.fst else l.map Prod.fst ++ [k] from h t.entries
  intro l
  induction l with
  | nil => simp [assign]
  | cons p l ih =>
    by_cases hp : p.1 = k
    · simp [assign, hp]
    · rw [assign, if_neg hp, List.map_cons, ih, List.map_cons]
      by_cases hk : k ∈ l.map Prod.fst
      · rw [if_pos hk, if_pos (List.mem_cons_of_mem _ hk)]
      · have hk' : k ∉ p.1 :: l.map Prod.fst := by
          rw [List.mem_cons, not_or]
          exact ⟨Ne.symm hp, hk⟩
        rw [if_neg hk, if_neg hk', List.cons_append]

/-- The keys stay where they are, and new ones follow in the order in which they first came. -/
theorem keys_putAll (t : Table κ α) (pairs : List (κ × α)) :
    (t.putAll pairs).keys = (t.keys ++ pairs.map Prod.fst).eraseDups := by
  induction pairs generalizing t with
  | nil =>
    rw [List.map_nil, List.append_nil]
    exact (eraseDups_of_nodup t.distinct).symm
  | cons p pairs ih =>
    rw [putAll_cons, ih, keys_put, List.map_cons]
    by_cases hp : p.1 ∈ t.keys
    · rw [if_pos hp, List.eraseDups_append, List.eraseDups_append]
      simp [List.removeAll, hp]
    · rw [if_neg hp, List.append_assoc, List.singleton_append]

/-- The keys of a table of pairs, in the order in which they first came. -/
theorem keys_ofList (pairs : List (κ × α)) :
    (ofList pairs).keys = (pairs.map Prod.fst).eraseDups :=
  keys_putAll empty pairs

/-- The values of a table of pairs. -/
theorem get?_ofList (pairs : List (κ × α)) (k : κ) : (ofList pairs).get? k = lastValue k pairs := by
  rw [ofList, get?_putAll, get?_empty, Option.or_none]

theorem putAll_append (t : Table κ α) (pairs more : List (κ × α)) :
    t.putAll (pairs ++ more) = (t.putAll pairs).putAll more :=
  List.foldl_append

/-! ## Entries and last pairs -/

theorem lookup_filter_ne (k x : κ) (l : List (κ × α)) :
    lookup x (l.filter fun p => p.1 ≠ k) = if x = k then none else lookup x l := by
  induction l with
  | nil => simp [lookup]
  | cons p l ih =>
    by_cases hp : p.1 = k
    · rw [List.filter_cons_of_neg (by simpa using hp), ih, lookup]
      by_cases hx : x = k
      · rw [if_pos hx, if_pos hx]
      · rw [if_neg hx, if_neg hx, if_neg fun hpx => hx (hpx.symm.trans hp)]
    · rw [List.filter_cons_of_pos (by simpa using hp), lookup, lookup, ih]
      by_cases hpx : p.1 = x
      · rw [if_pos hpx, if_pos hpx, if_neg fun hx => hp (hpx.trans hx)]
      · rw [if_neg hpx, if_neg hpx]

theorem mem_of_lookup {k : κ} {a : α} {l : List (κ × α)} (h : lookup k l = some a) : (k, a) ∈ l := by
  induction l with
  | nil => exact absurd h (by simp [lookup])
  | cons p l ih =>
    rw [lookup] at h
    split at h
    · rename_i hk
      cases h
      exact hk ▸ List.mem_cons_self
    · exact List.mem_cons_of_mem _ (ih h)

theorem mem_assign {k : κ} {a : α} {l : List (κ × α)} {p : κ × α} (h : p ∈ assign k a l) :
    p = (k, a) ∨ p ∈ l := by
  induction l with
  | nil => exact Or.inl (List.mem_singleton.mp h)
  | cons p' l ih =>
    rw [assign] at h
    split at h
    · rcases List.mem_cons.mp h with rfl | h
      · exact Or.inl rfl
      · exact Or.inr (List.mem_cons_of_mem _ h)
    · rcases List.mem_cons.mp h with rfl | h
      · exact Or.inr List.mem_cons_self
      · exact (ih h).imp_right (List.mem_cons_of_mem _)

/-- A new key comes last. -/
theorem assign_of_notMem {k : κ} {a : α} {l : List (κ × α)} (h : k ∉ l.map Prod.fst) :
    assign k a l = l ++ [(k, a)] := by
  induction l with
  | nil => rfl
  | cons p l ih =>
    rw [List.map_cons, List.mem_cons, not_or] at h
    rw [assign, if_neg (Ne.symm h.1), ih h.2]
    rfl

omit [DecidableEq κ] in
theorem notMem_of_nodup {l rest : List (κ × α)} {k : κ} {a : α}
    (h : ((l ++ (k, a) :: rest).map Prod.fst).Nodup) : k ∉ l.map Prod.fst := by
  rw [List.map_append, List.map_cons, List.nodup_append] at h
  intro hk
  exact h.2.2 k hk k List.mem_cons_self rfl

theorem lookup_eq_some_iff {l : List (κ × α)} (h : (l.map Prod.fst).Nodup) {k : κ} {a : α} :
    lookup k l = some a ↔ (k, a) ∈ l := by
  refine ⟨mem_of_lookup, fun hmem => ?_⟩
  induction l with
  | nil => exact absurd hmem List.not_mem_nil
  | cons p l ih =>
    obtain ⟨hp, hl⟩ := List.nodup_cons.mp h
    rw [lookup]
    rcases List.mem_cons.mp hmem with rfl | hmem
    · exact if_pos rfl
    · have hne : p.1 ≠ k := fun hk => hp (List.mem_map.mpr ⟨_, hmem, hk.symm⟩)
      rw [if_neg hne]
      exact ih hl hmem

theorem get?_eq_some_iff {t : Table κ α} {k : κ} {a : α} :
    t.get? k = some a ↔ (k, a) ∈ t.entries :=
  lookup_eq_some_iff t.distinct

theorem lastValue_append (k : κ) (pairs more : List (κ × α)) :
    lastValue k (pairs ++ more) = (lastValue k more).or (lastValue k pairs) := by
  induction pairs with
  | nil =>
    rw [List.nil_append]
    exact (Option.or_none).symm
  | cons p pairs ih => rw [List.cons_append, lastValue_cons, lastValue_cons, ih, Option.or_assoc]

theorem lastValue_eq_none_iff {k : κ} {pairs : List (κ × α)} :
    lastValue k pairs = none ↔ ∀ p ∈ pairs, p.1 ≠ k := by
  simp [lastValue]

/-- The last pair of a key has no pair of that key after it. -/
theorem lastValue_eq_some_iff {k : κ} {a : α} {pairs : List (κ × α)} :
    lastValue k pairs = some a ↔
      ∃ before after, pairs = before ++ (k, a) :: after ∧ ∀ p ∈ after, p.1 ≠ k := by
  constructor
  · intro h
    induction pairs with
    | nil => exact absurd h (by simp [lastValue])
    | cons p pairs ih =>
      rw [lastValue_cons] at h
      cases hrest : lastValue k pairs with
      | some b =>
        rw [hrest, Option.some_or] at h
        obtain ⟨before, after, rfl, hafter⟩ := ih (hrest.trans h)
        exact ⟨p :: before, after, rfl, hafter⟩
      | none =>
        rw [hrest, Option.none_or] at h
        split at h
        · rename_i hp
          refine ⟨[], pairs, ?_, lastValue_eq_none_iff.mp hrest⟩
          cases h
          rw [List.nil_append, ← hp]
        · exact absurd h (by simp)
  · rintro ⟨before, after, rfl, hafter⟩
    rw [lastValue_append, lastValue_cons, lastValue_eq_none_iff.mpr hafter]
    simp

/-- The last pair of a key, where the pairs are made of other things. -/
theorem lastValue_map_eq_some_iff {β : Type} {pair : β → κ × α} {k : κ} {a : α} {l : List β} :
    lastValue k (l.map pair) = some a ↔
      ∃ before b after, l = before ++ b :: after ∧ pair b = (k, a) ∧ ∀ c ∈ after, (pair c).1 ≠ k := by
  rw [lastValue_eq_some_iff]
  constructor
  · rintro ⟨before, after, hsplit, hafter⟩
    obtain ⟨before', rest, rfl, -, hrest⟩ := List.map_eq_append_iff.mp hsplit
    obtain ⟨b, after', rfl, hb, rfl⟩ := List.map_eq_cons_iff.mp hrest
    exact ⟨before', b, after', rfl, hb, fun c hc => hafter _ (List.mem_map_of_mem hc)⟩
  · rintro ⟨before, b, after, rfl, hb, hafter⟩
    refine ⟨before.map pair, after.map pair, by rw [List.map_append, List.map_cons, hb], ?_⟩
    intro p hp
    obtain ⟨c, hc, rfl⟩ := List.mem_map.mp hp
    exact hafter c hc

theorem lastValue_entries (t : Table κ α) (k : κ) : lastValue k t.entries = t.get? k := by
  refine Option.ext fun a => ?_
  rw [get?_eq_some_iff, lastValue_eq_some_iff]
  constructor
  · rintro ⟨before, after, hsplit, -⟩
    rw [hsplit]
    simp
  · intro hmem
    obtain ⟨before, after, hsplit⟩ := List.append_of_mem hmem
    refine ⟨before, after, hsplit, fun p hp hkey => ?_⟩
    have hdistinct := t.distinct
    rw [hsplit, List.map_append, List.map_cons, List.nodup_append, List.nodup_cons] at hdistinct
    exact hdistinct.2.1.1 (List.mem_map.mpr ⟨p, hp, hkey⟩)

/-- What is merged into a table wins. -/
theorem get?_merge (t u : Table κ α) (k : κ) : (t.merge u).get? k = (u.get? k).or (t.get? k) := by
  rw [merge, get?_putAll, lastValue_entries]

theorem mem_keys_iff {t : Table κ α} {k : κ} : k ∈ t.keys ↔ ∃ a, t.get? k = some a := by
  rw [keys, List.mem_map]
  constructor
  · rintro ⟨p, hp, rfl⟩
    exact ⟨p.2, get?_eq_some_iff.mpr hp⟩
  · rintro ⟨a, ha⟩
    exact ⟨_, get?_eq_some_iff.mp ha, rfl⟩

end Table

end RouteAtlas
