import Mathlib.Data.List.Forall2
import RouteAtlas.FileKey
import RouteAtlas.Proofs.Include

/-!
# Keys of files and keys of module references

Label and key of a file are settled by the last two segments of its path, whatever stands before them and
whichever separators are used (`tail_of_endsIn`, `segments_respelt`). A module reference keeps all its
segments, so the two kinds of keys meet for modules of two segments and for no others
(`subpath_eq_moduleKey_iff`).
-/

namespace RouteAtlas.FileKey

/-! ## Segments -/

/-- Nothing in it separates segments. -/
def Unbroken (s : List Char) : Prop := ∀ c ∈ s, isSeparator c = false

instance (s : List Char) : Decidable (Unbroken s) := List.decidableBAll (isSeparator · = false) s

theorem segments_ne_nil (s : List Char) : segments s ≠ [] := by
  cases s with
  | nil => simp [segments]
  | cons c rest =>
    rw [segments]
    split
    · simp
    · split <;> simp

theorem segments_of_unbroken {s : List Char} (h : Unbroken s) : segments s = [s] := by
  induction s with
  | nil => rfl
  | cons c rest ih =>
    obtain ⟨hc, hrest⟩ := List.forall_mem_cons.mp h
    rw [segments, hc, ih hrest]
    rfl

theorem segments_append {c : Char} (hc : isSeparator c = true) (a b : List Char) :
    segments (a ++ c :: b) = segments a ++ segments b := by
  induction a with
  | nil =>
    show segments (c :: b) = [] :: segments b
    rw [segments, if_pos hc]
  | cons d a ih =>
    rw [List.cons_append, segments, segments, ih]
    split
    · rfl
    · cases hsegments : segments a with
      | nil => exact absurd hsegments (segments_ne_nil a)
      | cons segment more => rfl

theorem lastTwo_append {α : Type} (front : List α) (a b : α) : lastTwo (front ++ [a, b]) = [a, b] := by
  simp [lastTwo]

/-! ## The end of a path -/

/-- The last two segments of a path. The separator before them is missing where nothing is before them. -/
inductive EndsIn : List Char → List Char → List Char → Prop where
  | whole {s t : List Char} {d : Char} (hd : isSeparator d = true) (hs : Unbroken s) (ht : Unbroken t) :
      EndsIn (s ++ d :: t) s t
  | after {s t : List Char} {c d : Char} (front : List Char) (hc : isSeparator c = true)
      (hd : isSeparator d = true) (hs : Unbroken s) (ht : Unbroken t) :
      EndsIn (front ++ c :: (s ++ d :: t)) s t

/-- A path with a separator has a last separator. -/
theorem exists_last_separator {path : List Char} (h : ¬ Unbroken path) :
    ∃ front d t, path = front ++ d :: t ∧ isSeparator d = true ∧ Unbroken t := by
  induction path with
  | nil => exact absurd (fun c hc => absurd hc List.not_mem_nil) h
  | cons c rest ih =>
    by_cases hrest : Unbroken rest
    · refine ⟨[], c, rest, rfl, ?_, hrest⟩
      by_contra hc
      exact h (List.forall_mem_cons.mpr ⟨by simpa using hc, hrest⟩)
    · obtain ⟨front, d, t, rfl, hd, ht⟩ := ih hrest
      exact ⟨c :: front, d, t, rfl, hd, ht⟩

/-- A segment after a separator is the last of two. -/
theorem exists_endsIn {c : Char} (hc : isSeparator c = true) {t : List Char} (ht : Unbroken t)
    (above : List Char) : ∃ s, EndsIn (above ++ c :: t) s t := by
  by_cases habove : Unbroken above
  · exact ⟨above, .whole hc habove ht⟩
  · obtain ⟨front, d, s, rfl, hd, hs⟩ := exists_last_separator habove
    refine ⟨s, ?_⟩
    rw [List.append_assoc, List.cons_append]
    exact .after front hd hc hs ht

/-- A path is one segment, or it ends in two. -/
theorem unbroken_or_endsIn (path : List Char) : Unbroken path ∨ ∃ s t, EndsIn path s t := by
  by_cases hpath : Unbroken path
  · exact Or.inl hpath
  · obtain ⟨above, c, t, rfl, hc, ht⟩ := exists_last_separator hpath
    obtain ⟨s, hs⟩ := exists_endsIn hc ht above
    exact Or.inr ⟨s, t, hs⟩

theorem tail_of_endsIn {path s t : List Char} (h : EndsIn path s t) : tail path = s ++ '/' :: t := by
  have htwo : ∀ {d : Char}, isSeparator d = true → Unbroken s → Unbroken t →
      segments (s ++ d :: t) = [s, t] := by
    intro d hd hs ht
    rw [segments_append hd, segments_of_unbroken hs, segments_of_unbroken ht]
    rfl
  have hlast : lastTwo (segments path) = [s, t] := by
    cases h with
    | whole hd hs ht =>
      rw [htwo hd hs ht]
      rfl
    | after front hc hd hs ht => rw [segments_append hc, htwo hd hs ht, lastTwo_append]
  rw [tail, hlast, List.intercalate_cons_cons, List.intercalate_singleton, List.append_assoc]
  rfl

/-! ## The other kind of separator -/

/-- The same path, some of its separators written as separators of the other kind. -/
def Respelt (path path' : List Char) : Prop :=
  List.Forall₂ (fun c d => c = d ∨ isSeparator c = true ∧ isSeparator d = true) path path'

instance (path path' : List Char) : Decidable (Respelt path path') :=
  inferInstanceAs (Decidable (List.Forall₂ _ path path'))

theorem segments_respelt {path path' : List Char} (h : Respelt path path') :
    segments path = segments path' := by
  induction h with
  | nil => rfl
  | cons hcd hrest ih =>
    rcases hcd with rfl | ⟨hc, hd⟩
    · rw [segments, segments, ih]
    · rw [segments, segments, if_pos hc, if_pos hd, ih]

theorem tail_respelt {path path' : List Char} (h : Respelt path path') : tail path = tail path' := by
  rw [tail, tail, segments_respelt h]

/-! ## Modules -/

theorem dropSuffix_append (s : List Char) : dropSuffix (s ++ ['.', 'p', 'y']) = s := by
  have hreverse : (s ++ ['.', 'p', 'y']).reverse = reversedSuffix ++ s.reverse := by
    rw [List.reverse_append]
    rfl
  have hsuffix : reversedSuffix.isPrefixOf (reversedSuffix ++ s.reverse) = true :=
    List.isPrefixOf_iff_prefix.mpr (List.prefix_append _ _)
  rw [dropSuffix, hreverse, if_pos hsuffix, List.drop_left, List.reverse_reverse]

/-- A segment of a module reference: not empty, without dots and separators. -/
structure IsSegment (s : List Char) : Prop where
  nonempty : s ≠ []
  dotless : '.' ∉ s
  unbroken : Unbroken s

instance (s : List Char) : Decidable (IsSegment s) :=
  decidable_of_iff (s ≠ [] ∧ '.' ∉ s ∧ Unbroken s)
    ⟨fun ⟨hne, hdot, hs⟩ => ⟨hne, hdot, hs⟩, fun h => ⟨h.nonempty, h.dotless, h.unbroken⟩⟩

/-- The segments of a module, each after the separator that stands before it in a path. -/
abbrev Module := List (Char × List Char)

/-- What is asked of a module: it has segments, and separators before them. -/
structure Module.Proper (m : Module) : Prop where
  nonempty : m ≠ []
  separators : ∀ p ∈ m, isSeparator p.1 = true
  segments : ∀ p ∈ m, IsSegment p.2

instance (m : Module) : Decidable m.Proper :=
  decidable_of_iff (m ≠ [] ∧ (∀ p ∈ m, isSeparator p.1 = true) ∧ ∀ p ∈ m, IsSegment p.2)
    ⟨fun ⟨hne, hseparators, hsegments⟩ => ⟨hne, hseparators, hsegments⟩,
      fun h => ⟨h.nonempty, h.separators, h.segments⟩⟩

/-- The path of the file of a module, below the path `start`. -/
def Module.path (start : List Char) (m : Module) : List Char :=
  start ++ m.flatMap (fun p => p.1 :: p.2) ++ ['.', 'p', 'y']

/-- The reference to a module: its segments with dots between them. -/
def Module.reference (m : Module) : List Char := List.intercalate ['.'] (m.map Prod.snd)

theorem Unbroken.append_suffix {s : List Char} (h : Unbroken s) : Unbroken (s ++ ['.', 'p', 'y']) := by
  intro c hc
  rcases List.mem_append.mp hc with hc | hc
  · exact h c hc
  · exact (by decide : Unbroken ['.', 'p', 'y']) c hc

theorem exists_append_pair {α : Type} (items : List α) (h : 2 ≤ items.length) :
    ∃ front a b, items = front ++ [a, b] := by
  rcases List.eq_nil_or_concat items with rfl | ⟨above, b, rfl⟩
  · simp at h
  · rcases List.eq_nil_or_concat above with rfl | ⟨front, a, rfl⟩
    · simp at h
    · exact ⟨front, a, b, by simp⟩

namespace Module.Proper

variable {m : Module}

/-- The key of the file of a module with two or more segments is made of the last two. -/
theorem dropSuffix_tail_path_append {p q : Char × List Char} (start : List Char) (front : Module)
    (h : Proper (front ++ [p, q])) :
    dropSuffix (tail (path start (front ++ [p, q]))) = p.2 ++ '/' :: q.2 := by
  have hp : p ∈ front ++ [p, q] := by simp
  have hq : q ∈ front ++ [p, q] := by simp
  have hpath : path start (front ++ [p, q]) =
      (start ++ front.flatMap fun p => p.1 :: p.2) ++
        p.1 :: (p.2 ++ q.1 :: (q.2 ++ ['.', 'p', 'y'])) := by
    simp [path]
  have hends : EndsIn (path start (front ++ [p, q])) p.2 (q.2 ++ ['.', 'p', 'y']) := by
    rw [hpath]
    exact .after _ (h.separators p hp) (h.separators q hq) (h.segments p hp).unbroken
      (h.segments q hq).unbroken.append_suffix
  rw [tail_of_endsIn hends, ← List.cons_append, ← List.append_assoc, dropSuffix_append]

/-- The key of the file of a module with one segment has a slash that the reference has not. -/
theorem slash_mem_dropSuffix_tail_path (start : List Char) {p : Char × List Char} (h : Proper [p]) :
    '/' ∈ dropSuffix (tail (path start [p])) := by
  have hp : p ∈ [p] := List.mem_singleton_self p
  have hpath : path start [p] = start ++ p.1 :: (p.2 ++ ['.', 'p', 'y']) := by
    simp [path]
  obtain ⟨s, hends⟩ :=
    exists_endsIn (h.separators p hp) (h.segments p hp).unbroken.append_suffix start
  rw [hpath, tail_of_endsIn hends, ← List.cons_append, ← List.append_assoc, dropSuffix_append]
  simp

/-- The key of a reference with two or more segments has a slash after the first one, and dots after the
others. -/
theorem slashFirstDot_reference {p q : Char × List Char} {more : Module} (h : Proper (p :: q :: more)) :
    Urlconf.slashFirstDot (reference (p :: q :: more)) = p.2 ++ '/' :: reference (q :: more) := by
  have hreference : reference (p :: q :: more) = p.2 ++ '.' :: reference (q :: more) := by
    rw [reference, List.map_cons, List.map_cons, List.intercalate_cons_cons, List.append_assoc]
    rfl
  rw [hreference, Urlconf.slashFirstDot_append (h.segments p List.mem_cons_self).dotless]

/-- The two keys of a module are the same if and only if it has two segments. -/
theorem dropSuffix_tail_path_eq_iff (h : m.Proper) (start : List Char) :
    dropSuffix (tail (m.path start)) = Urlconf.slashFirstDot m.reference ↔ m.length = 2 := by
  match m with
  | [] => exact absurd rfl h.nonempty
  | [p] =>
    have hp : IsSegment p.2 := h.segments p (List.mem_singleton_self p)
    have hreference : reference [p] = p.2 := List.intercalate_singleton
    rw [hreference, Urlconf.slashFirstDot_of_notMem hp.dotless]
    constructor
    · intro heq
      have hslash := h.slash_mem_dropSuffix_tail_path start
      rw [heq] at hslash
      exact absurd (hp.unbroken _ hslash) (by decide)
    · simp
  | [p, q] =>
    have hreference : reference [q] = q.2 := List.intercalate_singleton
    have hkey : dropSuffix (tail (path start [p, q])) = p.2 ++ '/' :: q.2 :=
      h.dropSuffix_tail_path_append start []
    rw [hkey, h.slashFirstDot_reference, hreference]
    simp
  | p :: q :: r :: rest =>
    -- a dot is left in the reference, and the last two segments have none
    obtain ⟨front, y, z, hsplit⟩ := exists_append_pair (p :: q :: r :: rest) (by simp)
    have hdot : '.' ∈ Urlconf.slashFirstDot (reference (p :: q :: r :: rest)) := by
      rw [h.slashFirstDot_reference, reference, List.map_cons, List.map_cons,
        List.intercalate_cons_cons]
      simp
    have hnone : '.' ∉ dropSuffix (tail (path start (p :: q :: r :: rest))) := by
      rw [hsplit] at h ⊢
      rw [h.dropSuffix_tail_path_append start front]
      have hy := (h.segments y (by simp)).dotless
      have hz := (h.segments z (by simp)).dotless
      simp [hy, hz]
    constructor
    · intro heq
      rw [heq] at hnone
      exact absurd hdot hnone
    · simp

end Module.Proper

/-! ## Labels and keys -/

/-- The key of a module file is the key of the reference to the module if and only if the module has two
segments. Labels and keys do not tell the separators apart, and depend on the last two segments of a path
alone. -/
theorem subpath_eq_moduleKey_iff :
    (∀ (start : String) (m : Module), m.Proper →
      (subpath (String.ofList (m.path start.toList)) =
        Urlconf.moduleKey (String.ofList m.reference) ↔ m.length = 2)) ∧
    (∀ path path' : String, Respelt path.toList path'.toList →
      label path = label path' ∧ subpath path = subpath path') ∧
    (∀ (path path' : String) (s t : List Char), EndsIn path.toList s t → EndsIn path'.toList s t →
      label path = label path' ∧ subpath path = subpath path') ∧
    ∀ path : String, Unbroken path.toList ∨ ∃ s t, EndsIn path.toList s t := by
  have hof : ∀ {path path' : String}, tail path.toList = tail path'.toList →
      label path = label path' ∧ subpath path = subpath path' := by
    intro path path' htail
    rw [label, label, subpath, subpath, htail]
    exact ⟨rfl, rfl⟩
  refine ⟨?_, ?_, ?_, ?_⟩
  · intro start m hm
    rw [subpath, Urlconf.moduleKey, String.toList_ofList, String.toList_ofList, String.ofList_inj]
    exact hm.dropSuffix_tail_path_eq_iff start.toList
  · intro path path' hrespelt
    exact hof (tail_respelt hrespelt)
  · intro path path' s t hends hends'
    exact hof ((tail_of_endsIn hends).trans (tail_of_endsIn hends').symm)
  · intro path
    exact unbroken_or_endsIn path.toList

/-- A module with two segments and one with three, and a path with separators of both kinds. -/
theorem subpath_eq_moduleKey_blog :
    subpath "C:\\my.site/blog\\urls.py" = Urlconf.moduleKey "blog.urls" ∧
      subpath "/srv/shop/blog/urls.py" ≠ Urlconf.moduleKey "shop.blog.urls" ∧
      subpath "C:\\my.site/blog\\urls.py" = subpath "C:/my.site/blog/urls.py" := by
  obtain ⟨hkeys, hrespelt, -, -⟩ := subpath_eq_moduleKey_iff
  have hblog := hkeys "C:\\my.site" [('/', ['b', 'l', 'o', 'g']), ('\\', ['u', 'r', 'l', 's'])] (by decide)
  have hshop := hkeys "/srv" [('/', ['s', 'h', 'o', 'p']), ('/', ['b', 'l', 'o', 'g']),
    ('/', ['u', 'r', 'l', 's'])] (by decide)
  have hsame := hrespelt "C:\\my.site/blog\\urls.py" "C:/my.site/blog/urls.py" (by decide)
  exact ⟨hblog.mpr rfl, mt hshop.mp (by decide), hsame.2⟩

end RouteAtlas.FileKey
