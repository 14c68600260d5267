import RouteAtlas.Proofs.Occurrences
import RouteAtlas.Proofs.Pattern
import RouteAtlas.Proofs.WordFree

/-!
# The block of url patterns, by its grammar

A text has no head, or a head that no bracket closes, or a block. These three cover every text
(`Block.headless_or_unclosed_or_frames`) and exclude each other, since the reader finds nothing in the
first two and the block in the third. A head starts with a character that it does not hold again, so none
begins in the text before the block and ends in it. The pattern, which tries the shortest run up to a
closing bracket first, finds the same block (`Shape.firstBlock?_eq_block?`).
-/

namespace RouteAtlas.Urlconf

open Text (isBlank)

namespace Block

/-- The word, the equals sign and the opening bracket, with any blanks between them. -/
def Heads (head : List Char) : Prop :=
  ∃ b₁ b₂, Blanks b₁ ∧ Blanks b₂ ∧ head = word ++ b₁ ++ ['='] ++ b₂ ++ ['[']

/-- A head, any text without a closing bracket, and the closing bracket. -/
def IsBlock (block : List Char) : Prop :=
  ∃ head body, Heads head ∧ ']' ∉ body ∧ block = head ++ body ++ [']']

/-- No head stands in the text. -/
def Headless (s : List Char) : Prop := ∀ head, Heads head → ¬ head <:+: s

/-- The first head of the text is not closed. -/
def Unclosed (s : List Char) : Prop :=
  ∃ pre head body, Headless pre ∧ Heads head ∧ ']' ∉ body ∧ s = pre ++ (head ++ body)

/-- The text is a block with `pre` before it, which has no head, and `post` after it. -/
structure Frames (s pre block post : List Char) : Prop where
  headless : Headless pre
  isBlock : IsBlock block
  text : s = pre ++ (block ++ post)

/-! ## The characters of a head -/

/-- A head holds its first character once. -/
theorem Heads.exists_cons {head : List Char} (h : Heads head) : ∃ tail, head = 'u' :: tail ∧ 'u' ∉ tail := by
  obtain ⟨b₁, b₂, h₁, h₂, rfl⟩ := h
  refine ⟨word.tail ++ b₁ ++ ['='] ++ b₂ ++ ['['], rfl, ?_⟩
  have hblank : ∀ {b}, Blanks b → 'u' ∉ b := fun hb hmem => absurd (hb _ hmem) (by decide)
  simp [word, hblank h₁, hblank h₂]

theorem Heads.notMem {head : List Char} (h : Heads head) : ']' ∉ head := by
  obtain ⟨b₁, b₂, h₁, h₂, rfl⟩ := h
  have hblank : ∀ {b}, Blanks b → ']' ∉ b := fun hb hmem => absurd (hb _ hmem) (by decide)
  simp [word, hblank h₁, hblank h₂]

theorem headless_of_notMem {s : List Char} (h : 'u' ∉ s) : Headless s := by
  intro head hhead hin
  obtain ⟨tail, rfl, -⟩ := hhead.exists_cons
  exact h (hin.subset (by simp))

theorem headless_nil : Headless [] := headless_of_notMem (by simp)

/-- A character with which no head starts can be put before a text without a head. -/
theorem Headless.cons {c : Char} {s : List Char} (h : Headless s)
    (hc : ∀ head, Heads head → ¬ head <+: c :: s) : Headless (c :: s) := by
  intro head hhead hin
  rcases List.infix_cons_iff.mp hin with hstands | hin
  · exact hc head hhead hstands
  · exact h head hhead hin

/-- No head starts in the text before the first one. -/
theorem Headless.not_prefix_drop {pre head t : List Char} (h : Headless pre) (hhead : Heads head)
    {i : Nat} (hi : i < pre.length) (head' : List Char) (hhead' : Heads head') :
    ¬ head' <+: (pre ++ (head ++ t)).drop i := by
  obtain ⟨tail, rfl, -⟩ := hhead.exists_cons
  obtain ⟨tail', rfl, hu⟩ := hhead'.exists_cons
  rw [List.drop_append_of_le_length (Nat.le_of_lt hi), List.drop_eq_getElem_cons hi, List.cons_append,
    List.cons_append, List.cons_prefix_cons]
  rintro ⟨hchar, htail⟩
  -- past its first character it cannot come to the head, so that it ends before
  have hinside := Text.prefix_of_prefix_append_cons htail hu
  refine h _ hhead' (List.IsInfix.trans ?_ (List.drop_suffix i pre).isInfix)
  rw [List.drop_eq_getElem_cons hi, ← hchar]
  exact ((List.prefix_cons_inj _).mpr hinside).isInfix

/-! ## The reader -/

theorem head?_eq_some_iff {s body : List Char} :
    head? s = some body ↔ ∃ head, Heads head ∧ s = head ++ body := by
  simp only [head?, Option.bind_eq_some_iff, word?_eq_some_iff,
    wordAfterBlanks?_eq_some_iff (by decide : isBlank '=' = false),
    wordAfterBlanks?_eq_some_iff (by decide : isBlank '[' = false)]
  constructor
  · rintro ⟨s₁, rfl, s₂, ⟨b₁, h₁, rfl⟩, b₂, h₂, rfl⟩
    exact ⟨_, ⟨b₁, b₂, h₁, h₂, rfl⟩, by simp⟩
  · rintro ⟨head, ⟨b₁, b₂, h₁, h₂, rfl⟩, rfl⟩
    simp only [List.append_assoc]
    exact ⟨_, rfl, _, ⟨b₁, h₁, rfl⟩, b₂, h₂, rfl⟩

/-- The reader reads up to the first closing bracket. -/
theorem read?_eq_some_iff {s block rest : List Char} :
    read? s = some (block, rest) ↔ IsBlock block ∧ s = block ++ rest := by
  have htake : ∀ block rest : List Char,
      (block ++ rest).take ((block ++ rest).length - rest.length) = block := by
    intro block rest
    rw [List.length_append, Nat.add_sub_cancel, List.take_left]
  have hwhole : ∀ head body rest : List Char,
      head ++ (body ++ ']' :: rest) = head ++ body ++ [']'] ++ rest := by simp
  rw [read?, Option.bind_eq_some_iff]
  constructor
  · rintro ⟨t, hread, h⟩
    obtain ⟨head, hhead, rfl⟩ := head?_eq_some_iff.mp hread
    split at h
    · exact absurd h (by simp)
    · rename_i c after hdrop
      obtain ⟨rfl, body, hbody, rfl⟩ := dropWhile_eq_cons_iff.mp hdrop
      rw [hwhole, htake] at h
      obtain ⟨rfl, rfl⟩ := Prod.mk.inj (Option.some.inj h)
      exact ⟨⟨head, body, hhead, hbody, rfl⟩, hwhole head body after⟩
  · rintro ⟨⟨head, body, hhead, hbody, rfl⟩, rfl⟩
    have hdrop : (body ++ ']' :: rest).dropWhile (· != ']') = ']' :: rest :=
      dropWhile_eq_cons_iff.mpr ⟨rfl, body, hbody, rfl⟩
    refine ⟨body ++ ']' :: rest, head?_eq_some_iff.mpr ⟨head, hhead, (hwhole head body rest).symm⟩, ?_⟩
    simp only [hdrop, htake]

theorem read?_eq_none_of_not_prefix {s : List Char} (h : ∀ head, Heads head → ¬ head <+: s) :
    read? s = none := by
  rw [Option.eq_none_iff_forall_ne_some]
  rintro ⟨block, rest⟩ hread
  obtain ⟨⟨head, body, hhead, -, rfl⟩, rfl⟩ := read?_eq_some_iff.mp hread
  exact h head hhead (by simp)

theorem read?_eq_none_of_notMem {s : List Char} (h : ']' ∉ s) : read? s = none := by
  rw [Option.eq_none_iff_forall_ne_some]
  rintro ⟨block, rest⟩ hread
  obtain ⟨⟨head, body, -, -, rfl⟩, rfl⟩ := read?_eq_some_iff.mp hread
  exact h (by simp)

/-- Nothing is read in the text before the first head. -/
theorem Headless.read?_drop {pre head t : List Char} (h : Headless pre) (hhead : Heads head) :
    ∀ i < pre.length, read? ((pre ++ (head ++ t)).drop i) = none :=
  fun _ hi => read?_eq_none_of_not_prefix (h.not_prefix_drop hhead hi)

/-! ## Every text -/

/-- A text without a head, or one whose first head is known. -/
theorem headless_or_exists_head (s : List Char) :
    Headless s ∨ ∃ pre head t, Headless pre ∧ Heads head ∧ s = pre ++ (head ++ t) := by
  induction s with
  | nil => exact Or.inl headless_nil
  | cons c s ih =>
    by_cases hstart : ∃ head, Heads head ∧ head <+: c :: s
    · obtain ⟨head, hhead, t, ht⟩ := hstart
      exact Or.inr ⟨[], head, t, headless_nil, hhead, ht.symm⟩
    · have hnone : ∀ head, Heads head → ¬ head <+: c :: s := fun head hhead hstands =>
        hstart ⟨head, hhead, hstands⟩
      rcases ih with hs | ⟨pre, head, t, hpre, hhead, rfl⟩
      · exact Or.inl (hs.cons hnone)
      · refine Or.inr ⟨c :: pre, head, t, hpre.cons fun head' hhead' hstands => ?_, hhead, rfl⟩
        exact hnone head' hhead' (hstands.trans ⟨head ++ t, rfl⟩)

/-- A text has no head, or a first head that nothing closes, or a block. -/
theorem headless_or_unclosed_or_frames (s : List Char) :
    Headless s ∨ Unclosed s ∨ ∃ pre block post, Frames s pre block post := by
  rcases headless_or_exists_head s with hs | ⟨pre, head, t, hpre, hhead, rfl⟩
  · exact Or.inl hs
  · by_cases hclosed : ']' ∈ t
    · obtain ⟨body, post, rfl, hbody⟩ := List.eq_append_cons_of_mem hclosed
      exact Or.inr (Or.inr ⟨pre, head ++ body ++ [']'], post, hpre, ⟨head, body, hhead, hbody, rfl⟩,
        by simp⟩)
    · exact Or.inr (Or.inl ⟨pre, head, t, hpre, hhead, hclosed, rfl⟩)

variable {s pre block post : List Char}

theorem Headless.block?_eq_none (h : Headless s) : block? s = none := by
  refine Text.firstOccurrence?_eq_none ?_
  intro i
  refine read?_eq_none_of_not_prefix ?_
  intro head hhead hstands
  exact h head hhead (hstands.isInfix.trans (List.drop_suffix i s).isInfix)

theorem Unclosed.block?_eq_none (h : Unclosed s) : block? s = none := by
  obtain ⟨pre, head, body, hpre, hhead, hbody, rfl⟩ := h
  -- a later head is not closed either
  have hnone : Text.firstOccurrence? read? (head ++ body) = none := by
    refine Text.firstOccurrence?_eq_none ?_
    intro i
    refine read?_eq_none_of_notMem ?_
    intro hmem
    rcases List.mem_append.mp (List.mem_of_mem_drop hmem) with hmem | hmem
    · exact hhead.notMem hmem
    · exact hbody hmem
  rw [block?, Text.firstOccurrence?_append (hpre.read?_drop hhead), hnone]

theorem Frames.block?_eq_some (h : Frames s pre block post) : block? s = some block := by
  obtain ⟨hpre, hblock, rfl⟩ := h
  have hread : read? (block ++ post) = some (block, post) := read?_eq_some_iff.mpr ⟨hblock, rfl⟩
  obtain ⟨head, body, hhead, -, rfl⟩ := hblock
  have hskip := hpre.read?_drop (t := body ++ [']'] ++ post) hhead
  have htext : head ++ body ++ [']'] ++ post = head ++ (body ++ [']'] ++ post) := by simp
  rw [htext] at hread ⊢
  rw [block?, Text.firstOccurrence?_append hskip, Text.firstOccurrence?_of_some hread]

theorem block?_eq_some_iff : block? s = some block ↔ ∃ pre post, Frames s pre block post := by
  constructor
  · intro h
    rcases headless_or_unclosed_or_frames s with hs | hs | ⟨pre, block', post, hs⟩
    · rw [hs.block?_eq_none] at h
      exact absurd h (by simp)
    · rw [hs.block?_eq_none] at h
      exact absurd h (by simp)
    · rw [hs.block?_eq_some] at h
      obtain rfl : block' = block := Option.some.inj h
      exact ⟨pre, post, hs⟩
  · rintro ⟨pre, post, h⟩
    exact h.block?_eq_some

theorem block?_eq_none_iff : block? s = none ↔ Headless s ∨ Unclosed s := by
  constructor
  · intro h
    rcases headless_or_unclosed_or_frames s with hs | hs | ⟨pre, block, post, hs⟩
    · exact Or.inl hs
    · exact Or.inr hs
    · rw [hs.block?_eq_some] at h
      exact absurd h (by simp)
  · rintro (h | h)
    · exact h.block?_eq_none
    · exact h.block?_eq_none

end Block

/-! ## The pattern -/

namespace Shape

open Pattern (Reads inTurn one fewest keep andThen)

/-- The pattern of the head. -/
def heading : Pattern := inTurn [Pattern.word "urlpatterns".toList, mark '=', mark '[']

theorem reads_heading : Reads heading fun s => (Block.head? s).map fun rest => ([], rest) := by
  have hmarks := (Pattern.reads_mark (c := '=') (by decide)).seq
    (Pattern.reads_mark (c := '[') (by decide)).inTurn_singleton
  have h := (Pattern.reads_word Block.word).seq hmarks
  intro s
  refine (h s).trans ?_
  congr 1
  simp [andThen, Block.head?, Option.bind_map, Option.map_bind, Function.comp_def]

/-- The shortest run up to a closing bracket ends at the first one. -/
theorem head?_ways_closing (s : List Char) :
    ((inTurn [fewest fun _ => true, one (· == ']')]).ways s).head? =
      ((s.dropWhile (· != ']')).tail?.map fun rest => ⟨[], rest⟩) := by
  have hin : inTurn [fewest fun _ => true, one (· == ']')] =
      .seq (fewest fun _ => true) (inTurn [one (· == ']')]) := rfl
  rw [hin]
  induction s with
  | nil => rw [Pattern.ways_fewest_seq_nil]; rfl
  | cons c s ih =>
    rw [Pattern.ways_fewest_seq_cons, List.head?_append, if_pos rfl, ih,
      (Pattern.reads_one ']').inTurn_singleton]
    by_cases hc : ']' = c
    · subst hc
      simp [word?]
    · simp [word?, hc, Ne.symm hc]

/-- The pattern of a block is its head followed by the shortest run up to a closing bracket. -/
theorem ways_block (s : List Char) :
    block.ways s = ((Pattern.seq heading (inTurn [fewest fun _ => true, one (· == ']')])).ways s).map
      fun w => ⟨s.take (s.length - w.rest.length) :: w.kept, w.rest⟩ := by
  rw [heading, ← Pattern.ways_inTurn_append]
  rfl

/-- The preferred match of the pattern is what the reader reads. -/
theorem recogniser_block (s : List Char) :
    (block.recogniser s).map (fun p => (p.1.getD 0 [], p.2)) = Block.read? s := by
  rw [Pattern.recogniser, ways_block, List.head?_map, Block.read?]
  cases hhead : Block.head? s with
  | none =>
    rw [reads_heading.ways_seq_of_none (by rw [hhead]; rfl)]
    rfl
  | some body =>
    have hread : (Block.head? s).map (fun rest => (([] : List (List Char)), rest)) = some ([], body) := by
      rw [hhead]
      rfl
    rw [reads_heading.ways_seq_of_some hread, List.head?_map, head?_ways_closing, Option.bind_some]
    cases hdrop : body.dropWhile (· != ']') with
    | nil => rfl
    | cons c rest =>
      have hlt : rest.length < s.length := by
        obtain ⟨head, -, rfl⟩ := Block.head?_eq_some_iff.mp hhead
        have hle := (List.dropWhile_sublist (l := body) (· != ']')).length_le
        rw [hdrop, List.length_cons] at hle
        rw [List.length_append]
        omega
      simp [Pattern.Way.after, Option.filter, hlt]

theorem firstBlock?_eq_block? (s : List Char) : firstBlock? s = block? s :=
  Text.map_firstOccurrence? recogniser_block s

end Shape

/-! ## Whole texts -/

theorem routes_of_block {text : String} {block : List Char} (h : block? text.toList = some block) :
    (read true text).routes = routesIn block := by
  show routesOf true text.toList = _
  rw [routesOf, if_pos rfl, h]

theorem routes_of_no_block {text : String} (h : block? text.toList = none) :
    (read true text).routes = [] := by
  show routesOf true text.toList = _
  rw [routesOf, if_pos rfl, h]

/-- Restricted to its block, a text declares what the block declares on its own: neither the text before
the block nor the text after it has a say. A text without a head, or whose first head is not closed, has
no block and declares no route. Namespaces are read from the whole text all the same. -/
theorem read_restricted (text : String) :
    block? text.toList = Shape.firstBlock? text.toList ∧
      (∀ block, block? text.toList = some block ↔
        ∃ pre post, Block.Frames text.toList pre block post) ∧
      (block? text.toList = none ↔ Block.Headless text.toList ∨ Block.Unclosed text.toList) ∧
      (∀ pre block post, Block.Frames text.toList pre block post →
        (read true text).routes = (read false (String.ofList block)).routes) ∧
      (block? text.toList = none → (read true text).routes = []) ∧
      (read true text).namespaces = namespacesIn text.toList := by
  refine ⟨(Shape.firstBlock?_eq_block? _).symm, fun _ => Block.block?_eq_some_iff,
    Block.block?_eq_none_iff, ?_, routes_of_no_block, rfl⟩
  intro pre block post h
  have hwhole : (read false (String.ofList block)).routes = routesIn block := by
    rw [read, routesOf, String.toList_ofList]
    rfl
  rw [routes_of_block h.block?_eq_some, hwhole]

theorem read_restricted_straddled :
    Block.Frames "path('x', urlpatterns = [path('a', b)], path('c', d)".toList "path('x', ".toList
        "urlpatterns = [path('a', b)]".toList ", path('c', d)".toList ∧
      (read true "path('x', urlpatterns = [path('a', b)], path('c', d)").routes = [⟨"a", ""⟩] ∧
      block? "urlpatterns = [path('a', b)".toList = none ∧
      (read true "urlpatterns = [path('a', b)").routes = [] := by
  have hhead : Block.Heads "urlpatterns = [".toList := ⟨[' '], [' '], by decide, by decide, rfl⟩
  have hframes : Block.Frames "path('x', urlpatterns = [path('a', b)], path('c', d)".toList
      "path('x', ".toList "urlpatterns = [path('a', b)]".toList ", path('c', d)".toList :=
    ⟨Block.headless_of_notMem (by decide), ⟨_, "path('a', b)".toList, hhead, by decide +kernel, rfl⟩, rfl⟩
  have hunclosed : Block.Unclosed "urlpatterns = [path('a', b)".toList :=
    ⟨[], _, "path('a', b)".toList, Block.headless_nil, hhead, by decide +kernel, rfl⟩
  obtain ⟨-, -, -, hroutes, -, -⟩ :=
    read_restricted "path('x', urlpatterns = [path('a', b)], path('c', d)"
  obtain ⟨-, -, hnone, -, hempty, -⟩ := read_restricted "urlpatterns = [path('a', b)"
  have hblock := hnone.mpr (Or.inr hunclosed)
  refine ⟨hframes, ?_, hblock, hempty hblock⟩
  rw [hroutes _ _ _ hframes]
  cbv

end RouteAtlas.Urlconf
