import RouteAtlas.Proofs.Occurrences
import RouteAtlas.Proofs.Pattern
import RouteAtlas.Proofs.Table

/-!
# Namespaced includes, by their grammar

An include is described by what the text is made of: the word, the parentheses, the quoted module and
the comma, then anything up to the first closing parenthesis, then the namespace. The reader accepts
exactly these texts (`Include.read?_eq_some_iff`), and so does the pattern. Blanks after the comma may be
skipped as blanks or as part of what stands up to the parenthesis, so that the pattern has several ways;
all of them find the same parenthesis (`Shape.head?_ways_afterModule`).
-/

namespace RouteAtlas.Urlconf

open Text (isBlank skipBlanks)

namespace Include

/-- `s` starts with the word, the parentheses, a quoted `name` of a module and the comma; `rest`
follows. -/
def Opens (s name rest : List Char) : Prop :=
  ∃ b₁ b₂ b₃ b₄ w, Blanks b₁ ∧ Blanks b₂ ∧ Blanks b₃ ∧ Blanks b₄ ∧ Quoted name w ∧
    s = ['i', 'n', 'c', 'l', 'u', 'd', 'e'] ++ b₁ ++ ['('] ++ b₂ ++ ['('] ++ b₃ ++ w ++ b₄ ++ [',']
      ++ rest

/-- `rest` follows the first closing parenthesis of `s`. -/
def Closes (s rest : List Char) : Prop := ∃ inner, ')' ∉ inner ∧ s = inner ++ [')'] ++ rest

/-- `s` starts with a comma and a quoted `space` after its keyword; `rest` follows. -/
def Names (s space rest : List Char) : Prop :=
  ∃ b₁ b₂ b₃ b₄ w, Blanks b₁ ∧ Blanks b₂ ∧ Blanks b₃ ∧ Blanks b₄ ∧ Quoted space w ∧
    s = b₁ ++ [','] ++ b₂ ++ ['n', 'a', 'm', 'e', 's', 'p', 'a', 'c', 'e'] ++ b₃ ++ ['='] ++ b₄ ++ w
      ++ rest

end Include

/-- A namespace is bound at the start of a text, with what follows the include. -/
inductive Binds : List Char → Binding → List Char → Prop where
  | mk {s name t t' space rest : List Char} (ho : Include.Opens s name t) (hc : Include.Closes t t')
      (hn : Include.Names t' space rest) :
      Binds s ⟨moduleKey (String.ofList name), String.ofList space⟩ rest

namespace Include

theorem head?_eq_some_iff {s name rest : List Char} :
    head? s = some (name, rest) ↔ Opens s name rest := by
  simp only [head?, Option.bind_eq_some_iff, Option.map_eq_some_iff, Prod.mk.injEq,
    word?_eq_some_iff, wordAfterBlanks?_eq_some_iff (by decide : isBlank '(' = false),
    wordAfterBlanks?_eq_some_iff (by decide : isBlank ',' = false), Prod.exists,
    quotedAfterBlanks?_eq_some_iff]
  constructor
  · rintro ⟨s₁, rfl, s₂, ⟨b₁, h₁, rfl⟩, s₃, ⟨b₂, h₂, rfl⟩, u, s₄, ⟨b₃, w, h₃, hw, rfl⟩, s₅,
      ⟨b₄, h₄, rfl⟩, rfl, rfl⟩
    exact ⟨b₁, b₂, b₃, b₄, w, h₁, h₂, h₃, h₄, hw, by simp⟩
  · rintro ⟨b₁, b₂, b₃, b₄, w, h₁, h₂, h₃, h₄, hw, rfl⟩
    simp only [List.append_assoc]
    exact ⟨_, rfl, _, ⟨b₁, h₁, rfl⟩, _, ⟨b₂, h₂, rfl⟩, name, _, ⟨b₃, w, h₃, hw, rfl⟩, rest,
      ⟨b₄, h₄, rfl⟩, rfl, rfl⟩

theorem namespace?_eq_some_iff {s space rest : List Char} : namespace? s = some (space, rest) ↔
    Names s space rest := by
  simp only [namespace?, Option.bind_eq_some_iff,
    wordAfterBlanks?_eq_some_iff (by decide : isBlank ',' = false),
    wordAfterBlanks?_eq_some_iff (by decide : isBlank 'n' = false),
    wordAfterBlanks?_eq_some_iff (by decide : isBlank '=' = false), quotedAfterBlanks?_eq_some_iff]
  constructor
  · rintro ⟨s₁, ⟨b₁, h₁, rfl⟩, s₂, ⟨b₂, h₂, rfl⟩, s₃, ⟨b₃, h₃, rfl⟩, b₄, w, h₄, hw, rfl⟩
    exact ⟨b₁, b₂, b₃, b₄, w, h₁, h₂, h₃, h₄, hw, by simp⟩
  · rintro ⟨b₁, b₂, b₃, b₄, w, h₁, h₂, h₃, h₄, hw, rfl⟩
    simp only [List.append_assoc]
    exact ⟨_, ⟨b₁, h₁, rfl⟩, _, ⟨b₂, h₂, rfl⟩, _, ⟨b₃, h₃, rfl⟩, b₄, w, h₄, hw, rfl⟩

/-- Dropping up to a closing parenthesis finds the first one. -/
theorem word?_dropWhile_eq_some_iff {s rest : List Char} :
    word? [')'] (s.dropWhile (· != ')')) = some rest ↔ Closes s rest := by
  rw [word?_eq_some_iff, List.singleton_append, dropWhile_eq_cons_iff]
  simp [Closes]

/-- The reader accepts the includes of the grammar and nothing else. -/
theorem read?_eq_some_iff {s : List Char} {binding : Binding} {rest : List Char} :
    read? s = some (binding, rest) ↔ Binds s binding rest := by
  simp only [read?, Option.bind_eq_some_iff, Option.map_eq_some_iff, Prod.exists, Prod.mk.injEq,
    head?_eq_some_iff, word?_dropWhile_eq_some_iff, namespace?_eq_some_iff]
  constructor
  · rintro ⟨name, t, ho, t', hc, space, rest', hn, rfl, rfl⟩
    exact .mk ho hc hn
  · rintro ⟨ho, hc, hn⟩
    exact ⟨_, _, ho, _, hc, _, _, hn, rfl, rfl⟩

end Include

/-! ## The pattern -/

namespace Shape

open Pattern (Reads oneWay inTurn one most andThen)
open Include (head? namespace?)

/-- The pattern up to the comma after the module. -/
def moduleOpening : Pattern :=
  inTurn [Pattern.word "include".toList, mark '(', mark '(', blanks, quoted, mark ',']

/-- The pattern of a run without closing parentheses and the parenthesis that ends it. -/
def closing : Pattern := inTurn [most (· != ')'), one (· == ')')]

/-- The pattern of the namespace. -/
def spacing : Pattern :=
  inTurn [mark ',', blanks, Pattern.word "namespace".toList, mark '=', blanks, quoted]

theorem reads_moduleOpening : Reads moduleOpening fun s => (head? s).map fun p => ([p.1], p.2) := by
  have hquoted := Pattern.reads_quoted.seq
    (Pattern.reads_mark (c := ',') (by decide)).inTurn_singleton
  have hblanks := hquoted.blanks fun c s hc => by
    simp [andThen, Pattern.quotedText?_of_blank hc]
  have hparenthesis := Pattern.reads_mark (c := '(') (by decide)
  have h := (Pattern.reads_word ['i', 'n', 'c', 'l', 'u', 'd', 'e']).seq
    (hparenthesis.seq (hparenthesis.seq hblanks))
  intro s
  refine (h s).trans ?_
  congr 1
  simp [andThen, head?, quotedAfterBlanks?, Option.bind_map, Option.map_bind, Function.comp_def]

theorem reads_spacing : Reads spacing fun s => (namespace? s).map fun p => ([p.1], p.2) := by
  have hquoted := Pattern.reads_quoted.inTurn_singleton.blanks fun c s hc => by
    rw [Pattern.quotedText?_of_blank hc]; rfl
  have hmark := (Pattern.reads_mark (c := '=') (by decide)).seq hquoted
  have hword := ((Pattern.reads_word ['n', 'a', 'm', 'e', 's', 'p', 'a', 'c', 'e']).seq hmark).blanks
    fun c s hc => by rw [andThen, Pattern.word?_of_blank (by decide) hc]; rfl
  have h := (Pattern.reads_mark (c := ',') (by decide)).seq hword
  intro s
  refine (h s).trans ?_
  congr 1
  simp [andThen, namespace?, wordAfterBlanks?, quotedAfterBlanks?, Option.bind_map, Option.map_bind,
    Function.comp_def]

/-- A run up to a parenthesis cannot be shorter than up to the first one. -/
theorem reads_closing :
    Reads closing fun s => (word? [')'] (s.dropWhile (· != ')'))).map fun rest => ([], rest) := by
  intro s
  have hone : Reads (inTurn [one (· == ')')]) fun s => (word? [')'] s).map fun rest => ([], rest) :=
    (Pattern.reads_one ')').inTurn_singleton
  have hrefuse : ∀ c s, (c != ')') = true → (inTurn [one (· == ')')]).ways (c :: s) = [] := by
    intro c s hc
    have hne : ')' ≠ c := Ne.symm (by simpa using hc)
    rw [hone]
    simp [word?, hne]
  exact (Pattern.ways_most_seq hrefuse s).trans (hone _)

/-- Reads on from the comma after the module. -/
def afterModule? : Text.Recogniser (List Char) := fun s =>
  (word? [')'] (s.dropWhile (· != ')'))).bind namespace?

/-- However many blanks are skipped after the comma, the parenthesis is the first one, and what follows
it leaves no choice. -/
theorem ways_closing_spacing {s rest : List Char} (h : rest ∈ Pattern.restsAfter isBlank s) :
    (Pattern.seq closing spacing).ways rest =
      oneWay ((afterModule? s).map fun p => ([p.1], p.2)) := by
  obtain ⟨run, hrun, rfl⟩ := Pattern.exists_append_of_mem_restsAfter h
  have hdrop : (run ++ rest).dropWhile (· != ')') = rest.dropWhile (· != ')') := by
    refine List.dropWhile_append_of_pos fun c hc => ?_
    have hne : c ≠ ')' := by
      rintro rfl
      exact absurd (hrun _ hc) (by decide)
    simpa using hne
  rw [reads_closing.seq reads_spacing, afterModule?, hdrop]
  congr 1
  simp [andThen, Option.bind_map, Option.map_bind, Function.comp_def]

/-- All ways on from the comma after the module are one. -/
theorem head?_ways_afterModule (s : List Char) :
    ((Pattern.seq blanks (Pattern.seq closing spacing)).ways s).head? =
      (afterModule? s).map fun p => ⟨[p.1], p.2⟩ := by
  have hways : (Pattern.seq blanks (Pattern.seq closing spacing)).ways s =
      (Pattern.restsAfter isBlank s).flatMap (Pattern.seq closing spacing).ways :=
    Pattern.ways_most_seq_eq_flatMap ..
  rw [hways]
  cases hafter : afterModule? s with
  | none =>
    rw [Option.map_none, List.head?_eq_none_iff, List.flatMap_eq_nil_iff]
    intro rest hrest
    rw [ways_closing_spacing hrest, hafter]
    rfl
  | some found =>
    have hone : ∀ rest ∈ Pattern.restsAfter isBlank s,
        (Pattern.seq closing spacing).ways rest = [⟨[found.1], found.2⟩] := by
      intro rest hrest
      rw [ways_closing_spacing hrest, hafter]
      rfl
    refine Pattern.head?_flatMap_of_forall (fun rest hrest => Or.inr ?_)
      ⟨s, Pattern.self_mem_restsAfter isBlank s, ?_⟩
    · rw [hone rest hrest]
      rfl
    · rw [hone s (Pattern.self_mem_restsAfter isBlank s)]
      exact List.cons_ne_nil _ _

/-- The pattern of an include is its opening, blanks, the first closing parenthesis and the namespace. -/
theorem ways_includeCall (s : List Char) :
    includeCall.ways s =
      (Pattern.seq moduleOpening (Pattern.seq blanks (Pattern.seq closing spacing))).ways s := by
  have hcut := Pattern.ways_inTurn_append
    [Pattern.word "include".toList, mark '(', mark '(', blanks, quoted, mark ',']
    [blanks, most (· != ')'), one (· == ')'), mark ',', blanks, Pattern.word "namespace".toList,
      mark '=', blanks, quoted] s
  have hclosing := Pattern.ways_inTurn_append [most (· != ')'), one (· == ')')]
    [mark ',', blanks, Pattern.word "namespace".toList, mark '=', blanks, quoted]
  refine hcut.trans (Pattern.ways_seq_congr (fun t => ?_) s)
  exact Pattern.ways_seq_congr hclosing t

/-- The preferred match of the pattern is what the reader reads. -/
theorem recogniser_includeCall (s : List Char) :
    (includeCall.recogniser s).map (fun p => (bindingOf p.1, p.2)) = Include.read? s := by
  cases hopen : head? s with
  | none =>
    have hways : includeCall.ways s = [] := by
      rw [ways_includeCall, reads_moduleOpening.ways_seq_of_none (by rw [hopen]; rfl)]
    rw [Pattern.recogniser, hways, Include.read?, hopen]
    rfl
  | some found =>
    obtain ⟨name, t⟩ := found
    have hways : (includeCall.ways s).head? =
        (afterModule? t).map fun p => ⟨[name, p.1], p.2⟩ := by
      have hread : (head? s).map (fun p => ([p.1], p.2)) = some ([name], t) := by
        rw [hopen]
        rfl
      rw [ways_includeCall, reads_moduleOpening.ways_seq_of_some hread, List.head?_map,
        head?_ways_afterModule, Option.map_map]
      rfl
    have hread : Include.read? s = (afterModule? t).map fun p =>
        (⟨moduleKey (String.ofList name), String.ofList p.1⟩, p.2) := by
      simp only [Include.read?, hopen, afterModule?, Option.bind_some, Option.map_bind]
      rfl
    have hlt := Include.read?_consumes s
    rw [Pattern.recogniser, hways, hread]
    rw [hread] at hlt
    cases hafter : afterModule? t with
    | none => rfl
    | some p =>
      rw [hafter] at hlt
      simpa [bindingOf] using hlt _ _ rfl

end Shape

/-! ## Whole texts -/

/-- Searching for the pattern and reading includes find the same bindings. -/
theorem Shape.bindings_eq_bindingsIn (s : List Char) : Shape.bindings s = bindingsIn s :=
  Text.map_occurrences _ _ Shape.recogniser_includeCall s

theorem leftmost_iff_bindingsIn {s : List Char} {bindings : List Binding} :
    Text.Leftmost Binds s bindings ↔ bindings = bindingsIn s :=
  Text.leftmost_iff_occurrences Include.read?_consumes fun _ _ _ => Include.read?_eq_some_iff

/-- A namespace that is bound is not empty and holds no quote. -/
theorem Binds.quotable {s rest : List Char} {b : Binding} (h : Binds s b rest) :
    Quotable b.space.toList := by
  cases h with
  | mk ho hc hn =>
    obtain ⟨b₁, b₂, b₃, b₄, w, -, -, -, -, ⟨q, q', -, -, hspace, -⟩, -⟩ := hn
    rwa [String.toList_ofList]

theorem quotable_of_mem_bindingsIn {s : List Char} {b : Binding} (h : b ∈ bindingsIn s) :
    Quotable b.space.toList := by
  have hleft : Text.Leftmost Binds s (bindingsIn s) := leftmost_iff_bindingsIn.mpr rfl
  exact hleft.forall_mem (fun s b rest h => h.quotable) b h

theorem slashFirstDot_of_notMem {reference : List Char} (h : '.' ∉ reference) :
    slashFirstDot reference = reference := by
  induction reference with
  | nil => rfl
  | cons c rest ih =>
    obtain ⟨hc, hrest⟩ := not_or.mp (mt List.mem_cons.mpr h)
    rw [slashFirstDot, if_neg (Ne.symm hc), ih hrest]

theorem slashFirstDot_append {front : List Char} (h : '.' ∉ front) (rest : List Char) :
    slashFirstDot (front ++ '.' :: rest) = front ++ '/' :: rest := by
  induction front with
  | nil => rfl
  | cons c front ih =>
    obtain ⟨hc, hfront⟩ := not_or.mp (mt List.mem_cons.mpr h)
    rw [List.cons_append, slashFirstDot, if_neg (Ne.symm hc), ih hfront, List.cons_append]

/-- `key` is `reference` with its first dot, if it has one, written as a slash. -/
def SlashesFirstDot (reference key : String) : Prop :=
  '.' ∉ reference.toList ∧ key = reference ∨
    ∃ front rest, '.' ∉ front.toList ∧ reference = front ++ "." ++ rest ∧ key = front ++ "/" ++ rest

theorem slashesFirstDot_iff {reference key : String} :
    SlashesFirstDot reference key ↔ key = moduleKey reference := by
  have hdotted : ∀ {front rest : String}, '.' ∉ front.toList →
      moduleKey (front ++ "." ++ rest) = front ++ "/" ++ rest := by
    intro front rest h
    have hlist : (front ++ "." ++ rest).toList = front.toList ++ '.' :: rest.toList := by simp
    rw [moduleKey, hlist, slashFirstDot_append h, ← String.toList_inj]
    simp
  constructor
  · rintro (⟨h, rfl⟩ | ⟨front, rest, h, rfl, rfl⟩)
    · rw [moduleKey, slashFirstDot_of_notMem h, String.ofList_toList]
    · exact (hdotted h).symm
  · rintro rfl
    by_cases h : '.' ∈ reference.toList
    · obtain ⟨front, rest, hsplit, hfront⟩ := List.eq_append_cons_of_mem h
      have hreference : reference = String.ofList front ++ "." ++ String.ofList rest := by
        rw [← String.toList_inj, hsplit]
        simp
      have hnone : '.' ∉ (String.ofList front).toList := by rwa [String.toList_ofList]
      refine Or.inr ⟨_, _, hnone, hreference, ?_⟩
      rw [hreference, hdotted hnone]
    · refine Or.inl ⟨h, ?_⟩
      rw [moduleKey, slashFirstDot_of_notMem h, String.ofList_toList]

/-- The bindings of a text are those of its leftmost includes, whether the pattern is searched for by
trying every way or the text is read in one pass; a key is the reference to its module with only the
first dot written as a slash. In the table of a text each key has the namespace of its last binding, and
the keys stand in the order in which they first come. -/
theorem leftmost_binds_iff (text : String) (bindings : List Binding) :
    (Text.Leftmost Binds text.toList bindings ↔ bindings = Shape.bindings text.toList) ∧
      bindingsIn text.toList = Shape.bindings text.toList ∧
      (∀ reference key, SlashesFirstDot reference key ↔ key = moduleKey reference) ∧
      (namespacesIn text.toList).keys = ((Shape.bindings text.toList).map Binding.key).eraseDups ∧
      ∀ key space, (namespacesIn text.toList).get? key = some space ↔ ∃ before after,
        Shape.bindings text.toList = before ++ ⟨key, space⟩ :: after ∧ ∀ b ∈ after, b.key ≠ key := by
  rw [Shape.bindings_eq_bindingsIn]
  refine ⟨leftmost_iff_bindingsIn, rfl, fun _ _ => slashesFirstDot_iff, ?_, fun key space => ?_⟩
  · rw [namespacesIn, Table.keys_ofList, List.map_map]
    rfl
  · rw [namespacesIn, Table.get?_ofList, Table.lastValue_map_eq_some_iff]
    constructor
    · rintro ⟨before, b, after, hsplit, hb, hafter⟩
      obtain ⟨rfl, rfl⟩ := Prod.mk.inj hb
      exact ⟨before, after, hsplit, hafter⟩
    · rintro ⟨before, after, hsplit, hafter⟩
      exact ⟨before, _, after, hsplit, rfl, hafter⟩

end RouteAtlas.Urlconf
