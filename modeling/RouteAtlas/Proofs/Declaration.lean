import RouteAtlas.Proofs.Occurrences
import RouteAtlas.Proofs.Pattern

/-!
# Route declarations, by their grammar

A declaration is described by what the text is made of, with no reader and no trying: the word, the
parenthesis, the quoted url and the comma, then the longest run of handler characters, then the name
if one follows. The reader accepts exactly these texts (`Declaration.read?_eq_some_iff`), and so does
the pattern, although its runs of blanks and of handler characters overlap
(`Shape.recogniser_declaration`): a handler of blanks alone is found by giving blanks back, and every
way of giving some back ends the handler at the same place.
-/

namespace RouteAtlas.Urlconf

open Text (isBlank skipBlanks)

namespace Declaration

/-- `s` starts with the word, the parenthesis, a quoted `url` and the comma; `rest` follows. -/
def Opens (s url rest : List Char) : Prop :=
  ∃ b₁ b₂ b₃ w, Blanks b₁ ∧ Blanks b₂ ∧ Blanks b₃ ∧ Quoted url w ∧
    s = ['p', 'a', 't', 'h'] ++ b₁ ++ ['('] ++ b₂ ++ w ++ b₃ ++ [','] ++ rest

/-- `handler` is a longest run of characters other than commas and closing parentheses, of at least
one character, at the start of `s`; `rest` follows. -/
def Handles (s handler rest : List Char) : Prop :=
  handler ≠ [] ∧ (∀ c ∈ handler, c ≠ ',' ∧ c ≠ ')') ∧ (∀ c ∈ rest.head?, c = ',' ∨ c = ')') ∧
    s = handler ++ rest

/-- `s` starts with a comma and a quoted `name` after its keyword; `rest` follows. -/
def Names (s name rest : List Char) : Prop :=
  ∃ b₁ b₂ b₃ w, Blanks b₁ ∧ Blanks b₂ ∧ Blanks b₃ ∧ Quoted name w ∧
    s = [','] ++ b₁ ++ ['n', 'a', 'm', 'e'] ++ b₂ ++ ['='] ++ b₃ ++ w ++ rest

/-- A declaration of `url` starts at the start of `s`, and its handler ends before `rest`. -/
def Begins (s url rest : List Char) : Prop :=
  ∃ t handler, Opens s url t ∧ Handles t handler rest

end Declaration

/-- A route is declared at the start of a text, with what follows the declaration. A name that
directly follows the handler belongs to the declaration; where none does, the declaration ends with
the handler. -/
inductive Declares : List Char → Route → List Char → Prop where
  | named {s url t name rest : List Char} (hb : Declaration.Begins s url t)
      (hn : Declaration.Names t name rest) :
      Declares s ⟨String.ofList url, String.ofList name⟩ rest
  | bare {s url t : List Char} (hb : Declaration.Begins s url t)
      (hn : ∀ name rest, ¬ Declaration.Names t name rest) : Declares s ⟨String.ofList url, ""⟩ t

namespace Declaration

theorem isHandler_iff {c : Char} : isHandler c = true ↔ c ≠ ',' ∧ c ≠ ')' := by
  simp [isHandler]

theorem isHandler_eq_false_iff {c : Char} : isHandler c = false ↔ c = ',' ∨ c = ')' := by
  rw [← Bool.not_eq_true, isHandler_iff, not_and_or, not_not, not_not]

/-! ## The reader -/

theorem head?_eq_some_iff {s url rest : List Char} :
    head? s = some (url, rest) ↔ Opens s url rest := by
  simp only [head?, Option.bind_eq_some_iff, Option.map_eq_some_iff, Prod.mk.injEq,
    word?_eq_some_iff, wordAfterBlanks?_eq_some_iff (by decide : isBlank '(' = false),
    wordAfterBlanks?_eq_some_iff (by decide : isBlank ',' = false), Prod.exists,
    quotedAfterBlanks?_eq_some_iff]
  constructor
  · rintro ⟨s₁, rfl, s₂, ⟨b₁, h₁, rfl⟩, u, s₃, ⟨b₂, w, h₂, hw, rfl⟩, s₄, ⟨b₃, h₃, rfl⟩, rfl, rfl⟩
    exact ⟨b₁, b₂, b₃, w, h₁, h₂, h₃, hw, by simp⟩
  · rintro ⟨b₁, b₂, b₃, w, h₁, h₂, h₃, hw, rfl⟩
    simp only [List.append_assoc]
    exact ⟨_, rfl, _, ⟨b₁, h₁, rfl⟩, url, _, ⟨b₂, w, h₂, hw, rfl⟩, rest, ⟨b₃, h₃, rfl⟩, rfl, rfl⟩

theorem name?_eq_some_iff {s name rest : List Char} :
    name? s = some (name, rest) ↔ Names s name rest := by
  simp only [name?, Option.bind_eq_some_iff, word?_eq_some_iff,
    wordAfterBlanks?_eq_some_iff (by decide : isBlank 'n' = false),
    wordAfterBlanks?_eq_some_iff (by decide : isBlank '=' = false), quotedAfterBlanks?_eq_some_iff]
  constructor
  · rintro ⟨s₁, rfl, s₂, ⟨b₁, h₁, rfl⟩, s₃, ⟨b₂, h₂, rfl⟩, b₃, w, h₃, hw, rfl⟩
    exact ⟨b₁, b₂, b₃, w, h₁, h₂, h₃, hw, by simp⟩
  · rintro ⟨b₁, b₂, b₃, w, h₁, h₂, h₃, hw, rfl⟩
    simp only [List.append_assoc]
    exact ⟨_, rfl, _, ⟨b₁, h₁, rfl⟩, _, ⟨b₂, h₂, rfl⟩, b₃, w, h₃, hw, rfl⟩

theorem name?_eq_none_iff {s : List Char} :
    name? s = none ↔ ∀ name rest, ¬ Names s name rest := by
  simp only [Option.eq_none_iff_forall_ne_some, Prod.forall, ne_eq, name?_eq_some_iff]

/-- The handler is the longest run of its characters, when that is not empty. -/
theorem handles_iff {s handler rest : List Char} :
    Handles s handler rest ↔
      handler ≠ [] ∧ handler = s.takeWhile isHandler ∧ rest = s.dropWhile isHandler := by
  constructor
  · rintro ⟨hne, hrun, hstop, rfl⟩
    have hrun' : ∀ c ∈ handler, isHandler c = true := fun c hc => isHandler_iff.mpr (hrun c hc)
    have hstop' : ∀ c ∈ rest.head?, isHandler c = false := fun c hc =>
      isHandler_eq_false_iff.mpr (hstop c hc)
    exact ⟨hne, (takeWhile_append_of_stop hrun' hstop').symm,
      (dropWhile_append_of_stop hrun' hstop').symm⟩
  · rintro ⟨hne, rfl, rfl⟩
    exact ⟨hne, fun c hc => isHandler_iff.mp (List.mem_takeWhile_imp hc),
      fun c hc => isHandler_eq_false_iff.mp (head?_dropWhile_stop isHandler s c hc),
      List.takeWhile_append_dropWhile.symm⟩

/-- Where a declaration begins, the reader has read its url and stands before a handler. -/
theorem begins_iff {s url rest : List Char} :
    Begins s url rest ↔ ∃ t, head? s = some (url, t) ∧ t.takeWhile isHandler ≠ [] ∧
      rest = t.dropWhile isHandler := by
  constructor
  · rintro ⟨t, handler, ho, hh⟩
    obtain ⟨hne, rfl, rfl⟩ := handles_iff.mp hh
    exact ⟨t, head?_eq_some_iff.mpr ho, hne, rfl⟩
  · rintro ⟨t, ho, hne, rfl⟩
    exact ⟨t, _, head?_eq_some_iff.mp ho, handles_iff.mpr ⟨hne, rfl, rfl⟩⟩

/-- What the reader gives where a declaration begins. -/
theorem read?_of_begins {s url t : List Char} (h : Begins s url t) :
    read? s = some (match name? t with
      | some (name, rest) => (⟨String.ofList url, String.ofList name⟩, rest)
      | none => (⟨String.ofList url, ""⟩, t)) := by
  obtain ⟨s', hs', hne, rfl⟩ := begins_iff.mp h
  have hempty : (s'.takeWhile isHandler).isEmpty = false := by
    rw [List.isEmpty_eq_false_iff]
    exact hne
  rw [read?, hs', Option.bind_some]
  simp only [hempty, Bool.false_eq_true, if_false]
  cases name? (s'.dropWhile isHandler) <;> rfl

/-- Nothing is read where no declaration begins. -/
theorem exists_begins_of_read? {s : List Char} {route : Route} {rest : List Char}
    (h : read? s = some (route, rest)) : ∃ url t, Begins s url t := by
  rw [read?, Option.bind_eq_some_iff] at h
  obtain ⟨⟨url, s'⟩, hs', h⟩ := h
  dsimp only at h
  split at h
  · exact absurd h (by simp)
  · rename_i hne
    refine ⟨url, _, begins_iff.mpr ⟨s', hs', fun hnil => hne ?_, rfl⟩⟩
    rw [hnil]
    rfl

/-- The reader accepts the declarations of the grammar and nothing else. -/
theorem read?_eq_some_iff {s : List Char} {route : Route} {rest : List Char} :
    read? s = some (route, rest) ↔ Declares s route rest := by
  constructor
  · intro h
    obtain ⟨url, t, hb⟩ := exists_begins_of_read? h
    rw [read?_of_begins hb] at h
    cases hn : name? t with
    | some found =>
      obtain ⟨rfl, rfl⟩ : _ ∧ _ := by simpa [hn] using h
      exact .named hb (name?_eq_some_iff.mp hn)
    | none =>
      obtain ⟨rfl, rfl⟩ : _ ∧ _ := by simpa [hn] using h
      exact .bare hb (name?_eq_none_iff.mp hn)
  · intro h
    cases h with
    | named hb hn => rw [read?_of_begins hb, name?_eq_some_iff.mpr hn]
    | bare hb hn => rw [read?_of_begins hb, name?_eq_none_iff.mpr hn]

end Declaration

/-! ## The pattern -/

namespace Shape

open Pattern (Reads oneWay inTurn one optional andThen)
open Declaration (head? name? isHandler)

/-- The pattern of the name after a handler. -/
def naming : Pattern :=
  inTurn [one (· == ','), blanks, Pattern.word "name".toList, mark '=', blanks, quoted]

/-- The pattern up to the handler. -/
def opening : Pattern :=
  inTurn [Pattern.word "path".toList, mark '(', blanks, quoted, mark ',']

/-- The pattern of the handler and what may follow it. -/
def handling : Pattern := inTurn [blanks, Pattern.some isHandler, blanks, optional naming]

theorem reads_opening : Reads opening fun s => (head? s).map fun p => ([p.1], p.2) := by
  have hquoted := Pattern.reads_quoted.seq
    (Pattern.reads_mark (c := ',') (by decide)).inTurn_singleton
  have hblanks := hquoted.blanks fun c s hc => by
    simp [andThen, Pattern.quotedText?_of_blank hc]
  have h := (Pattern.reads_word ['p', 'a', 't', 'h']).seq
    ((Pattern.reads_mark (c := '(') (by decide)).seq hblanks)
  intro s
  refine (h s).trans ?_
  congr 1
  simp [andThen, head?, quotedAfterBlanks?, Option.bind_map, Option.map_bind, Function.comp_def]

theorem reads_naming : Reads naming fun s => (name? s).map fun p => ([p.1], p.2) := by
  have hquoted := Pattern.reads_quoted.inTurn_singleton.blanks fun c s hc => by
    rw [Pattern.quotedText?_of_blank hc]; rfl
  have hmark := (Pattern.reads_mark (c := '=') (by decide)).seq hquoted
  have hword := ((Pattern.reads_word ['n', 'a', 'm', 'e']).seq hmark).blanks fun c s hc => by
    rw [andThen, Pattern.word?_of_blank (by decide) hc]; rfl
  have h := (Pattern.reads_one ',').seq hword
  intro s
  refine (h s).trans ?_
  congr 1
  simp [andThen, name?, wordAfterBlanks?, quotedAfterBlanks?, Option.bind_map, Option.map_bind,
    Function.comp_def]

theorem blank_isHandler {c : Char} (hc : isBlank c = true) : isHandler c = true := by
  rw [Declaration.isHandler_iff]
  constructor <;> rintro rfl <;> exact absurd hc (by decide)

/-- The way that is preferred after a handler. -/
def afterHandler (t : List Char) : Pattern.Way :=
  match name? t with
  | some (name, rest) => ⟨[name], rest⟩
  | none => ⟨[], t⟩

/-- After a handler no blanks are left, and the name is preferred to nothing. -/
theorem head?_ways_afterHandler {t : List Char} (ht : ∀ c ∈ t.head?, isHandler c = false) :
    ((inTurn [blanks, optional naming]).ways t).head? = some (afterHandler t) := by
  have hrests : Pattern.restsAfter isBlank t = [t] := by
    cases t with
    | nil => rfl
    | cons c t =>
      have hc : isBlank c = false := by
        rw [← Bool.not_eq_true]
        intro hblank
        have := ht c rfl
        rw [blank_isHandler hblank] at this
        exact absurd this (by simp)
      simp [Pattern.restsAfter, hc]
  have hways : (inTurn [blanks, optional naming]).ways t = naming.ways t ++ [⟨[], t⟩] := by
    have hseq := Pattern.ways_most_seq_eq_flatMap isBlank (inTurn [optional naming]) t
    rw [hrests, List.flatMap_singleton] at hseq
    refine hseq.trans ?_
    simp [inTurn, Pattern.ways_seq, Pattern.ways, Pattern.Way.after]
  rw [hways, reads_naming, afterHandler]
  cases hn : name? t <;> simp [hn]

/-- The longest handler is preferred, and the name is looked for after it. -/
theorem head?_ways_handler {c : Char} {s : List Char} (hc : isHandler c = true) :
    ((inTurn [Pattern.some isHandler, blanks, optional naming]).ways (c :: s)).head? =
      some (afterHandler ((c :: s).dropWhile isHandler)) := by
  obtain ⟨shorter, hrests⟩ := Pattern.restsAfter_eq_cons isHandler s
  have hseq : (inTurn [Pattern.some isHandler, blanks, optional naming]).ways (c :: s) =
      (Pattern.restsAfter isHandler s).flatMap (inTurn [blanks, optional naming]).ways := by
    have hin : inTurn [Pattern.some isHandler, blanks, optional naming] =
        .seq (Pattern.some isHandler) (inTurn [blanks, optional naming]) := rfl
    rw [hin, Pattern.ways_seq, Pattern.ways_some_cons, if_pos hc, List.flatMap_map]
    congr 1
    funext rest
    exact List.map_id _
  have hdrop : (c :: s).dropWhile isHandler = s.dropWhile isHandler := by
    rw [List.dropWhile_cons, if_pos hc]
  rw [hseq, hrests, List.flatMap_cons, List.head?_append, hdrop,
    head?_ways_afterHandler (head?_dropWhile_stop isHandler s), Option.some_or]

/-- Without a handler nothing matches. -/
theorem ways_handler_eq_nil {s : List Char} (hs : s.takeWhile isHandler = []) :
    (inTurn [Pattern.some isHandler, blanks, optional naming]).ways s = [] := by
  cases s with
  | nil => rfl
  | cons c s =>
    have hc : isHandler c ≠ true := fun hc => takeWhile_ne_nil_iff.mpr ⟨c, s, rfl, hc⟩ hs
    have hin : inTurn [Pattern.some isHandler, blanks, optional naming] =
        .seq (Pattern.some isHandler) (inTurn [blanks, optional naming]) := rfl
    rw [hin, Pattern.ways_seq, Pattern.ways_some_cons, if_neg hc, List.flatMap_nil]

/-- Where a handler starts, there is a preferred way through it. -/
theorem head?_ways_handler_of_ne_nil {s : List Char} (hs : s.takeWhile isHandler ≠ []) :
    ((inTurn [Pattern.some isHandler, blanks, optional naming]).ways s).head? =
      some (afterHandler (s.dropWhile isHandler)) := by
  obtain ⟨c, rest, rfl, hc⟩ := takeWhile_ne_nil_iff.mp hs
  exact head?_ways_handler hc

/-- Blanks before a handler belong to it, whether they are given back or not: the handler ends at the
same place. -/
theorem head?_ways_handling (s : List Char) :
    (handling.ways s).head? =
      if s.takeWhile isHandler = [] then none else some (afterHandler (s.dropWhile isHandler)) := by
  have hways : handling.ways s = (Pattern.restsAfter isBlank s).flatMap
      (inTurn [Pattern.some isHandler, blanks, optional naming]).ways :=
    Pattern.ways_most_seq_eq_flatMap ..
  rw [hways]
  split
  · rename_i hnil
    -- a text that starts with no handler starts with no blank either
    rw [List.head?_eq_none_iff, List.flatMap_eq_nil_iff]
    intro rest hrest
    obtain ⟨run, hrun, rfl⟩ := Pattern.exists_append_of_mem_restsAfter hrest
    cases run with
    | nil => exact ways_handler_eq_nil hnil
    | cons c run =>
      have hc := blank_isHandler (hrun c (by simp))
      exact absurd hnil (takeWhile_ne_nil_iff.mpr ⟨c, _, rfl, hc⟩)
  · rename_i hne
    refine Pattern.head?_flatMap_of_forall (fun rest hrest => ?_)
      ⟨s, Pattern.self_mem_restsAfter isBlank s, fun hnil => ?_⟩
    · by_cases hrun : rest.takeWhile isHandler = []
      · exact Or.inl (ways_handler_eq_nil hrun)
      · refine Or.inr ?_
        rw [head?_ways_handler_of_ne_nil hrun]
        obtain ⟨run, hblank, rfl⟩ := Pattern.exists_append_of_mem_restsAfter hrest
        rw [List.dropWhile_append_of_pos fun c hc => blank_isHandler (hblank c hc)]
    · have h := head?_ways_handler_of_ne_nil hne
      rw [hnil] at h
      exact absurd h (by simp)

/-- The pattern of a declaration is its opening followed by its handler. -/
theorem ways_declaration (s : List Char) :
    declaration.ways s = (Pattern.seq opening handling).ways s :=
  Pattern.ways_inTurn_append
    [Pattern.word "path".toList, mark '(', blanks, quoted, mark ',']
    [blanks, Pattern.some isHandler, blanks, optional naming] s

/-- The preferred match of the pattern is what the reader reads. -/
theorem recogniser_declaration (s : List Char) :
    (declaration.recogniser s).map (fun p => (routeOf p.1, p.2)) = Declaration.read? s := by
  cases hopen : head? s with
  | none =>
    have hways : declaration.ways s = [] := by
      rw [ways_declaration, reads_opening.ways_seq_of_none (by rw [hopen]; rfl)]
    rw [Pattern.recogniser, hways, Declaration.read?, hopen]
    rfl
  | some found =>
    obtain ⟨url, t⟩ := found
    have hways : (declaration.ways s).head? =
        ((handling.ways t).head?).map (Pattern.Way.after [url]) := by
      have hread : (head? s).map (fun p => ([p.1], p.2)) = some ([url], t) := by
        rw [hopen]
        rfl
      rw [ways_declaration, reads_opening.ways_seq_of_some hread, List.head?_map]
    rw [Pattern.recogniser, hways, head?_ways_handling]
    by_cases hnil : t.takeWhile isHandler = []
    · rw [if_pos hnil, Declaration.read?, hopen, Option.bind_some]
      simp [hnil]
    · have hb : Declaration.Begins s url (t.dropWhile isHandler) :=
        Declaration.begins_iff.mpr ⟨t, hopen, hnil, rfl⟩
      have hread := Declaration.read?_of_begins hb
      have hlt := fun route rest => Declaration.read?_consumes s route rest
      rw [if_neg hnil, hread, afterHandler]
      cases hn : name? (t.dropWhile isHandler) with
      | none =>
        rw [hread, hn] at hlt
        simpa [Pattern.Way.after, routeOf] using hlt _ _ rfl
      | some named =>
        rw [hread, hn] at hlt
        simpa [Pattern.Way.after, routeOf] using hlt _ _ rfl

end Shape

/-! ## Whole texts -/

/-- The url of a declared route is not empty, and neither its url nor its name holds a quote. -/
theorem Declares.unquoted {s rest : List Char} {route : Route} (h : Declares s route rest) :
    Quotable route.url.toList ∧ ∀ c ∈ route.name.toList, ¬ IsQuote c := by
  have hurl : ∀ {url t}, Declaration.Begins s url t → Quotable (String.ofList url).toList := by
    rintro url t ⟨u, handler, ⟨b₁, b₂, b₃, w, -, -, -, ⟨q, q', -, -, hbody, -⟩, -⟩, -⟩
    rwa [String.toList_ofList]
  cases h with
  | named hb hn =>
    obtain ⟨b₁, b₂, b₃, w, -, -, -, ⟨q, q', -, -, hname, -⟩, -⟩ := hn
    exact ⟨hurl hb, by rw [String.toList_ofList]; exact hname.2⟩
  | bare hb hn => exact ⟨hurl hb, by simp⟩

/-- Searching for the pattern and reading declarations find the same routes. -/
theorem Shape.routes_eq_routesIn (s : List Char) : Shape.routes s = routesIn s :=
  Text.map_occurrences _ _ Shape.recogniser_declaration s

theorem leftmost_iff_routesIn {s : List Char} {routes : List Route} :
    Text.Leftmost Declares s routes ↔ routes = routesIn s :=
  Text.leftmost_iff_occurrences Declaration.read?_consumes fun _ _ _ => Declaration.read?_eq_some_iff

/-- The routes of a text are those of its leftmost declarations, whether the pattern is searched for
by trying every way or the text is read in one pass; none of them holds a quote. -/
theorem leftmost_declares_iff (text : String) (routes : List Route) :
    (Text.Leftmost Declares text.toList routes ↔ routes = Shape.routes text.toList) ∧
      (Urlconf.read false text).routes = Shape.routes text.toList ∧
      ∀ route ∈ Shape.routes text.toList,
        Quotable route.url.toList ∧ ∀ c ∈ route.name.toList, ¬ IsQuote c := by
  rw [Shape.routes_eq_routesIn]
  refine ⟨leftmost_iff_routesIn, rfl, ?_⟩
  have hleft : Text.Leftmost Declares text.toList (routesIn text.toList) :=
    leftmost_iff_routesIn.mpr rfl
  exact hleft.forall_mem fun s route rest h => h.unquoted

end RouteAtlas.Urlconf
