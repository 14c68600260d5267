import RouteAtlas.Proofs.Declaration
import RouteAtlas.Proofs.Include

/-!
# Texts that go on

When a text goes on, what was found in it is found again: every route but the last is the same, the last
one may only be given a name, and every binding is the same (`Text.Steadfast.continues`). A declaration
that the end of the text has cut off may become whole, but it takes no other one away: what it has before
the cut leaves no room for another one (`Urlconf.Room`).
-/

namespace RouteAtlas.Text

variable {α : Type} {read? : Recogniser α} {Same : α → α → Prop}

/-- What was found is found again, apart from the last value, which may have become another one. -/
def Continues (Same : α → α → Prop) (now later : List α) : Prop :=
  now <+: later ∨ ∃ front a a' more, now = front ++ [a] ∧ later = front ++ a' :: more ∧ Same a a'

namespace Continues

variable {now later : List α}

theorem cons (a : α) (h : Continues Same now later) : Continues Same (a :: now) (a :: later) := by
  rcases h with h | ⟨front, b, b', more, rfl, rfl, hsame⟩
  · exact Or.inl ((List.prefix_cons_inj a).mpr h)
  · exact Or.inr ⟨a :: front, b, b', more, rfl, rfl, hsame⟩

/-- What the last value keeps is kept of all values. -/
theorem begins_map {β : Type} {f : α → β} (h : Continues Same now later)
    (hf : ∀ a a', Same a a' → f a = f a') : now.map f <+: later.map f := by
  rcases h with h | ⟨front, a, a', more, rfl, rfl, hsame⟩
  · exact h.map f
  · refine ⟨more.map f, ?_⟩
    rw [List.map_append, List.map_append, List.map_cons, List.map_cons, hf a a' hsame]
    simp

/-- All values but the last stay as they are. -/
theorem begins_dropLast (h : Continues Same now later) : now.dropLast <+: later := by
  rcases h with h | ⟨front, a, a', more, rfl, rfl, -⟩
  · exact (List.dropLast_prefix now).trans h
  · rw [List.dropLast_concat]
    exact List.prefix_append _ _

theorem begins (h : Continues (· = ·) now later) : now <+: later := by
  have hmap := h.begins_map (f := id) fun _ _ => id
  rwa [List.map_id, List.map_id] at hmap

end Continues

/-- A reader of values that more text at the end does not take away. -/
structure Steadfast (read? : Recogniser α) (Same : α → α → Prop) : Prop where
  /-- Where only more text completes a value, no value came after. -/
  completed : ∀ s t, read? s = none → (read? (s ++ t)).isSome → ∀ i, read? (s.drop i) = none
  /-- A value stays as it is, or it was the last one. -/
  kept : ∀ s t a rest, read? s = some (a, rest) → read? (s ++ t) = some (a, rest ++ t) ∨
    ∃ a' rest', read? (s ++ t) = some (a', rest') ∧ Same a a' ∧ ∀ i, read? (rest.drop i) = none

theorem Steadfast.mono {Same' : α → α → Prop} (h : Steadfast read? Same)
    (hsame : ∀ a a', Same a a' → Same' a a') : Steadfast read? Same' where
  completed := h.completed
  kept s t a rest hread := by
    rcases h.kept s t a rest hread with hkept | ⟨a', rest', hread', haa', hnone⟩
    · exact Or.inl hkept
    · exact Or.inr ⟨a', rest', hread', hsame a a' haa', hnone⟩

theorem Steadfast.continues (h : Steadfast read? Same) (consumes : read?.Consumes) (s t : List Char) :
    Continues Same (occurrences read? consumes s) (occurrences read? consumes (s ++ t)) := by
  -- induction on the length: the search goes on after a value, or one character further
  induction hn : s.length using Nat.strongRecOn generalizing s with
  | _ n ih =>
    cases hnow : read? s with
    | some found =>
      obtain ⟨a, rest⟩ := found
      have hlt := consumes _ _ _ hnow
      rcases h.kept s t a rest hnow with hlater | ⟨a', rest', hlater, hsame, hnone⟩
      · rw [occurrences_of_some hnow, occurrences_of_some hlater]
        exact (ih _ (hn ▸ hlt) rest rfl).cons a
      · rw [occurrences_of_some hnow, occurrences_of_some hlater, occurrences_eq_nil hnone]
        exact Or.inr ⟨[], a, a', _, rfl, rfl, hsame⟩
    | none =>
      cases hlater : read? (s ++ t) with
      | some found =>
        have hsome : (read? (s ++ t)).isSome := by rw [hlater]; rfl
        rw [occurrences_eq_nil (h.completed s t hnow hsome)]
        exact Or.inl List.nil_prefix
      | none =>
        cases s with
        | nil =>
          rw [occurrences_nil]
          exact Or.inl List.nil_prefix
        | cons c s =>
          rw [List.cons_append] at hlater ⊢
          rw [occurrences_cons_of_none hnow, occurrences_cons_of_none hlater]
          exact ih s.length (by rw [← hn]; simp) s rfl

end RouteAtlas.Text

namespace RouteAtlas.Urlconf

open Text (isBlank)

/-! ## Room for a declaration -/

/-- The number of quotes in a text. -/
def quotes (s : List Char) : Nat := s.countP isQuote

theorem quotes_append (s t : List Char) : quotes (s ++ t) = quotes s + quotes t := List.countP_append

theorem IsQuote.ne {q c : Char} (hq : IsQuote q) (hc : isQuote c = false) : c ≠ q := by
  rintro rfl
  exact isQuote_eq_false_iff.mp hc hq

theorem quotes_cons {q : Char} (hq : IsQuote q) (s : List Char) : quotes (q :: s) = quotes s + 1 :=
  List.countP_cons_of_pos (isQuote_iff.mpr hq)

theorem quotes_eq_zero {s : List Char} (h : ∀ c ∈ s, ¬ IsQuote c) : quotes s = 0 :=
  List.countP_eq_zero.mpr fun c hc => by simp [isQuote_eq_false_iff.mpr (h c hc)]

theorem Blanks.quotes {b : List Char} (h : Blanks b) : quotes b = 0 := by
  refine quotes_eq_zero fun c hc hquote => ?_
  have hblank := h c hc
  rw [hquote.not_blank] at hblank
  exact absurd hblank (by simp)

theorem Blanks.notMem {b : List Char} (h : Blanks b) {c : Char} (hc : isBlank c = false) : c ∉ b := by
  intro hmem
  rw [h c hmem] at hc
  exact absurd hc (by simp)

/-- The text has room for a declaration: the mark `c`, with two quotes before it and enough after it. -/
def Room (c : Char) (Enough : List Char → Prop) (s : List Char) : Prop :=
  ∃ l r, s = l ++ c :: r ∧ 2 ≤ quotes l ∧ Enough r

variable {c : Char} {Enough : List Char → Prop} {s t : List Char}

/-- There is room in a text if there is room in an end of it. -/
theorem Room.of_drop {i : Nat} (h : Room c Enough (s.drop i)) : Room c Enough s := by
  obtain ⟨l, r, hs, hl, hr⟩ := h
  refine ⟨s.take i ++ l, r, ?_, ?_, hr⟩
  · rw [List.append_assoc, ← hs, List.take_append_drop]
  · rw [quotes_append]
    exact Nat.le_add_left_of_le hl

/-- There is room in a text if there is room in a beginning of it. -/
theorem Room.mono (hmore : ∀ r more, Enough r → Enough (r ++ more)) (h : Room c Enough s)
    (hst : s <+: t) : Room c Enough t := by
  obtain ⟨l, r, rfl, hl, hr⟩ := h
  obtain ⟨more, rfl⟩ := hst
  exact ⟨l, r ++ more, by simp, hl, hmore r more hr⟩

theorem not_room_of_quotes (h : quotes s < 2) : ¬ Room c Enough s := by
  rintro ⟨l, r, rfl, hl, -⟩
  rw [quotes_append] at h
  omega

/-- A mark stands in the first part of a text if what follows it is too much for the second. -/
theorem exists_left_of_append_eq {x y l r : List Char} {d : Char} (h : x ++ d :: y = l ++ c :: r)
    (hr : ¬ r <:+ y) : ∃ z, x = l ++ c :: z := by
  rcases List.append_eq_append_iff.mp h with ⟨z, rfl, hz⟩ | ⟨z, rfl, hz⟩
  · cases z with
    | nil => exact absurd (List.cons.inj hz).2 fun hy => hr (hy ▸ List.suffix_rfl)
    | cons e z => exact absurd ⟨z ++ [c], by simp [(List.cons.inj hz).2]⟩ hr
  · cases z with
    | nil => exact absurd (List.cons.inj hz).2 fun hy => hr (hy ▸ List.suffix_rfl)
    | cons e z => exact ⟨z, by rw [(List.cons.inj hz).1]⟩

/-- A mark stands in the second part of a text if what comes before it is too much for the first. -/
theorem mem_right_of_append_eq {x y l r : List Char} (h : x ++ y = l ++ c :: r) (hl : ¬ l <+: x) : c ∈ y := by
  rcases List.append_eq_append_iff.mp h with ⟨z, -, rfl⟩ | ⟨z, rfl, -⟩
  · simp
  · exact absurd (List.prefix_append l z) hl

/-- There is no room in a text that has the mark only where the quotes before it or what comes after it
do not suffice. -/
theorem not_room {front back y : List Char} (hfront : quotes front < 2) (hback : c ∉ back)
    (hy : ∀ r, Enough r → ¬ r <:+ y) : ¬ Room c Enough (front ++ back ++ c :: y) := by
  rintro ⟨l, r, h, hl, hr⟩
  obtain ⟨z, hz⟩ := exists_left_of_append_eq h (hy r hr)
  refine hback (mem_right_of_append_eq hz fun hprefix => ?_)
  have hle := hprefix.sublist.countP_le (p := isQuote)
  exact absurd (hl.trans hle) (Nat.not_le.mpr hfront)

/-- Where only more text completes a value, no value came after, if values need room and what is cut off
leaves none. -/
theorem read?_drop_eq_none {α : Type} {read? : Text.Recogniser α}
    (hmore : ∀ r more, Enough r → Enough (r ++ more))
    (hroom : ∀ s, (read? s).isSome → Room c Enough s) {w : List Char} (hs : s <+: w)
    (hw : ¬ Room c Enough w) (i : Nat) : read? (s.drop i) = none := by
  by_contra hne
  exact hw (((hroom _ (Option.isSome_iff_ne_none.mpr hne)).of_drop).mono hmore hs)

/-- Where only more text completes a value, the end of the text has cut off at least its last character. -/
theorem prefix_of_cut {P : List Char → Prop} {w rest : List Char} {d : Char}
    (h : s ++ t = w ++ [d] ++ rest) (hw : ∀ more, P (w ++ [d] ++ more)) (hs : ¬ P s) : s <+: w := by
  have hwhole : w ++ [d] <+: s ++ t := h ▸ List.prefix_append _ _
  rcases List.prefix_or_prefix_of_prefix (List.prefix_append s t) hwhole with hcut | ⟨more, rfl⟩
  · rcases List.prefix_concat_iff.mp hcut with rfl | hcut
    · exact absurd (by simpa using hw []) hs
    · exact hcut
  · exact absurd (hw more) hs

/-! ## Routes -/

namespace Declaration

variable {url name rest : List Char} {route : Route}

/-- The text of an opening; anything may follow it. -/
theorem Opens.exists_text (h : Opens s url rest) :
    ∃ front back, s = front ++ back ++ [','] ++ rest ∧ quotes front = 1 ∧ quotes back = 1 ∧
      ',' ∉ back ∧ ∀ more, Opens (front ++ back ++ [','] ++ more) url more := by
  obtain ⟨b₁, b₂, b₃, w, h₁, h₂, h₃, hw, rfl⟩ := h
  obtain ⟨q, q', hq, hq', hbody, rfl⟩ := id hw
  refine ⟨['p', 'a', 't', 'h'] ++ b₁ ++ ['('] ++ b₂ ++ q :: url, q' :: b₃, by simp, ?_, ?_, ?_,
    fun more => ⟨b₁, b₂, b₃, _, h₁, h₂, h₃, hw, by simp⟩⟩
  · have hword : quotes ['p', 'a', 't', 'h'] = 0 := by decide
    have hparenthesis : quotes ['('] = 0 := by decide
    simp only [quotes_append, quotes_cons hq, quotes_eq_zero hbody.2, h₁.quotes, h₂.quotes, hword,
      hparenthesis]
  · rw [quotes_cons hq', h₃.quotes]
  · rw [List.mem_cons, not_or]
    exact ⟨hq'.ne (by decide), h₃.notMem (by decide)⟩

/-- The text of a name; anything may follow it. -/
theorem Names.exists_text (h : Names s name rest) :
    ∃ w q, s = w ++ [q] ++ rest ∧ quotes w = 1 ∧ ∀ more, Names (w ++ [q] ++ more) name more := by
  obtain ⟨b₁, b₂, b₃, w, h₁, h₂, h₃, hw, rfl⟩ := h
  obtain ⟨q, q', hq, hq', hbody, rfl⟩ := id hw
  refine ⟨[','] ++ b₁ ++ ['n', 'a', 'm', 'e'] ++ b₂ ++ ['='] ++ b₃ ++ q :: name, q', by simp, ?_,
    fun more => ⟨b₁, b₂, b₃, _, h₁, h₂, h₃, hw, by simp⟩⟩
  have hcomma : quotes [','] = 0 := by decide
  have hword : quotes ['n', 'a', 'm', 'e'] = 0 := by decide
  have hequal : quotes ['='] = 0 := by decide
  simp only [quotes_append, quotes_cons hq, quotes_eq_zero hbody.2, h₁.quotes, h₂.quotes, h₃.quotes,
    hcomma, hword, hequal]

/-- A name is a name whatever follows it. -/
theorem Names.append (h : Names s name rest) (t : List Char) : Names (s ++ t) name (rest ++ t) := by
  obtain ⟨w, q, rfl, -, hmore⟩ := h.exists_text
  simpa using hmore (rest ++ t)

/-- What follows a declaration's handler may go on. -/
theorem Begins.append (h : Begins s url rest) (hrest : rest ≠ []) (t : List Char) :
    Begins (s ++ t) url (rest ++ t) := by
  obtain ⟨u, handler, ho, hne, hrun, hstop, rfl⟩ := h
  obtain ⟨front, back, rfl, -, -, -, hmore⟩ := ho.exists_text
  obtain ⟨c, rest, rfl⟩ := List.exists_cons_of_ne_nil hrest
  exact ⟨handler ++ (c :: rest ++ t), handler, by simpa using hmore (handler ++ (c :: rest ++ t)),
    hne, hrun, hstop, rfl⟩

/-- The text up to the first character of a handler, with which a declaration begins. -/
theorem Begins.exists_text (h : Begins s url rest) :
    ∃ front back c tail, s = front ++ back ++ [','] ++ [c] ++ tail ∧ quotes front = 1 ∧
      quotes back = 1 ∧ ',' ∉ back ∧
      ∀ more, ∃ rest', Begins (front ++ back ++ [','] ++ [c] ++ more) url rest' := by
  obtain ⟨u, handler, ho, hne, hrun, -, rfl⟩ := h
  obtain ⟨front, back, rfl, hfront, hback, hcomma, hmore⟩ := ho.exists_text
  obtain ⟨c, run, rfl⟩ := List.exists_cons_of_ne_nil hne
  refine ⟨front, back, c, run ++ rest, by simp, hfront, hback, hcomma, fun more => ?_⟩
  refine ⟨_, begins_iff.mpr ⟨c :: more, head?_eq_some_iff.mpr ?_, ?_, rfl⟩⟩
  · simpa using hmore (c :: more)
  · exact takeWhile_ne_nil_iff.mpr ⟨c, more, rfl, isHandler_iff.mpr (hrun c (by simp))⟩

/-- Where a declaration begins, one begins when the text goes on. -/
theorem Begins.exists_append (h : Begins s url rest) (t : List Char) :
    ∃ rest', Begins (s ++ t) url rest' := by
  obtain ⟨front, back, c, tail, rfl, -, -, -, hmore⟩ := h.exists_text
  simpa using hmore (tail ++ t)

/-- The url of a route is read before its name. -/
theorem exists_read?_of_begins (h : Begins s url rest) :
    ∃ name rest', read? s = some (⟨String.ofList url, name⟩, rest') := by
  rw [read?_of_begins h]
  cases name? rest with
  | none => exact ⟨_, _, rfl⟩
  | some named => exact ⟨_, _, rfl⟩

/-- A declaration needs room: its comma, with the quotes of its url before it and a handler after it. -/
theorem room_of_read? (h : (read? s).isSome) : Room ',' (· ≠ []) s := by
  obtain ⟨⟨route, rest⟩, hread⟩ := Option.isSome_iff_exists.mp h
  obtain ⟨url, t, hbegins⟩ := exists_begins_of_read? hread
  obtain ⟨front, back, c, tail, rfl, hfront, hback, -, -⟩ := hbegins.exists_text
  refine ⟨front ++ back, c :: tail, by simp, ?_, List.cons_ne_nil _ _⟩
  rw [quotes_append, hfront, hback]

/-- Nothing is read in what leaves no room. -/
theorem read?_drop_of_not_room {w : List Char} (hs : s <+: w) (hw : ¬ Room ',' (· ≠ []) w) (i : Nat) :
    read? (s.drop i) = none :=
  read?_drop_eq_none (fun r more hr => by simp [hr]) (fun _ => room_of_read?) hs hw i

/-- One route twice, the first time without a name. -/
def NameCut (r r' : Route) : Prop := r.url = r'.url ∧ r.name = ""

/-- What more text may give to a declaration is a name. -/
theorem steadfast_nameCut : Text.Steadfast read? NameCut where
  completed s t hnow hlater := by
    obtain ⟨⟨route, rest⟩, hread⟩ := Option.isSome_iff_exists.mp hlater
    obtain ⟨url, u, hbegins⟩ := exists_begins_of_read? hread
    obtain ⟨front, back, c, tail, hst, hfront, -, hcomma, hmore⟩ := hbegins.exists_text
    have hcut : s <+: front ++ back ++ [','] := by
      refine prefix_of_cut (P := fun s => ∃ url rest, Begins s url rest) hst
        (fun more => ⟨url, hmore more⟩) ?_
      rintro ⟨url', rest', hbegins'⟩
      obtain ⟨name, tail', hread'⟩ := exists_read?_of_begins hbegins'
      rw [hnow] at hread'
      exact absurd hread' (by simp)
    refine read?_drop_of_not_room hcut (not_room (by omega) hcomma fun r hr hnil => ?_)
    exact hr (List.suffix_nil.mp hnil)
  kept s t route rest hnow := by
    cases read?_eq_some_iff.mp hnow with
    | @named url u name _ hb hn =>
      refine Or.inl (read?_eq_some_iff.mpr (.named (hb.append ?_ t) (hn.append t)))
      obtain ⟨b₁, b₂, b₃, w, -, -, -, -, rfl⟩ := hn
      simp
    | @bare url _ hb hn =>
      by_cases hrest : rest = []
      · -- the handler ends with the text, and it may go on
        obtain ⟨rest', hb'⟩ := hb.exists_append t
        obtain ⟨name, tail, hlater⟩ := exists_read?_of_begins hb'
        refine Or.inr ⟨_, tail, hlater, ⟨rfl, rfl⟩, fun i => ?_⟩
        rw [hrest, List.drop_nil]
        rfl
      · have hb' := hb.append hrest t
        by_cases hname : ∃ name rest', Names (rest ++ t) name rest'
        · -- the end of the text has cut off a name
          obtain ⟨name, tail, hn'⟩ := hname
          refine Or.inr ⟨_, tail, read?_eq_some_iff.mpr (.named hb' hn'), ⟨rfl, rfl⟩, ?_⟩
          obtain ⟨w, q, htext, hw, hmore⟩ := hn'.exists_text
          have hcut : rest <+: w := by
            refine prefix_of_cut (P := fun s => ∃ rest, Names s name rest) htext
              (fun more => ⟨more, hmore more⟩) ?_
            rintro ⟨rest', hn'⟩
            exact hn name rest' hn'
          exact read?_drop_of_not_room hcut (not_room_of_quotes (by omega))
        · rw [not_exists] at hname
          exact Or.inl (read?_eq_some_iff.mpr (.bare hb' fun name rest' hn' => hname name ⟨rest', hn'⟩))

theorem steadfast : Text.Steadfast read? fun r r' => r.url = r'.url :=
  steadfast_nameCut.mono fun _ _ h => h.1

end Declaration

/-! ## Bindings -/

namespace Include

variable {name space rest : List Char} {binding : Binding}

/-- The text of an opening; anything may follow it. -/
theorem Opens.exists_text (h : Opens s name rest) :
    ∃ front back, s = front ++ back ++ rest ∧ quotes front = 1 ∧ quotes back = 1 ∧ ')' ∉ back ∧
      ∀ more, Opens (front ++ back ++ more) name more := by
  obtain ⟨b₁, b₂, b₃, b₄, w, h₁, h₂, h₃, h₄, hw, rfl⟩ := h
  obtain ⟨q, q', hq, hq', hbody, rfl⟩ := id hw
  refine ⟨['i', 'n', 'c', 'l', 'u', 'd', 'e'] ++ b₁ ++ ['('] ++ b₂ ++ ['('] ++ b₃ ++ q :: name,
    q' :: b₄ ++ [','], by simp, ?_, ?_, ?_, fun more => ⟨b₁, b₂, b₃, b₄, _, h₁, h₂, h₃, h₄, hw, by simp⟩⟩
  · have hword : quotes ['i', 'n', 'c', 'l', 'u', 'd', 'e'] = 0 := by decide
    have hparenthesis : quotes ['('] = 0 := by decide
    simp only [quotes_append, quotes_cons hq, quotes_eq_zero hbody.2, h₁.quotes, h₂.quotes, h₃.quotes,
      hword, hparenthesis]
  · have hcomma : quotes [','] = 0 := by decide
    rw [quotes_append, quotes_cons hq', h₄.quotes, hcomma]
  · rw [List.mem_append, List.mem_cons, not_or, not_or]
    exact ⟨⟨hq'.ne (by decide), h₄.notMem (by decide)⟩, by decide⟩

/-- The text of a namespace; anything may follow it. -/
theorem Names.exists_text (h : Names s space rest) :
    ∃ w q, s = w ++ [q] ++ rest ∧ quotes w = 1 ∧ IsQuote q ∧
      ∀ more, Names (w ++ [q] ++ more) space more := by
  obtain ⟨b₁, b₂, b₃, b₄, w, h₁, h₂, h₃, h₄, hw, rfl⟩ := h
  obtain ⟨q, q', hq, hq', hbody, rfl⟩ := id hw
  refine ⟨b₁ ++ [','] ++ b₂ ++ ['n', 'a', 'm', 'e', 's', 'p', 'a', 'c', 'e'] ++ b₃ ++ ['='] ++ b₄ ++
    q :: space, q', by simp, ?_, hq', fun more => ⟨b₁, b₂, b₃, b₄, _, h₁, h₂, h₃, h₄, hw, by simp⟩⟩
  have hcomma : quotes [','] = 0 := by decide
  have hword : quotes ['n', 'a', 'm', 'e', 's', 'p', 'a', 'c', 'e'] = 0 := by decide
  have hequal : quotes ['='] = 0 := by decide
  simp only [quotes_append, quotes_cons hq, quotes_eq_zero hbody.2, h₁.quotes, h₂.quotes, h₃.quotes,
    h₄.quotes, hcomma, hword, hequal]

end Include

/-- The text of an include: up to its module, up to the parenthesis, and up to its last quote. Anything
may follow it. -/
theorem Binds.exists_text {binding : Binding} {rest : List Char} (h : Binds s binding rest) :
    ∃ front back n q, s = front ++ back ++ ')' :: n ++ [q] ++ rest ∧ quotes front = 1 ∧
      1 ≤ quotes back ∧ ')' ∉ back ∧ quotes n = 1 ∧ IsQuote q ∧
      ∀ more, Binds (front ++ back ++ ')' :: n ++ [q] ++ more) binding more := by
  obtain ⟨ho, ⟨inner, hinner, rfl⟩, hn⟩ := h
  obtain ⟨front, back, rfl, hfront, hback, hclose, hopens⟩ := ho.exists_text
  obtain ⟨n, q, rfl, hn, hq, hnames⟩ := hn.exists_text
  refine ⟨front, back ++ inner, n, q, by simp, hfront, ?_, ?_, hn, hq, fun more => ?_⟩
  · rw [quotes_append, hback]
    exact Nat.le_add_right _ _
  · rw [List.mem_append, not_or]
    exact ⟨hclose, hinner⟩
  · refine .mk ?_ ⟨inner, hinner, rfl⟩ (hnames more)
    simpa using hopens (inner ++ [')'] ++ (n ++ [q] ++ more))

namespace Include

theorem room_of_read? (h : (read? s).isSome) : Room ')' (2 ≤ quotes ·) s := by
  obtain ⟨⟨binding, rest⟩, hread⟩ := Option.isSome_iff_exists.mp h
  obtain ⟨front, back, n, q, rfl, hfront, hback, -, hn, hq, -⟩ :=
    (read?_eq_some_iff.mp hread).exists_text
  have hafter : 2 ≤ quotes (n ++ [q] ++ rest) := by
    rw [quotes_append, quotes_append, quotes_cons hq]
    omega
  refine ⟨front ++ back, n ++ [q] ++ rest, by simp, ?_, hafter⟩
  rw [quotes_append]
  omega

theorem steadfast : Text.Steadfast read? (· = ·) where
  completed s t hnow hlater := by
    obtain ⟨⟨binding, rest⟩, hread⟩ := Option.isSome_iff_exists.mp hlater
    obtain ⟨front, back, n, q, hst, hfront, -, hclose, hn, -, hmore⟩ :=
      (read?_eq_some_iff.mp hread).exists_text
    have hcut : s <+: front ++ back ++ ')' :: n := by
      refine prefix_of_cut (P := fun s => ∃ rest, Binds s binding rest) hst
        (fun more => ⟨more, hmore more⟩) ?_
      rintro ⟨rest', hbinds⟩
      rw [read?_eq_some_iff.mpr hbinds] at hnow
      exact absurd hnow (by simp)
    refine read?_drop_eq_none (fun r more hr => ?_) (fun s => room_of_read?) hcut
      (not_room (by omega) hclose fun r hr hsuffix => ?_)
    · rw [quotes_append]
      exact Nat.le_add_right_of_le hr
    · have hle := hsuffix.sublist.countP_le (p := isQuote)
      exact absurd (hr.trans hle) (by rw [← quotes, hn]; decide)
  kept s t binding rest hnow := by
    obtain ⟨front, back, n, q, rfl, -, -, -, -, -, hmore⟩ := (read?_eq_some_iff.mp hnow).exists_text
    refine Or.inl (read?_eq_some_iff.mpr ?_)
    simpa using hmore (rest ++ t)

end Include

/-! ## Whole texts -/

/-- Text that is added at the end of a text takes nothing away from what the text declares: the urls of
its routes are still the first ones, and so are its routes but the last one, which may be given a name,
and its bindings. -/
theorem routes_bindings_append (t s : String) :
    (read false t).routes.map Route.url <+: (read false (t ++ s)).routes.map Route.url ∧
      (read false t).routes.dropLast <+: (read false (t ++ s)).routes ∧
      bindingsIn t.toList <+: bindingsIn (t ++ s).toList := by
  have hroutes := Declaration.steadfast.continues Declaration.read?_consumes t.toList s.toList
  have hbindings := Include.steadfast.continues Include.read?_consumes t.toList s.toList
  have hread : ∀ text, (read false text).routes = routesIn text.toList := fun _ => rfl
  rw [hread, hread, String.toList_append]
  exact ⟨hroutes.begins_map fun _ _ => id, hroutes.begins_dropLast, hbindings.begins⟩

end RouteAtlas.Urlconf
