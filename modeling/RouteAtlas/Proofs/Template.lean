import Mathlib.Data.List.Basic
import RouteAtlas.Snippet
import RouteAtlas.Snippet.Format

/-!
# Templates, by their tokens

A text is a template if and only if it is made of tokens: characters other than braces, braces written
twice, and the two known fields, with or without an empty format (`Template.Token`). What a template
becomes is what its tokens become, one after another (`Snippet.template_agrees`). The tokens are code
points, so that halves of surrogate pairs are characters like others.
-/

namespace RouteAtlas

namespace WideText

/-- What is shown for a code point. -/
def shown (n : Nat) : Char := if isHalf n then replacement else Char.ofNat n

theorem shown_toNat (c : Char) : shown c.toNat = c := by
  rw [shown, isHalf_toNat]
  exact Char.ofNat_toNat c

theorem toNat_shown {n : Nat} (hn : n < 0x110000) (hhalf : isHalf n = false) :
    (shown n).toNat = n := by
  rw [shown, hhalf, if_neg (by decide)]
  exact toNat_ofNat hn hhalf

/-- A character that is no mark is shown for its own code point only. -/
theorem shown_eq_iff {n : Nat} (hn : n < 0x110000) {c : Char} (hc : c ≠ replacement) :
    shown n = c ↔ n = c.toNat := by
  constructor
  · intro h
    cases hhalf : isHalf n with
    | true => exact absurd (h.symm.trans (by rw [shown, hhalf]; rfl)) hc
    | false => rw [← h, toNat_shown hn hhalf]
  · rintro rfl
    exact shown_toNat c

theorem toList_rendition (w : WideText) : w.rendition.toList = w.codes.map shown := by
  cases w with
  | plain s =>
    have hself : (s.toList.map Char.toNat).map shown = s.toList := by
      rw [List.map_map]
      exact List.map_id'' shown_toNat s.toList
    exact hself.symm
  | unpaired codes => exact String.toList_ofList ..

end WideText

namespace Template

open WideText (isHalf shown shown_eq_iff)

/-! ## Tokens -/

/-- The known fields: the bare name, or the reference. -/
def word (qualified : Bool) : String := if qualified then "reference" else "name"

/-- What a template is made of. -/
inductive Token where
  /-- A code point that is no brace. -/
  | code (n : Nat) (h : n ≠ '{'.toNat ∧ n ≠ '}'.toNat)
  /-- An opening brace, written twice. -/
  | opening
  /-- A closing brace, written twice. -/
  | closing
  /-- A field, perhaps with a colon before its end. -/
  | field (qualified colon : Bool)

namespace Token

/-- The code points of a token. -/
def written : Token → List Nat
  | code n _ => [n]
  | opening => ['{'.toNat, '{'.toNat]
  | closing => ['}'.toNat, '}'.toNat]
  | field qualified colon =>
    '{'.toNat :: (Format.codes (word qualified) ++ (if colon then [':'.toNat] else []) ++ ['}'.toNat])

/-- What a token becomes. -/
def filled (name reference : String) : Token → List Nat
  | code n _ => [n]
  | opening => ['{'.toNat]
  | closing => ['}'.toNat]
  | field qualified _ => Format.codes (if qualified then reference else name)

/-- The part of a template that a token is. -/
def piece : Token → Piece
  | code n _ => if isHalf n then .half n else .char (Char.ofNat n)
  | opening => .char '{'
  | closing => .char '}'
  | field qualified _ => if qualified then .reference else .name

/-- The part that is read where marks stand for halves. -/
def shownPiece : Token → Piece
  | code n _ => .char (shown n)
  | t => t.piece

end Token

/-! ## Tokens are read -/

theorem readFrom_token {t : Token} (ht : ∀ n ∈ t.written, n < 0x110000) (done : List Piece)
    (rest : List Char) :
    readFrom .text done (t.written.map shown ++ rest) = readFrom .text (t.shownPiece :: done) rest := by
  cases t with
  | code n h =>
    have hn : n < 0x110000 := ht n (by simp [Token.written])
    have hopen : shown n ≠ '{' := fun he => h.1 ((shown_eq_iff hn (by decide)).mp he)
    have hclose : shown n ≠ '}' := fun he => h.2 ((shown_eq_iff hn (by decide)).mp he)
    simp [Token.written, readFrom, step, hopen, hclose, Token.shownPiece]
  | opening => rfl
  | closing => rfl
  | field qualified colon => cases qualified <;> cases colon <;> rfl

theorem readFrom_tokens {tokens : List Token}
    (h : ∀ n ∈ tokens.flatMap Token.written, n < 0x110000) (done : List Piece) :
    readFrom .text done ((tokens.flatMap Token.written).map shown) =
      .ok (done.reverse ++ tokens.map Token.shownPiece) := by
  induction tokens generalizing done with
  | nil => simp [readFrom, finish, Except.map]
  | cons t tokens ih =>
    rw [List.flatMap_cons, List.forall_mem_append] at h
    rw [List.flatMap_cons, List.map_append, readFrom_token h.1, ih h.2]
    simp

/-! ## Nothing else is read -/

theorem readFrom_cons (state : Reading) (done : List Piece) (c : Char) (s : List Char) :
    readFrom state done (c :: s) = match step state c with
      | .error e => .error e
      | .ok (some p, next) => readFrom next (p :: done) s
      | .ok (none, next) => readFrom next done s := rfl

/-- A field that asks for something has no reading, wherever its format ends. -/
theorem readFrom_format_ne_ok (name : List Char) (depth : Nat) (done : List Piece) (s : List Char)
    (pieces : List Piece) : readFrom (.format name true depth) done s ≠ .ok pieces := by
  induction s generalizing depth with
  | nil => simp [readFrom, finish, Except.map]
  | cons c s ih =>
    rw [readFrom_cons, step]
    by_cases hc : c = '}'
    · by_cases hd : depth = 0
      · simp [hc, hd, fieldPiece, Except.map]
      · simpa [hc, hd] using ih (depth - 1)
    · simpa [hc] using ih _

theorem readFrom_converted_ne_ok (name : List Char) (done : List Piece) (s : List Char)
    (pieces : List Piece) : readFrom (.converted name true) done s ≠ .ok pieces := by
  cases s with
  | nil => simp [readFrom, finish, Except.map]
  | cons c s =>
    rw [readFrom_cons, step]
    by_cases hc : c = '}'
    · simp [hc, fieldPiece, Except.map]
    · by_cases hcolon : c = ':'
      · simpa [hcolon] using readFrom_format_ne_ok name 0 done s pieces
      · simp [hc, hcolon]

theorem readFrom_conversion_ne_ok {s : List Char} (hs : '\x00' ∉ s) (name : List Char)
    (done : List Piece) (pieces : List Piece) :
    readFrom (.conversion name) done s ≠ .ok pieces := by
  cases s with
  | nil => simp [readFrom, finish, Except.map]
  | cons c s =>
    have hc : c ≠ '\x00' := fun he => hs (he ▸ List.mem_cons_self)
    rw [readFrom_cons, step]
    simpa [hc] using readFrom_converted_ne_ok name done s pieces

/-- A format that is read is empty. -/
theorem readFrom_format {name s : List Char} {done pieces : List Piece}
    (h : readFrom (.format name false 0) done s = .ok pieces) :
    ∃ p rest, s = '}' :: rest ∧ fieldPiece name false = .ok p ∧
      readFrom .text (p :: done) rest = .ok pieces := by
  cases s with
  | nil => exact absurd h (by simp [readFrom, finish, Except.map])
  | cons c s =>
    rw [readFrom_cons, step] at h
    by_cases hc : c = '}'
    · cases hp : fieldPiece name false with
      | error e => simp [hc, hp, Except.map] at h
      | ok p => exact ⟨p, s, by rw [hc], rfl, by simpa [hc, hp, Except.map] using h⟩
    · refine absurd h ?_
      simpa [hc] using readFrom_format_ne_ok name _ done s pieces

/-- A field that is read has its name, perhaps a colon, and its end. -/
theorem readFrom_field {s : List Char} (hs : '\x00' ∉ s) {name : List Char} {bracketed : Bool}
    {done pieces : List Piece} (h : readFrom (.field name bracketed) done s = .ok pieces) :
    ∃ body, ∃ colon : Bool, ∃ p rest, s = body ++ ((if colon then [':'] else []) ++ '}' :: rest) ∧
      fieldPiece (body.reverse ++ name) false = .ok p ∧
      readFrom .text (p :: done) rest = .ok pieces := by
  induction s generalizing name bracketed with
  | nil => exact absurd h (by simp [readFrom, finish, Except.map])
  | cons c s ih =>
    have hs' : '\x00' ∉ s := fun hmem => hs (List.mem_cons_of_mem _ hmem)
    have hmore : ∀ b, readFrom (.field (c :: name) b) done s = .ok pieces →
        ∃ body, ∃ colon : Bool, ∃ p rest, c :: s = body ++ ((if colon then [':'] else []) ++ '}' :: rest) ∧
          fieldPiece (body.reverse ++ name) false = .ok p ∧
          readFrom .text (p :: done) rest = .ok pieces := by
      intro b hb
      obtain ⟨body, colon, p, rest, rfl, hp, hrest⟩ := ih hs' hb
      exact ⟨c :: body, colon, p, rest, rfl, by simpa using hp, hrest⟩
    rw [readFrom_cons] at h
    cases bracketed with
    | true => exact hmore _ h
    | false =>
      rw [step] at h
      by_cases hopen : c = '{'
      · exact absurd h (by simp [hopen])
      by_cases hclose : c = '}'
      · cases hp : fieldPiece name false with
        | error e => exact absurd h (by simp [hclose, hp, Except.map])
        | ok p =>
          refine ⟨[], false, p, s, by simp [hclose], hp, ?_⟩
          simpa [hclose, hp, Except.map] using h
      by_cases hcolon : c = ':'
      · have hformat : readFrom (.format name false 0) done s = .ok pieces := by
          simpa [hcolon] using h
        obtain ⟨p, rest, rfl, hp, hrest⟩ := readFrom_format hformat
        exact ⟨[], true, p, rest, by simp [hcolon], hp, hrest⟩
      by_cases hbang : c = '!'
      · refine absurd h ?_
        simpa [hbang] using readFrom_conversion_ne_ok hs' name done pieces
      · refine hmore (decide (c = '[')) ?_
        simpa [hopen, hclose, hcolon, hbang] using h

theorem fieldPiece_eq_ok {name : List Char} {p : Piece} (h : fieldPiece name false = .ok p) :
    ∃ qualified, name.reverse = (word qualified).toList := by
  simp only [fieldPiece] at h
  split at h
  · contradiction
  · split at h
    · rename_i hname
      exact ⟨false, by rw [word, ← String.toList_ofList (l := name.reverse), hname]; rfl⟩
    · split at h
      · rename_i hname
        exact ⟨true, by rw [word, ← String.toList_ofList (l := name.reverse), hname]; rfl⟩
      · exact absurd h (by simp)

/-- The code points for which characters other than marks are shown. -/
theorem map_shown_eq {codes : List Nat} (hcodes : ∀ n ∈ codes, n < 0x110000) {s : List Char}
    (hs : WideText.replacement ∉ s) (h : codes.map shown = s) : codes = s.map Char.toNat := by
  induction codes generalizing s with
  | nil =>
    subst h
    rfl
  | cons n codes ih =>
    obtain ⟨hn, hrest⟩ := List.forall_mem_cons.mp hcodes
    subst h
    rw [List.map_cons, List.mem_cons, not_or] at hs
    have hfirst : n = (shown n).toNat := (shown_eq_iff hn (Ne.symm hs.1)).mp rfl
    have hmore : codes = (codes.map shown).map Char.toNat := ih hrest hs.2 rfl
    rw [List.map_cons, List.map_cons, ← hfirst, ← hmore]

/-- Code points for which a text starts as `s` start with the code points of `s`. -/
theorem map_shown_eq_append {codes : List Nat} (hcodes : ∀ n ∈ codes, n < 0x110000)
    {s rest : List Char} (hs : WideText.replacement ∉ s) (h : codes.map shown = s ++ rest) :
    ∃ more, codes = s.map Char.toNat ++ more ∧ more.map shown = rest := by
  obtain ⟨first, more, rfl, hfirst, hmore⟩ := List.map_eq_append_iff.mp h
  refine ⟨more, ?_, hmore⟩
  rw [map_shown_eq (fun n hn => hcodes n (List.mem_append_left _ hn)) hs hfirst]

theorem not_mem_map_shown {codes : List Nat} (hcodes : ∀ n ∈ codes, n < 0x110000 ∧ n ≠ 0) :
    '\x00' ∉ codes.map shown := by
  intro hmem
  obtain ⟨n, hn, hshown⟩ := List.mem_map.mp hmem
  exact (hcodes n hn).2 ((shown_eq_iff (hcodes n hn).1 (by decide)).mp hshown)

/-- A field that is read is a token. -/
theorem exists_field {codes : List Nat} (hcodes : ∀ n ∈ codes, n < 0x110000 ∧ n ≠ 0)
    {done pieces : List Piece}
    (h : readFrom (.field [] false) done (codes.map shown) = .ok pieces) :
    ∃ qualified colon p rest, '{'.toNat :: codes = (Token.field qualified colon).written ++ rest ∧
      readFrom .text (p :: done) (rest.map shown) = .ok pieces := by
  obtain ⟨body, colon, p, rest, hsplit, hp, hread⟩ := readFrom_field (not_mem_map_shown hcodes) h
  obtain ⟨qualified, hword⟩ := fieldPiece_eq_ok hp
  rw [List.append_nil, List.reverse_reverse] at hword
  subst hword
  have hfield : codes.map shown =
      ((word qualified).toList ++ (if colon then [':'] else []) ++ ['}']) ++ rest := by
    rw [hsplit, List.append_assoc, List.append_assoc]
    rfl
  have hmark : WideText.replacement ∉
      (word qualified).toList ++ (if colon then [':'] else []) ++ ['}'] := by
    cases qualified <;> cases colon <;> decide
  obtain ⟨more, rfl, rfl⟩ := map_shown_eq_append (fun n hn => (hcodes n hn).1) hmark hfield
  refine ⟨qualified, colon, p, more, ?_, hread⟩
  cases qualified <;> cases colon <;> rfl

theorem exists_tokens {codes : List Nat} (hcodes : ∀ n ∈ codes, n < 0x110000 ∧ n ≠ 0)
    {done pieces : List Piece} (h : readFrom .text done (codes.map shown) = .ok pieces) :
    ∃ tokens : List Token, codes = tokens.flatMap Token.written := by
  -- by the length, since a field takes many code points at once
  induction hlength : codes.length using Nat.strongRecOn generalizing codes done with
  | _ length ih =>
    subst hlength
    have hmore : ∀ (t : Token) (rest : List Nat) (done : List Piece), codes = t.written ++ rest →
        t.written ≠ [] → readFrom .text done (rest.map shown) = .ok pieces →
        ∃ tokens : List Token, codes = tokens.flatMap Token.written := by
      intro t rest done hsplit hne hread
      have hsub : ∀ m ∈ rest, m < 0x110000 ∧ m ≠ 0 := fun m hm =>
        hcodes m (hsplit ▸ List.mem_append_right _ hm)
      have hlt : rest.length < codes.length := by
        have hpos : 0 < t.written.length := List.length_pos_iff.mpr hne
        rw [hsplit, List.length_append]
        omega
      obtain ⟨tokens, htokens⟩ := ih _ hlt hsub hread rfl
      exact ⟨t :: tokens, by rw [hsplit, htokens, List.flatMap_cons]⟩
    cases codes with
    | nil => exact ⟨[], rfl⟩
    | cons n codes =>
      obtain ⟨hn, hrest⟩ := List.forall_mem_cons.mp hcodes
      rw [List.map_cons, readFrom_cons, step] at h
      by_cases hopen : n = '{'.toNat
      · subst hopen
        rw [WideText.shown_toNat, if_pos rfl] at h
        cases codes with
        | nil => exact absurd h (by simp [readFrom, finish, Except.map])
        | cons m codes =>
          by_cases hm : m = '{'.toNat
          · subst hm
            exact hmore .opening codes (.char '{' :: done) rfl (by decide) h
          · have hshown : shown m ≠ '{' := fun he =>
              hm ((shown_eq_iff (hrest m List.mem_cons_self).1 (by decide)).mp he)
            have hfield : readFrom (.field [] false) done ((m :: codes).map shown) = .ok pieces := by
              simpa [readFrom_cons, step, hshown] using h
            obtain ⟨qualified, colon, p, rest, hsplit, hread⟩ := exists_field hrest hfield
            exact hmore (.field qualified colon) rest (p :: done) hsplit (by simp [Token.written]) hread
      · by_cases hclose : n = '}'.toNat
        · subst hclose
          rw [WideText.shown_toNat, if_neg (by decide), if_pos rfl] at h
          cases codes with
          | nil => exact absurd h (by simp [readFrom, finish, Except.map])
          | cons m codes =>
            by_cases hm : shown m = '}'
            · have hm' : m = '}'.toNat :=
                (shown_eq_iff (hrest m List.mem_cons_self).1 (by decide)).mp hm
              subst hm'
              exact hmore .closing codes (.char '}' :: done) rfl (by decide) h
            · exact absurd h (by simp [readFrom_cons, step, hm])
        · have hopen' : shown n ≠ '{' := fun he => hopen ((shown_eq_iff hn.1 (by decide)).mp he)
          have hclose' : shown n ≠ '}' := fun he => hclose ((shown_eq_iff hn.1 (by decide)).mp he)
          exact hmore (.code n ⟨hopen, hclose⟩) codes (.char (shown n) :: done) rfl (by simp [Token.written])
            (by simpa [hopen', hclose'] using h)

/-! ## What tokens become -/

theorem marked_append (first rest : List Nat) :
    marked (first ++ rest) = marked first ++ marked rest := List.filter_append ..

/-- Marks are put back one token at a time. -/
theorem restore_token {t : Token} (ht : ∀ n ∈ t.written, n < 0x110000) (codes : List Nat)
    (pieces : List Piece) :
    restore (marked t.written ++ codes) (t.shownPiece :: pieces) = t.piece :: restore codes pieces := by
  have hother : ∀ c : Char, c ≠ WideText.replacement →
      restore codes (.char c :: pieces) = .char c :: restore codes pieces := by
    intro c hc
    cases codes <;> simp [restore, hc]
  cases t with
  | code n h =>
    have hn : n < 0x110000 := ht n (by simp [Token.written])
    cases hhalf : isHalf n with
    | true => simp [Token.written, marked, hhalf, Token.shownPiece, Token.piece, shown, restore]
    | false =>
      by_cases hmark : n = WideText.replacement.toNat
      · subst hmark
        rfl
      · have hne : shown n ≠ WideText.replacement := by
          intro he
          exact hmark (by rw [← WideText.toNat_shown hn hhalf, he])
        have hshown : shown n = Char.ofNat n := by simp [shown, hhalf]
        simpa [Token.written, marked, hhalf, hmark, Token.shownPiece, Token.piece, hshown] using
          hother (shown n) hne
  | opening => exact hother '{' (by decide)
  | closing => exact hother '}' (by decide)
  | field qualified colon =>
    cases qualified <;> cases colon <;> cases codes <;> rfl

theorem restore_tokens {tokens : List Token}
    (h : ∀ n ∈ tokens.flatMap Token.written, n < 0x110000) :
    restore (marked (tokens.flatMap Token.written)) (tokens.map Token.shownPiece) =
      tokens.map Token.piece := by
  induction tokens with
  | nil => rfl
  | cons t tokens ih =>
    rw [List.flatMap_cons, List.forall_mem_append] at h
    rw [List.flatMap_cons, marked_append, List.map_cons, restore_token h.1, ih h.2, List.map_cons]

/-- Without halves the parts are as they are shown. -/
theorem shownPiece_eq_piece {t : Token} (ht : ∀ n ∈ t.written, isHalf n = false) :
    t.shownPiece = t.piece := by
  cases t with
  | code n h =>
    have hn : isHalf n = false := ht n (by simp [Token.written])
    simp [Token.shownPiece, Token.piece, shown, hn]
  | opening => rfl
  | closing => rfl
  | field qualified colon => rfl

theorem ofWide_tokens {w : WideText} (hw : ∀ n ∈ w.codes, n < 0x110000) {tokens : List Token}
    (h : w.codes = tokens.flatMap Token.written) :
    ofWide w = .ok ⟨w, tokens.map Token.piece⟩ := by
  have hread : read w.rendition = .ok (tokens.map Token.shownPiece) := by
    rw [read, WideText.toList_rendition, h]
    exact readFrom_tokens (fun n hn => hw n (h ▸ hn)) []
  cases w with
  | plain s =>
    have hself : tokens.map Token.shownPiece = tokens.map Token.piece := by
      refine List.map_congr_left fun t ht => shownPiece_eq_piece fun n hn => ?_
      have hmem : n ∈ (WideText.plain s).codes := h ▸ List.mem_flatMap.mpr ⟨t, ht, hn⟩
      obtain ⟨c, -, rfl⟩ := List.mem_map.mp hmem
      exact WideText.isHalf_toNat c
    have hplain : read s = .ok (tokens.map Token.shownPiece) := hread
    rw [ofWide, ofText, hplain, hself]
    rfl
  | unpaired codes =>
    have hcodes : codes = tokens.flatMap Token.written := h
    rw [ofWide, hread, hcodes, ← restore_tokens fun n hn => hw n (h ▸ hn)]
    rfl

theorem codes_fillPiece {t : Token} (ht : ∀ n ∈ t.written, n < 0x110000) (name reference : String) :
    (fillPiece name reference t.piece).codes = t.filled name reference := by
  cases t with
  | code n h =>
    have hn : n < 0x110000 := ht n (by simp [Token.written])
    cases hhalf : isHalf n with
    | true => simp [Token.piece, hhalf, fillPiece, WideText.codes, Token.filled]
    | false =>
      have hself : (Char.ofNat n).toNat = n := by
        have hshown := WideText.toNat_shown hn hhalf
        rwa [shown, hhalf, if_neg (by decide)] at hshown
      simp [Token.piece, hhalf, fillPiece, WideText.codes, Token.filled, hself]
  | opening => rfl
  | closing => rfl
  | field qualified colon => cases qualified <;> rfl

theorem fill_tokens {tokens : List Token} (h : ∀ n ∈ tokens.flatMap Token.written, n < 0x110000)
    (w : WideText) (name reference : String) :
    (Template.mk w (tokens.map Token.piece)).fill name reference =
      .ofCodes (tokens.flatMap (Token.filled name reference)) := by
  rw [fill, WideText.concat, List.map_map, List.flatMap_map]
  congr 1
  refine List.flatMap_congr fun t ht => ?_
  exact codes_fillPiece (fun n hn => h n (List.mem_flatMap.mpr ⟨t, ht, hn⟩)) name reference

theorem exists_tokens_of_ofWide {w : WideText} (hw : ∀ n ∈ w.codes, n < 0x110000 ∧ n ≠ 0)
    {t : Template} (h : ofWide w = .ok t) :
    ∃ tokens : List Token, w.codes = tokens.flatMap Token.written := by
  have hread : ∃ pieces, read w.rendition = .ok pieces := by
    cases hpieces : read w.rendition with
    | ok pieces => exact ⟨pieces, rfl⟩
    | error e =>
      have hwide : ofWide w = .error e := by
        cases w with
        | plain s =>
          have hs : read s = .error e := hpieces
          rw [ofWide, ofText, hs]
          rfl
        | unpaired codes =>
          rw [ofWide, hpieces]
          rfl
      rw [hwide] at h
      contradiction
  obtain ⟨pieces, hpieces⟩ := hread
  rw [read, WideText.toList_rendition] at hpieces
  exact exists_tokens hw hpieces

/-! ## Templates with halves -/

/-- Halves are no part of a brace or a field, so that each stays where it is. -/
theorem Token.half_mem_filled {t : Token} {n : Nat} (hn : n ∈ t.written) (hhalf : isHalf n = true)
    (name reference : String) : n ∈ t.filled name reference := by
  have hword : ∀ qualified, n ∉ Format.codes (word qualified) := by
    intro qualified hn
    obtain ⟨c, -, rfl⟩ := List.mem_map.mp hn
    exact absurd hhalf (by simp [WideText.isHalf_toNat])
  have hlarge : 0xD800 ≤ n := by
    simp only [isHalf, WideText.isFirstHalf, WideText.isSecondHalf, Bool.or_eq_true,
      Bool.and_eq_true, decide_eq_true_eq] at hhalf
    omega
  cases t with
  | code m h => exact hn
  | opening =>
    simp [Token.written] at hn
    omega
  | closing =>
    simp [Token.written] at hn
    omega
  | field qualified colon =>
    cases colon <;> simp [Token.written, hword] at hn <;> omega

/-- A template with a half gives texts with that half. -/
theorem fill_unpaired {w : WideText} {t : Template} (hw : ∀ n ∈ w.codes, n < 0x110000 ∧ n ≠ 0)
    (hhalf : w.codes.any isHalf = true) (h : ofWide w = .ok t) (name reference : String) :
    ∃ codes, t.fill name reference = .unpaired codes := by
  have hcodes : ∀ n ∈ w.codes, n < 0x110000 := fun n hn => (hw n hn).1
  obtain ⟨tokens, htokens⟩ := exists_tokens_of_ofWide hw h
  obtain rfl : (⟨w, tokens.map Token.piece⟩ : Template) = t :=
    Except.ok.inj ((ofWide_tokens hcodes htokens).symm.trans h)
  obtain ⟨n, hn, hhalf⟩ := List.any_eq_true.mp hhalf
  rw [htokens] at hn
  obtain ⟨token, htoken, hn⟩ := List.mem_flatMap.mp hn
  have hfilled : (tokens.flatMap (Token.filled name reference)).any isHalf = true :=
    List.any_eq_true.mpr ⟨n, List.mem_flatMap.mpr
      ⟨token, htoken, token.half_mem_filled hn hhalf name reference⟩, hhalf⟩
  rw [fill_tokens (fun n hn => hcodes n (htokens ▸ hn))]
  exact ⟨_, if_pos hfilled⟩

/-! ## Templates of characters -/

theorem fieldPiece_ne_half {name : List Char} {asked : Bool} {p : Piece}
    (h : fieldPiece name asked = .ok p) (n : Nat) : p ≠ .half n := by
  simp only [fieldPiece] at h
  split at h
  · cases h
  split at h
  · cases h
    simp
  split at h
  · cases h
    simp
  · cases h

theorem step_ne_half {state next : Reading} {c : Char} {p : Piece}
    (h : step state c = .ok (some p, next)) (n : Nat) : p ≠ .half n := by
  have hfield : ∀ name asked, ((fieldPiece name asked).map fun p => (some p, Reading.text)) =
      .ok (some p, next) → p ≠ .half n := by
    intro name asked hmap
    cases hpiece : fieldPiece name asked with
    | error e =>
      rw [hpiece] at hmap
      cases hmap
    | ok p' =>
      rw [hpiece] at hmap
      cases hmap
      exact fieldPiece_ne_half hpiece n
  have hname : ∀ name, (if c = '{' then Except.error Refusal.openInName
      else if c = '}' then (fieldPiece name false).map fun p => (some p, Reading.text)
      else if c = ':' then .ok (none, .format name false 0)
      else if c = '!' then .ok (none, .conversion name)
      else .ok (none, .field (c :: name) (c = '['))) = .ok (some p, next) → p ≠ .half n := by
    intro name h
    split at h
    · cases h
    split at h
    · exact hfield name false h
    split at h
    · cases h
    split at h <;> cases h
  cases state with
  | text =>
    rw [step] at h
    split at h
    · cases h
    split at h <;> cases h
    simp
  | opened =>
    rw [step] at h
    split at h
    · cases h
      simp
    · rename_i hc
      exact hname [] (by rw [if_neg hc]; exact h)
  | closing =>
    rw [step] at h
    split at h <;> cases h
    simp
  | field name bracketed =>
    cases bracketed with
    | false => exact hname name h
    | true => cases h
  | conversion name => cases h
  | converted name asked =>
    rw [step] at h
    split at h
    · exact hfield name asked h
    split at h <;> cases h
  | format name asked depth =>
    rw [step] at h
    split at h
    · split at h
      · exact hfield name asked h
      · cases h
    · cases h

/-- Characters are read as parts that are characters or fields. -/
theorem readFrom_ne_half {state : Reading} {done pieces : List Piece} {s : List Char}
    (hdone : ∀ p ∈ done, ∀ n, p ≠ .half n) (h : readFrom state done s = .ok pieces) :
    ∀ p ∈ pieces, ∀ n, p ≠ .half n := by
  induction s generalizing state done with
  | nil =>
    unfold readFrom at h
    cases hfinish : finish state with
    | error e =>
      rw [hfinish] at h
      cases h
    | ok u =>
      rw [hfinish] at h
      cases h
      simpa using hdone
  | cons c s ih =>
    rw [readFrom_cons] at h
    split at h
    · cases h
    · rename_i p next hstep
      exact ih (List.forall_mem_cons.mpr ⟨step_ne_half hstep, hdone⟩) h
    · exact ih hdone h

/-- A template of characters gives texts of characters. -/
theorem fill_plain {s : String} {t : Template} (h : ofWide (.plain s) = .ok t)
    (name reference : String) : ∃ line, t.fill name reference = .plain line := by
  obtain ⟨pieces, hread, rfl⟩ : ∃ pieces, read s = .ok pieces ∧ t = ⟨.plain s, pieces⟩ := by
    rw [ofWide, ofText] at h
    cases hread : read s with
    | error e =>
      rw [hread] at h
      cases h
    | ok pieces =>
      rw [hread] at h
      cases h
      exact ⟨pieces, rfl, rfl⟩
  have hpieces : ∀ p ∈ pieces, ∀ n, p ≠ .half n := readFrom_ne_half (by simp) hread
  have hwhole : ((pieces.map (fillPiece name reference)).flatMap WideText.codes).any isHalf = false := by
    rw [List.any_eq_false]
    intro n hn
    obtain ⟨w, hw, hn⟩ := List.mem_flatMap.mp hn
    obtain ⟨p, hp, rfl⟩ := List.mem_map.mp hw
    have hplain : ∀ s : String, n ∈ (WideText.plain s).codes → ¬ isHalf n = true := by
      intro s hs
      obtain ⟨c, -, rfl⟩ := List.mem_map.mp hs
      simp [WideText.isHalf_toNat]
    cases p with
    | half m => exact absurd rfl (hpieces _ hp m)
    | char c => exact hplain _ hn
    | name => exact hplain _ hn
    | reference => exact hplain _ hn
  exact ⟨_, if_neg (by simp [hwhole])⟩

/-! ## The renderer's own walk -/

namespace Format

theorem fill_doubled (name reference : String) {n : Nat} (hn : n = '{'.toNat ∨ n = '}'.toNat)
    (rest : List Nat) :
    fill name reference (n :: n :: rest) = (fill name reference rest).map (n :: ·) := by
  rw [fill.eq_def]
  dsimp only
  rw [if_pos hn, if_pos rfl]

theorem fill_field (name reference : String) {s rest : List Nat} {f : Field}
    (h : field? s = .ok (f, rest)) (hs : s.head? ≠ some '{'.toNat) :
    fill name reference ('{'.toNat :: s) =
      match value? name reference f with
      | .error e => .error e
      | .ok value => (fill name reference rest).map (value ++ ·) := by
  cases s with
  | nil => exact absurd h (by simp [field?, name?])
  | cons m s =>
    have hm : m ≠ '{'.toNat := fun he => hs (he ▸ rfl)
    rw [fill.eq_def]
    dsimp only
    rw [if_pos (.inl rfl), if_neg hm, if_neg (by decide)]
    split
    · rename_i e he
      rw [h] at he
      contradiction
    · rename_i f' rest' he
      rw [h] at he
      cases he
      rfl

theorem fill_token (t : Token) (name reference : String) (rest : List Nat) :
    fill name reference (t.written ++ rest) =
      (fill name reference rest).map (t.filled name reference ++ ·) := by
  cases t with
  | code n h =>
    rw [Token.written, List.singleton_append, fill.eq_def]
    dsimp only
    rw [if_neg (not_or.mpr h)]
    rfl
  | opening => exact fill_doubled name reference (.inl rfl) rest
  | closing => exact fill_doubled name reference (.inr rfl) rest
  | field qualified colon =>
    have hfield : field? (codes (word qualified) ++ (if colon then [':'.toNat] else []) ++
        ['}'.toNat] ++ rest) = .ok (⟨codes (word qualified), none, []⟩, rest) := by
      cases qualified <;> cases colon <;> rfl
    have hvalue : value? name reference ⟨codes (word qualified), none, []⟩ =
        .ok (codes (if qualified then reference else name)) := by
      cases qualified <;> rfl
    rw [Token.written, List.cons_append, fill_field name reference hfield, hvalue]
    · rfl
    · cases qualified <;> cases colon <;> exact fun he => absurd (Option.some.inj he) (by decide)

theorem fill_tokens (tokens : List Token) (name reference : String) :
    fill name reference (tokens.flatMap Token.written) =
      .ok (tokens.flatMap (Token.filled name reference)) := by
  induction tokens with
  | nil => simp [fill]
  | cons t tokens ih =>
    rw [List.flatMap_cons, fill_token, ih]
    rfl

end Format

end Template

namespace Snippet

open Template (Token Format.fill)

/-- A refused template is a faulty argument. -/
theorem template_eq_error {w : WideText} {f : Fault} (h : template w = .error f) :
    ∃ r : Report, f = .report r none ∧ r.kind = .validation ∧ r.code = .invalidArguments := by
  rw [template] at h
  split at h
  · contradiction
  · cases h
    exact ⟨_, rfl, rfl, rfl⟩

theorem template_tokens {w : WideText} (hw : ∀ n ∈ w.codes, n < 0x110000) {tokens : List Token}
    (h : w.codes = tokens.flatMap Token.written) :
    template w = .ok ⟨w, tokens.map Token.piece⟩ := by
  rw [template, Template.ofWide_tokens hw h]

theorem tokens_of_template {w : WideText} (hw : ∀ n ∈ w.codes, n < 0x110000 ∧ n ≠ 0) {t : Template}
    (h : template w = .ok t) : ∃ tokens : List Token, w.codes = tokens.flatMap Token.written := by
  rw [template] at h
  split at h
  · rename_i hwide
    exact Template.exists_tokens_of_ofWide hw hwide
  · contradiction

/-- Texts without the null character are templates just when they are made of tokens. A template
becomes what its tokens become, on either way of filling it in, whatever the key, the route and the
namespaces. Other texts are refused as faulty arguments. -/
theorem template_agrees (w : WideText) (hw : ∀ n ∈ w.codes, n < 0x110000 ∧ n ≠ 0) :
    ((∃ t, template w = .ok t) ↔ ∃ tokens : List Token, w.codes = tokens.flatMap Token.written) ∧
    (∀ t (tokens : List Token), template w = .ok t → w.codes = tokens.flatMap Token.written →
      ∀ key (route : Route) namespaces,
        let filled := tokens.flatMap (Token.filled route.name (reference key route.name namespaces))
        render t key route namespaces = .ofCodes filled ∧
          Format.fill route.name (reference key route.name namespaces) w.codes = .ok filled) ∧
    ∀ f, template w = .error f →
      ∃ r : Report, f = .report r none ∧ r.kind = .validation ∧ r.code = .invalidArguments := by
  have hcodes : ∀ n ∈ w.codes, n < 0x110000 := fun n hn => (hw n hn).1
  refine ⟨⟨?_, ?_⟩, ?_, fun f => template_eq_error⟩
  · rintro ⟨t, ht⟩
    exact tokens_of_template hw ht
  · rintro ⟨tokens, htokens⟩
    exact ⟨_, template_tokens hcodes htokens⟩
  · intro t tokens ht htokens key route namespaces
    obtain rfl : (⟨w, tokens.map Token.piece⟩ : Template) = t :=
      Except.ok.inj ((template_tokens hcodes htokens).symm.trans ht)
    refine ⟨?_, ?_⟩
    · exact Template.fill_tokens (fun n hn => hcodes n (htokens ▸ hn)) w _ _
    · rw [htokens]
      exact Template.Format.fill_tokens tokens _ _

/-- Braces in a route's name, or in a namespace, are not read again. -/
theorem template_agrees_braces :
    (∀ n ∈ (WideText.plain "\x7b\x7b\x7breference:\x7d\x7d\x7d").codes, n < 0x110000 ∧ n ≠ 0) ∧
      ∃ t, template (.plain "\x7b\x7b\x7breference:\x7d\x7d\x7d") = .ok t ∧
        ∀ url, render t "shop/urls" ⟨url, "\x7bname\x7d"⟩ (.ofList [("shop/urls", "\x7d")]) =
          .plain "\x7b\x7d:\x7bname\x7d\x7d" := by
  have hw : ∀ n ∈ (WideText.plain "\x7b\x7b\x7breference:\x7d\x7d\x7d").codes,
      n < 0x110000 ∧ n ≠ 0 := by decide
  have htokens : (WideText.plain "\x7b\x7b\x7breference:\x7d\x7d\x7d").codes =
      [Token.opening, .field true true, .closing].flatMap Token.written := by decide
  obtain ⟨haccepts, hfilled, -⟩ := template_agrees _ hw
  obtain ⟨t, ht⟩ := haccepts.mpr ⟨_, htokens⟩
  refine ⟨hw, t, ht, fun url => ?_⟩
  rw [(hfilled t _ ht htokens "shop/urls" ⟨url, "\x7bname\x7d"⟩ _).1]
  show WideText.ofCodes ([Token.opening, .field true true, .closing].flatMap
    (Token.filled "\x7bname\x7d" (reference "shop/urls" "\x7bname\x7d" (.ofList [("shop/urls", "\x7d")])))) = _
  decide

end Snippet

end RouteAtlas
