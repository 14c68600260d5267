import RouteAtlas.Proofs.JsonEscape
import RouteAtlas.Proofs.JsonNumber

/-!
# The tokens of a printed JSON text

What the printer writes is cut into the tokens that it stands for (`Json.scan_pretty`), piece by piece:
brackets, commas, line ends and texts in any place (`Json.Cuts`), numbers and names where none goes on
after them (`Json.Scans`).
-/

namespace RouteAtlas.Json

open WideText (isFirstHalf AreSettled)

/-! ## Pieces of a text -/

/-- No number and no name goes on where the text starts. -/
def Ends (s : List Char) : Prop := ∀ c ∈ s.head?, isBare c = false

/-- The text is cut into these tokens, whatever stands before it and after it. -/
def Cuts (s : List Char) (ts : List Token) : Prop :=
  ∀ done rest,
    Token.scanFrom .between done (s ++ rest) = Token.scanFrom .between (ts.reverse ++ done) rest

/-- The text is cut into these tokens, unless a number or a name at its end goes on after it. -/
def Scans (s : List Char) (ts : List Token) : Prop :=
  ∀ done rest, Ends rest →
    Token.scanFrom .between done (s ++ rest) = Token.scanFrom .between (ts.reverse ++ done) rest

theorem Ends.append {s t : List Char} (hs : Ends s) (ht : Ends t) : Ends (s ++ t) := by
  cases s with
  | nil => exact ht
  | cons c s => exact hs

theorem ends_nil : Ends [] := fun _ h => absurd h (by simp)

theorem ends_cons {c : Char} (hc : isBare c = false) (s : List Char) : Ends (c :: s) := by
  rintro d ⟨⟩
  exact hc

theorem Cuts.scans {s : List Char} {ts : List Token} (hs : Cuts s ts) : Scans s ts :=
  fun done rest _ => hs done rest

theorem Cuts.append_scans {s t : List Char} {ss ts : List Token} (hs : Cuts s ss) (ht : Scans t ts) :
    Scans (s ++ t) (ss ++ ts) := by
  intro done rest hrest
  rw [List.append_assoc, hs done, ht _ rest hrest, List.reverse_append, List.append_assoc]

theorem Cuts.append {s t : List Char} {ss ts : List Token} (hs : Cuts s ss) (ht : Cuts t ts) :
    Cuts (s ++ t) (ss ++ ts) := by
  intro done rest
  rw [List.append_assoc, hs done, ht _ rest, List.reverse_append, List.append_assoc]

/-- Where no number or name goes on, pieces are cut one by one. -/
theorem Scans.append {s t : List Char} {ss ts : List Token} (hs : Scans s ss) (ht : Scans t ts)
    (hends : Ends t) : Scans (s ++ t) (ss ++ ts) := by
  intro done rest hrest
  rw [List.append_assoc, hs done (t ++ rest) (hends.append hrest), ht _ rest hrest,
    List.reverse_append, List.append_assoc]

theorem cuts_nil : Cuts [] [] := fun _ _ => rfl

theorem cuts_mark {c : Char} {t : Token} (hc : startToken c = (some t, .between)) : Cuts [c] [t] := by
  intro done rest
  simp [Token.scanFrom, hc]

theorem cuts_space {c : Char} (hc : startToken c = (none, .between)) : Cuts [c] [] := by
  intro done rest
  simp [Token.scanFrom, hc]

theorem cuts_newline (level : Nat) : Cuts (newline level).toList [] := by
  have hspaces : ∀ k, Cuts (List.replicate k ' ') [] := by
    intro k
    induction k with
    | zero => exact cuts_nil
    | succ k ih => exact (cuts_space rfl).append ih
  have hline : Cuts ['\n'] [] := cuts_space rfl
  rw [newline, String.toList_ofList]
  exact hline.append (hspaces (2 * level))

theorem startToken_of_isBare {c : Char} (hc : isBare c = true) : startToken c = (none, .bare [c]) := by
  have hne : ∀ d, isBare d = false → c ≠ d := by
    rintro d hd rfl
    exact absurd hc (by simp [hd])
  have hspace : isSpace c = false := by
    simp [isSpace, hne ' ' rfl, hne '\t' rfl, hne '\n' rfl, hne '\r' rfl]
  unfold startToken
  rw [if_neg (hne _ rfl), if_neg (hne _ rfl), if_neg (hne _ rfl), if_neg (hne _ rfl),
    if_neg (hne _ rfl), if_neg (hne _ rfl), if_neg (hne _ rfl), hspace, if_neg Bool.false_ne_true,
    if_pos hc]

theorem scanFrom_bare {lexeme : List Char} (hlexeme : ∀ c ∈ lexeme, isBare c = true)
    (before : List Char) (done : List Token) {rest : List Char} (hrest : Ends rest) :
    Token.scanFrom (.bare before) done (lexeme ++ rest) =
      Token.scanFrom .between (.bare (before.reverse ++ lexeme) :: done) rest := by
  induction lexeme generalizing before with
  | nil =>
    cases rest with
    | nil => simp [Token.scanFrom]
    | cons c rest =>
      have hc : isBare c = false := hrest c rfl
      simp [Token.scanFrom, hc]
  | cons c lexeme ih =>
    obtain ⟨hc, hlexeme⟩ := List.forall_mem_cons.mp hlexeme
    rw [List.cons_append, Token.scanFrom]
    simp only [hc, if_true]
    rw [ih hlexeme, List.reverse_cons, List.append_assoc]
    rfl

/-- A number or a name is cut out as a whole. -/
theorem scans_bare {lexeme : List Char} (hne : lexeme ≠ []) (hlexeme : ∀ c ∈ lexeme, isBare c = true) :
    Scans lexeme [.bare lexeme] := by
  intro done rest hrest
  cases lexeme with
  | nil => exact absurd rfl hne
  | cons c lexeme =>
    obtain ⟨hc, hlexeme⟩ := List.forall_mem_cons.mp hlexeme
    rw [List.cons_append, Token.scanFrom]
    simp only [startToken_of_isBare hc]
    exact scanFrom_bare hlexeme [c] done hrest

theorem toList_wideLiteral (w : WideText) :
    (wideLiteral w).toList = '"' :: (w.codes.flatMap escapeCode ++ ['"']) := by
  cases w with
  | unpaired codes => simp [wideLiteral, WideText.codes]
  | plain s =>
    have hescape : ∀ c : Char, escapeCode c.toNat = escapeChar c := fun c => by
      simp [escapeCode, WideText.isHalf_toNat, Char.ofNat_toNat]
    simp [wideLiteral, textLiteral, WideText.codes, List.flatMap_map, hescape]

/-- A text in its quotes is one token. -/
theorem cuts_text {w : WideText} (hw : w.Settled) : Cuts (wideLiteral w).toList [.text w] := by
  intro done rest
  have hquote : startToken '"' = (none, .text [] none) := rfl
  have hwaits : ∀ m ∈ (none : Option Nat), isFirstHalf m = true := by
    rintro m ⟨⟩
  have hcodes : AreSettled ((none : Option Nat).toList ++ w.codes) := hw.areSettled
  rw [toList_wideLiteral, List.cons_append, List.append_assoc, Token.scanFrom]
  simp only [hquote]
  rw [List.singleton_append, scanFrom_codes hwaits hcodes]
  simp [settle, hw.ofCodes_codes]

/-! ## The tokens of a value -/

mutual

/-- The tokens of a value. -/
def tokens : Json → List Token
  | .null => [.bare "null".toList]
  | .bool b => [.bare (if b then "true" else "false").toList]
  | .int n => [.bare (toString n).toList]
  | .float x => [.bare (Numeral.floatText Numeral.json x).toList]
  | .text s => [.text s]
  | .list [] => [.openList, .closeList]
  | .list (v :: rest) => .openList :: (tokens v ++ (moreItems rest ++ [.closeList]))
  | .object [] => [.openObject, .closeObject]
  | .object ((name, v) :: rest) =>
    .openObject :: .text name :: .colon :: (tokens v ++ (moreMembers rest ++ [.closeObject]))

/-- The tokens of further items. -/
def moreItems : List Json → List Token
  | [] => []
  | v :: rest => .comma :: (tokens v ++ moreItems rest)

/-- The tokens of further members. -/
def moreMembers : List (WideText × Json) → List Token
  | [] => []
  | (name, v) :: rest => .comma :: .text name :: .colon :: (tokens v ++ moreMembers rest)

end

mutual

/-- Reading gives the value back where `room` more brackets may be opened: whole numbers are not too
long, floating-point numbers are legible, texts are settled, and the names of an object are distinct.
-/
def Fits (room : Nat) : Json → Prop
  | .null => True
  | .bool _ => True
  | .int n => (Nat.toDigits 10 n.natAbs).length ≤ mostDigits
  | .float x => Legible x
  | .text s => s.Settled
  | .list items => 0 < room ∧ ItemsFit (room - 1) items
  | .object members =>
    0 < room ∧ (members.map Prod.fst).Nodup ∧ MembersFit (room - 1) members

/-- The items of a list fit. -/
def ItemsFit (room : Nat) : List Json → Prop
  | [] => True
  | v :: rest => Fits room v ∧ ItemsFit room rest

/-- The members of an object fit. -/
def MembersFit (room : Nat) : List (WideText × Json) → Prop
  | [] => True
  | (name, v) :: rest => name.Settled ∧ Fits room v ∧ MembersFit room rest

end

/-! ## The text of a value -/

/-- The items of a list after the first, as they are written. -/
def furtherLines (level : Nat) (items : List String) : List Char :=
  items.flatMap fun s => ',' :: (newline level).toList ++ s.toList

theorem toList_intercalate_lines (level : Nat) (first : String) (items : List String) :
    (String.intercalate ("," ++ newline level) (first :: items)).toList =
      first.toList ++ furtherLines level items := by
  induction items generalizing first with
  | nil => simp [furtherLines]
  | cons second items ih =>
    rw [String.intercalate_cons_cons, String.toList_append, String.toList_append, ih]
    simp [furtherLines]

theorem toList_bracketLines (opening closing : String) (level : Nat) (first : String)
    (items : List String) :
    (bracketLines opening closing level (first :: items)).toList =
      opening.toList ++ ((newline (level + 1)).toList ++ (first.toList ++
        (furtherLines (level + 1) items ++ ((newline level).toList ++ closing.toList)))) := by
  have hne : (first :: items).isEmpty = false := rfl
  simp only [bracketLines, hne, Bool.false_eq_true, if_false, String.toList_append,
    toList_intercalate_lines, List.append_assoc]

theorem ends_furtherLines (level : Nat) (items : List String) : Ends (furtherLines level items) := by
  cases items with
  | nil => exact ends_nil
  | cons s items => exact ends_cons rfl _

/-- A further line is cut into a comma and its tokens. -/
theorem scans_furtherLines_cons {level : Nat} {s : String} {items : List String} {ss ts : List Token}
    (hs : Scans s.toList ss) (hitems : Scans (furtherLines level items) ts) :
    Scans (furtherLines level (s :: items)) (.comma :: (ss ++ ts)) := by
  have hcomma : Cuts [','] [.comma] := cuts_mark rfl
  have hline := (hcomma.append (cuts_newline level)).append_scans
    (hs.append hitems (ends_furtherLines level items))
  simpa [furtherLines] using hline

/-- Lines between brackets are cut into the brackets and the tokens of the lines. -/
theorem scans_bracketLines {opening closing : String} {before after : Token}
    (hopening : Cuts opening.toList [before]) (hclosing : Cuts closing.toList [after])
    {level : Nat} {first : String} {items : List String} {ss ts : List Token}
    (hfirst : Scans first.toList ss) (hitems : Scans (furtherLines (level + 1) items) ts) :
    Scans (bracketLines opening closing level (first :: items)).toList
      (before :: (ss ++ (ts ++ [after]))) := by
  have hends : Ends ((newline level).toList ++ closing.toList) := by
    rw [newline, String.toList_ofList]
    exact ends_cons rfl _
  have hend : Scans ((newline level).toList ++ closing.toList) [after] :=
    ((cuts_newline level).append hclosing).scans
  have hlines := hitems.append hend hends
  have hall := (hopening.append (cuts_newline (level + 1))).append_scans
    (hfirst.append hlines ((ends_furtherLines _ items).append hends))
  rw [toList_bracketLines]
  simpa using hall

/-- A member is cut into its name, a colon, and the tokens of its value. -/
theorem scans_member {name : WideText} (hname : name.Settled) {value : String} {ts : List Token}
    (hvalue : Scans value.toList ts) :
    Scans (wideLiteral name ++ ": " ++ value).toList (.text name :: .colon :: ts) := by
  have hcolon : Cuts [':'] [.colon] := cuts_mark rfl
  have hspace : Cuts [' '] [] := cuts_space rfl
  have hmember := ((cuts_text hname).append (hcolon.append hspace)).append_scans hvalue
  simpa using hmember

theorem cuts_openList : Cuts "[".toList [.openList] := cuts_mark rfl

theorem cuts_closeList : Cuts "]".toList [.closeList] := cuts_mark rfl

theorem cuts_openObject : Cuts "\x7b".toList [.openObject] := cuts_mark rfl

theorem cuts_closeObject : Cuts "\x7d".toList [.closeObject] := cuts_mark rfl

theorem scans_emptyList : Scans ("[" ++ "]").toList [.openList, .closeList] := by
  rw [String.toList_append]
  exact (cuts_openList.append cuts_closeList).scans

theorem scans_emptyObject : Scans ("\x7b" ++ "\x7d").toList [.openObject, .closeObject] := by
  rw [String.toList_append]
  exact (cuts_openObject.append cuts_closeObject).scans

theorem scans_null : Scans "null".toList [.bare "null".toList] :=
  scans_bare (by decide) (List.all_eq_true.mp rfl)

theorem scans_bool (b : Bool) :
    Scans (if b then "true" else "false" : String).toList
      [.bare (if b then "true" else "false" : String).toList] := by
  cases b <;> exact scans_bare (by decide) (List.all_eq_true.mp rfl)

theorem Legible.ne_nil {x : Float} (hx : Legible x) :
    (Numeral.floatText Numeral.json x).toList ≠ [] := by
  intro hnil
  have hvalue := hx.1
  rw [hnil] at hvalue
  exact absurd hvalue (by simp [bareValue, Written.read?, readUnsigned?, readWhole])

theorem toList_int_ne_nil (n : Int) : (toString n).toList ≠ [] := by
  obtain ⟨c, rest, hdigits, -⟩ := (whole_toDigits n.natAbs).exists_cons
  rw [toList_toString_int, hdigits]
  simp

mutual

/-- The text of a value is cut into the tokens of the value. -/
theorem scans_prettyAt (room level : Nat) :
    ∀ v, Fits room v → Scans (prettyAt level v).toList (tokens v)
  | .null, _ => scans_null
  | .bool b, _ => scans_bool b
  | .int n, _ => scans_bare (toList_int_ne_nil n) (isBare_int n)
  | .float _, hx => scans_bare hx.ne_nil hx.2
  | .text _, hs => (cuts_text hs).scans
  | .list [], _ => scans_emptyList
  | .list (v :: rest), hv =>
    scans_bracketLines cuts_openList cuts_closeList
      (scans_prettyAt (room - 1) (level + 1) v hv.2.1)
      (scans_furtherItems (room - 1) (level + 1) rest hv.2.2)
  | .object [], _ => scans_emptyObject
  | .object ((_, v) :: rest), hv =>
    scans_bracketLines cuts_openObject cuts_closeObject
      (scans_member hv.2.2.1 (scans_prettyAt (room - 1) (level + 1) v hv.2.2.2.1))
      (scans_furtherMembers (room - 1) (level + 1) rest hv.2.2.2.2)

/-- The further lines of a list are cut into the tokens of further items. -/
theorem scans_furtherItems (room level : Nat) :
    ∀ items, ItemsFit room items →
      Scans (furtherLines level (prettyItems level items)) (moreItems items)
  | [], _ => cuts_nil.scans
  | v :: rest, hitems =>
    scans_furtherLines_cons (scans_prettyAt room level v hitems.1)
      (scans_furtherItems room level rest hitems.2)

/-- The further lines of an object are cut into the tokens of further members. -/
theorem scans_furtherMembers (room level : Nat) :
    ∀ members, MembersFit room members →
      Scans (furtherLines level (prettyMembers level members)) (moreMembers members)
  | [], _ => cuts_nil.scans
  | (_, v) :: rest, hmembers =>
    scans_furtherLines_cons (scans_member hmembers.1 (scans_prettyAt room level v hmembers.2.1))
      (scans_furtherMembers room level rest hmembers.2.2)

end

theorem scan_pretty {room : Nat} {v : Json} (hv : Fits room v) : Token.scan v.pretty = tokens v := by
  have hscans := scans_prettyAt room 0 v hv [] [] ends_nil
  simpa [Token.scan, pretty, Token.scanFrom] using hscans

end RouteAtlas.Json
