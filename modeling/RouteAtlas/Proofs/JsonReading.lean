import RouteAtlas.Proofs.JsonLexing
import RouteAtlas.Proofs.Table

/-!
# Reading a printed JSON text

The reader takes the tokens of a value for the value, wherever a value may stand, as long as not too
many brackets are open (`Json.readFrom_tokens`). So reading undoes printing (`Json.read_pretty`).
-/

namespace RouteAtlas.Json

variable {most depth : Nat} {opened : List Opened} {rest : List Token}

theorem readFrom_openList (h : depth < most) :
    readFrom most .value opened depth (.openList :: rest) =
      readFrom most .itemOrEnd opened (depth + 1) rest := by
  rw [readFrom]
  simp only [openBracket, if_neg (Nat.not_le.mpr h), bind, Except.bind]

theorem readFrom_openObject (h : depth < most) :
    readFrom most .value opened depth (.openObject :: rest) =
      readFrom most (.nameOrEnd []) opened (depth + 1) rest := by
  rw [readFrom]
  simp only [openBracket, if_neg (Nat.not_le.mpr h), bind, Except.bind]

/-- The first item of a list is read like any value. -/
theorem readFrom_itemOrEnd {t : Token} (ht : t ≠ .closeList) :
    readFrom most .itemOrEnd opened depth (t :: rest) =
      readFrom most .value (.list [] :: opened) depth (t :: rest) := by
  cases t with
  | closeList => exact absurd rfl ht
  | _ => rfl

theorem tokens_eq_cons (v : Json) : ∃ t ts, tokens v = t :: ts ∧ t ≠ .closeList := by
  cases v with
  | null | bool b | int n | float x | text s => exact ⟨_, _, rfl, by simp⟩
  | list items => cases items <;> exact ⟨_, _, rfl, by simp⟩
  | object members => cases members <;> exact ⟨_, _, rfl, by simp⟩

theorem bareValue_bool (b : Bool) :
    bareValue (if b then "true" else "false" : String).toList = .ok (.bool b) := by
  cases b <;> rfl

theorem readFrom_bare {lexeme : List Char} {v : Json} (h : bareValue lexeme = .ok v) :
    readFrom most .value opened depth (.bare lexeme :: rest) =
      readFrom most (.after v) opened depth rest := by
  rw [readFrom]
  simp only [h, bind, Except.bind]

mutual

/-- The tokens of a value are read as the value. -/
theorem readFrom_tokens (most room : Nat) (opened : List Opened) (depth : Nat) (rest : List Token)
    (hdepth : depth + room ≤ most) :
    ∀ v, Fits room v →
      readFrom most .value opened depth (tokens v ++ rest) = readFrom most (.after v) opened depth rest
  | .null, _ => readFrom_bare rfl
  | .bool b, _ => readFrom_bare (bareValue_bool b)
  | .int _, hn => readFrom_bare (bareValue_int hn)
  | .float _, hx => readFrom_bare hx.1
  | .text _, _ => rfl
  | .list [], hv => by
    have hroom : 0 < room := hv.1
    exact readFrom_openList (by omega)
  | .list (v :: items), hv => by
    obtain ⟨hroom, hfirst, hitems⟩ := hv
    obtain ⟨t, ts, htokens, ht⟩ := tokens_eq_cons v
    have hvalue := readFrom_tokens most (room - 1) (.list [] :: opened) (depth + 1)
      (moreItems items ++ .closeList :: rest) (by omega) v hfirst
    have hend := readFrom_moreItems most (room - 1) opened (depth + 1) rest (by omega) items hitems [] v
    rw [htokens, List.cons_append] at hvalue
    rw [tokens, List.cons_append, readFrom_openList (by omega), List.append_assoc, List.append_assoc,
      htokens, List.cons_append, List.singleton_append, readFrom_itemOrEnd ht, hvalue, hend]
    rfl
  | .object [], hv => by
    have hroom : 0 < room := hv.1
    exact readFrom_openObject (by omega)
  | .object ((name, v) :: members), hv => by
    obtain ⟨hroom, hdistinct, -, hfirst, hmembers⟩ := hv
    have hvalue := readFrom_tokens most (room - 1) (.object [] name :: opened) (depth + 1)
      (moreMembers members ++ .closeObject :: rest) (by omega) v hfirst
    have hend := readFrom_moreMembers most (room - 1) opened (depth + 1) rest (by omega) members hmembers []
      name v hdistinct
    rw [tokens, List.cons_append, readFrom_openObject (by omega), List.cons_append, List.cons_append,
      List.append_assoc, List.append_assoc, List.singleton_append]
    exact hvalue.trans hend

/-- Further items go to the end of a list that is open. -/
theorem readFrom_moreItems (most room : Nat) (opened : List Opened) (depth : Nat) (rest : List Token)
    (hdepth : depth + room ≤ most) :
    ∀ items, ItemsFit room items → ∀ done v,
      readFrom most (.after v) (.list done :: opened) depth (moreItems items ++ .closeList :: rest) =
        readFrom most (.after (.list (done.reverse ++ v :: items))) opened (depth - 1) rest
  | [], _, done, v => by
    rw [moreItems, List.nil_append, readFrom, List.reverse_cons]
  | next :: items, hitems, done, v => by
    have hvalue := readFrom_tokens most room (.list (v :: done) :: opened) depth
      (moreItems items ++ .closeList :: rest) hdepth next hitems.1
    have hend := readFrom_moreItems most room opened depth rest hdepth items hitems.2 (v :: done) next
    rw [moreItems, List.cons_append, List.append_assoc, readFrom, hvalue, hend, List.reverse_cons,
      List.append_assoc]
    rfl

/-- Further members go to the end of an object that is open. -/
theorem readFrom_moreMembers (most room : Nat) (opened : List Opened) (depth : Nat) (rest : List Token)
    (hdepth : depth + room ≤ most) :
    ∀ members, MembersFit room members → ∀ done name v,
      ((done ++ (name, v) :: members).map Prod.fst).Nodup →
      readFrom most (.after v) (.object done name :: opened) depth
          (moreMembers members ++ .closeObject :: rest) =
        readFrom most (.after (.object (done ++ (name, v) :: members))) opened (depth - 1) rest
  | [], _, done, name, v, hdistinct => by
    have hfresh : name ∉ done.map Prod.fst := Table.notMem_of_nodup hdistinct
    rw [moreMembers, List.nil_append, readFrom, Table.assign_of_notMem hfresh]
  | (next, w) :: members, hmembers, done, name, v, hdistinct => by
    have hfresh : name ∉ done.map Prod.fst := Table.notMem_of_nodup hdistinct
    have hvalue := readFrom_tokens most room (.object (done ++ [(name, v)]) next :: opened) depth
      (moreMembers members ++ .closeObject :: rest) hdepth w hmembers.2.1
    have hend := readFrom_moreMembers most room opened depth rest hdepth members hmembers.2.2
      (done ++ [(name, v)]) next w (by simpa using hdistinct)
    rw [moreMembers, List.cons_append, List.cons_append, List.cons_append, List.append_assoc,
      readFrom, Table.assign_of_notMem hfresh, readFrom, readFrom, hvalue, hend, List.append_assoc]
    rfl

end

/-- Reading gives the value back that a text was printed for. -/
theorem read_pretty {room : Nat} {v : Json} (hv : Fits room v) (hroom : room ≤ most) :
    read v.pretty most = .ok v := by
  have hread := readFrom_tokens most room [] 0 [] (by omega) v hv
  rw [read, scan_pretty hv]
  simpa [readFrom] using hread

end RouteAtlas.Json
