import Mathlib.Data.List.Lex
import Mathlib.Data.List.Induction
import Mathlib.Logic.Function.Iterate
import RouteAtlas.Request

/-!
# Canonical numerals

The numeral of a number in base 36 is the one text of digits that stands for the number and begins
with no needless zero. Of two numbers the smaller one has the shorter numeral, or one of the same
length that comes first, so that request identifiers are in the order of their time stamps
(`encode_canonical`).
-/

namespace RouteAtlas.Numeral.Base36

/-! ## Digits -/

/-- A digit, in lower case. -/
def IsDigit (c : Char) : Prop := '0' ≤ c ∧ c ≤ '9' ∨ 'a' ≤ c ∧ c ≤ 'z'

/-- What a digit stands for. -/
def valueOf (c : Char) : Nat := if c ≤ '9' then c.toNat - 48 else c.toNat - 87

theorem isDigit_digit {d : Nat} (h : d < 36) : IsDigit (digit d) := by
  have hall : ∀ d < 36, IsDigit (digit d) := by
    unfold IsDigit
    decide
  exact hall d h

theorem valueOf_digit {d : Nat} (h : d < 36) : valueOf (digit d) = d := by
  have hall : ∀ d < 36, valueOf (digit d) = d := by decide
  exact hall d h

theorem digit_lt_digit {d e : Nat} (h : d < e) (he : e < 36) : digit d < digit e := by
  have hall : ∀ e < 36, ∀ d < e, digit d < digit e := by decide
  exact hall e he d h

theorem IsDigit.toNat_lt {c : Char} (h : IsDigit c) : c.toNat < 123 := by
  have hnine : '9'.toNat < 123 := by decide
  have hz : 'z'.toNat < 123 := by decide
  rcases h with ⟨-, hle⟩ | ⟨-, hle⟩
  · exact Nat.lt_of_le_of_lt hle hnine
  · exact Nat.lt_of_le_of_lt hle hz

/-- A digit is the digit of what it stands for. -/
theorem IsDigit.digit_valueOf {c : Char} (h : IsDigit c) :
    valueOf c < 36 ∧ digit (valueOf c) = c := by
  have hall : ∀ n < 123, IsDigit (Char.ofNat n) →
      valueOf (Char.ofNat n) < 36 ∧ digit (valueOf (Char.ofNat n)) = Char.ofNat n := by
    unfold IsDigit
    decide
  have hc := hall c.toNat h.toNat_lt
  rw [Char.ofNat_toNat] at hc
  exact hc h

/-! ## The loop -/

/-- One turn of the loop: the last digit of what is left goes in front of what has been written. -/
def turn (s : Nat × List Char) : Nat × List Char := (s.1 / 36, digit (s.1 % 36) :: s.2)

/-- The loop goes on as long as something is left, and ends. -/
theorem exists_turns (n : Nat) (done : List Char) :
    ∃ turns, (∀ k < turns, (turn^[k] (n, done)).1 ≠ 0) ∧
      turn^[turns] (n, done) = (0, digitsOnto n done) := by
  fun_induction digitsOnto n done with
  | case1 done => exact ⟨0, by simp, rfl⟩
  | case2 n done hn ih =>
    obtain ⟨turns, hleft, hdone⟩ := ih
    refine ⟨turns + 1, fun k hk => ?_, hdone⟩
    cases k with
    | zero => exact hn
    | succ k => exact hleft k (by omega)

theorem digitsOnto_append (n : Nat) (done rest : List Char) :
    digitsOnto n (done ++ rest) = digitsOnto n done ++ rest := by
  fun_induction digitsOnto n done with
  | case1 done => rw [digitsOnto, dif_pos rfl]
  | case2 n done hn ih =>
    rw [digitsOnto, dif_neg hn]
    exact ih

/-- A number below 36 is written with one digit. -/
theorem toList_encode_of_lt {n : Nat} (h : n < 36) : (encode n).toList = [digit n] := by
  unfold encode
  by_cases hn : n = 0
  · subst hn
    rfl
  · have hdiv : n / 36 = 0 := Nat.div_eq_of_lt h
    rw [if_neg hn, String.toList_ofList, digitsOnto, dif_neg hn, hdiv, Nat.mod_eq_of_lt h, digitsOnto,
      dif_pos rfl]

/-- Any other number is written as its 36th part with one digit more. -/
theorem toList_encode_of_le {n : Nat} (h : 36 ≤ n) :
    (encode n).toList = (encode (n / 36)).toList ++ [digit (n % 36)] := by
  have hn : n ≠ 0 := by omega
  have hdiv : n / 36 ≠ 0 := by omega
  unfold encode
  rw [if_neg hn, if_neg hdiv, String.toList_ofList, String.toList_ofList, digitsOnto, dif_neg hn]
  exact digitsOnto_append (n / 36) [] [digit (n % 36)]

theorem toList_encode_ne_nil (n : Nat) : (encode n).toList ≠ [] := by
  by_cases h : n < 36
  · simp [toList_encode_of_lt h]
  · simp [toList_encode_of_le (Nat.le_of_not_lt h)]

/-! ## Values -/

/-- What digits stand for, the first one counting most. -/
def value (digits : List Char) : Nat := digits.foldl (fun n c => 36 * n + valueOf c) 0

theorem value_append_singleton (digits : List Char) (c : Char) :
    value (digits ++ [c]) = 36 * value digits + valueOf c := by
  rw [value, List.foldl_append]
  rfl

/-- A text is the numeral of a number: it consists of digits, stands for the number, and begins with
a zero only if it is the numeral of zero. -/
structure IsNumeral (s : String) (n : Nat) : Prop where
  nonempty : s ≠ ""
  digits : ∀ c ∈ s.toList, IsDigit c
  leading : s.toList.head? = some '0' → s = "0"
  stands : value s.toList = n

theorem isNumeral_digit {d : Nat} (h : d < 36) : IsNumeral (String.ofList [digit d]) d := by
  have hdigit := isDigit_digit h
  have hvalue := valueOf_digit h
  refine ⟨by simp, ?_, ?_, ?_⟩
  · rw [String.toList_ofList]
    intro c hc
    rw [List.mem_singleton.mp hc]
    exact hdigit
  · rw [String.toList_ofList]
    intro hzero
    rw [Option.some.inj hzero]
  · rw [String.toList_ofList]
    show 36 * 0 + valueOf (digit d) = d
    rw [hvalue]
    omega

/-- A digit more makes a numeral of a numeral that is not that of zero. -/
theorem IsNumeral.push {s : String} {n d : Nat} (h : IsNumeral s n) (hn : n ≠ 0) (hd : d < 36) :
    IsNumeral (String.ofList (s.toList ++ [digit d])) (36 * n + d) := by
  have hnil : s.toList ≠ [] := fun hs => h.nonempty (String.toList_eq_nil_iff.mp hs)
  have hdigit := isDigit_digit hd
  have hvalue := valueOf_digit hd
  refine ⟨by simp, ?_, ?_, ?_⟩
  · rw [String.toList_ofList]
    intro c hc
    rcases List.mem_append.mp hc with hc | hc
    · exact h.digits c hc
    · rw [List.mem_singleton.mp hc]
      exact hdigit
  · -- a numeral that begins with a zero stands for zero
    rw [String.toList_ofList, List.head?_append_of_ne_nil _ hnil]
    intro hzero
    have hstands := h.stands
    rw [h.leading hzero] at hstands
    exact absurd hstands.symm hn
  · rw [String.toList_ofList, value_append_singleton, h.stands, hvalue]

theorem isNumeral_encode (n : Nat) : IsNumeral (encode n) n := by
  induction n using Nat.strong_induction_on with
  | _ n ih =>
    by_cases h : n < 36
    · have hlist := toList_encode_of_lt h
      have hdigit := isNumeral_digit h
      rw [← hlist, String.ofList_toList] at hdigit
      exact hdigit
    · have hle : 36 ≤ n := Nat.le_of_not_lt h
      have hlist := toList_encode_of_le hle
      have hpush := (ih (n / 36) (by omega)).push (by omega) (Nat.mod_lt n (by decide))
      rw [← hlist, String.ofList_toList, Nat.div_add_mod] at hpush
      exact hpush

/-- What stands before the last digit of a numeral is a numeral as well, and not that of zero. -/
theorem IsNumeral.front {digits : List Char} {c : Char} {n : Nat}
    (h : IsNumeral (String.ofList (digits ++ [c])) n) (hnil : digits ≠ []) :
    IsNumeral (String.ofList digits) (Base36.value digits) ∧ digits.head? ≠ some '0' := by
  obtain ⟨-, hdigits, hleading, -⟩ := h
  rw [String.toList_ofList] at hdigits hleading
  have hfirst : digits.head? ≠ some '0' := by
    intro hzero
    rw [List.head?_append_of_ne_nil _ hnil] at hleading
    have hlength := congrArg (fun s : String => s.toList.length) (hleading hzero)
    simp only [String.toList_ofList, List.length_append, List.length_singleton] at hlength
    have hone : "0".toList.length = 1 := rfl
    have hpos := List.length_pos_iff.mpr hnil
    omega
  refine ⟨⟨?_, ?_, ?_, ?_⟩, hfirst⟩
  · intro hs
    apply hnil
    rw [← String.toList_ofList (l := digits), hs]
    rfl
  · rw [String.toList_ofList]
    exact fun d hd => hdigits d (List.mem_append_left _ hd)
  · rw [String.toList_ofList]
    exact fun hzero => absurd hzero hfirst
  · rw [String.toList_ofList]

/-- There is no other numeral of the number. -/
theorem IsNumeral.eq_encode {s : String} {n : Nat} (h : IsNumeral s n) : s = encode n := by
  have hlists : ∀ (digits : List Char) (n : Nat), IsNumeral (String.ofList digits) n →
      digits = (encode n).toList := by
    intro digits
    induction digits using List.reverseRecOn with
    | nil => exact fun n h => absurd rfl h.nonempty
    | append_singleton digits c ih =>
      intro n h
      have hdigit := h.digits c (by simp)
      obtain ⟨hlt, hc⟩ := hdigit.digit_valueOf
      have hstands := h.stands
      rw [String.toList_ofList, value_append_singleton] at hstands
      by_cases hnil : digits = []
      · subst hnil
        have hnone : Base36.value [] = 0 := rfl
        rw [hnone] at hstands
        obtain rfl : valueOf c = n := by omega
        rw [toList_encode_of_lt hlt, hc]
        rfl
      · obtain ⟨hfront, hfirst⟩ := h.front hnil
        have heq := ih _ hfront
        have hle : 36 ≤ n := by
          by_contra hsmall
          have hzero : Base36.value digits = 0 := by omega
          rw [hzero] at heq
          exact hfirst (by rw [heq]; rfl)
        have hdiv : n / 36 = Base36.value digits := by omega
        have hmod : n % 36 = valueOf c := by omega
        rw [toList_encode_of_le hle, hdiv, hmod, hc, ← heq]
  rw [← String.toList_inj]
  exact hlists s.toList n (by rwa [String.ofList_toList])

theorem encode_injective {n m : Nat} (h : encode n = encode m) : n = m := by
  have hn := (isNumeral_encode n).stands
  rw [h, (isNumeral_encode m).stands] at hn
  exact hn.symm

/-! ## Order -/

/-- Behind parts of equal length what follows decides only if the parts are equal. -/
theorem append_lt_append_iff {l l' rest rest' : List Char} (h : l.length = l'.length) :
    l ++ rest < l' ++ rest' ↔ l < l' ∨ l = l' ∧ rest < rest' := by
  induction l generalizing l' with
  | nil =>
    rw [List.eq_nil_of_length_eq_zero h.symm]
    simp
  | cons c l ih =>
    cases l' with
    | nil => exact absurd h (by simp)
    | cons c' l' =>
      rw [List.cons_append, List.cons_append, List.cons_lt_cons_iff, List.cons_lt_cons_iff,
        ih (Nat.succ.inj h), List.cons.injEq]
      tauto

theorem length_encode_pos (n : Nat) : 0 < (encode n).toList.length :=
  List.length_pos_iff.mpr (toList_encode_ne_nil n)

/-- The smaller number has the shorter numeral, or else the one that comes first. -/
theorem encode_precedes {n m : Nat} (h : n < m) :
    (encode n).toList.length < (encode m).toList.length ∨
      (encode n).toList.length = (encode m).toList.length ∧
        (encode n).toList < (encode m).toList := by
  induction m using Nat.strong_induction_on generalizing n with
  | _ m ih =>
    by_cases hm : m < 36
    · have hn : n < 36 := by omega
      right
      rw [toList_encode_of_lt hn, toList_encode_of_lt hm]
      exact ⟨rfl, List.cons_lt_cons_iff.mpr (Or.inl (digit_lt_digit h hm))⟩
    · have hlist := toList_encode_of_le (Nat.le_of_not_lt hm)
      by_cases hn : n < 36
      · left
        have hpos := length_encode_pos (m / 36)
        rw [toList_encode_of_lt hn, hlist, List.length_append]
        simpa using hpos
      · rw [toList_encode_of_le (Nat.le_of_not_lt hn), hlist, List.length_append, List.length_append,
          List.length_singleton, List.length_singleton]
        by_cases hdiv : n / 36 = m / 36
        · -- the numbers differ in their last digits only
          have hmod : n % 36 < m % 36 := by omega
          have hdigit := digit_lt_digit hmod (Nat.mod_lt m (by decide))
          right
          rw [hdiv]
          refine ⟨rfl, (append_lt_append_iff rfl).mpr (Or.inr ⟨rfl, ?_⟩)⟩
          exact List.cons_lt_cons_iff.mpr (Or.inl hdigit)
        · rcases ih (m / 36) (by omega) (n := n / 36) (by omega) with hlt | ⟨heq, hlt⟩
          · left
            omega
          · right
            exact ⟨by rw [heq], (append_lt_append_iff heq).mpr (Or.inl hlt)⟩

/-- Numerals are in the order of the numbers: shorter ones first, and those of the same length as
texts are ordered. -/
theorem lt_iff_encode (n m : Nat) :
    n < m ↔ (encode n).length < (encode m).length ∨
      (encode n).length = (encode m).length ∧ encode n < encode m := by
  rw [String.lt_iff, ← String.length_toList, ← String.length_toList]
  refine ⟨encode_precedes, fun h => ?_⟩
  rcases Nat.lt_trichotomy n m with hlt | rfl | hgt
  · exact hlt
  · rcases h with h | ⟨-, h⟩
    · exact absurd h (Nat.lt_irrefl _)
    · exact absurd h (List.lt_irrefl _)
  · rcases encode_precedes hgt with h' | ⟨hlength, h'⟩
    · omega
    · rcases h with h | ⟨-, h⟩
      · omega
      · exact absurd h (List.lt_asymm h')

/-- Request identifiers whose time stamps have the same length are in the order of their times, and
only those of the same time in the order of their random parts. -/
theorem makeId_lt_iff {n m : Nat} (h : (encode n).length = (encode m).length)
    (random random' : String) :
    Request.makeId n random < Request.makeId m random' ↔ n < m ∨ n = m ∧ random < random' := by
  have hlength : (encode n).toList.length = (encode m).toList.length := h
  have hid : ∀ (n : Nat) (random : String), (Request.makeId n random).toList =
      "req_".toList ++ ((encode n).toList ++ ("_".toList ++ random.toList)) := by
    intro n random
    simp [Request.makeId]
  have hsame : (encode n).toList = (encode m).toList ↔ n = m :=
    ⟨fun heq => encode_injective (String.toList_inj.mp heq), fun heq => by rw [heq]⟩
  have hstamps : (encode n).toList < (encode m).toList ↔ n < m := by
    rw [lt_iff_encode, String.lt_iff]
    simp [h]
  rw [String.lt_iff, hid, hid, append_lt_append_iff rfl, append_lt_append_iff hlength,
    append_lt_append_iff rfl, hsame, hstamps, String.lt_iff]
  simp

/-- The loop ends and leaves the numeral of the number, which is the only one. The numerals are in the
order of the numbers, and so are request identifiers in the order of their times, as long as the time
stamps have the same length. -/
theorem encode_canonical (n : Nat) :
    (∃ turns, (∀ k < turns, (turn^[k] (n, [])).1 ≠ 0) ∧
      turn^[turns] (n, []) = (0, if n = 0 then [] else (encode n).toList)) ∧
    (∀ s, IsNumeral s n ↔ s = encode n) ∧
    ∀ m, (n < m ↔ (encode n).length < (encode m).length ∨
        (encode n).length = (encode m).length ∧ encode n < encode m) ∧
      ((encode n).length = (encode m).length → ∀ random random',
        Request.makeId n random < Request.makeId m random' ↔ n < m ∨ n = m ∧ random < random') := by
  refine ⟨?_, fun s => ⟨IsNumeral.eq_encode, ?_⟩, fun m => ⟨lt_iff_encode n m, makeId_lt_iff⟩⟩
  · obtain ⟨turns, hleft, hdone⟩ := exists_turns n []
    refine ⟨turns, hleft, hdone.trans ?_⟩
    unfold encode
    by_cases hn : n = 0
    · subst hn
      rw [digitsOnto]
      rfl
    · simp [hn]
  · rintro rfl
    exact isNumeral_encode n

end RouteAtlas.Numeral.Base36
