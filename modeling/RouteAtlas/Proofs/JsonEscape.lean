import Mathlib.Data.List.Chain
import RouteAtlas.Json.Printer
import RouteAtlas.Json.Token

/-!
# The escapes of JSON texts

A text is read back code point by code point (`Json.scanFrom_codes`). The one thing that reading cannot
tell from a pair is a first half of a surrogate pair with a second one right after it
(`WideText.Settled`).
-/

namespace RouteAtlas

namespace WideText

/-- The code points of a text in which no first half of a surrogate pair has a second one right after
it. -/
structure AreSettled (codes : List Nat) : Prop where
  valid : ∀ n ∈ codes, n < 0x110000
  apart : codes.IsChain fun m n => isFirstHalf m = true → isSecondHalf n = false

/-- The text comes back from its escapes: it is one of characters, or halves stand alone in it. -/
def Settled : WideText → Prop
  | plain _ => True
  | unpaired codes => codes.any isHalf = true ∧ AreSettled codes

theorem any_isHalf_toNat (cs : List Char) : (cs.map Char.toNat).any isHalf = false := by
  rw [List.any_eq_false]
  intro n hn
  obtain ⟨c, -, rfl⟩ := List.mem_map.mp hn
  simp [isHalf_toNat]

theorem areSettled_toNat (cs : List Char) : AreSettled (cs.map Char.toNat) where
  valid n hn := by
    obtain ⟨c, -, rfl⟩ := List.mem_map.mp hn
    have hvalid : c.toNat < 0xD800 ∨ 0xDFFF < c.toNat ∧ c.toNat < 0x110000 := c.valid
    omega
  apart := by
    refine List.Pairwise.isChain ?_
    rw [List.pairwise_map]
    refine List.pairwise_iff_forall_sublist.mpr ?_
    intro c d _ hfirst
    have hhalf := isHalf_toNat c
    rw [isHalf, hfirst] at hhalf
    exact absurd hhalf (by simp)

theorem Settled.areSettled {w : WideText} (h : w.Settled) : AreSettled w.codes := by
  cases w with
  | plain s => exact areSettled_toNat s.toList
  | unpaired codes => exact h.2

theorem Settled.ofCodes_codes {w : WideText} (h : w.Settled) : ofCodes w.codes = w := by
  cases w with
  | plain s =>
    have hback : s.toList.map (Char.ofNat ∘ Char.toNat) = s.toList := by
      simp [Function.comp_def, Char.ofNat_toNat]
    rw [codes, ofCodes, any_isHalf_toNat, if_neg (by decide), List.map_map, hback,
      String.ofList_toList]
  | unpaired codes => rw [WideText.codes, ofCodes, if_pos h.1]

end WideText

namespace Json

open WideText (isHalf isFirstHalf isSecondHalf AreSettled)

/-! ## Code points -/

/-- What the lexer goes on with when a code point has been read that completes no pair. -/
def addCode (codes : List Nat) (first? : Option Nat) (n : Nat) : Lexing :=
  if isFirstHalf n then .text (settle codes first?) (some n) else .text (n :: settle codes first?) none

variable {codes : List Nat} {first? : Option Nat} {done : List Token} {rest : List Char} {n : Nat}

theorem putCode_eq_addCode (hpair : ∀ m ∈ first?, isSecondHalf n = false) :
    putCode codes first? n = addCode codes first? n := by
  unfold putCode addCode
  split
  · rfl
  · cases first? with
    | none => rfl
    | some m => simp [hpair m rfl, settle]

theorem putCode_of_first (hn : isFirstHalf n = true) :
    putCode codes first? n = .text (settle codes first?) (some n) := by
  unfold putCode
  rw [if_pos hn]

theorem putCode_of_pair {m : Nat} (hn : isSecondHalf n = true) :
    putCode codes (some m) n = .text (WideText.join m n :: codes) none := by
  have hnotFirst : isFirstHalf n = false := by
    simp only [isSecondHalf, isFirstHalf, Bool.and_eq_true, decide_eq_true_eq,
      Bool.and_eq_false_iff, decide_eq_false_iff_not] at hn ⊢
    omega
  simp [putCode, hnotFirst, hn]

theorem scanFrom_digits (hn : n < 0x10000) :
    Token.scanFrom (.number codes first? 0 0) done (Text.Hex.digits 4 n ++ rest) =
      Token.scanFrom (putCode codes first? n) done rest := by
  have hvalue : 16 * (16 * (16 * (16 * 0 + n / 16 / 16 / 16 % 16) + n / 16 / 16 % 16) + n / 16 % 16)
      + n % 16 = n := by
    omega
  have hdigit : ∀ m, Text.Hex.digitValue? (Text.Hex.digit (m % 16)) = some (m % 16) := fun m =>
    Text.Hex.digitValue?_digit (Nat.mod_lt m (by decide))
  simp only [Text.Hex.digits, List.nil_append, List.cons_append, Token.scanFrom, hdigit]
  simp only [Nat.reduceAdd, Nat.reduceEqDiff, if_true, if_false, hvalue]

theorem scanFrom_escapeUnit (hn : n < 0x10000) :
    Token.scanFrom (.text codes first?) done (escapeUnit n ++ rest) =
      Token.scanFrom (putCode codes first? n) done rest := by
  rw [← scanFrom_digits hn]
  rfl

/-- A character beyond the basic ones is written as a pair of halves, which reading joins. -/
theorem scanFrom_escapePair (hlow : 0x10000 ≤ n) (hhigh : n < 0x110000) :
    Token.scanFrom (.text codes first?) done
      (escapeUnit (0xD800 + (n - 0x10000) / 0x400) ++ escapeUnit (0xDC00 + (n - 0x10000) % 0x400)
        ++ rest) =
      Token.scanFrom (.text (n :: settle codes first?) none) done rest := by
  obtain ⟨first, hfirst⟩ : ∃ first, first = 0xD800 + (n - 0x10000) / 0x400 := ⟨_, rfl⟩
  obtain ⟨second, hsecond⟩ : ∃ second, second = 0xDC00 + (n - 0x10000) % 0x400 := ⟨_, rfl⟩
  have hisFirst : isFirstHalf first = true := by
    simp [isFirstHalf]
    omega
  have hisSecond : isSecondHalf second = true := by
    simp [isSecondHalf]
    omega
  have hjoin : WideText.join first second = n := by
    unfold WideText.join
    omega
  rw [← hfirst, ← hsecond, List.append_assoc, scanFrom_escapeUnit (by omega),
    putCode_of_first hisFirst, scanFrom_escapeUnit (by omega), putCode_of_pair hisSecond, hjoin]

theorem scanFrom_backslash {c d : Char} (hu : c ≠ 'u') (hd : unescape? c = some d) :
    Token.scanFrom (.text codes first?) done ('\\' :: c :: rest) =
      Token.scanFrom (.text (d.toNat :: settle codes first?) none) done rest := by
  have hquote : '\\' ≠ '"' := by decide
  rw [Token.scanFrom]
  simp only [if_neg hquote, if_true]
  rw [Token.scanFrom]
  simp only [if_neg hu, hd]

/-- A character is read as itself, whether it is written as it is, after a backslash, or by number. -/
theorem scanFrom_escapeChar (c : Char) :
    Token.scanFrom (.text codes first?) done (escapeChar c ++ rest) =
      Token.scanFrom (.text (c.toNat :: settle codes first?) none) done rest := by
  unfold escapeChar
  dsimp only
  by_cases hquote : c = '"'
  · rw [if_pos hquote, hquote]
    exact scanFrom_backslash (by decide) rfl
  rw [if_neg hquote]
  by_cases hbackslash : c = '\\'
  · rw [if_pos hbackslash, hbackslash]
    exact scanFrom_backslash (by decide) rfl
  rw [if_neg hbackslash]
  by_cases hfeed : c = '\n'
  · rw [if_pos hfeed, hfeed]
    exact scanFrom_backslash (by decide) rfl
  rw [if_neg hfeed]
  by_cases hreturn : c = '\r'
  · rw [if_pos hreturn, hreturn]
    exact scanFrom_backslash (by decide) rfl
  rw [if_neg hreturn]
  by_cases htab : c = '\t'
  · rw [if_pos htab, htab]
    exact scanFrom_backslash (by decide) rfl
  rw [if_neg htab]
  by_cases hform : c = '\x0c'
  · rw [if_pos hform, hform]
    exact scanFrom_backslash (by decide) rfl
  rw [if_neg hform]
  by_cases hback : c = '\x08'
  · rw [if_pos hback, hback]
    exact scanFrom_backslash (by decide) rfl
  rw [if_neg hback]
  by_cases hplain : (0x20 ≤ c.toNat && c.toNat < 0x7F) = true
  · have hcontrol : ¬ c.toNat < 0x20 := by
      simp only [Bool.and_eq_true, decide_eq_true_eq] at hplain
      omega
    rw [if_pos hplain, List.singleton_append, Token.scanFrom]
    simp only [if_neg hquote, if_neg hbackslash, if_neg hcontrol]
  rw [if_neg hplain]
  have hhalf := WideText.isHalf_toNat c
  rw [isHalf, Bool.or_eq_false_iff] at hhalf
  by_cases hbasic : c.toNat < 0x10000
  · rw [if_pos hbasic, scanFrom_escapeUnit hbasic, putCode_eq_addCode fun _ _ => hhalf.2, addCode,
      hhalf.1, if_neg Bool.false_ne_true]
  · rw [if_neg hbasic]
    have hvalid : c.toNat < 0xD800 ∨ 0xDFFF < c.toNat ∧ c.toNat < 0x110000 := c.valid
    exact scanFrom_escapePair (by omega) (by omega)

theorem scanFrom_escapeCode (hn : n < 0x110000) (hpair : ∀ m ∈ first?, isSecondHalf n = false) :
    Token.scanFrom (.text codes first?) done (escapeCode n ++ rest) =
      Token.scanFrom (addCode codes first? n) done rest := by
  unfold escapeCode
  by_cases hhalf : isHalf n = true
  · have hbasic : n < 0x10000 := by
      simp only [isHalf, isFirstHalf, isSecondHalf, Bool.or_eq_true, Bool.and_eq_true,
        decide_eq_true_eq] at hhalf
      omega
    rw [if_pos hhalf, scanFrom_escapeUnit hbasic, putCode_eq_addCode hpair]
  · have hhalf' : isHalf n = false := Bool.eq_false_iff.mpr hhalf
    have hfirst : isFirstHalf n = false := (Bool.or_eq_false_iff.mp hhalf').1
    rw [if_neg hhalf, scanFrom_escapeChar, WideText.toNat_ofNat hn hhalf', addCode, hfirst,
      if_neg Bool.false_ne_true]

/-- The code points of a text are read back up to the closing quote. A first half that was read last
waits for what comes next. -/
theorem scanFrom_codes {more : List Nat} (hfirst : ∀ m ∈ first?, isFirstHalf m = true)
    (hmore : AreSettled (first?.toList ++ more)) :
    Token.scanFrom (.text codes first?) done (more.flatMap escapeCode ++ '"' :: rest) =
      Token.scanFrom .between (.text (.ofCodes ((settle codes first?).reverse ++ more)) :: done) rest := by
  induction more generalizing codes first? with
  | nil => simp [Token.scanFrom]
  | cons n more ih =>
    have hn : n < 0x110000 := hmore.valid n (by simp)
    have hpair : ∀ m ∈ first?, isSecondHalf n = false := by
      intro m hm
      have hapart := hmore.apart
      rw [Option.mem_def.mp hm, Option.toList_some, List.singleton_append,
        List.isChain_cons_cons] at hapart
      exact hapart.1 (hfirst m hm)
    have hrest : AreSettled (n :: more) :=
      ⟨fun k hk => hmore.valid k (List.mem_append_right _ hk), hmore.apart.right_of_append⟩
    rw [List.flatMap_cons, List.append_assoc, scanFrom_escapeCode hn hpair, addCode]
    by_cases hhalf : isFirstHalf n = true
    · have hwaits : ∀ m ∈ some n, isFirstHalf m = true := by
        rintro m ⟨⟩
        exact hhalf
      rw [if_pos hhalf, ih hwaits hrest]
      simp [settle]
    · have hmore' : AreSettled more :=
        ⟨fun k hk => hrest.valid k (List.mem_cons_of_mem _ hk), hrest.apart.tail⟩
      have hwaits : ∀ m ∈ (none : Option Nat), isFirstHalf m = true := by
        rintro m ⟨⟩
      rw [if_neg hhalf, ih hwaits hmore']
      simp [settle]

end Json

end RouteAtlas
