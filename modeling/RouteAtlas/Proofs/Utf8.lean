import Mathlib.Data.List.Basic
import RouteAtlas.Text.Utf8

/-!
# Strict UTF-8

The bytes of a text are those of its characters, one after another (`Text.Utf8.encode`). Decoding
accepts exactly the bytes of texts (`Text.Utf8.decode_eq_ok_iff`), and a refusal names bytes right after
the longest part that is a text (`Text.Utf8.faults_of_decode`).
-/

namespace RouteAtlas

namespace Text.Utf8

/-- The bytes of a text. -/
def encode (s : List Char) : List UInt8 := s.flatMap String.utf8EncodeChar

theorem encode_cons (c : Char) (s : List Char) :
    encode (c :: s) = String.utf8EncodeChar c ++ encode s := rfl

/-! ## The bytes of a character -/

/-- Bytes that complete a character, from the bits read so far to the number of the character. -/
inductive Completes : Nat → UInt8 → UInt8 → Nat → List UInt8 → Nat → Prop
  | last {low high b : UInt8} {bits : Nat} (hlow : low ≤ b) (hhigh : b ≤ high) :
      Completes 1 low high bits [b] (bits * 64 + (b.toNat - 0x80))
  | next {more : Nat} {low high b : UInt8} {bits n : Nat} {tail : List UInt8} (hlow : low ≤ b)
      (hhigh : b ≤ high)
      (h : Completes (more + 1) 0x80 0xBF (bits * 64 + (b.toNat - 0x80)) tail n) :
      Completes (more + 2) low high bits (b :: tail) n

/-- A lead byte with the bytes that complete its character. -/
def Spells (b : UInt8) (tail : List UInt8) (n : Nat) : Prop :=
  ∃ l, lead? b = some l ∧ Completes l.more l.low l.high l.bits tail n

theorem lead?_eq (b : UInt8) : lead? b =
    if b.toNat < 0xC2 then none
    else if b.toNat < 0xE0 then some ⟨1, 0x80, 0xBF, b.toNat - 0xC0⟩
    else if b.toNat = 0xE0 then some ⟨2, 0xA0, 0xBF, 0⟩
    else if b.toNat = 0xED then some ⟨2, 0x80, 0x9F, 0xD⟩
    else if b.toNat < 0xF0 then some ⟨2, 0x80, 0xBF, b.toNat - 0xE0⟩
    else if b.toNat = 0xF0 then some ⟨3, 0x90, 0xBF, 0⟩
    else if b.toNat < 0xF4 then some ⟨3, 0x80, 0xBF, b.toNat - 0xF0⟩
    else if b.toNat = 0xF4 then some ⟨3, 0x80, 0x8F, 4⟩
    else none := by
  unfold lead?
  simp only [UInt8.lt_iff_toNat_lt, ← UInt8.toNat_inj, UInt8.reduceToNat]

/-- A continuation byte. -/
abbrev Continues (b : UInt8) : Prop := 0x80 ≤ b.toNat ∧ b.toNat ≤ 0xBF

theorem completes_one_iff {low high : UInt8} {bits n : Nat} {tail : List UInt8} :
    Completes 1 low high bits tail n ↔
      ∃ b, tail = [b] ∧ low.toNat ≤ b.toNat ∧ b.toNat ≤ high.toNat ∧
        n = bits * 64 + (b.toNat - 0x80) := by
  constructor
  · intro h
    cases h with
    | last hlow hhigh =>
      exact ⟨_, rfl, UInt8.le_iff_toNat_le.mp hlow, UInt8.le_iff_toNat_le.mp hhigh, rfl⟩
  · rintro ⟨b, rfl, hlow, hhigh, hn⟩
    rw [hn]
    exact .last (UInt8.le_iff_toNat_le.mpr hlow) (UInt8.le_iff_toNat_le.mpr hhigh)

theorem completes_next_iff {more : Nat} {low high : UInt8} {bits n : Nat} {tail : List UInt8} :
    Completes (more + 2) low high bits tail n ↔
      ∃ b rest, tail = b :: rest ∧ low.toNat ≤ b.toNat ∧ b.toNat ≤ high.toNat ∧
        Completes (more + 1) 0x80 0xBF (bits * 64 + (b.toNat - 0x80)) rest n := by
  constructor
  · intro h
    cases h with
    | next hlow hhigh h =>
      exact ⟨_, _, rfl, UInt8.le_iff_toNat_le.mp hlow, UInt8.le_iff_toNat_le.mp hhigh, h⟩
  · rintro ⟨b, rest, rfl, hlow, hhigh, h⟩
    exact .next (UInt8.le_iff_toNat_le.mpr hlow) (UInt8.le_iff_toNat_le.mpr hhigh) h

theorem completes_two_iff {low high : UInt8} {bits n : Nat} {tail : List UInt8} :
    Completes 2 low high bits tail n ↔
      ∃ b b', tail = [b, b'] ∧ low.toNat ≤ b.toNat ∧ b.toNat ≤ high.toNat ∧ Continues b' ∧
        n = (bits * 64 + (b.toNat - 0x80)) * 64 + (b'.toNat - 0x80) := by
  rw [completes_next_iff]
  constructor
  · rintro ⟨b, rest, rfl, hlow, hhigh, h⟩
    obtain ⟨b', rfl, hlow', hhigh', hn⟩ := completes_one_iff.mp h
    exact ⟨b, b', rfl, hlow, hhigh, ⟨hlow', hhigh'⟩, hn⟩
  · rintro ⟨b, b', rfl, hlow, hhigh, hb', hn⟩
    exact ⟨b, [b'], rfl, hlow, hhigh, completes_one_iff.mpr ⟨b', rfl, hb'.1, hb'.2, hn⟩⟩

theorem completes_three_iff {low high : UInt8} {bits n : Nat} {tail : List UInt8} :
    Completes 3 low high bits tail n ↔
      ∃ b b' b'', tail = [b, b', b''] ∧ low.toNat ≤ b.toNat ∧ b.toNat ≤ high.toNat ∧ Continues b' ∧
        Continues b'' ∧ n = ((bits * 64 + (b.toNat - 0x80)) * 64 + (b'.toNat - 0x80)) * 64 +
          (b''.toNat - 0x80) := by
  rw [completes_next_iff]
  constructor
  · rintro ⟨b, rest, rfl, hlow, hhigh, h⟩
    obtain ⟨b', b'', rfl, hlow', hhigh', hb'', hn⟩ := completes_two_iff.mp h
    exact ⟨b, b', b'', rfl, hlow, hhigh, ⟨hlow', hhigh'⟩, hb'', hn⟩
  · rintro ⟨b, b', b'', rfl, hlow, hhigh, hb', hb'', hn⟩
    exact ⟨b, [b', b''], rfl, hlow, hhigh,
      completes_two_iff.mpr ⟨b', b'', rfl, hb'.1, hb'.2, hb'', hn⟩⟩

/-- The forms of two, three and four bytes. The ranges of the second byte are those that keep out what
has a shorter form, the halves of surrogate pairs, and the numbers beyond the last character. -/
inductive Form : UInt8 → List UInt8 → Nat → Prop
  | two {a b : UInt8} (ha : 0xC0 ≤ a.toNat ∧ a.toNat < 0xE0) (hb : Continues b) {n : Nat}
      (hn : n = (a.toNat - 0xC0) * 64 + (b.toNat - 0x80)) (h : 0x80 ≤ n) : Form a [b] n
  | three {a b c : UInt8} (ha : 0xE0 ≤ a.toNat ∧ a.toNat < 0xF0) (hb : Continues b) (hc : Continues c)
      {n : Nat} (hn : n = ((a.toNat - 0xE0) * 64 + (b.toNat - 0x80)) * 64 + (c.toNat - 0x80))
      (h : 0x800 ≤ n) (h' : n < 0xD800 ∨ 0xDFFF < n) : Form a [b, c] n
  | four {a b c d : UInt8} (ha : 0xF0 ≤ a.toNat ∧ a.toNat < 0xF8) (hb : Continues b) (hc : Continues c)
      (hd : Continues d) {n : Nat} (hn : n = (((a.toNat - 0xF0) * 64 + (b.toNat - 0x80)) * 64 +
        (c.toNat - 0x80)) * 64 + (d.toNat - 0x80))
      (h : 0x10000 ≤ n) (h' : n < 0x110000) : Form a [b, c, d] n

theorem Form.not_lt_lead {b : UInt8} {tail : List UInt8} {n : Nat} (h : Form b tail n) :
    ¬ b < 0x80 := by
  simp only [UInt8.lt_iff_toNat_lt, UInt8.reduceToNat]
  cases h with
  | two ha => omega
  | three ha => omega
  | four ha => omega

theorem form_three {a low high : UInt8} {bits n : Nat} {tail : List UInt8}
    (h : Completes 2 low high bits tail n) (ha : 0xE0 ≤ a.toNat ∧ a.toNat < 0xF0)
    (hbits : bits = a.toNat - 0xE0) (hlow : 0x80 ≤ low.toNat ∧ (bits = 0 → 0xA0 ≤ low.toNat))
    (hhigh : high.toNat ≤ 0xBF ∧ (bits = 0xD → high.toNat ≤ 0x9F)) : Form a tail n := by
  obtain ⟨b, c, rfl, hb, hb', hc, hn⟩ := completes_two_iff.mp h
  exact .three ha ⟨by omega, by omega⟩ hc (by omega) (by omega) (by omega)

theorem form_four {a low high : UInt8} {bits n : Nat} {tail : List UInt8}
    (h : Completes 3 low high bits tail n) (ha : 0xF0 ≤ a.toNat ∧ a.toNat < 0xF5)
    (hbits : bits = a.toNat - 0xF0) (hlow : 0x80 ≤ low.toNat ∧ (bits = 0 → 0x90 ≤ low.toNat))
    (hhigh : high.toNat ≤ 0xBF ∧ (bits = 4 → high.toNat ≤ 0x8F)) : Form a tail n := by
  obtain ⟨b, c, d, rfl, hb, hb', hc, hd, hn⟩ := completes_three_iff.mp h
  exact .four (by omega) ⟨by omega, by omega⟩ hc hd (by omega) (by omega) (by omega)

theorem form_of_spells {b : UInt8} {tail : List UInt8} {n : Nat} (h : Spells b tail n) :
    Form b tail n := by
  obtain ⟨l, hl, hc⟩ := h
  rw [lead?_eq] at hl
  split_ifs at hl
  all_goals
    cases hl
    dsimp only at hc
  · obtain ⟨b₁, rfl, hlow, hhigh, hn⟩ := completes_one_iff.mp hc
    exact .two (by omega) ⟨hlow, hhigh⟩ hn (by omega)
  · exact form_three hc (by omega) (by omega) (by decide) (by decide)
  · exact form_three hc (by omega) (by omega) (by decide) (by decide)
  · exact form_three hc (by omega) rfl ⟨by decide, fun h => by omega⟩ ⟨by decide, fun h => by omega⟩
  · exact form_four hc (by omega) (by omega) (by decide) (by decide)
  · exact form_four hc (by omega) rfl ⟨by decide, fun h => by omega⟩ ⟨by decide, fun h => by omega⟩
  · exact form_four hc (by omega) (by omega) (by decide) (by decide)

theorem spells_of_form {b : UInt8} {tail : List UInt8} {n : Nat} (h : Form b tail n) :
    Spells b tail n := by
  cases h with
  | two ha hb hn h =>
    refine ⟨⟨1, 0x80, 0xBF, b.toNat - 0xC0⟩, ?_, completes_one_iff.mpr ⟨_, rfl, hb.1, hb.2, hn⟩⟩
    rw [lead?_eq, if_neg (by omega), if_pos ha.2]
  | three ha hb hc hn h h' =>
    by_cases hE0 : b.toNat = 0xE0
    · refine ⟨⟨2, 0xA0, 0xBF, 0⟩, by rw [lead?_eq, hE0]; rfl,
        completes_two_iff.mpr ⟨_, _, rfl, ?_, hb.2, hc, by rw [hn, hE0]⟩⟩
      show 0xA0 ≤ _
      omega
    by_cases hED : b.toNat = 0xED
    · refine ⟨⟨2, 0x80, 0x9F, 0xD⟩, by rw [lead?_eq, hED]; rfl,
        completes_two_iff.mpr ⟨_, _, rfl, hb.1, ?_, hc, by rw [hn, hED]⟩⟩
      show _ ≤ 0x9F
      omega
    · refine ⟨⟨2, 0x80, 0xBF, b.toNat - 0xE0⟩, ?_,
        completes_two_iff.mpr ⟨_, _, rfl, hb.1, hb.2, hc, hn⟩⟩
      rw [lead?_eq, if_neg (by omega), if_neg (by omega), if_neg hE0, if_neg hED, if_pos ha.2]
  | four ha hb hc hd hn h h' =>
    by_cases hF0 : b.toNat = 0xF0
    · refine ⟨⟨3, 0x90, 0xBF, 0⟩, by rw [lead?_eq, hF0]; rfl,
        completes_three_iff.mpr ⟨_, _, _, rfl, ?_, hb.2, hc, hd, by rw [hn, hF0]⟩⟩
      show 0x90 ≤ _
      omega
    by_cases hF4 : b.toNat = 0xF4
    · refine ⟨⟨3, 0x80, 0x8F, 4⟩, by rw [lead?_eq, hF4]; rfl,
        completes_three_iff.mpr ⟨_, _, _, rfl, hb.1, ?_, hc, hd, by rw [hn, hF4]⟩⟩
      show _ ≤ 0x8F
      omega
    · refine ⟨⟨3, 0x80, 0xBF, b.toNat - 0xF0⟩, ?_,
        completes_three_iff.mpr ⟨_, _, _, rfl, hb.1, hb.2, hc, hd, hn⟩⟩
      rw [lead?_eq, if_neg (by omega), if_neg (by omega), if_neg (by omega), if_neg (by omega),
        if_neg (by omega), if_neg hF0, if_pos (by omega)]

/-! ## Characters and their forms -/

theorem toNat_byte {n : Nat} (h : n < 256) : (UInt8.ofNat n).toNat = n := by
  rw [UInt8.toNat_ofNat', Nat.mod_eq_of_lt h]

theorem toNat_valid (c : Char) : c.toNat < 0xD800 ∨ 0xDFFF < c.toNat ∧ c.toNat < 0x110000 := c.valid

theorem utf8EncodeChar_one {c : Char} (h : c.toNat < 0x80) :
    String.utf8EncodeChar c = [UInt8.ofNat c.toNat] :=
  if_pos (Nat.le_of_lt_succ h)

theorem utf8EncodeChar_two {c : Char} (h : 0x80 ≤ c.toNat) (h' : c.toNat < 0x800) :
    String.utf8EncodeChar c =
      [UInt8.ofNat (c.toNat / 64 % 32 + 192), UInt8.ofNat (c.toNat % 64 + 128)] :=
  (if_neg (Nat.not_le.mpr h)).trans (if_pos (Nat.le_of_lt_succ h'))

theorem utf8EncodeChar_three {c : Char} (h : 0x800 ≤ c.toNat) (h' : c.toNat < 0x10000) :
    String.utf8EncodeChar c =
      [UInt8.ofNat (c.toNat / 4096 % 16 + 224), UInt8.ofNat (c.toNat / 64 % 64 + 128),
        UInt8.ofNat (c.toNat % 64 + 128)] :=
  (if_neg (show ¬ c.toNat ≤ 127 by omega)).trans
    ((if_neg (Nat.not_le.mpr h)).trans (if_pos (Nat.le_of_lt_succ h')))

theorem utf8EncodeChar_four {c : Char} (h : 0x10000 ≤ c.toNat) :
    String.utf8EncodeChar c =
      [UInt8.ofNat (c.toNat / 262144 % 8 + 240), UInt8.ofNat (c.toNat / 4096 % 64 + 128),
        UInt8.ofNat (c.toNat / 64 % 64 + 128), UInt8.ofNat (c.toNat % 64 + 128)] :=
  (if_neg (show ¬ c.toNat ≤ 127 by omega)).trans
    ((if_neg (show ¬ c.toNat ≤ 2047 by omega)).trans (if_neg (Nat.not_le.mpr h)))

/-- A character beyond ASCII is written in one of the forms. -/
theorem exists_form (c : Char) (hc : 0x80 ≤ c.toNat) :
    ∃ b tail, String.utf8EncodeChar c = b :: tail ∧ Form b tail c.toNat := by
  have hvalid := toNat_valid c
  by_cases htwo : c.toNat < 0x800
  · refine ⟨_, _, utf8EncodeChar_two hc htwo, .two ?_ ?_ ?_ hc⟩
    all_goals simp only [Continues, toNat_byte (show c.toNat / 64 % 32 + 192 < 256 by omega),
      toNat_byte (show c.toNat % 64 + 128 < 256 by omega)]
    all_goals omega
  by_cases hthree : c.toNat < 0x10000
  · refine ⟨_, _, utf8EncodeChar_three (by omega) hthree, .three ?_ ?_ ?_ ?_ (by omega) (by omega)⟩
    all_goals simp only [Continues, toNat_byte (show c.toNat / 4096 % 16 + 224 < 256 by omega),
      toNat_byte (show c.toNat / 64 % 64 + 128 < 256 by omega),
      toNat_byte (show c.toNat % 64 + 128 < 256 by omega)]
    all_goals omega
  · refine ⟨_, _, utf8EncodeChar_four (by omega), .four ?_ ?_ ?_ ?_ ?_ (by omega) (by omega)⟩
    all_goals simp only [Continues, toNat_byte (show c.toNat / 262144 % 8 + 240 < 256 by omega),
      toNat_byte (show c.toNat / 4096 % 64 + 128 < 256 by omega),
      toNat_byte (show c.toNat / 64 % 64 + 128 < 256 by omega),
      toNat_byte (show c.toNat % 64 + 128 < 256 by omega)]
    all_goals omega

theorem ofNat_byte {n : Nat} {b : UInt8} (h : n = b.toNat) : UInt8.ofNat n = b := by
  rw [h, UInt8.ofNat_toNat]

theorem exists_char {n : Nat} (h : n < 0xD800 ∨ 0xDFFF < n ∧ n < 0x110000) :
    ∃ c : Char, c.toNat = n := by
  refine ⟨Char.ofNat n, ?_⟩
  rw [Char.ofNat, dif_pos h]
  rfl

/-- Every form is that of a character. -/
theorem Form.exists_char {b : UInt8} {tail : List UInt8} {n : Nat} (h : Form b tail n) :
    ∃ c : Char, c.toNat = n ∧ String.utf8EncodeChar c = b :: tail := by
  cases h with
  | two ha hb hn h =>
    obtain ⟨c, hc⟩ := Utf8.exists_char (n := n) (by omega)
    refine ⟨c, hc, ?_⟩
    rw [utf8EncodeChar_two (by omega) (by omega)]
    simp only [List.cons.injEq, and_true]
    exact ⟨ofNat_byte (by omega), ofNat_byte (by omega)⟩
  | three ha hb hc hn h h' =>
    obtain ⟨ch, hch⟩ := Utf8.exists_char (n := n) (by omega)
    refine ⟨ch, hch, ?_⟩
    rw [utf8EncodeChar_three (by omega) (by omega)]
    simp only [List.cons.injEq, and_true]
    exact ⟨ofNat_byte (by omega), ofNat_byte (by omega), ofNat_byte (by omega)⟩
  | four ha hb hc hd hn h h' =>
    obtain ⟨ch, hch⟩ := Utf8.exists_char (n := n) (by omega)
    refine ⟨ch, hch, ?_⟩
    rw [utf8EncodeChar_four (by omega)]
    simp only [List.cons.injEq, and_true]
    exact ⟨ofNat_byte (by omega), ofNat_byte (by omega), ofNat_byte (by omega),
      ofNat_byte (by omega)⟩

/-! ## The decoder -/

theorem decodeFrom_completes {more bits n : Nat} {low high : UInt8} {tail : List UInt8}
    (h : Completes more low high bits tail n) (pos start width : Nat) (done : List Char)
    (rest : List UInt8) :
    decodeFrom pos (some ⟨start, width, more, low, high, bits⟩) done (tail ++ rest) =
      decodeFrom (pos + tail.length) none (Char.ofNat n :: done) rest := by
  induction h generalizing pos width with
  | @last low high b bits hlow hhigh =>
    have hin : (decide (b < low) || decide (high < b)) = false := by
      simp only [UInt8.not_lt.mpr hlow, UInt8.not_lt.mpr hhigh, decide_false, Bool.or_false]
    rw [List.singleton_append, decodeFrom]
    simp only [hin, Bool.false_eq_true, if_false, Nat.le_refl, if_true, List.length_singleton]
  | @next more low high b bits n tail hlow hhigh h ih =>
    have hin : (decide (b < low) || decide (high < b)) = false := by
      simp only [UInt8.not_lt.mpr hlow, UInt8.not_lt.mpr hhigh, decide_false, Bool.or_false]
    rw [List.cons_append, decodeFrom]
    simp only [hin, Bool.false_eq_true, if_false, if_neg (show ¬ more + 2 ≤ 1 by omega),
      Nat.add_one_sub_one, ih]
    rw [List.length_cons, Nat.add_right_comm, Nat.add_assoc]

/-- The decoder reads a character from its bytes. -/
theorem decodeFrom_char (pos : Nat) (done : List Char) (c : Char) (rest : List UInt8) :
    decodeFrom pos none done (String.utf8EncodeChar c ++ rest) =
      decodeFrom (pos + (String.utf8EncodeChar c).length) none (c :: done) rest := by
  by_cases hc : c.toNat < 0x80
  · have hbyte : (UInt8.ofNat c.toNat).toNat = c.toNat := toNat_byte (by omega)
    have hlow : UInt8.ofNat c.toNat < 0x80 := by
      rw [UInt8.lt_iff_toNat_lt, hbyte]
      exact hc
    rw [utf8EncodeChar_one hc, List.singleton_append, decodeFrom]
    simp only [if_pos hlow, hbyte, Char.ofNat_toNat, List.length_singleton]
  · obtain ⟨b, tail, hbytes, hform⟩ := exists_form c (Nat.not_lt.mp hc)
    have hhigh := hform.not_lt_lead
    obtain ⟨l, hl, hcompletes⟩ := spells_of_form hform
    rw [hbytes, List.cons_append, decodeFrom]
    simp only [if_neg hhigh, hl, decodeFrom_completes hcompletes, Char.ofNat_toNat,
      List.length_cons]
    rw [Nat.add_right_comm, Nat.add_assoc]

/-- The decoder reads a text from its bytes, whatever follows. -/
theorem decodeFrom_append (pos : Nat) (done s : List Char) (rest : List UInt8) :
    decodeFrom pos none done (encode s ++ rest) =
      decodeFrom (pos + (encode s).length) none (s.reverse ++ done) rest := by
  induction s generalizing pos done with
  | nil => rfl
  | cons c s ih =>
    rw [encode_cons, List.append_assoc, decodeFrom_char, ih, List.length_append, Nat.add_assoc,
      List.reverse_cons, List.append_assoc, List.singleton_append]

/-- A started character is completed by what follows, or refused with the bytes read of it. -/
theorem completes_or_error {more : Nat} (hmore : 0 < more) (low high : UInt8)
    (bits pos start width : Nat) (done : List Char) (bytes : List UInt8) :
    (∃ tail rest n, bytes = tail ++ rest ∧ Completes more low high bits tail n) ∨
      ∃ k reason, k < more ∧ k ≤ bytes.length ∧
        decodeFrom pos (some ⟨start, width, more, low, high, bits⟩) done bytes =
          .error ⟨start, width + k, reason⟩ := by
  induction bytes generalizing more low high bits pos width with
  | nil => exact .inr ⟨0, .unexpectedEnd, hmore, Nat.le_refl 0, rfl⟩
  | cons b bytes ih =>
    by_cases hout : b < low ∨ high < b
    · refine .inr ⟨0, .invalidContinuation, hmore, Nat.zero_le _, ?_⟩
      rw [decodeFrom]
      simp only [Bool.or_eq_true, decide_eq_true_eq, if_pos hout, Nat.add_zero]
    obtain ⟨hlow, hhigh⟩ := not_or.mp hout
    rw [UInt8.not_lt] at hlow hhigh
    obtain rfl | ⟨more, rfl⟩ : more = 1 ∨ ∃ k, more = k + 2 := by
      obtain _ | _ | k := more
      · exact absurd hmore (Nat.lt_irrefl 0)
      · exact .inl rfl
      · exact .inr ⟨k, rfl⟩
    · exact .inl ⟨[b], bytes, _, rfl, .last hlow hhigh⟩
    obtain ⟨tail, rest, n, rfl, h⟩ | ⟨k, reason, hk, hlength, h⟩ :=
      ih (Nat.succ_pos more) 0x80 0xBF (bits * 64 + (b.toNat - 0x80)) (pos + 1) (width + 1)
    · exact .inl ⟨b :: tail, rest, n, rfl, .next hlow hhigh h⟩
    · refine .inr ⟨k + 1, reason, by omega, Nat.succ_le_succ hlength, ?_⟩
      rw [decodeFrom]
      simp only [Bool.or_eq_true, decide_eq_true_eq, if_neg hout,
        if_neg (show ¬ more + 2 ≤ 1 by omega), Nat.add_one_sub_one, h]
      rw [Nat.add_assoc, Nat.add_comm 1 k]

theorem lead?_more {b : UInt8} {l : Lead} (h : lead? b = some l) : 0 < l.more ∧ l.more ≤ 3 := by
  rw [lead?_eq] at h
  split_ifs at h
  all_goals
    cases h
    exact ⟨Nat.succ_pos _, by dsimp only; omega⟩

/-- Bytes start with those of a character, or are refused at their first byte. -/
theorem char_or_error (pos : Nat) (done : List Char) {bytes : List UInt8} (hbytes : bytes ≠ []) :
    (∃ c rest, bytes = String.utf8EncodeChar c ++ rest) ∨
      ∃ width reason, 1 ≤ width ∧ width ≤ 3 ∧ width ≤ bytes.length ∧
        decodeFrom pos none done bytes = .error ⟨pos, width, reason⟩ := by
  obtain ⟨b, bytes, rfl⟩ := List.exists_cons_of_ne_nil hbytes
  by_cases hascii : b < 0x80
  · have hb : b.toNat < 0x80 := UInt8.lt_iff_toNat_lt.mp hascii
    obtain ⟨c, hc⟩ := exists_char (n := b.toNat) (by omega)
    refine .inl ⟨c, bytes, ?_⟩
    rw [utf8EncodeChar_one (by omega), hc, UInt8.ofNat_toNat, List.singleton_append]
  cases hl : lead? b with
  | none =>
    refine .inr ⟨1, .invalidStart, Nat.le_refl 1, by decide, Nat.succ_le_succ (Nat.zero_le _), ?_⟩
    rw [decodeFrom]
    simp only [if_neg hascii, hl]
  | some l =>
    obtain ⟨hpos, hmore⟩ := lead?_more hl
    obtain ⟨tail, rest, n, rfl, h⟩ | ⟨k, reason, hk, hlength, h⟩ :=
      completes_or_error hpos l.low l.high l.bits (pos + 1) pos 1 done bytes
    · obtain ⟨c, -, hc⟩ := (form_of_spells ⟨l, hl, h⟩).exists_char
      exact .inl ⟨c, rest, by rw [hc, List.cons_append]⟩
    · refine .inr ⟨1 + k, reason, by omega, by omega, by rw [List.length_cons]; omega, ?_⟩
      rw [decodeFrom]
      simp only [if_neg hascii, hl, h]

theorem utf8EncodeChar_ne_nil (c : Char) : String.utf8EncodeChar c ≠ [] := fun h => by
  have hlength := String.length_utf8EncodeChar c
  rw [h] at hlength
  exact absurd hlength (Nat.ne_of_lt (Char.utf8Size_pos c))

/-- Bytes are a text, or a text and then bytes of which the first ones are refused. -/
theorem text_or_error (pos : Nat) (done : List Char) (bytes : List UInt8) :
    (∃ s, bytes = encode s ∧ decodeFrom pos none done bytes = .ok (done.reverse ++ s)) ∨
      ∃ s rest width reason, bytes = encode s ++ rest ∧ 1 ≤ width ∧ width ≤ 3 ∧
        width ≤ rest.length ∧ decodeFrom pos none done bytes =
          .error ⟨pos + (encode s).length, width, reason⟩ := by
  -- a character takes one byte or more, so what follows it is shorter
  induction hn : bytes.length using Nat.strongRecOn generalizing pos done bytes with
  | ind n ih =>
    subst hn
    by_cases hbytes : bytes = []
    · subst hbytes
      exact .inl ⟨[], rfl, by rw [List.append_nil]; rfl⟩
    obtain ⟨c, rest, rfl⟩ | ⟨width, reason, hpos, hle, hlength, h⟩ := char_or_error pos done hbytes
    · have hlt : rest.length < (String.utf8EncodeChar c ++ rest).length := by
        rw [List.length_append]
        exact Nat.lt_add_of_pos_left (List.length_pos_of_ne_nil (utf8EncodeChar_ne_nil c))
      rw [decodeFrom_char]
      obtain ⟨s, rfl, h⟩ | ⟨s, rest', width, reason, rfl, hpos, hle, hlength, h⟩ :=
        ih _ hlt (pos + (String.utf8EncodeChar c).length) (c :: done) rest rfl
      · refine .inl ⟨c :: s, rfl, ?_⟩
        rw [h, List.reverse_cons, List.append_assoc, List.singleton_append]
      · refine .inr ⟨c :: s, rest', width, reason, ?_, hpos, hle, hlength, ?_⟩
        · rw [encode_cons, List.append_assoc]
        · rw [h, encode_cons, List.length_append, Nat.add_assoc]
    · exact .inr ⟨[], bytes, width, reason, rfl, hpos, hle, hlength, h⟩

/-- A refusal is right where the longest part that is a text ends, and names one to three bytes. -/
structure Refusal.Faults (r : Refusal) (bytes : List UInt8) : Prop where
  text : ∃ s, bytes.take r.start = encode s
  longest : ∀ s, encode s <+: bytes → (encode s).length ≤ r.start
  one_le : 1 ≤ r.width
  le_three : r.width ≤ 3
  inside : r.start + r.width ≤ bytes.length

theorem decode_encode (s : List Char) : decode (encode s) = .ok s := by
  have h := decodeFrom_append 0 [] s []
  rw [List.append_nil, List.append_nil] at h
  rw [decode, h]
  exact congrArg Except.ok (List.reverse_reverse s)

theorem encode_injective : Function.Injective encode := fun s t h => by
  have hs := decode_encode s
  rw [h, decode_encode] at hs
  exact (Except.ok.inj hs).symm

/-- The decoder accepts the bytes of texts and nothing else. -/
theorem decode_eq_ok_iff {bytes : List UInt8} {s : List Char} :
    decode bytes = .ok s ↔ bytes = encode s := by
  constructor
  · intro h
    obtain ⟨s', rfl, -⟩ | ⟨s', rest, width, reason, -, -, -, -, herror⟩ := text_or_error 0 [] bytes
    · rw [decode_encode] at h
      rw [Except.ok.inj h]
    · rw [decode, herror] at h
      cases h
  · rintro rfl
    exact decode_encode s

theorem faults_of_decode {bytes : List UInt8} {r : Refusal} (h : decode bytes = .error r) :
    r.Faults bytes := by
  obtain ⟨s, rfl, hok⟩ | ⟨s, rest, width, reason, rfl, hpos, hle, hlength, herror⟩ :=
    text_or_error 0 [] bytes
  · rw [decode, hok] at h
    cases h
  rw [decode, herror, Nat.zero_add] at h
  cases h
  refine ⟨⟨s, List.take_left⟩, ?_, hpos, hle, ?_⟩
  · rintro s' ⟨rest', hsplit⟩
    -- read on from the end of the other text: what is refused stands after it
    have hread := decodeFrom_append 0 [] s' rest'
    rw [hsplit, herror] at hread
    obtain ⟨t, -, hok⟩ | ⟨t, rest'', width', reason', -, -, -, -, herror'⟩ :=
      text_or_error (0 + (encode s').length) (s'.reverse ++ []) rest'
    · rw [hok] at hread
      cases hread
    · rw [herror'] at hread
      have hstart : 0 + (encode s).length = 0 + (encode s').length + (encode t).length :=
        congrArg Refusal.start (Except.error.inj hread)
      show (encode s').length ≤ (encode s).length
      omega
  · show (encode s).length + width ≤ (encode s ++ rest).length
    rw [List.length_append]
    exact Nat.add_le_add_left hlength _

/-! ## Texts as arrays of bytes -/

/-- Bytes as a list are the bytes as an array. -/
theorem toList_bytes (bytes : ByteArray) : bytes.toList = bytes.data.toList := by
  have hloop : ∀ i done, ByteArray.toList.loop bytes i done =
      done.reverse ++ bytes.data.toList.drop i := by
    intro i done
    induction i, done using ByteArray.toList.loop.induct bytes with
    | case1 i done hi ih =>
      have hlength : i < bytes.data.toList.length := by simpa using hi
      have hget : bytes.get! i = bytes.data.toList[i] := by
        rw [ByteArray.get!, Array.getElem_toList]
        exact getElem!_pos bytes.data i (by simpa using hi)
      rw [ByteArray.toList.loop, if_pos hi, ih, List.drop_eq_getElem_cons hlength, hget]
      simp
    | case2 i done hi =>
      have hlength : bytes.data.toList.length ≤ i := by simpa using hi
      rw [ByteArray.toList.loop, if_neg hi, List.drop_eq_nil_of_le hlength, List.append_nil]
  rw [ByteArray.toList, hloop]
  rfl

theorem toList_toUTF8 (s : String) : s.toUTF8.toList = encode s.toList := by
  rw [toList_bytes, String.toUTF8_eq_toByteArray, ← String.utf8Encode_toList, List.utf8Encode,
    List.toList_data_toByteArray]
  rfl

end Text.Utf8

end RouteAtlas
