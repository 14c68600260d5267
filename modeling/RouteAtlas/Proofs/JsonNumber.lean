import RouteAtlas.Json.Printer
import RouteAtlas.Json.Reader
import RouteAtlas.Proofs.FloatSign
import RouteAtlas.Proofs.Lexeme

/-!
# Numbers of JSON texts

What the printer writes for a number is read as a number and nothing else. A whole number comes back
as it is. Of a floating-point number the digits, the point and the exponent come back; that they give
the same number again is a property of its shortest digits (`Json.ReadsBack`).
-/

namespace RouteAtlas

open Urlconf (takeWhile_append_of_stop dropWhile_append_of_stop)

namespace Json

/-! ## Digits -/

/-- The characters are digits. -/
def AreDigits (s : List Char) : Prop := ∀ c ∈ s, c.isDigit = true

/-- Digits as they stand before the point: a zero alone, or no leading zero. -/
def Whole (s : List Char) : Prop := s = ['0'] ∨ ∃ c rest, s = c :: rest ∧ c ≠ '0' ∧ AreDigits s

/-- No digit follows. -/
def NoDigit (s : List Char) : Prop := ∀ c ∈ s.head?, c.isDigit = false

theorem areDigits_toDigits (n : Nat) : AreDigits (Nat.toDigits 10 n) := fun _ hc =>
  Nat.isDigit_of_mem_toDigits (by decide) (by decide) hc

theorem areDigits_zeros (n : Nat) : AreDigits (List.replicate n '0') := by
  intro c hc
  rw [List.eq_of_mem_replicate hc]
  rfl

theorem AreDigits.append {s t : List Char} (hs : AreDigits s) (ht : AreDigits t) :
    AreDigits (s ++ t) := fun c hc => (List.mem_append.mp hc).elim (hs c) (ht c)

theorem digitsValue_toDigits (n : Nat) : Numeral.digitsValue (Nat.toDigits 10 n) = n :=
  Nat.ofDigitChars_toDigits (by decide) (by decide)

/-- A number other than zero has no leading zero. -/
theorem toDigits_of_ne_zero {n : Nat} (hn : n ≠ 0) :
    ∃ c rest, Nat.toDigits 10 n = c :: rest ∧ c ≠ '0' := by
  induction n using Nat.strongRecOn with
  | _ n ih =>
    by_cases hsmall : n < 10
    · rw [Nat.toDigits_of_lt_base hsmall]
      refine ⟨n.digitChar, [], rfl, ?_⟩
      have hdigits : ∀ m < 10, m ≠ 0 → m.digitChar ≠ '0' := by decide
      exact hdigits n hsmall hn
    · obtain ⟨c, rest, hdigits, hc⟩ := ih (n / 10) (by omega) (by omega)
      rw [Nat.toDigits_of_base_le (by decide) (by omega), hdigits]
      exact ⟨c, rest ++ [(n % 10).digitChar], rfl, hc⟩

theorem whole_toDigits (n : Nat) : Whole (Nat.toDigits 10 n) := by
  by_cases hn : n = 0
  · rw [hn]
    exact Or.inl rfl
  · obtain ⟨c, rest, hdigits, hc⟩ := toDigits_of_ne_zero hn
    exact Or.inr ⟨c, rest, hdigits, hc, areDigits_toDigits n⟩

/-- Further digits leave a number without leading zero, and so does leaving some out. -/
theorem Whole.append {s t : List Char} (hs : Whole s) (hne : s ≠ ['0']) (ht : AreDigits t) :
    Whole (s ++ t) := by
  obtain rfl | ⟨c, rest, rfl, hc, hdigits⟩ := hs
  · exact absurd rfl hne
  · exact Or.inr ⟨c, rest ++ t, rfl, hc, hdigits.append ht⟩

theorem Whole.take {s : List Char} (hs : Whole s) {k : Nat} (hk : 0 < k) : Whole (s.take k) := by
  obtain ⟨k, rfl⟩ := Nat.exists_eq_succ_of_ne_zero hk.ne'
  obtain rfl | ⟨c, rest, rfl, hc, hdigits⟩ := hs
  · exact Or.inl (by simp)
  · exact Or.inr ⟨c, rest.take k, rfl, hc, fun d hd => hdigits d (List.mem_of_mem_take hd)⟩

theorem Whole.areDigits {s : List Char} (hs : Whole s) : AreDigits s := by
  obtain rfl | ⟨c, rest, -, -, hdigits⟩ := hs
  · exact areDigits_zeros 1
  · exact hdigits

theorem Whole.exists_cons {s : List Char} (hs : Whole s) :
    ∃ c rest, s = c :: rest ∧ c.isDigit = true := by
  obtain rfl | ⟨c, rest, rfl, -, hdigits⟩ := hs
  · exact ⟨'0', [], rfl, rfl⟩
  · exact ⟨c, rest, rfl, hdigits c List.mem_cons_self⟩

/-! ## The parts of a number -/

/-- How a fraction is written. -/
def pointed : List Char → List Char
  | [] => []
  | fraction => '.' :: fraction

/-- How an exponent is written. -/
def powered : Option (Bool × List Char) → List Char
  | none => []
  | some (negative, digits) => 'e' :: (if negative then '-' else '+') :: digits

/-- The exponent, if there is one, has digits and nothing else. -/
def Exponent (exponent? : Option (Bool × List Char)) : Prop :=
  ∀ e ∈ exponent?, e.2 ≠ [] ∧ AreDigits e.2

theorem noDigit_powered (exponent? : Option (Bool × List Char)) : NoDigit (powered exponent?) := by
  cases exponent? with
  | none => rintro c ⟨⟩
  | some e =>
    rintro c ⟨⟩
    rfl

theorem noDigit_pointed (fraction : List Char) {rest : List Char} (hrest : NoDigit rest) :
    NoDigit (pointed fraction ++ rest) := by
  cases fraction with
  | nil => exact hrest
  | cons d fraction =>
    rintro c ⟨⟩
    rfl

theorem readWhole_append {whole rest : List Char} (hwhole : Whole whole) (hrest : NoDigit rest) :
    readWhole (whole ++ rest) = (whole, rest) := by
  obtain rfl | ⟨c, more, rfl, hc, hdigits⟩ := hwhole
  · rfl
  · have hread : readWhole (c :: (more ++ rest)) =
        ((c :: more ++ rest).takeWhile Char.isDigit, (c :: more ++ rest).dropWhile Char.isDigit) := by
      unfold readWhole
      split
      · rename_i heq
        exact absurd (List.cons_eq_cons.mp heq).1 hc
      · rfl
    rw [List.cons_append, hread, takeWhile_append_of_stop hdigits hrest,
      dropWhile_append_of_stop hdigits hrest]

theorem readFraction_append {fraction rest : List Char} (hfraction : AreDigits fraction)
    (hrest : NoDigit rest) (hpoint : '.' ∉ rest.head?) :
    readFraction (pointed fraction ++ rest) = (fraction, rest) := by
  cases fraction with
  | nil =>
    unfold readFraction pointed
    split
    · rename_i heq
      rw [List.nil_append] at heq
      exact absurd (by rw [heq]; rfl) hpoint
    · rfl
  | cons d fraction =>
    have htake : (d :: fraction ++ rest).takeWhile Char.isDigit = d :: fraction :=
      takeWhile_append_of_stop hfraction hrest
    have hdrop : (d :: fraction ++ rest).dropWhile Char.isDigit = rest :=
      dropWhile_append_of_stop hfraction hrest
    have hread : readFraction (pointed (d :: fraction) ++ rest) =
        if (d :: fraction ++ rest).takeWhile Char.isDigit = [] then ([], '.' :: d :: fraction ++ rest)
        else ((d :: fraction ++ rest).takeWhile Char.isDigit,
          (d :: fraction ++ rest).dropWhile Char.isDigit) := rfl
    rw [hread, htake, hdrop, if_neg (List.cons_ne_nil _ _)]

theorem readExponent_powered {exponent? : Option (Bool × List Char)} (h : Exponent exponent?) :
    readExponent (powered exponent?) = (exponent?, []) := by
  cases exponent? with
  | none => rfl
  | some e =>
    obtain ⟨negative, digits⟩ := e
    obtain ⟨hne, hdigits⟩ := h _ rfl
    have hend : ∀ c ∈ ([] : List Char).head?, c.isDigit = false := by
      simp
    have htake : digits.takeWhile Char.isDigit = digits := by
      simpa using takeWhile_append_of_stop hdigits hend
    have hdrop : digits.dropWhile Char.isDigit = [] := by
      simpa using dropWhile_append_of_stop hdigits hend
    cases negative <;> simp [powered, readExponent, Numeral.readSign, htake, hdrop, hne]

/-- A number that is written part by part is read part by part. -/
theorem read?_parts (negative : Bool) {whole fraction : List Char}
    {exponent? : Option (Bool × List Char)} (hwhole : Whole whole) (hfraction : AreDigits fraction)
    (hexponent : Exponent exponent?) :
    Written.read? ((if negative then ['-'] else []) ++
        (whole ++ (pointed fraction ++ powered exponent?))) =
      some (⟨negative, whole, fraction, exponent?⟩, []) := by
  have hpowered := noDigit_powered exponent?
  have hpoint : '.' ∉ (powered exponent?).head? := by
    cases exponent? <;> simp [powered]
  have hunsigned : readUnsigned? negative (whole ++ (pointed fraction ++ powered exponent?)) =
      some (⟨negative, whole, fraction, exponent?⟩, []) := by
    have hne : whole ≠ [] := by
      obtain ⟨c, rest, rfl, -⟩ := hwhole.exists_cons
      exact List.cons_ne_nil _ _
    unfold readUnsigned?
    rw [readWhole_append hwhole (noDigit_pointed fraction hpowered)]
    dsimp only
    rw [readFraction_append hfraction hpowered hpoint]
    dsimp only
    rw [readExponent_powered hexponent]
    dsimp only
    rw [if_neg hne]
  cases negative with
  | true => exact hunsigned
  | false =>
    obtain ⟨c, rest, rfl, hc⟩ := hwhole.exists_cons
    have hminus : c ≠ '-' := by
      rintro rfl
      exact absurd hc (by decide)
    rw [if_neg Bool.false_ne_true, List.nil_append, ← hunsigned, List.cons_append]
    unfold Written.read?
    split
    · rename_i heq
      exact absurd (List.cons_eq_cons.mp heq).1 hminus
    · rfl

/-! ## Numbers and names -/

/-- The text starts as a number does. -/
def StartsNumber (s : List Char) : Prop :=
  ∃ c rest, c.isDigit = true ∧ (s = c :: rest ∨ s = '-' :: c :: rest)

theorem startsNumber_parts (negative : Bool) {whole : List Char} (hwhole : Whole whole)
    (rest : List Char) : StartsNumber ((if negative then ['-'] else []) ++ (whole ++ rest)) := by
  obtain ⟨c, more, rfl, hc⟩ := hwhole.exists_cons
  refine ⟨c, more ++ rest, hc, ?_⟩
  cases negative with
  | true => exact Or.inr rfl
  | false => exact Or.inl rfl

/-- A number is no name. -/
theorem bareValue_of_startsNumber {s : List Char} (hs : StartsNumber s) {w : Written}
    (hread : Written.read? s = some (w, [])) : bareValue s = numberValue w := by
  have hnames : s ≠ "null".toList ∧ s ≠ "true".toList ∧ s ≠ "false".toList ∧ s ≠ "NaN".toList ∧
      s ≠ "Infinity".toList ∧ s ≠ "-Infinity".toList := by
    obtain ⟨c, rest, hc, rfl | rfl⟩ := hs
    · refine ⟨?_, ?_, ?_, ?_, ?_, ?_⟩ <;> rintro ⟨⟩ <;> exact absurd hc (by decide)
    · refine ⟨?_, ?_, ?_, ?_, ?_, ?_⟩ <;> rintro ⟨⟩
      exact absurd hc (by decide)
  obtain ⟨hnull, htrue, hfalse, hnan, hinfinity, hminus⟩ := hnames
  unfold bareValue
  rw [if_neg hnull, if_neg htrue, if_neg hfalse, if_neg hnan, if_neg hinfinity, if_neg hminus, hread]
  dsimp only
  cases numberValue w with
  | error r => rfl
  | ok v => rfl

/-! ## Whole numbers -/

theorem toList_toString_int (n : Int) :
    (toString n).toList = (if (n < 0 : Bool) then ['-'] else []) ++ Nat.toDigits 10 n.natAbs := by
  cases n with
  | ofNat m => simp [Int.toString_eq_repr, Int.repr, Nat.toList_repr]
  | negSucc m => simp [Int.toString_eq_repr, Int.repr, Nat.toList_repr, Int.negSucc_lt_zero]

theorem read?_int (n : Int) :
    Written.read? (toString n).toList = some (⟨n < 0, Nat.toDigits 10 n.natAbs, [], none⟩, []) := by
  have hfraction : AreDigits [] := fun _ h => absurd h List.not_mem_nil
  have hexponent : Exponent none := fun _ h => absurd h (Option.not_mem_none _)
  have hparts := read?_parts (decide (n < 0)) (whole_toDigits n.natAbs) hfraction hexponent
  rw [toList_toString_int]
  simpa [pointed, powered] using hparts

/-- A whole number is read back, unless it has more digits than are read. -/
theorem bareValue_int {n : Int} (hn : (Nat.toDigits 10 n.natAbs).length ≤ mostDigits) :
    bareValue (toString n).toList = .ok (.int n) := by
  have hstart : StartsNumber (toString n).toList := by
    have hparts := startsNumber_parts (decide (n < 0)) (whole_toDigits n.natAbs) []
    rw [toList_toString_int]
    simpa using hparts
  have hvalue : Written.toInt ⟨n < 0, Nat.toDigits 10 n.natAbs, [], none⟩ = n := by
    unfold Written.toInt
    simp only [digitsValue_toDigits, decide_eq_true_eq]
    split <;> omega
  have hwhole : Written.isWhole ⟨n < 0, Nat.toDigits 10 n.natAbs, [], none⟩ = true := rfl
  rw [bareValue_of_startsNumber hstart (read?_int n), numberValue, if_pos hwhole,
    if_neg (Nat.not_lt.mpr hn), hvalue]

/-! ## Floating-point numbers -/

/-- The text is a number with a fraction or an exponent. -/
def Fractional (s : List Char) : Prop :=
  ∃ whole fraction exponent?, Whole whole ∧ AreDigits fraction ∧ Exponent exponent? ∧
    (fraction ≠ [] ∨ exponent?.isSome = true) ∧ s = whole ++ (pointed fraction ++ powered exponent?)

theorem toList_exponentText (e : Int) :
    ∃ negative digits, digits ≠ [] ∧ AreDigits digits ∧
      (Numeral.exponentText Numeral.json e).toList = powered (some (negative, digits)) := by
  obtain ⟨zeros, hzeros⟩ : ∃ zeros, zeros =
      List.replicate (Numeral.json.exponentWidth - (toString e.natAbs).length) '0' := ⟨_, rfl⟩
  refine ⟨decide (e < 0), zeros ++ Nat.toDigits 10 e.natAbs, ?_, ?_, ?_⟩
  · obtain ⟨c, rest, hdigits, -⟩ := (whole_toDigits e.natAbs).exists_cons
    rw [hdigits]
    simp
  · rw [hzeros]
    exact (areDigits_zeros _).append (areDigits_toDigits _)
  · unfold Numeral.exponentText
    dsimp only
    rw [← hzeros]
    by_cases he : e < 0
    · simp [he, powered, Nat.toString_eq_repr, Nat.toList_repr]
    · simp [he, powered, Nat.toString_eq_repr, Nat.toList_repr]

/-- Where the digits of a decimal end, it is written with a point. Only zero itself may start with a
zero, so it must have no further zeros before the point. -/
theorem fractional_text {d : Numeral.Decimal} (hd : d.digits = 0 → d.exponent = 0) :
    Fractional (d.text Numeral.json).toList := by
  obtain ⟨digits, hdigits⟩ : ∃ digits, digits = Nat.toDigits 10 d.digits := ⟨_, rfl⟩
  have hwhole : Whole digits := hdigits ▸ whole_toDigits d.digits
  have hare : AreDigits digits := hwhole.areDigits
  have hpositive : 0 < digits.length := by
    obtain ⟨c, rest, rfl, -⟩ := hwhole.exists_cons
    simp
  have htext : (toString d.digits).toList = digits := by
    rw [hdigits, Nat.toString_eq_repr, Nat.toList_repr]
  have hlength : (toString d.digits).length = digits.length := by
    rw [← String.length_toList, htext]
  have hnoExponent : Exponent none := fun _ h => absurd h (Option.not_mem_none _)
  unfold Numeral.Decimal.text
  dsimp only
  rw [hlength, htext]
  split
  · -- an exponent
    rename_i hrange
    obtain ⟨negative, exponent, hne, hexponent, hpowered⟩ :=
      toList_exponentText ((digits.length : Int) + d.exponent - 1)
    refine ⟨digits.take 1, digits.drop 1, some (negative, exponent), hwhole.take (by decide),
      fun c hc => hare c (List.mem_of_mem_drop hc), ?_, Or.inr rfl, ?_⟩
    · rintro e ⟨⟩
      exact ⟨hne, hexponent⟩
    · cases htail : digits.drop 1 with
      | nil => simp [hpowered, pointed]
      | cons c rest => simp [hpowered, pointed]
  split
  · -- all digits stand after the point
    refine ⟨['0'], List.replicate (-((digits.length : Int) + d.exponent)).toNat '0' ++ digits, none,
      Or.inl rfl, (areDigits_zeros _).append hare, hnoExponent, Or.inl ?_, ?_⟩
    · simp [List.ne_nil_of_length_pos hpositive]
    · cases hfraction : List.replicate (-((digits.length : Int) + d.exponent)).toNat '0' ++ digits with
      | nil =>
        rw [List.append_eq_nil_iff] at hfraction
        exact absurd (hfraction.2 ▸ hpositive) (by simp)
      | cons c rest => simp [pointed, powered, ← hdigits, ← hfraction]
  split
  · -- all digits stand before the point
    rename_i hlow hpoint hlong
    have hzeros : Whole (digits ++
        List.replicate ((digits.length : Int) + d.exponent - digits.length).toNat '0') := by
      by_cases hzero : d.digits = 0
      · have hnone : ((digits.length : Int) + d.exponent - digits.length).toNat = 0 := by
          rw [hd hzero]
          simp
        rw [hnone, List.replicate_zero, List.append_nil]
        exact hwhole
      · obtain ⟨c, rest, hcons, hc⟩ := toDigits_of_ne_zero hzero
        refine hwhole.append (fun hone => hc ?_) (areDigits_zeros _)
        rw [hdigits, hcons] at hone
        exact (List.cons_eq_cons.mp hone).1
    refine ⟨_, ['0'], none, hzeros, areDigits_zeros 1, hnoExponent, Or.inl (List.cons_ne_nil _ _), ?_⟩
    simp [pointed, powered, ← hdigits]
  · -- the point stands among the digits
    rename_i hlow hpoint hshort
    obtain ⟨k, hk⟩ := Int.eq_ofNat_of_zero_le (by omega : 0 ≤ (digits.length : Int) + d.exponent)
    have hfraction : digits.drop k ≠ [] := by
      rw [Ne, List.drop_eq_nil_iff]
      omega
    refine ⟨digits.take k, digits.drop k, none, hwhole.take (by omega),
      fun c hc => hare c (List.mem_of_mem_drop hc), hnoExponent, Or.inl hfraction, ?_⟩
    cases hdrop : digits.drop k with
    | nil => exact absurd hdrop hfraction
    | cons c rest => simp [hk, hdrop, pointed, powered]

/-- The shortest digits of a number are no zeros, except for a zero alone. -/
theorem firstHit_exponent (i : Numeral.Shortest.Interval) (e : Int) (fuel : Nat)
    (h : (i.firstHit e fuel).digits = 0) : (i.firstHit e fuel).exponent = 0 := by
  induction fuel generalizing e with
  | zero => rfl
  | succ fuel ih =>
    unfold Numeral.Shortest.Interval.firstHit at h ⊢
    cases hgrid : i.onGrid? e with
    | none =>
      rw [hgrid] at h
      exact ih (e - 1) h
    | some d =>
      rw [hgrid] at h
      by_cases hd : d.digits = 0
      · simp only [if_pos hd] at h ⊢
        exact ih (e - 1) h
      · simp only [if_neg hd] at h
        exact absurd h hd

theorem trim_exponent {d : Numeral.Decimal} (hd : d.digits = 0 → d.exponent = 0) (fuel : Nat)
    (h : (d.trim fuel).digits = 0) : (d.trim fuel).exponent = 0 := by
  induction fuel generalizing d with
  | zero => exact hd h
  | succ fuel ih =>
    unfold Numeral.Decimal.trim at h ⊢
    split at h
    · rename_i htrim
      rw [if_pos htrim]
      refine ih (fun hzero => ?_) h
      dsimp only at hzero
      omega
    · rename_i htrim
      rw [if_neg htrim]
      exact hd h

theorem ofFloat_exponent (x : Float) (h : (Numeral.ofFloat x).digits = 0) :
    (Numeral.ofFloat x).exponent = 0 :=
  trim_exponent (firstHit_exponent _ _ _) 400 h

/-- The text of a finite number, less its sign, has a fraction or an exponent. -/
theorem fractional_floatText {x : Float} (hnan : x.isNaN = false) (hinf : x.isInf = false) :
    ∃ (negative : Bool) (s : List Char), Fractional s ∧
      (Numeral.floatText Numeral.json x).toList = (if negative then ['-'] else []) ++ s := by
  have hzero : Fractional "0.0".toList :=
    ⟨['0'], ['0'], none, Or.inl rfl, areDigits_zeros 1, fun _ h => absurd h (Option.not_mem_none _),
      Or.inl (List.cons_ne_nil _ _), rfl⟩
  refine ⟨Numeral.isNegative x,
    (if x == 0 then "0.0" else (Numeral.ofFloat x).text Numeral.json).toList, ?_, ?_⟩
  · split
    · exact hzero
    · exact fractional_text (ofFloat_exponent x)
  · unfold Numeral.floatText
    rw [hnan, hinf]
    cases Numeral.isNegative x <;> simp

/-- The digits of a finite number give the number again. Its text is read to the end; what it gives is
the nearest number to the decimal that it writes. -/
def ReadsBack (x : Float) : Prop :=
  ∀ w, Written.read? (Numeral.floatText Numeral.json x).toList = some (w, []) → w.toFloat = x

theorem bareValue_float {x : Float} (hnan : x.isNaN = false) (hinf : x.isInf = false)
    (hback : ReadsBack x) :
    bareValue (Numeral.floatText Numeral.json x).toList = .ok (.float x) := by
  obtain ⟨negative, s, ⟨whole, fraction, exponent?, hwhole, hfraction, hexponent, hpart, rfl⟩, htext⟩ :=
    fractional_floatText hnan hinf
  have hread := read?_parts negative hwhole hfraction hexponent
  have hvalue := hback _ (htext ▸ hread)
  have hfloat : Written.isWhole ⟨negative, whole, fraction, exponent?⟩ = false := by
    unfold Written.isWhole
    rcases hpart with hne | hsome
    · simp [hne]
    · simp [hsome]
  rw [htext, bareValue_of_startsNumber (startsNumber_parts negative hwhole _) hread, numberValue, hfloat,
    if_neg Bool.false_ne_true, hvalue]

/-! ## The characters of numbers -/

theorem isBare_of_isDigit {c : Char} (hc : c.isDigit = true) : isBare c = true := by
  simp [isBare, Char.isAlphanum, hc]

theorem AreDigits.isBare {s : List Char} (hs : AreDigits s) : ∀ c ∈ s, isBare c = true :=
  fun c hc => isBare_of_isDigit (hs c hc)

theorem isBare_parts (negative : Bool) {whole fraction : List Char}
    {exponent? : Option (Bool × List Char)} (hwhole : Whole whole) (hfraction : AreDigits fraction)
    (hexponent : Exponent exponent?) :
    ∀ c ∈ (if negative then ['-'] else []) ++ (whole ++ (pointed fraction ++ powered exponent?)),
      isBare c = true := by
  have hsign : ∀ c ∈ (if negative then ['-'] else []), isBare c = true := by
    cases negative <;> exact List.all_eq_true.mp rfl
  have hpointed : ∀ c ∈ pointed fraction, isBare c = true := by
    cases fraction with
    | nil => exact fun _ h => absurd h List.not_mem_nil
    | cons d rest => exact List.forall_mem_cons.mpr ⟨rfl, hfraction.isBare⟩
  have hpowered : ∀ c ∈ powered exponent?, isBare c = true := by
    cases exponent? with
    | none => exact fun _ h => absurd h List.not_mem_nil
    | some e =>
      obtain ⟨minus, digits⟩ := e
      refine List.forall_mem_cons.mpr ⟨rfl, List.forall_mem_cons.mpr ⟨?_, (hexponent _ rfl).2.isBare⟩⟩
      cases minus <;> rfl
  intro c hc
  simp only [List.mem_append] at hc
  rcases hc with hc | hc | hc | hc
  · exact hsign c hc
  · exact hwhole.areDigits.isBare c hc
  · exact hpointed c hc
  · exact hpowered c hc

theorem isBare_int (n : Int) : ∀ c ∈ (toString n).toList, isBare c = true := by
  have hfraction : AreDigits [] := fun _ h => absurd h List.not_mem_nil
  have hexponent : Exponent none := fun _ h => absurd h (Option.not_mem_none _)
  have hparts := isBare_parts (decide (n < 0)) (whole_toDigits n.natAbs) hfraction hexponent
  rw [toList_toString_int]
  simpa [pointed, powered] using hparts

theorem isBare_float {x : Float} (hnan : x.isNaN = false) (hinf : x.isInf = false) :
    ∀ c ∈ (Numeral.floatText Numeral.json x).toList, isBare c = true := by
  obtain ⟨negative, s, ⟨whole, fraction, exponent?, hwhole, hfraction, hexponent, -, rfl⟩, htext⟩ :=
    fractional_floatText hnan hinf
  rw [htext]
  exact isBare_parts negative hwhole hfraction hexponent

/-! ## Numbers that are not negative -/

/-- The number is read back from its text. -/
def Legible (x : Float) : Prop :=
  bareValue (Numeral.floatText Numeral.json x).toList = .ok (.float x) ∧
    ∀ c ∈ (Numeral.floatText Numeral.json x).toList, isBare c = true

theorem legible_infinity : Legible (1 / 0) := by
  have htext : Numeral.floatText Numeral.json (1 / 0) = "Infinity" := by decide +kernel
  rw [Legible, htext]
  exact ⟨rfl, List.all_eq_true.mp rfl⟩

/-- Of the numbers that are not negative, infinity has a name, and the others have digits. -/
theorem legible_of_nonneg {x : Float} (hx : 0 ≤ x) (hback : ReadsBack x) : Legible x := by
  have hnan := Numeral.isNaN_of_nonneg hx
  cases hinf : x.isInf with
  | true =>
    rw [Numeral.eq_infinity_of_nonneg hx hinf]
    exact legible_infinity
  | false => exact ⟨bareValue_float hnan hinf hback, isBare_float hnan hinf⟩

end Json

end RouteAtlas
