import RouteAtlas.Proofs.JsonReading
import RouteAtlas.Proofs.Newline

/-!
# Printed JSON texts in files

A printed JSON text has printable characters of ASCII and line feeds only (`Json.arePlain_pretty`). So
nothing happens to it on the way into a file and back (`Source.decode_toUTF8`), and the value is read
there with the line end that closes the file (`Json.read_line`).
-/

namespace RouteAtlas

/-! ## Plain characters -/

/-- A printable character of ASCII or a line feed. -/
def IsPlain (c : Char) : Prop := 0x20 ≤ c.toNat ∧ c.toNat < 0x7F ∨ c = '\n'

/-- All characters are plain. -/
def ArePlain (s : List Char) : Prop := ∀ c ∈ s, IsPlain c

theorem ArePlain.append {s t : List Char} (hs : ArePlain s) (ht : ArePlain t) : ArePlain (s ++ t) := by
  intro c hc
  rcases List.mem_append.mp hc with hc | hc
  · exact hs c hc
  · exact ht c hc

theorem arePlain_nil : ArePlain [] := fun _ hc => absurd hc List.not_mem_nil

theorem arePlain_cons {c : Char} {s : List Char} (hc : IsPlain c) (hs : ArePlain s) :
    ArePlain (c :: s) := List.forall_mem_cons.mpr ⟨hc, hs⟩

/-- Plain text comes out of a file as it was. -/
theorem Source.decode_toUTF8 {s : String} (hs : ArePlain s.toList) :
    decode s.toUTF8.toList = .ok s :=
  decode_of_notMem fun hmem => absurd (hs _ hmem) (by simp [IsPlain])

namespace Json

/-! ## The characters of a printed text -/

theorem isPlain_of_isBare {c : Char} (hc : isBare c = true) : IsPlain c := by
  simp only [isBare, Char.isAlphanum, Char.isAlpha, Char.isUpper, Char.isLower, Char.isDigit,
    Bool.or_eq_true, Bool.and_eq_true, decide_eq_true_eq, beq_iff_eq, UInt32.le_iff_toNat_le,
    ge_iff_le] at hc
  have hval : c.toNat = c.val.toNat := rfl
  refine Or.inl ?_
  rcases hc with ((((⟨h1, h2⟩ | ⟨h1, h2⟩) | ⟨h1, h2⟩) | rfl) | rfl) | rfl
  · simp at h1 h2
    omega
  · simp at h1 h2
    omega
  · simp at h1 h2
    omega
  · decide
  · decide
  · decide

theorem arePlain_digits (width n : Nat) : ArePlain (Text.Hex.digits width n) := by
  have hdigit : ∀ m : Fin 16, 0x20 ≤ (Text.Hex.digit m).toNat ∧ (Text.Hex.digit m).toNat < 0x7F := by
    decide
  induction width generalizing n with
  | zero => exact arePlain_nil
  | succ width ih =>
    have hlast : IsPlain (Text.Hex.digit (n % 16)) := Or.inl (hdigit ⟨n % 16, by omega⟩)
    exact (ih (n / 16)).append (arePlain_cons hlast arePlain_nil)

theorem arePlain_escapeUnit (n : Nat) : ArePlain (escapeUnit n) :=
  arePlain_cons (Or.inl (by decide)) (arePlain_cons (Or.inl (by decide)) (arePlain_digits 4 n))

theorem arePlain_escapeChar (c : Char) : ArePlain (escapeChar c) := by
  have hpair : ∀ d : Char, IsPlain d → ArePlain ['\\', d] := fun d hd =>
    arePlain_cons (Or.inl (by decide)) (arePlain_cons hd arePlain_nil)
  unfold escapeChar
  dsimp only
  split
  · exact hpair _ (Or.inl (by decide))
  split
  · exact hpair _ (Or.inl (by decide))
  split
  · exact hpair _ (Or.inl (by decide))
  split
  · exact hpair _ (Or.inl (by decide))
  split
  · exact hpair _ (Or.inl (by decide))
  split
  · exact hpair _ (Or.inl (by decide))
  split
  · exact hpair _ (Or.inl (by decide))
  split
  · rename_i hprintable
    exact arePlain_cons (Or.inl (by simpa using hprintable)) arePlain_nil
  split
  · exact arePlain_escapeUnit _
  · exact (arePlain_escapeUnit _).append (arePlain_escapeUnit _)

theorem arePlain_wideLiteral (w : WideText) : ArePlain (wideLiteral w).toList := by
  have hquote : IsPlain '"' := Or.inl (by decide)
  have hcodes : ArePlain (w.codes.flatMap escapeCode) := by
    intro c hc
    obtain ⟨n, -, hc⟩ := List.mem_flatMap.mp hc
    unfold escapeCode at hc
    split at hc
    · exact arePlain_escapeUnit n c hc
    · exact arePlain_escapeChar _ c hc
  rw [toList_wideLiteral]
  exact arePlain_cons hquote (hcodes.append (arePlain_cons hquote arePlain_nil))

theorem arePlain_newline (level : Nat) : ArePlain (newline level).toList := by
  have hspaces : ArePlain (List.replicate (2 * level) ' ') := by
    intro c hc
    rw [(List.mem_replicate.mp hc).2]
    exact Or.inl (by decide)
  rw [newline, String.toList_ofList]
  exact arePlain_cons (Or.inr rfl) hspaces

theorem arePlain_furtherLines (level : Nat) {items : List String}
    (hitems : ∀ s ∈ items, ArePlain s.toList) : ArePlain (furtherLines level items) := by
  intro c hc
  obtain ⟨s, hs, hc⟩ := List.mem_flatMap.mp hc
  exact arePlain_cons (Or.inl (by decide)) ((arePlain_newline level).append (hitems s hs)) c hc

theorem arePlain_bracketLines {opening closing : String} (hopening : ArePlain opening.toList)
    (hclosing : ArePlain closing.toList) (level : Nat) {items : List String}
    (hitems : ∀ s ∈ items, ArePlain s.toList) :
    ArePlain (bracketLines opening closing level items).toList := by
  cases items with
  | nil =>
    rw [bracketLines, if_pos List.isEmpty_nil, String.toList_append]
    exact hopening.append hclosing
  | cons first items =>
    obtain ⟨hfirst, hitems⟩ := List.forall_mem_cons.mp hitems
    rw [toList_bracketLines]
    exact hopening.append ((arePlain_newline _).append (hfirst.append
      ((arePlain_furtherLines _ hitems).append ((arePlain_newline _).append hclosing))))

theorem arePlain_ascii {s : String} (hs : s.toList.all fun c => 0x20 ≤ c.toNat && c.toNat < 0x7F) :
    ArePlain s.toList := by
  intro c hc
  exact Or.inl (by simpa using List.all_eq_true.mp hs c hc)

mutual

theorem arePlain_prettyAt (room level : Nat) :
    ∀ v, Fits room v → ArePlain (prettyAt level v).toList
  | .null, _ => arePlain_ascii (s := "null") (by decide)
  | .bool true, _ => arePlain_ascii (s := "true") (by decide)
  | .bool false, _ => arePlain_ascii (s := "false") (by decide)
  | .int n, _ => fun c hc => isPlain_of_isBare (isBare_int n c hc)
  | .float _, hx => fun c hc => isPlain_of_isBare (hx.2 c hc)
  | .text w, _ => arePlain_wideLiteral w
  | .list items, hv =>
    arePlain_bracketLines (arePlain_ascii (by decide)) (arePlain_ascii (by decide)) level
      (arePlain_prettyItems (room - 1) (level + 1) items hv.2)
  | .object members, hv =>
    arePlain_bracketLines (arePlain_ascii (by decide)) (arePlain_ascii (by decide)) level
      (arePlain_prettyMembers (room - 1) (level + 1) members hv.2.2)

theorem arePlain_prettyItems (room level : Nat) :
    ∀ items, ItemsFit room items → ∀ s ∈ prettyItems level items, ArePlain s.toList
  | [], _ => fun _ hs => absurd hs List.not_mem_nil
  | v :: rest, hitems =>
    List.forall_mem_cons.mpr
      ⟨arePlain_prettyAt room level v hitems.1, arePlain_prettyItems room level rest hitems.2⟩

theorem arePlain_prettyMembers (room level : Nat) :
    ∀ members, MembersFit room members → ∀ s ∈ prettyMembers level members, ArePlain s.toList
  | [], _ => fun _ hs => absurd hs List.not_mem_nil
  | (name, v) :: rest, hmembers => by
    have hcolon : ArePlain ": ".toList := arePlain_ascii (by decide)
    have hmember : ArePlain (wideLiteral name ++ ": " ++ prettyAt level v).toList := by
      rw [String.toList_append, String.toList_append]
      exact ((arePlain_wideLiteral name).append hcolon).append
        (arePlain_prettyAt room level v hmembers.2.1)
    exact List.forall_mem_cons.mpr
      ⟨hmember, arePlain_prettyMembers room level rest hmembers.2.2⟩

end

/-- A printed text is plain. -/
theorem arePlain_pretty {room : Nat} {v : Json} (hv : Fits room v) : ArePlain v.pretty.toList :=
  arePlain_prettyAt room 0 v hv

/-! ## The text with its line end -/

/-- A value that is written on lines of its own, with a line end after it. -/
theorem arePlain_line {room : Nat} {v : Json} (hv : Fits room v) :
    ArePlain (v.pretty ++ "\n").toList := by
  rw [String.toList_append]
  exact (arePlain_pretty hv).append (arePlain_cons (Or.inr rfl) arePlain_nil)

/-- The line end after a value does not matter. -/
theorem read_line {most room : Nat} {v : Json} (hv : Fits room v) (hroom : room ≤ most) :
    read (v.pretty ++ "\n") most = .ok v := by
  have hscans := scans_prettyAt room 0 v hv [] ['\n'] (ends_cons rfl [])
  have hscan : Token.scan (v.pretty ++ "\n") = tokens v := by
    rw [Token.scan, String.toList_append]
    refine hscans.trans ?_
    simp [Token.scanFrom, startToken, isSpace]
  have hread := readFrom_tokens most room [] 0 [] (by omega) v hv
  rw [read, hscan]
  simpa [readFrom] using hread

end Json

end RouteAtlas
