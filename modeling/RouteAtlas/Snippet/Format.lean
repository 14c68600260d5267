import RouteAtlas.Snippet.Template

/-!
# Filling in straight from the text

A second definition of what a template becomes. It has no state: it goes through the text of the
template, code point by code point, and where a field opens it reads the whole field, looks up what the
field names and goes on behind it. A field that is not known, or that asks for a conversion or a
format, is refused when it is reached.
-/

namespace RouteAtlas.Template

namespace Format

/-- A field as it is written. -/
structure Field where
  name : List Nat
  /-- The conversion that it asks for. -/
  conversion : Option Nat
  format : List Nat
deriving DecidableEq, Repr

/-- The name of a field, the character that ends it, and what follows. Within square brackets every
character belongs to the name. -/
def name? (bracketed : Bool) : List Nat → Except Refusal (List Nat × Nat × List Nat)
  | [] => .error .endInName
  | n :: rest =>
    if bracketed then (name? (n ≠ ']'.toNat) rest).map fun (name, last) => (n :: name, last)
    else if n = '{'.toNat then .error .openInName
    else if n = '}'.toNat ∨ n = ':'.toNat ∨ n = '!'.toNat then .ok ([], n, rest)
    else (name? (n = '['.toNat) rest).map fun (name, last) => (n :: name, last)

/-- The format of a field, `depth` braces deep, and what follows the field. -/
def format? (depth : Nat) : List Nat → Except Refusal (List Nat × List Nat)
  | [] => .error .openFormat
  | n :: rest =>
    if n = '}'.toNat then
      if depth = 0 then .ok ([], rest)
      else (format? (depth - 1) rest).map fun (format, rest) => (n :: format, rest)
    else
      (format? (if n = '{'.toNat then depth + 1 else depth) rest).map fun (format, rest) =>
        (n :: format, rest)

/-- The conversion of a field, its format and what follows the field. The null character asks for no
conversion. -/
def conversion? : List Nat → Except Refusal (Option Nat × List Nat × List Nat)
  | [] => .error .endInConversion
  | [_] => .error .openFormat
  | n :: m :: rest =>
    let conversion := if n = 0 then none else some n
    if m = '}'.toNat then .ok (conversion, [], rest)
    else if m = ':'.toNat then (format? 0 rest).map fun (format, rest) => (conversion, format, rest)
    else .error .afterConversion

/-- A field and what follows it. -/
def field? (s : List Nat) : Except Refusal (Field × List Nat) :=
  match name? false s with
  | .error e => .error e
  | .ok (name, last, rest) =>
    if last = '}'.toNat then .ok (⟨name, none, []⟩, rest)
    else if last = ':'.toNat then
      (format? 0 rest).map fun (format, rest) => (⟨name, none, format⟩, rest)
    else
      (conversion? rest).map fun (conversion, format, rest) => (⟨name, conversion, format⟩, rest)

/-- The code points of a text. -/
def codes (s : String) : List Nat := s.toList.map Char.toNat

/-- What a field becomes. -/
def value? (name reference : String) (f : Field) : Except Refusal (List Nat) :=
  if f.conversion = none ∧ f.format = [] ∧ f.name = codes "name" then .ok (codes name)
  else if f.conversion = none ∧ f.format = [] ∧ f.name = codes "reference" then .ok (codes reference)
  else .error (.unsupported (WideText.ofCodes f.name).rendition)

/-! ## What follows is shorter -/

theorem map_eq_ok_iff {α β : Type} {x : Except Refusal α} {f : α → β} {b : β} :
    x.map f = .ok b ↔ ∃ a, x = .ok a ∧ f a = b := by
  cases x <;> simp [Except.map]

theorem length_name? {bracketed : Bool} {s name rest : List Nat} {last : Nat}
    (h : name? bracketed s = .ok (name, last, rest)) : rest.length < s.length := by
  induction s generalizing bracketed name with
  | nil => exact absurd h (by simp [name?])
  | cons n s ih =>
    have hmore : ∀ b, ((name? b s).map fun p => (n :: p.1, p.2)) = .ok (name, last, rest) →
        rest.length < s.length + 1 := by
      intro b hb
      obtain ⟨⟨name', last', rest'⟩, hs, hp⟩ := map_eq_ok_iff.mp hb
      cases hp
      exact Nat.lt_succ_of_lt (ih hs)
    rw [name?] at h
    split at h
    · exact hmore _ h
    · split at h
      · exact absurd h (by simp)
      · split at h
        · cases h
          exact Nat.lt_succ_self _
        · exact hmore _ h

theorem length_format? {depth : Nat} {s format rest : List Nat}
    (h : format? depth s = .ok (format, rest)) : rest.length < s.length := by
  induction s generalizing depth format with
  | nil => exact absurd h (by simp [format?])
  | cons n s ih =>
    have hmore : ∀ d, ((format? d s).map fun p => (n :: p.1, p.2)) = .ok (format, rest) →
        rest.length < s.length + 1 := by
      intro d hd
      obtain ⟨⟨format', rest'⟩, hs, hp⟩ := map_eq_ok_iff.mp hd
      cases hp
      exact Nat.lt_succ_of_lt (ih hs)
    rw [format?] at h
    split at h
    · split at h
      · cases h
        exact Nat.lt_succ_self _
      · exact hmore _ h
    · exact hmore _ h

theorem length_conversion? {s format rest : List Nat} {conversion : Option Nat}
    (h : conversion? s = .ok (conversion, format, rest)) : rest.length < s.length := by
  match s with
  | [] => exact absurd h (by simp [conversion?])
  | [_] => exact absurd h (by simp [conversion?])
  | n :: m :: s =>
    rw [conversion?] at h
    dsimp only at h
    split at h
    · cases h
      simp only [List.length_cons]
      omega
    · split at h
      · obtain ⟨⟨format', rest'⟩, hs, hp⟩ := map_eq_ok_iff.mp h
        cases hp
        have := length_format? hs
        simp only [List.length_cons]
        omega
      · exact absurd h (by simp)

theorem length_field? {s rest : List Nat} {f : Field} (h : field? s = .ok (f, rest)) :
    rest.length < s.length := by
  rw [field?] at h
  split at h
  · exact absurd h (by simp)
  · rename_i name last t hname
    have hlt := length_name? hname
    split at h
    · cases h
      exact hlt
    · split at h
      · obtain ⟨⟨format, rest'⟩, hs, hp⟩ := map_eq_ok_iff.mp h
        cases hp
        exact Nat.lt_trans (length_format? hs) hlt
      · obtain ⟨⟨conversion, format, rest'⟩, hs, hp⟩ := map_eq_ok_iff.mp h
        cases hp
        exact Nat.lt_trans (length_conversion? hs) hlt

/-- The text of a template with its fields filled in. -/
def fill (name reference : String) : List Nat → Except Refusal (List Nat)
  | [] => .ok []
  | n :: s =>
    if n = '{'.toNat ∨ n = '}'.toNat then
      match s with
      | [] => .error (if n = '{'.toNat then .singleOpen else .singleClose)
      | m :: rest =>
        if m = n then (fill name reference rest).map (n :: ·)
        else if n = '}'.toNat then .error .singleClose
        else
          match _h : field? (m :: rest) with
          | .error e => .error e
          | .ok (f, rest) =>
            match value? name reference f with
            | .error e => .error e
            | .ok value => (fill name reference rest).map (value ++ ·)
    else (fill name reference s).map (n :: ·)
termination_by s => s.length
decreasing_by
  · simp only [List.length_cons]
    omega
  · have := length_field? _h
    simp only [List.length_cons] at this ⊢
    omega
  · simp

end Format

end RouteAtlas.Template
