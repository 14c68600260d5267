/-!
# Parts of a text

Whether one text stands somewhere inside another, and padding to a width.
-/

namespace RouteAtlas.Text

/-- Whether `needle` stands somewhere in the text. -/
def isPartOf (needle : List Char) : List Char → Bool
  | [] => needle.isEmpty
  | c :: rest => needle.isPrefixOf (c :: rest) || isPartOf needle rest

theorem isPartOf_iff {needle s : List Char} : isPartOf needle s = true ↔ needle <:+: s := by
  induction s with
  | nil => simp [isPartOf]
  | cons c rest ih =>
    rw [isPartOf, Bool.or_eq_true, List.isPrefixOf_iff_prefix, ih, List.infix_cons_iff]

/-- The text filled up with spaces to a width in characters. -/
def padRight (width : Nat) (s : String) : String :=
  s ++ String.ofList (List.replicate (width - s.length) ' ')

end RouteAtlas.Text
