import RouteAtlas.Text.Wide

/-!
# Snippet templates

A template is text with fields. A brace stands for itself when it is written twice; a field is a
name between braces, and only `name` and `reference` are known. `Template.read` reads a template
once and for all, so that filling it in cannot fail. Halves of surrogate pairs are characters like
others, except that no field is spelled with them.
-/

namespace RouteAtlas

/-- A part of a template. -/
inductive Piece where
  /-- A character that stands for itself. -/
  | char (c : Char)
  /-- Half of a surrogate pair that stands for itself. -/
  | half (n : Nat)
  /-- The name of the route. -/
  | name
  /-- The name of the route, qualified by its namespace. -/
  | reference
deriving DecidableEq, Repr

namespace Template

/-- Why a text is no template. -/
inductive Refusal where
  /-- A closing brace stands alone. -/
  | singleClose
  /-- An opening brace ends the text. -/
  | singleOpen
  /-- A field's name holds an opening brace. -/
  | openInName
  /-- The text ends inside a field's name. -/
  | endInName
  /-- The text ends where a conversion is to follow. -/
  | endInConversion
  /-- Neither the field's end nor a format follows the conversion. -/
  | afterConversion
  /-- A field's format does not end. -/
  | openFormat
  /-- The field is not known, or asks for a conversion or a format. -/
  | unsupported (field : String)
deriving DecidableEq, Repr

/-- The wording of a refusal. -/
def Refusal.text : Refusal → String
  | .singleClose => "Single '\x7d' encountered in format string"
  | .singleOpen => "Single '\x7b' encountered in format string"
  | .openInName => "unexpected '\x7b' in field name"
  | .endInName => "expected '\x7d' before end of string"
  | .endInConversion => "end of string while looking for conversion specifier"
  | .afterConversion => "expected ':' after conversion specifier"
  | .openFormat => "unmatched '\x7b' in format spec"
  | .unsupported field => "unsupported field \x7b" ++ field ++ "\x7d"

/-- What has been read of the part that is being read. Names are built last character first. -/
inductive Reading where
  /-- Between parts. -/
  | text
  /-- After an opening brace. -/
  | opened
  /-- After a closing brace. -/
  | closing
  /-- Inside a field's name; within square brackets every character belongs to it. -/
  | field (name : List Char) (bracketed : Bool)
  /-- After the mark of a conversion. -/
  | conversion (name : List Char)
  /-- After a conversion; the null character asks for none. -/
  | converted (name : List Char) (asked : Bool)
  /-- Inside a field's format, `depth` braces deep. -/
  | format (name : List Char) (asked : Bool) (depth : Nat)
deriving DecidableEq, Repr

/-- The part that a complete field is; `asked` says that it asks for a conversion or a format. -/
def fieldPiece (name : List Char) (asked : Bool) : Except Refusal Piece :=
  let name := String.ofList name.reverse
  if asked then .error (.unsupported name)
  else if name = "name" then .ok .name
  else if name = "reference" then .ok .reference
  else .error (.unsupported name)

/-- The state after one more character, with the part that it completes. -/
def step (state : Reading) (c : Char) : Except Refusal (Option Piece × Reading) :=
  let inName (name : List Char) : Except Refusal (Option Piece × Reading) :=
    if c = '{' then .error .openInName
    else if c = '}' then (fieldPiece name false).map fun p => (some p, .text)
    else if c = ':' then .ok (none, .format name false 0)
    else if c = '!' then .ok (none, .conversion name)
    else .ok (none, .field (c :: name) (c = '['))
  match state with
  | .text =>
    if c = '{' then .ok (none, .opened)
    else if c = '}' then .ok (none, .closing)
    else .ok (some (.char c), .text)
  | .opened => if c = '{' then .ok (some (.char '{'), .text) else inName []
  | .closing => if c = '}' then .ok (some (.char '}'), .text) else .error .singleClose
  | .field name false => inName name
  | .field name true => .ok (none, .field (c :: name) (c ≠ ']'))
  | .conversion name => .ok (none, .converted name (c ≠ '\x00'))
  | .converted name asked =>
    if c = '}' then (fieldPiece name asked).map fun p => (some p, .text)
    else if c = ':' then .ok (none, .format name asked 0)
    else .error .afterConversion
  | .format name asked depth =>
    if c = '}' then
      if depth = 0 then (fieldPiece name asked).map fun p => (some p, .text)
      else .ok (none, .format name true (depth - 1))
    else .ok (none, .format name true (if c = '{' then depth + 1 else depth))

/-- What the end of the text means. -/
def finish : Reading → Except Refusal Unit
  | .text => .ok ()
  | .opened => .error .singleOpen
  | .closing => .error .singleClose
  | .field .. => .error .endInName
  | .conversion _ => .error .endInConversion
  | .converted .. | .format .. => .error .openFormat

/-- Reads on; the parts done so far are in reverse order. -/
def readFrom (state : Reading) (done : List Piece) : List Char → Except Refusal (List Piece)
  | [] => (finish state).map fun _ => done.reverse
  | c :: rest =>
    match step state c with
    | .error e => .error e
    | .ok (some p, next) => readFrom next (p :: done) rest
    | .ok (none, next) => readFrom next done rest

/-- The parts of a template. -/
def read (s : String) : Except Refusal (List Piece) := readFrom .text [] s.toList

/-- The code points of a text that its rendition marks, and those that are such a mark themselves. -/
def marked (codes : List Nat) : List Nat :=
  codes.filter fun n => WideText.isHalf n || n == WideText.replacement.toNat

/-- Puts code points back where the parts have marks. No mark is part of a field. -/
def restore (codes : List Nat) : List Piece → List Piece
  | [] => []
  | p :: rest =>
    match p, codes with
    | .char c, n :: more =>
      if c = WideText.replacement then
        (if WideText.isHalf n then .half n else p) :: restore more rest
      else p :: restore codes rest
    | _, _ => p :: restore codes rest

end Template

/-- A template that has been read. -/
structure Template where
  /-- The text of the template. -/
  text : WideText
  /-- Its parts. -/
  pieces : List Piece
deriving DecidableEq, Repr

namespace Template

/-- The template with a text of characters. -/
def ofText (s : String) : Except Refusal Template := (read s).map (⟨.plain s, ·⟩)

/-- The template with a text. -/
def ofWide : WideText → Except Refusal Template
  | .plain s => ofText s
  | .unpaired codes =>
    (read (WideText.unpaired codes).rendition).map fun pieces =>
      ⟨.unpaired codes, restore (marked codes) pieces⟩

/-- What a part becomes. -/
def fillPiece (name reference : String) : Piece → WideText
  | .char c => .plain c.toString
  | .half n => .unpaired [n]
  | .name => .plain name
  | .reference => .plain reference

/-- The template with its fields filled in. -/
def fill (t : Template) (name reference : String) : WideText :=
  .concat (t.pieces.map (fillPiece name reference))

/-- The text of the template that is used where none is given. -/
def defaultText : String := "const url_\x7bname\x7d = \"\x7b\x7b% url '\x7breference\x7d' %\x7d\x7d\";"

/-- The template that is used where none is given. -/
def default : Template where
  text := defaultText
  pieces :=
    "const url_".toList.map .char ++ [.name] ++ " = \"\x7b% url '".toList.map .char ++ [.reference]
      ++ "' %\x7d\";".toList.map .char

instance : Inhabited Template := ⟨default⟩

theorem ofText_defaultText : ofText defaultText = .ok default := by cbv

end Template

end RouteAtlas
