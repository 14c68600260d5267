import RouteAtlas.Json.Printer
import RouteAtlas.Numeral.FloatText
import RouteAtlas.Snippet
import RouteAtlas.Value.Mapping
import RouteAtlas.Value.Shape
import RouteAtlas.Value.Written

/-!
# Settings

What a project may set: which files are routing modules, which directories are not looked into, how
texts are read, how snippets look, and how long a watcher waits. `Settings.ofJson` reads settings
from a JSON object and `Settings.toJson` writes them. What is missing has its default, what is
unknown is skipped, and what has the wrong type is refused. Settings can also be read from values
that no JSON text gives; then writing them may fail.
-/

namespace RouteAtlas

/-- The settings of a project. -/
structure Settings where
  /-- The name of routing modules. -/
  fileName : WideText := "urls.py"
  /-- The names of directories that are not looked into. Only the list itself is checked when
  settings are read, so that its items may be anything. -/
  ignored : List Value :=
    [".eggs", ".git", ".mypy_cache", ".pytest_cache", ".ruff_cache", ".tox", ".venv", "__pycache__",
      "build", "dist", "env", "node_modules", "site-packages", "venv"].map fun s : String => .text s
  /-- Whether only the block of url patterns declares routes. -/
  blockOnly : Bool := false
  /-- How many files may be read at once. -/
  maxWorkers : Int := 8
  /-- The template of snippets. -/
  template : WideText := Template.defaultText
  /-- How many seconds of quiet a watcher waits for. -/
  debounce : Float := 0.5
deriving Repr

namespace Settings

instance : Inhabited Settings := ⟨{}⟩

/-! ## Writing -/

/-- The sections of the settings, in order, with their entries. -/
def arrange {α : Type} (group : List (String × α) → α)
    (version fileName ignored blockOnly maxWorkers template debounce : α) : α :=
  group [
    ("version", version),
    ("scanning", group [
      ("file_name", fileName),
      ("ignored", ignored),
      ("urlpatterns_only", blockOnly),
      ("max_workers", maxWorkers)]),
    ("snippet", group [("template", template)]),
    ("watching", group [("debounce_seconds", debounce)])]

/-- The version of the arrangement. -/
def version : String := "1"

/-- The settings as a JSON object, unless an ignored item has no JSON form or a number is too long. -/
def toJson (s : Settings) : Except Fault Json := do
  let ignored ← Value.writtenItems s.ignored
  let maxWorkers ← Value.writtenNumber s.maxWorkers
  return arrange .record (.text version) (.text s.fileName) (.list ignored) (.bool s.blockOnly)
    (.int maxWorkers) (.text s.template) (.float s.debounce)

/-- The settings as named values. -/
def fields (s : Settings) : List (String × Value) :=
  [("file_name", .text s.fileName), ("ignored", .sequence .list s.ignored),
    ("urlpatterns_only", .bool s.blockOnly), ("max_workers", .int s.maxWorkers),
    ("snippet_template", .text s.template), ("debounce_seconds", .float s.debounce)]

/-- The shape of settings as objects. -/
def shape : Shape where
  type := "UrlIndexConfig"
  keying := .never
  fields := (fields {}).map fun f => (f.1, some f.2)

/-- Settings as a value, by their fields. The ignored names are described as a list, whatever they
are the items of. -/
def describe (fields : List (String × Value)) : Value :=
  let field (name : String) : Value := (Table.lookup name fields).getD .none
  .object shape.type shape.keying fields
    (some <| do
      let ignored ← (field "ignored").items
      return arrange Value.record (.text version) (field "file_name") (.sequence .list ignored)
        (field "urlpatterns_only") (field "max_workers") (field "snippet_template")
        (field "debounce_seconds"))

/-- The settings as text. -/
def text (s : Settings) : Except Fault String := do return (← s.toJson).pretty ++ "\n"

/-! ## Reading -/

/-- Where settings come from, for reports. -/
abbrev Source := Option String

/-- The fault of settings that are refused. -/
def refusal (source : Source) (message : String) : Fault :=
  .report
    (Report.configuration message (some ("Invalid configuration: " ++ message))
      { operation := some "load_config", filePath := source }
      [⟨"Fix or regenerate the config", some "urlindex init --force"⟩])
    none

/-- The value of the entry with a name. -/
def entry? (name : String) (entries : List (Value × Value)) : Option Value :=
  (entries.find? fun e => Value.sameKey e.1 (.text name)).map Prod.snd

/-- The entries of a section; none for a section that is missing. -/
def sectionOf (source : Source) (data : List (Value × Value)) (name : String) :
    Except Fault (List (Value × Value)) :=
  match entry? name data with
  | none => .ok []
  | some (.mapping false entries) => .ok entries
  | some _ => .error (refusal source ("'" ++ name ++ "' must be an object"))

/-- The value of an entry, if it has the right type; the default for an entry that is missing. -/
def entryOf {α : Type} (source : Source) (entries : List (Value × Value)) (key : String)
    (accept : Value → Option α) (fallback : α) : Except Fault α :=
  match entry? key entries with
  | none => .ok fallback
  | some v =>
    match accept v with
    | some a => .ok a
    | none => .error (refusal source ("'" ++ key ++ "' has the wrong type"))

/-- A truth value. -/
def truth? : Value → Option Bool
  | .bool b => some b
  | _ => none

/-- The items of a list. -/
def items? : Value → Option (List Value)
  | .sequence .list items => some items
  | _ => none

/-- A whole number. A truth value is none here. -/
def number? : Value → Option Int
  | .bool _ => none
  | v => v.whole?

/-- A number of seconds. A whole number may be too large for one. -/
def seconds? : Value → Option (Except Fault Float)
  | .float x => some (.ok x)
  | v =>
    (number? v).map fun n =>
      match Numeral.floatOfInt? n with
      | some x => .ok x
      | none => .error .intTooLarge

/-- Refuses settings that no work can be done with. -/
def check (source : Source) (s : Settings) : Except Fault Settings :=
  if s.maxWorkers < 1 then .error (refusal source "scanning.max_workers must be at least 1")
  else if s.debounce < 0 then
    .error (refusal source "watching.debounce_seconds must not be negative")
  else
    match Template.ofWide s.template with
    | .ok _ => .ok s
    | .error _ => .error (refusal source Snippet.templateAdvice)

/-- Reads settings from the entries of a mapping. -/
def ofEntries (source : Source) (data : List (Value × Value)) : Except Fault Settings := do
  let scanning ← sectionOf source data "scanning"
  let snippet ← sectionOf source data "snippet"
  let watching ← sectionOf source data "watching"
  let fallback : Settings := {}
  let fileName ← entryOf source scanning "file_name" Value.text? fallback.fileName
  let ignored ← entryOf source scanning "ignored" items? fallback.ignored
  let blockOnly ← entryOf source scanning "urlpatterns_only" truth? fallback.blockOnly
  let maxWorkers ← entryOf source scanning "max_workers" number? fallback.maxWorkers
  let template ← entryOf source snippet "template" Value.text? fallback.template
  let debounce ← (← entryOf source watching "debounce_seconds" seconds? (.ok fallback.debounce))
  check source { fileName, ignored, blockOnly, maxWorkers, template, debounce }

/-- Reads settings from what should be a mapping. -/
def ofValue (source : Source) : Value → Except Fault Settings
  | .mapping _ data => ofEntries source data
  | v => .error (.lacks v.typeName "get")

/-- Reads settings from a JSON text, whose value has to be an object. -/
def ofJson (source : Source) : Json → Except Fault Settings
  | .object data => ofEntries source (Value.ofJsonMembers data)
  | _ => .error (refusal source "top level must be an object")

/-! ## The items of the ignored list -/

/-- The names in the ignored list. Items that are no texts match no name, and what cannot be a key
cannot be looked up at all. -/
def namesIn : List Value → Except Fault (List String)
  | [] => .ok []
  | v :: rest =>
    match v.unkeyed?, v.text? with
    | some type, _ => .error (.unhashable type)
    | none, some (.plain s) => (namesIn rest).map (s :: ·)
    | none, _ => namesIn rest

/-- The names of the directories that are not looked into. -/
def ignoredNames (s : Settings) : Except Fault (List String) := namesIn s.ignored

end Settings

end RouteAtlas
