import RouteAtlas.Text.Newline
import RouteAtlas.Tree.Walk

/-!
# Reading source texts

A source text is the content of a file as strict UTF-8 with every line end written as one line feed.
Large files are refused before they are read.
-/

namespace RouteAtlas.Source

/-- The most bytes of a file that is read. -/
def largest : Nat := 1000000

/-- The text that bytes encode. -/
def decode (bytes : List UInt8) : Except Fault String :=
  match Text.Utf8.decode bytes with
  | .ok s => .ok (String.ofList (Text.unifyNewlines s))
  | .error r => .error (.ofRefusal bytes r)

/-- The text of the file where a path leads, however large it is. -/
def textAt (fs : Tree) (here : Tree.Location) (path : String) : Except Fault String := do
  match ← fs.get here path with
  | .file bytes => decode bytes
  | _ => .error (.file .isADirectory path)

/-- The report of a file that is too large. -/
def tooLarge (path : String) (size : Nat) : Report :=
  Report.unreadable path
    ("file is " ++ toString size ++ " bytes (limit " ++ toString largest ++ ")") .fileTooLarge

/-- The text of the routing module at a path. -/
def read (fs : Tree) (here : Tree.Location) (path : String) : Except Fault String := do
  let shown := toString (Path.ofString path)
  match ← fs.get here shown with
  | .file bytes =>
    if largest < bytes.length then .error (.report (tooLarge path bytes.length) none)
    else decode bytes
  | _ => .error (.file .isADirectory shown)

end RouteAtlas.Source
