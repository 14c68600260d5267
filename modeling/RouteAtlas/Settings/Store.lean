import RouteAtlas.Settings
import RouteAtlas.Source
import RouteAtlas.Tree.Change

/-!
# Stored settings

A project keeps its settings as a JSON file in a folder of its own below its root. Without the file
the settings are the defaults.
-/

namespace RouteAtlas.Settings

/-- The name of the folder that holds the settings of a project. -/
def storeFolder : String := ".urlindex"

/-- The path of the file with the settings of the project at `root`. -/
def storePath (root : Path) : Path := root.append [storeFolder, "config.json"]

/-- The report of stored settings that cannot be read. -/
def unreadable (path : String) (f : Fault) : Fault :=
  .report
    (Report.configuration ("Cannot load " ++ path ++ ": " ++ f.text)
      (some ("Could not read configuration file " ++ path))
      { operation := some "load_config", filePath := some path })
    (some f)

/-- Whether a fault of reading a file or its JSON text is reported as one of the settings. -/
def isReadFault : Fault → Bool
  | .system .. | .undecodable .. | .malformedJson => true
  | _ => false

/-- The JSON value in the file at a path. -/
def storedJson (fs : Tree) (here : Tree.Location) (path : String) (most : Nat) :
    Except Fault Json := do
  let text ← Source.textAt fs here path
  (Json.read text most).mapError Fault.ofJson

/-- Loads the settings of the project at `root`. They may have `most` brackets open. -/
def load (fs : Tree) (here : Tree.Location) (root : Path) (most : Nat := Json.mostOpen) :
    Except Fault Settings := do
  let path := toString (storePath root)
  if ← fs.hasFile here path then
    match storedJson fs here path most with
    | .ok data => ofJson (some path) data
    | .error f => .error (if isReadFault f then unreadable path f else f)
  else return {}

/-- The report of settings that cannot be written. -/
def unwritable (path : String) (f : Fault) : Fault :=
  .report
    (Report.resource ("Cannot write " ++ path ++ ": " ++ f.text)
      (some ("Could not write configuration file " ++ path)) .fileWriteFailed
      { operation := some "save_config", filePath := some path })
    (some f)

/-- The tree with the settings of the project at `root` written to their file. -/
def stored (fs : Tree) (here : Tree.Location) (root : Path) (s : Settings) : Except Fault Tree := do
  let path := storePath root
  let fs ← fs.makeFolders here path.parent
  fs.writeFile here (toString path) (← s.text).toUTF8.toList

/-- Saves the settings of the project at `root`. The answer has the path of the file. -/
def save (fs : Tree) (here : Tree.Location) (root : Path) (s : Settings) :
    Except Fault (Tree × Path) :=
  match stored fs here root s with
  | .ok fs => .ok (fs, storePath root)
  | .error f =>
    .error (match f with | .system .. => unwritable (toString (storePath root)) f | f => f)

end RouteAtlas.Settings
