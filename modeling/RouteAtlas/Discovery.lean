import RouteAtlas.Text.Wide
import RouteAtlas.Tree.Canonical

/-!
# Discovery

The routing modules of a project are the files of one name in the folders below its root. Hidden
folders and folders of ignored names are not looked into, and links to folders are not followed; a
link to anything else counts as a file. A folder whose path is longer than paths may be cannot be listed,
and is passed over without a word.

Folders may be nested as deeply as paths allow: a limit on the calls that are open while a program goes
down from folder to folder is left out.
-/

namespace RouteAtlas.Discovery

/-- Whether a name marks a hidden folder. -/
def isHidden (name : String) : Bool := name.toList.head? == some '.' && name != "." && name != ".."

/-- Whether folders of a name are not looked into. -/
def skips (ignored : List String) (name : String) : Bool := ignored.contains name || isHidden name

/-- Whether an entry of a folder is a folder, or a link that leads to one. -/
def leadsToFolder (fs : Tree) (location : Tree.Location) : Tree → Bool
  | .folder _ => true
  | .file _ => false
  | .link _ =>
    match fs.hasFolder [] (toString (Path.mk .root location)) with
    | .ok b => b
    | .error _ => false

/-- Whether the entries of a folder can be listed: its path is not too long. -/
def isListable (location : Tree.Location) : Bool :=
  (toString (Path.mk .root location)).utf8ByteSize ≤ Tree.longestPath

mutual

/-- The places of the modules in something that stands at a place: none, unless it is a folder that can be
listed. -/
def modulesIn (fs : Tree) (fileName : WideText) (ignored : List String) (location : Tree.Location) :
    Tree → List Tree.Location
  | .folder es => if isListable location then modulesAmong fs fileName ignored location es else []
  | _ => []

/-- The places of the modules among the entries of the folder at a place. -/
def modulesAmong (fs : Tree) (fileName : WideText) (ignored : List String)
    (location : Tree.Location) : List (String × Tree) → List Tree.Location
  | [] => []
  | (name, t) :: rest =>
    let there := location ++ [name]
    let here := if fileName.spells name && !leadsToFolder fs there t then [there] else []
    let below := if skips ignored name then [] else modulesIn fs fileName ignored there t
    here ++ below ++ modulesAmong fs fileName ignored location rest

end

/-- The report of a root that is no folder. -/
def noRoot (root : String) : Report :=
  Report.resource ("Scan root is not a directory: " ++ root)
    (some ("Directory not found: " ++ root)) .directoryNotFound {}
    [⟨"Pass the root of a Django project", none⟩]

/-- The paths of the modules below a root, in the order of their characters. -/
def find (fs : Tree) (here : Tree.Location) (root : Path) (fileName : WideText)
    (ignored : Except Fault (List String)) : Except Fault (List String) := do
  let root ← fs.resolve here root
  let shown := toString root
  if ← fs.hasFolder here shown then
    let ignored ← ignored
    let t := (fs.at? root.names).getD (.folder [])
    let found := (modulesIn fs fileName ignored root.names t).map fun l => toString (Path.mk .root l)
    return found.mergeSort (· ≤ ·)
  else .error (.report (noRoot shown) none)

end RouteAtlas.Discovery
