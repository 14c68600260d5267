import RouteAtlas.Tree.Walk

/-!
# Changing a file tree

Writing files, making folders and links, and deleting, by path. Each change either gives the changed
tree or leaves everything as it was and says why; only the deletion of a folder may do half of its
work first.
-/

namespace RouteAtlas.Tree

/-- Writes a file where a path leads. A link at the end is followed, even if nothing stands where it
leads. -/
def writeFile (fs : Tree) (here : Location) (path : String) (bytes : List UInt8) :
    Except Fault Tree :=
  if isAddress path then
    match fs.locate .writing here path with
    | .ok (.taken location t) =>
      if t.isFolder then .error (.file .isADirectory path)
      else .ok (put (.file bytes) location fs)
    | .ok (.vacant above name) => .ok (put (.file bytes) (above ++ [name]) fs)
    | .error e => .error (.file e path)
  else .error .nullInPath

/-- Makes a folder where nothing stands. A link is something, wherever it leads. -/
def addFolder (fs : Tree) (here : Location) (path : String) : Except FileError Tree := do
  match ← fs.lastStep here path with
  | (above, .name name _) =>
    if (fs.at? (above ++ [name])).isSome then .error .exists
    else return put (.folder []) (above ++ [name]) fs
  | _ => .error .exists

/-- Makes a link where nothing stands. -/
def addLink (fs : Tree) (here : Location) (path target : String) : Except FileError Tree := do
  if target.isEmpty then .error .noEntry
  else if longestPath < target.utf8ByteSize then .error .nameTooLong
  else
    match ← fs.lastStep here path with
    | (above, .name name slash) =>
      if (fs.at? (above ++ [name])).isSome then .error .exists
      else if slash then .error .noEntry
      else return put (.link target) (above ++ [name]) fs
    | _ => .error .exists

/-- Takes away a file or a link. -/
def removeFile (fs : Tree) (here : Location) (path : String) : Except FileError Tree := do
  match ← fs.lastStep here path with
  | (above, .name name slash) =>
    match fs.at? (above ++ [name]) with
    | none => .error .noEntry
    | some (.folder _) => .error .isADirectory
    | some _ => if slash then .error .notADirectory else return remove (above ++ [name]) fs
  | _ => .error .isADirectory

/-- Takes away an empty folder. -/
def removeFolder (fs : Tree) (here : Location) (path : String) : Except FileError Tree := do
  match ← fs.lastStep here path with
  | (above, .name name _) =>
    match fs.at? (above ++ [name]) with
    | none => .error .noEntry
    | some (.folder []) => return remove (above ++ [name]) fs
    | some (.folder _) => .error .notEmpty
    | some _ => .error .notADirectory
  | (_, .dot) => .error .invalidArgument
  | _ => .error .notEmpty

/-- Makes a folder, unless there is one. -/
def makeFolder (fs : Tree) (here : Location) (path : String) : Except FileError Tree :=
  match fs.addFolder here path with
  | .ok fs => .ok fs
  | .error .noEntry => .error .noEntry
  | .error e =>
    match fs.hasFolder here path with
    | .ok true => .ok fs
    | _ => .error e

/-- Makes the folder with these names, last one first, and the folders above it. -/
def makeFoldersFrom (fs : Tree) (here : Location) (anchor : Anchor) : List String → Except Fault Tree
  | [] =>
    let path := toString (Path.mk anchor [])
    (fs.makeFolder here path).mapError (Fault.file · path)
  | name :: above =>
    let path := toString (Path.mk anchor (name :: above).reverse)
    match fs.makeFolder here path with
    | .ok fs => .ok fs
    | .error .noEntry =>
      match makeFoldersFrom fs here anchor above with
      | .ok fs => (fs.makeFolder here path).mapError (Fault.file · path)
      | .error f => .error f
    | .error e => .error (.file e path)

/-- Makes a folder and the folders above it, as far as they are missing. -/
def makeFolders (fs : Tree) (here : Location) (p : Path) : Except Fault Tree :=
  if isAddress p.toString then makeFoldersFrom fs here p.anchor p.names.reverse
  else .error .nullInPath

/-- Makes a link. -/
def makeLink (fs : Tree) (here : Location) (path target : String) : Except Fault Tree :=
  if isAddress path && isAddress target then
    (fs.addLink here path target).mapError fun e => .fileWith e target path
  else .error .nullInPath

/-- Deletes what stands where a path leads, with everything below it. A link at the end is deleted
itself. A folder is emptied first: then the path may no longer lead to it, or end in a way that does
not name it, and it stays. -/
def delete (fs : Tree) (here : Location) (path : String) : Tree × Except Fault Unit :=
  let outcome (before : Tree) (after : Except FileError Tree) : Tree × Except Fault Unit :=
    match after with
    | .ok fs => (fs, .ok ())
    | .error e => (before, .error (.file e path))
  if isAddress path then
    match fs.locate .entry here path with
    | .ok (.taken location (.folder _)) =>
      let emptied := put (.folder []) location fs
      outcome emptied (emptied.removeFolder here path)
    | _ => outcome fs (fs.removeFile here path)
  else (fs, .error .nullInPath)

end RouteAtlas.Tree
