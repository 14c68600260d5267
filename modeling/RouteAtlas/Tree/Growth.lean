import RouteAtlas.Tree.Change

/-!
# Growing a file tree

Something new is put at a path after the folders on the way to it have been made. What has been made
stays, even if the work fails later: `Growth` keeps the tree beside the fault.
-/

namespace RouteAtlas.Tree

/-- Work on a file tree that may fail half-way. -/
abbrev Growth := ExceptT Fault (StateM Tree)

namespace Growth

/-- Changes the tree, unless the change fails. -/
def change (f : Tree → Except Fault Tree) : Growth Unit := do
  match f (← getThe Tree) with
  | .ok fs => set fs
  | .error e => throw e

/-- The tree after some work, and how it ended. -/
def run (fs : Tree) (work : Growth Unit) : Tree × Except Fault Unit :=
  let (outcome, fs) := (ExceptT.run work).run fs
  (fs, outcome)

/-- The text of a path before the last slash, and the text after it. Before it slashes at the end are
dropped, unless there is nothing else. -/
def cut (path : List Char) : List Char × List Char :=
  let name := (path.reverse.takeWhile (· ≠ '/')).reverse
  let above := path.take (path.length - name.length)
  let bare := (above.reverse.dropWhile (· = '/')).reverse
  (if bare.isEmpty then above else bare, name)

/-- The text of the path of the folder above, and the name in it. A slash at the end does not count.
-/
def aboveAndName (path : List Char) : List Char × List Char :=
  match cut path with
  | (above, []) => cut above
  | split => split

/-- Whether something stands where a path leads. -/
def leadsSomewhere (here : Location) (path : List Char) : Growth Bool := do
  return ((← getThe Tree).reach here (String.ofList path)).isOk

/-- The most folders that are made for one path. -/
def mostFolders : Nat := 988

/-- The fault of too many folders to be made. -/
def tooManyFolders : Fault := .other "RecursionError" [.text "maximum recursion depth exceeded"]

/-- Makes a folder after those above it, unless there is one. At most `most` folders are made; of more
none is made. -/
def folderFrom (here : Location) : Nat → List Char → Growth Unit
  | 0, _ => throw tooManyFolders
  | most + 1, path => do
    let (above, name) := aboveAndName path
    let missing := !above.isEmpty && !name.isEmpty && !(← leadsSomewhere here above)
    if missing then
      try folderFrom here most above
      catch
        | .system .fileExists _ => pure ()
        | f => throw f
    if !(missing && name == ['.']) then
      let path := String.ofList path
      change fun fs =>
        if isAddress path then (fs.makeFolder here path).mapError (Fault.file · path)
        else .error .nullInPath

/-- Makes a folder and the folders above it, as far as they are missing. -/
def folder (here : Location) (path : String) : Growth Unit :=
  folderFrom here mostFolders path.toList

/-- Makes the folder in which the last step of a path is taken. -/
def way (here : Location) (path : String) : Growth Unit :=
  folder here (String.ofList (cut path.toList).1)

/-- Makes a link. -/
def link (here : Location) (path target : String) : Growth Unit := do
  way here path
  change fun fs => fs.makeLink here path target

/-- Writes a file. -/
def file (here : Location) (path : String) (bytes : List UInt8) : Growth Unit := do
  way here path
  change fun fs => fs.writeFile here path bytes

end Growth

end RouteAtlas.Tree
