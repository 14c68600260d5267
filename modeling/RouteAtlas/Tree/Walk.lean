import RouteAtlas.Fault
import RouteAtlas.Path
import RouteAtlas.Tree

/-!
# Following paths

Where a path leads in a file tree, links followed. A walk goes from name to name; a link puts the
names of its target in front of those that are left. At most forty links are followed, so that every
walk ends.
-/

namespace RouteAtlas.Tree

/-- Where a path leads. -/
inductive Place where
  /-- Something stands at this place. -/
  | taken (location : Location) (t : Tree)
  /-- The folder at this place has no entry of this name. -/
  | vacant (above : Location) (name : String)
deriving Repr

/-- The names of a path as a walk takes them. Single dots stay, and for a slash at the end there is an
empty name: what stands before them has to be a folder. -/
def steps (path : String) : List String :=
  let names := ((Path.pieces path.toList).filter (· ≠ [])).map String.ofList
  if path.toList.getLast? = some '/' then names ++ [""] else names

/-- Where a walk starts: at the top, or at the current place. -/
def startOf (here : Location) (path : String) : Location :=
  if path.toList.head? = some '/' then [] else here

/-- The most bytes of a name. -/
def longestName : Nat := 255

/-- The most bytes of a path. -/
def longestPath : Nat := 4095

/-- The most links that one walk follows. -/
def mostLinks : Nat := 40

/-- What a walk is for. -/
inductive Purpose where
  /-- What stands at the end of the path, even if it is a link. -/
  | entry
  /-- What the path leads to. -/
  | target
  /-- The file that is to be written where the path leads. -/
  | writing
deriving DecidableEq, Repr

/-- Whether a path that goes on with these names after one ends in a slash. -/
def onlySlash (rest : List String) : Bool := !rest.isEmpty && rest.all (·.isEmpty)

/-- How far a walk goes without following a link. -/
inductive Reached where
  | place (p : Place)
  /-- A link stands in the folder at this place, and these steps are left after it. -/
  | link (above : Location) (target : String) (rest : List String)
  | failed (e : FileError)
deriving Repr

/-- Goes from the folder at `here` until the steps end or a link has to be followed. Nothing can be
written under a name with a slash after it. -/
def stroll (fs : Tree) (purpose : Purpose) (here : Location) : List String → Reached
  | [] =>
    match fs.at? here with
    | some t => .place (.taken here t)
    | none => .failed .noEntry
  | name :: rest =>
    if name = "" || name = "." then stroll fs purpose here rest
    else if name = ".." then stroll fs purpose here.dropLast rest
    else if longestName < name.utf8ByteSize then .failed .nameTooLong
    else if purpose = .writing && onlySlash rest then .failed .isADirectory
    else
      let there := here ++ [name]
      match fs.at? there with
      | none => if rest.isEmpty then .place (.vacant here name) else .failed .noEntry
      | some (.folder _) => stroll fs purpose there rest
      | some (.link target) =>
        if rest.isEmpty && purpose = .entry then .place (.taken there (.link target))
        else .link here target rest
      | some (.file bytes) =>
        if rest.isEmpty then .place (.taken there (.file bytes)) else .failed .notADirectory

/-- Goes on until the steps end, following at most `budget` links. -/
def walk (fs : Tree) (purpose : Purpose) (budget : Nat) (here : Location) (names : List String) :
    Except FileError Place :=
  match stroll fs purpose here names with
  | .place p => .ok p
  | .failed e => .error e
  | .link above target rest =>
    match budget with
    | 0 => .error .tooManyLinks
    | budget + 1 => walk fs purpose budget (startOf above target) (steps target ++ rest)

/-- The place that a path names, read from the folder at `here`. -/
def locate (fs : Tree) (purpose : Purpose) (here : Location) (path : String) :
    Except FileError Place :=
  if path.isEmpty then .error .noEntry
  else if longestPath < path.utf8ByteSize then .error .nameTooLong
  else walk fs purpose mostLinks (startOf here path) (steps path)

/-- What a path ends in. -/
inductive Last where
  /-- A name; `slash` says that a slash follows it. -/
  | name (s : String) (slash : Bool)
  | dot
  | doubleDot
  /-- Nothing but slashes. -/
  | top
deriving DecidableEq, Repr

/-- The folder in which the last step of a path is taken, read from the folder at `here`, and that
step. Nothing is said about what stands there. -/
def lastStep (fs : Tree) (here : Location) (path : String) : Except FileError (Location × Last) :=
  if path.isEmpty then .error .noEntry
  else if longestPath < path.utf8ByteSize then .error .nameTooLong
  else
    match ((steps path).filter (· ≠ "")).reverse with
    | [] => .ok ([], .top)
    | last :: above => do
      match ← walk fs .target mostLinks (startOf here path) (above.reverse ++ [""]) with
      | .taken location (.folder _) =>
        if last = "." then return (location, .dot)
        else if last = ".." then return (location, .doubleDot)
        else if longestName < last.utf8ByteSize then .error .nameTooLong
        else return (location, .name last (path.toList.getLast? == some '/'))
      | .taken .. => .error .notADirectory
      | .vacant .. => .error .noEntry

/-- What stands where a path leads. -/
def reach (fs : Tree) (here : Location) (path : String) : Except FileError Tree :=
  match fs.locate .target here path with
  | .ok (.taken _ t) => .ok t
  | .ok (.vacant ..) => .error .noEntry
  | .error e => .error e

/-! ## Questions about paths -/

/-- Whether a path can be handed to the file system at all. -/
def isAddress (path : String) : Bool := !path.toList.contains '\x00'

/-- What stands where a path leads, with the fault of a path that leads nowhere. -/
def get (fs : Tree) (here : Location) (path : String) : Except Fault Tree :=
  if isAddress path then
    match fs.reach here path with
    | .ok t => .ok t
    | .error e => .error (.file e path)
  else .error .nullInPath

/-- Whether an error only means that nothing is there. -/
def meansAbsent : FileError → Bool
  | .noEntry | .notADirectory | .tooManyLinks => true
  | _ => false

/-- Whether something with a property stands where a path leads. -/
def holds (fs : Tree) (property : Tree → Bool) (here : Location) (path : String) :
    Except Fault Bool :=
  if isAddress path then
    match fs.reach here path with
    | .ok t => .ok (property t)
    | .error e => if meansAbsent e then .ok false else .error (.file e path)
  else .ok false

/-- Whether a path leads to a folder. -/
def hasFolder (fs : Tree) (here : Location) (path : String) : Except Fault Bool :=
  fs.holds isFolder here path

/-- Whether a path leads to a file. -/
def hasFile (fs : Tree) (here : Location) (path : String) : Except Fault Bool :=
  fs.holds isFile here path

/-- Whether a path leads anywhere. -/
def hasAny (fs : Tree) (here : Location) (path : String) : Except Fault Bool :=
  fs.holds (fun _ => true) here path

end RouteAtlas.Tree
