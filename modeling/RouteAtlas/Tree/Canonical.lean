import RouteAtlas.Tree.Walk

/-!
# Canonical paths

The canonical form of a path has no links, no dots and no double dots in it. It can be found for
paths that lead nowhere, too: what does not exist is kept as it is written. Only links that lead back
to themselves have no canonical form.

Each link is opened once. While it is open, meeting it again means a loop; once it is closed, what
it leads to is known. Any number of links may be open at a time: a limit on the calls that are open while
a program goes from link to link is left out.
-/

namespace RouteAtlas.Tree

/-- What is left to do. -/
inductive Task where
  /-- Go on to a name. -/
  | name (s : String)
  /-- Close the link at a place: it leads to where the search is. -/
  | close (place : Location)
deriving Repr

/-- The links met so far: those that are closed lead to a known place. -/
abbrev Seen := Table Location (Option Location)

/-- How far the search goes without opening a link. -/
inductive Searched where
  | done (here : Location)
  /-- The open link at a place was met again before these tasks. -/
  | loop (place : Location) (rest : List Task)
  /-- The link at a place, in the folder above it, is to be opened. -/
  | opening (seen : Seen) (above place : Location) (target : String) (rest : List Task)

/-- The names that are left to go on to, those of one written path together. -/
def namesLeft : List Task → List (List String)
  | [] => [[]]
  | .name s :: rest =>
    match namesLeft rest with
    | names :: more => (s :: names) :: more
    | [] => [[s]]
  | .close _ :: rest => [] :: namesLeft rest

/-- The names without dots; double dots take the name before them away. -/
def collapse : Location → List String → Location
  | here, [] => here
  | here, name :: rest =>
    if name = "." then collapse here rest
    else if name = ".." then collapse here.dropLast rest
    else collapse (here ++ [name]) rest

/-- The path to a place and on through what is left, as it is written. What is left of a path with
slashes in a row may start with a slash and then stands for itself. -/
def asWritten (place : Location) (tasks : List Task) : Path :=
  let written := (namesLeft tasks).map fun names => Path.ofString (String.intercalate "/" names)
  let p := written.foldl Path.join ⟨.root, place⟩
  ⟨p.anchor, collapse [] p.names⟩

/-- Goes on until the tasks end or a link is to be opened. -/
def search (fs : Tree) (seen : Seen) (here : Location) : List Task → Searched
  | [] => .done here
  | .close place :: rest => search fs (seen.put place (some here)) here rest
  | .name s :: rest =>
    if s = "" || s = "." then search fs seen here rest
    else if s = ".." then search fs seen here.dropLast rest
    else
      let there := here ++ [s]
      match fs.at? there with
      | some (.link target) =>
        match seen.get? there with
        | none => .opening seen here there target rest
        | some none => .loop there rest
        | some (some known) => search fs seen known rest
      | _ => search fs seen there rest

/-- The names of a path as they are written, empty ones between slashes among them. -/
def namesIn (path : String) : List Task :=
  (Path.pieces path.toList).map fun piece => .name (String.ofList piece)

/-- Goes on until the tasks end, opening at most `budget` links. -/
def settle (fs : Tree) (budget : Nat) (seen : Seen) (here : Location) (tasks : List Task) : Path :=
  match search fs seen here tasks with
  | .done there => ⟨.root, there⟩
  | .loop place rest => asWritten place rest
  | .opening seen above place target rest =>
    match budget with
    | 0 => asWritten place rest
    | budget + 1 =>
      settle fs budget (seen.put place none) (startOf above target)
        (namesIn target ++ .close place :: rest)

/-- The canonical form of a path, read from the folder at `here`. Where links loop, it is the rest
of the path as written. -/
def canonical (fs : Tree) (here : Location) (p : Path) : Path :=
  let start := if p.isAbsolute then [] else here
  settle fs fs.linkCount .empty start (p.names.map .name)

/-- The canonical form of a path, or the fault of links that loop. -/
def resolve (fs : Tree) (here : Location) (p : Path) : Except Fault Path :=
  if isAddress p.toString then
    let found := fs.canonical here p
    match fs.reach [] found.toString with
    | .error .tooManyLinks => .error (.linkLoop found.toString)
    | _ => .ok found
  else .error .nullInPath

end RouteAtlas.Tree
