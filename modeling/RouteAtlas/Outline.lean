import RouteAtlas.Snapshot

/-!
# The outline of a snapshot

A tree of two levels: a node for each file, and below it a leaf for each of its routes. A leaf
carries the command that copies the snippet of its route.
-/

namespace RouteAtlas

/-- A command with its arguments. -/
structure LinkedCommand where
  target : String
  args : List String := []
deriving DecidableEq, Repr

/-- A node of a tree view. -/
inductive Node where
  | mk (label : String) (hasChildren : Bool) (path : Option String)
    (command : Option LinkedCommand) (children : List Node)
deriving Repr, Inhabited

namespace Node

/-- What the node shows. -/
def label : Node → String
  | mk l _ _ _ _ => l

/-- Whether the node can be opened. -/
def hasChildren : Node → Bool
  | mk _ h _ _ _ => h

/-- The file that the node stands for. -/
def path : Node → Option String
  | mk _ _ p _ _ => p

/-- What happens when the node is chosen. -/
def command : Node → Option LinkedCommand
  | mk _ _ _ c _ => c

/-- The nodes below that are attached. -/
def children : Node → List Node
  | mk _ _ _ _ cs => cs

end Node

namespace Outline

/-- The command that copies a snippet. -/
def copySnippet : String := "urlindex.copySnippet"

/-- The node of a file, without its leaves. -/
def fileNode (r : FileRecord) : Node := .mk r.label true (some r.path) none []

/-- The leaf of a route of the file at `path`. -/
def leaf (path : String) (route : Route) : Node :=
  .mk route.label false none (some ⟨copySnippet, [path, route.url, route.name]⟩) []

/-- The nodes below a node that stands for `path`, if for anything. -/
def below (s : Snapshot) (path : Option String) : List Node :=
  match path with
  | none => []
  | some p => (s.routesOf p).map (leaf p)

/-- The nodes of the files. -/
def top (s : Snapshot) : List Node := s.files.map fileNode

/-- The nodes below a node, or the nodes of the files where none is given. -/
def children (s : Snapshot) (node : Option Node) : List Node :=
  match node with
  | none => top s
  | some n => below s n.path

/-- A node with the nodes below it attached. -/
def opened (s : Snapshot) (n : Node) : Node :=
  .mk n.label n.hasChildren n.path none (children s (some n))

/-- The whole tree. -/
def tree (s : Snapshot) : List Node := (top s).map (opened s)

/-- The lines of leaves; the last has a corner. -/
def leafLines : List Node → List String
  | [] => []
  | [n] => ["  └── " ++ n.label]
  | n :: rest => ("  ├── " ++ n.label) :: leafLines rest

/-- The lines of a tree. -/
def lines (nodes : List Node) : List String :=
  nodes.flatMap fun n => n.label :: leafLines n.children

/-- A tree as text. -/
def render (nodes : List Node) : String := String.intercalate "\n" (lines nodes)

end Outline

end RouteAtlas
