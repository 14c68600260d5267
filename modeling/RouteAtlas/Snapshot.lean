import RouteAtlas.Fault
import RouteAtlas.FileKey
import RouteAtlas.Snippet.Template
import RouteAtlas.Table
import RouteAtlas.Urlconf

/-!
# Snapshots of the index

A snapshot holds what one scan found: a record for each file that declares routes, and the
namespaces that all scans so far have bound. A record is never empty.
-/

namespace RouteAtlas

/-- A routing module with its routes, in the order of their declarations. -/
structure FileRecord where
  /-- The path of the file. -/
  path : String
  routes : List Route
  /-- A file without routes has no record. -/
  nonempty : routes ≠ []
deriving DecidableEq, Repr

namespace FileRecord

/-- The record of a file, unless it has no routes. -/
def make (path : String) (routes : List Route) : Except Fault FileRecord :=
  if h : routes = [] then .error (.emptyRecord path) else .ok ⟨path, routes, h⟩

/-- The label of the file. -/
def label (r : FileRecord) : String := FileKey.label r.path

/-- The key of the file in the table of namespaces. -/
def subpathKey (r : FileRecord) : String := FileKey.subpath r.path

end FileRecord

/-- One published state of the index. -/
structure Snapshot where
  /-- The number of the snapshot. An index starts with 0, and every scan adds one. -/
  generation : Int := 0
  /-- The records by path, in the order of the scan. -/
  records : Table String FileRecord := .empty
  /-- The namespaces of file keys, over all scans so far. -/
  namespaces : Table String String := .empty
deriving DecidableEq, Repr

namespace Snapshot

/-- The snapshot before any scan. -/
def initial : Snapshot := {}

instance : Inhabited Snapshot := ⟨initial⟩

/-- The snapshot with a record for each file, unless one has no routes. A file that comes twice keeps
its first place and takes its last routes. -/
def ofFiles (generation : Int) (files : List (String × List Route))
    (namespaces : Table String String) : Except Fault Snapshot := do
  let records ← files.mapM fun f => FileRecord.make f.1 f.2
  return ⟨generation, .ofList (records.map fun r => (r.path, r)), namespaces⟩

/-- The records, in order. -/
def files (s : Snapshot) : List FileRecord := s.records.values

/-- The number of files with routes. -/
def size (s : Snapshot) : Nat := s.records.size

/-- Whether no file has routes. -/
def isEmpty (s : Snapshot) : Bool := s.records.isEmpty

/-- The number of routes. -/
def routeCount (s : Snapshot) : Nat := s.files.foldr (fun r n => r.routes.length + n) 0

/-- The routes of one file; none for a file that has no record. -/
def routesOf (s : Snapshot) (path : String) : List Route :=
  match s.records.get? path with
  | some r => r.routes
  | none => []

/-- Every route with its file, in the order of files and then of declarations. -/
def routes (s : Snapshot) : List (FileRecord × Route) :=
  s.files.flatMap fun r => r.routes.map fun route => (r, route)

/-- The namespace of a file key. -/
def namespaceOf (s : Snapshot) (key : String) : Option String := s.namespaces.get? key

end Snapshot

end RouteAtlas
