import RouteAtlas.Fault.Category
import RouteAtlas.Log
import RouteAtlas.Snapshot

/-!
# Scans

A scan reads every file of a list once and builds the next snapshot. Files that cannot be read are
reported and left out; files without routes have no record; what a file binds is added to the
namespaces of the previous snapshot. A request to stop from any file ends the scan without a
snapshot, after all files have been read.
-/

namespace RouteAtlas

/-- What a scan gives. -/
structure Scan where
  /-- The next snapshot. -/
  snapshot : Snapshot
  /-- The files that could not be read, in order. -/
  failures : List Failure
  /-- The number of distinct files. -/
  scanned : Nat
deriving Repr

namespace Scan

/-- Whether every file was read. -/
def ok (s : Scan) : Bool := s.failures.isEmpty

/-- A file with what reading it gave. -/
abbrev Reading := String × Except Fault String

/-- What the log says of reading a file: nothing when it was read or when the reader asks to stop, a
warning for the faults that reading is known to have, and an error for any other. -/
def message? : Reading → Option Log.Message
  | (_, .ok _) => none
  | (path, .error f) =>
    match f with
    | .stop .. => none
    | .system .. | .undecodable .. | .report .. =>
      some ⟨.warning, "Error reading " ++ path ++ ": " ++ f.text⟩
    | _ => some ⟨.error, "Unexpected error reading " ++ path⟩

/-- The first request to stop. -/
def stop? : List Reading → Option Fault
  | [] => none
  | (_, .ok _) :: rest => stop? rest
  | (_, .error f) :: rest => if f.isFatal then some f else stop? rest

/-- What the files that were read say. -/
def said (extract : String → Urlconf) (readings : List Reading) : List (String × Urlconf) :=
  readings.filterMap fun
    | (path, .ok text) => some (path, extract text)
    | (_, .error _) => none

/-- The failures of the files that were not read. -/
def failuresOf (readings : List Reading) : List Failure :=
  readings.filterMap fun
    | (_, .ok _) => none
    | (path, .error f) => some (Failure.ofFault path f)

/-- Adds the record of a file that has routes. -/
def addRecord (records : Table String FileRecord) (file : String × Urlconf) :
    Table String FileRecord :=
  if h : file.2.routes = [] then records else records.put file.1 ⟨file.1, file.2.routes, h⟩

/-- The snapshot after `previous` that holds what the files say. -/
def nextSnapshot (previous : Snapshot) (files : List (String × Urlconf)) : Snapshot where
  generation := previous.generation + 1
  records := files.foldl addRecord .empty
  namespaces := files.foldl (fun t file => t.merge file.2.namespaces) previous.namespaces

/-- Scans the distinct files of a list, in order, and gives the messages for the log. -/
def run (extract : String → Urlconf) (previous : Snapshot) (paths : List String)
    (read : String → Except Fault String) : Except Fault Scan × List Log.Message :=
  let readings : List Reading := paths.eraseDups.map fun path => (path, read path)
  let messages := readings.filterMap message?
  match stop? readings with
  | some f => (.error f, messages)
  | none =>
    (.ok ⟨nextSnapshot previous (said extract readings), failuresOf readings, readings.length⟩,
      messages)

end Scan

end RouteAtlas
