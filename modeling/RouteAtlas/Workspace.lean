import RouteAtlas.Discovery
import RouteAtlas.Scan
import RouteAtlas.Settings.Store
import RouteAtlas.Snapshot.Query
import RouteAtlas.Watch

/-!
# Workspaces

A workspace is a project with its settings and the snapshot of its last scan. Refreshing it finds
the routing modules below its root, scans them and publishes the snapshot.
-/

namespace RouteAtlas

/-- A project at work. -/
structure Workspace where
  /-- The canonical path of the project. -/
  root : Path
  settings : Settings
  /-- The template of snippets, as the settings give it. -/
  template : Template
  /-- The published snapshot. -/
  snapshot : Snapshot := .initial

namespace Workspace

/-- Opens the project at a path, with the settings given or else the stored ones. -/
def openAt (fs : Tree) (here : Tree.Location) (root : Path) (given : Option Settings)
    (most : Nat := Json.mostOpen) : Except Fault Workspace := do
  let root ← fs.resolve here root
  let settings ← match given with
    | some s => pure s
    | none => Settings.load fs here root most
  let template ← Snippet.template settings.template
  return { root, settings, template }

/-- The paths of the routing modules below the root. -/
def modules (w : Workspace) (fs : Tree) (here : Tree.Location) : Except Fault (List String) :=
  Discovery.find fs here w.root w.settings.fileName w.settings.ignoredNames

/-- The message about a file that was skipped. -/
def skipMessage (f : Failure) : Log.Message :=
  ⟨.info, "Skipped " ++ f.path ++ " (" ++ f.category.word ++ ")"⟩

/-- Scans the routing modules as they are now. -/
def refresh (w : Workspace) (fs : Tree) (here : Tree.Location) :
    Workspace × List Log.Message × Except Fault Scan :=
  match w.modules fs here with
  | .error f => (w, [], .error f)
  | .ok paths =>
    let (outcome, messages) :=
      Scan.run (Urlconf.read w.settings.blockOnly) w.snapshot paths (Source.read fs here)
    match outcome with
    | .error f => (w, messages, .error f)
    | .ok scan =>
      ({ w with snapshot := scan.snapshot }, messages ++ scan.failures.map skipMessage, .ok scan)

/-- Whether a path names a routing module below the root, as links lead now. -/
def concerns (w : Workspace) (fs : Tree) (here : Tree.Location) (path : String) :
    Except Fault Bool := do
  let p := Path.ofString path
  if !w.settings.fileName.spells p.name then return false
  match fs.resolve here p with
  | .error .nullInPath => return false
  | .error f => .error f
  | .ok found =>
    match found.relativeTo? w.root with
    | none => return false
    | some names =>
      let ignored ← w.settings.ignoredNames
      return !names.dropLast.any (Discovery.skips ignored)

/-- The snippets of the routes that a query selects. -/
def snippets (w : Workspace) (query : Option String) : List WideText :=
  (w.snapshot.select query).map fun p => w.snapshot.snippet w.template p.1.path p.2

/-! ## Watching -/

/-- What a watched workspace works on. -/
structure Site where
  fs : Tree
  /-- The current folder. -/
  here : Tree.Location
  workspace : Workspace
  /-- The scans that refreshing has made since the watch began, newest first. -/
  refreshed : List Scan := []

/-- Refreshes the workspace of a site. -/
def Site.refresh (s : Site) : Site × List Log.Message × Except Fault Scan :=
  let (workspace, messages, outcome) := s.workspace.refresh s.fs s.here
  ({ s with workspace }, messages, outcome)

/-- How a watched workspace handles changes: any batch of them asks for a refresh. -/
def handling (w : Workspace) : Except Fault (Watch.Handling Site) := do
  let options := WatchOptions.ofSettings w.settings
  return {
    filter := ← options.filter (some w.root)
    immediate := options.immediate
    accept := fun s path => s.workspace.concerns s.fs s.here path
    deliver := fun s _ =>
      match s.refresh with
      | (s, messages, .ok scan) => ({ s with refreshed := scan :: s.refreshed }, messages, .ok ())
      | (s, messages, .error f) => (s, messages, .error f) }

/-- A watcher of the workspace of a site, not yet running. -/
def watch (s : Site) : Except Fault (Watch.Watcher Site) := do
  return {
    root := s.workspace.root
    recursive := (WatchOptions.ofSettings s.workspace.settings).recursive
    handling := ← s.workspace.handling
    collector := { world := s } }

end Workspace

end RouteAtlas
