import RouteAtlas.CommandLine.Host
import RouteAtlas.Value.Describe
import RouteAtlas.Value.Primitive
import RouteAtlas.Workspace

/-!
# Commands

What the commands print and how they end. A command that watches becomes a session, which goes on
with every event and ends when it is interrupted; every other command ends at once.

A report is shown to the user and ends the command with a failure. Any other fault is none of the
user's making and crashes it.
-/

namespace RouteAtlas.CommandLine

/-- What was printed: the lines of output and those of messages. -/
structure Printed where
  lines : List String := []
  warnings : List String := []
deriving DecidableEq, Repr

namespace Printed

/-- Prints a line of output. A line may have line ends in it. -/
def echo (p : Printed) (line : String) : Printed := { p with lines := p.lines ++ [line] }

/-- Prints a message. -/
def warn (p : Printed) (line : String) : Printed := { p with warnings := p.warnings ++ [line] }

/-- Prints a JSON value. -/
def echoJson (p : Printed) (v : Value) : Printed := p.echo v.primitive.pretty

end Printed

/-- What is left of a command. -/
structure Outcome where
  /-- The file tree afterwards. -/
  fs : Tree
  printed : Printed
  ending : Ending

/-- A command that watches. -/
structure Session where
  printed : Printed
  watcher : Watch.Watcher Workspace.Site
  /-- The number of refreshes that have been told. -/
  told : Nat := 0

/-- What becomes of a command at first. -/
inductive Progress where
  | ended (o : Outcome)
  | watching (s : Session)

/-- The version of the program. -/
def version : String := "0.1.0"

/-- Prints an error for the user. -/
def Printed.complain (p : Printed) (r : Report) : Printed := p.warn ("Error: " ++ r.formatted)

/-- Ends a command with a fault. -/
def endWith (fs : Tree) (p : Printed) : Fault → Outcome
  | .report r _ => ⟨fs, p.complain r, .failed⟩
  | f => ⟨fs, p, .crashed f⟩

/-! ## The commands -/

/-- Writes default settings, unless there are settings and they are to be kept. -/
def runInit (fs : Tree) (here : Tree.Location) (path : String) (force : Bool) : Outcome :=
  let root := Path.ofString path
  let target := toString (Settings.storePath root)
  match fs.hasAny here target with
  | .error f => ⟨fs, {}, .crashed f⟩
  | .ok there =>
    if there && !force then
      let line := "Configuration already exists: " ++ target ++ " (use --force to overwrite)"
      ⟨fs, ({} : Printed).echo line, .done⟩
    else
      match Settings.save fs here root {} with
      | .ok (fs, written) =>
        ⟨fs, ({} : Printed).echo ("urlindex initialized: " ++ toString written), .done⟩
      | .error f => endWith fs {} f

/-- The line that says how much is indexed. -/
def countLine (s : Snapshot) (before : String) : String :=
  before ++ toString s.routeCount ++ " routes in " ++ toString s.size ++ " files"

/-- The message about a file that was skipped. -/
def skippedLine (f : Failure) : String := "Warning: skipped " ++ f.path ++ ": " ++ f.error

/-- Tells of the files that a scan skipped. -/
def Printed.tellFailures (p : Printed) (s : Scan) : Printed :=
  s.failures.foldl (fun p f => p.warn (skippedLine f)) p

/-- What there is to say when nothing is found. -/
def nothingFound : String := "No routes found."

/-- Shows a snapshot as a tree. -/
def showTree (p : Printed) (s : Snapshot) (json : Bool) : Printed :=
  if json then
    p.echoJson (Value.record
      [("files", .sequence .list ((Outline.tree s).map Node.toValue)),
        ("namespaces", .mapping true s.namespaces.toEntries)])
  else if s.isEmpty then p.echo nothingFound
  else (p.echo (Outline.render (Outline.tree s))).echo (countLine s "\n")

/-- Lists the choices that a query selects. -/
def showRoutes (p : Printed) (s : Snapshot) (query : Option String) (json : Bool) : Printed :=
  let choices := Choice.all s query
  if json then p.echoJson (.sequence .list (choices.map Choice.summary))
  else if choices.isEmpty then p.echo nothingFound
  else choices.foldl (fun p c => p.echo c.line) p

/-- The report that no route has a name. -/
def noRoute (name : String) : Report :=
  Report.validation ("No route named " ++ Text.quoted name)
    (some ("No route named '" ++ name ++ "' was found.")) .routeNotFound

/-- Prints the snippet of the first route that meets the criteria. A template with half of a
surrogate pair gives snippets that cannot be printed. -/
def showSnippet (p : Printed) (w : Workspace) (name : String) (url label : Option String) :
    Printed × Ending :=
  let found := w.snapshot.find (some name) url label
  match found with
  | [] => (p.complain (noRoute name), .failed)
  | (record, route) :: more =>
    let p :=
      if more.isEmpty then p
      else
        p.warn ("Warning: " ++ toString found.length ++ " routes match; using " ++ record.label)
    match w.snapshot.snippet w.template record.path route with
    | .plain line => (p.echo line, .done)
    | .unpaired codes => (p, .crashed (.unpairedHalf codes))

/-- Tells of a refresh. -/
def Printed.tellRefresh (p : Printed) (s : Scan) : Printed :=
  (p.tellFailures s).echo (countLine s.snapshot "Re-indexed: ")

/-- Begins to watch. -/
def beginWatch (fs : Tree) (here : Tree.Location) (p : Printed) (w : Workspace) : Progress :=
  let p := (p.echo (countLine w.snapshot "Indexed ")).echo
    ("Watching " ++ toString w.root ++ " (Ctrl+C to stop)")
  match Workspace.watch { fs, here, workspace := w } with
  | .ok watcher => .watching { printed := p, watcher := watcher.start.1 }
  | .error f => .ended (endWith fs p f)

/-- Runs a command on the refreshed workspace at a path, whose settings may have `most` brackets open. -/
def runScanned (most : Nat) (fs : Tree) (here : Tree.Location) (path : String)
    (command : Printed → Workspace → Progress) : Progress :=
  match Workspace.openAt fs here (Path.ofString path) none most with
  | .error f => .ended (endWith fs {} f)
  | .ok w =>
    match w.refresh fs here with
    | (_, _, .error f) => .ended (endWith fs {} f)
    | (w, _, .ok scan) => command (({} : Printed).tellFailures scan) w

/-- Runs a command on the directory at a path. -/
def runCommand (most : Nat) (fs : Tree) (here : Tree.Location) (path : String) : Command → Progress
  | .init force => .ended (runInit fs here path force)
  | .scan json =>
    runScanned most fs here path fun p w => .ended ⟨fs, showTree p w.snapshot json, .done⟩
  | .routes query json =>
    runScanned most fs here path fun p w => .ended ⟨fs, showRoutes p w.snapshot query json, .done⟩
  | .snippet name url label =>
    runScanned most fs here path fun p w =>
      let (p, ending) := showSnippet p w name url label
      .ended ⟨fs, p, ending⟩
  | .watch => runScanned most fs here path fun p w => beginWatch fs here p w

/-- The fault of asking for the path of a folder that has been taken away. -/
def noCurrentFolder : Fault :=
  .system .fileNotFound [.number FileError.noEntry.number, .text FileError.noEntry.text]

/-- Runs a command on a path that is read from a folder which has been taken away. Only default
settings can be written without the whole path. -/
def runAstray (fs : Tree) (location : Tree.Location) (path : String) : Command → Progress
  | .init force =>
    let o := runInit (fs.remove location) location path force
    match fs.at? location with
    | some t => .ended { o with fs := Tree.put t location o.fs }
    | none => .ended o
  | _ => .ended ⟨fs, {}, .crashed noCurrentFolder⟩

/-! ## Command lines -/

/-- The option for output as JSON. -/
def jsonSwitch : Switch := { long := "--json", help := "Output JSON." }

/-- The command that writes default settings. -/
def initEntry : Entry where
  name := "init"
  about := "Initialize urlindex configuration for a project."
  switches := [{ long := "--force", help := "Overwrite an existing configuration." }]
  command given := .init (isGiven given "--force")

/-- The command that shows the routes as a tree. -/
def scanEntry : Entry where
  name := "scan"
  about := "Scan a project and show routes grouped by urls.py file."
  switches := [jsonSwitch]
  command given := .scan (isGiven given "--json")

/-- The command that lists routes. -/
def routesEntry : Entry where
  name := "routes"
  about := "List all routes as a flat list."
  switches := [
    { long := "--filter", short := some 'f', takesValue := true, help := "Match name, URL, or file." },
    jsonSwitch]
  command given := .routes (valueOf given "--filter") (isGiven given "--json")

/-- The command that prints a snippet. -/
def snippetEntry : Entry where
  name := "snippet"
  about := "Print the \x7b% url %\x7d snippet for a route."
  switches := [
    { long := "--name", short := some 'n', takesValue := true, required := true, help := "Route name." },
    { long := "--url", takesValue := true, help := "URL pattern, to disambiguate." },
    { long := "--file", takesValue := true, help := "File label, e.g. blog/urls.py." }]
  command given :=
    .snippet ((valueOf given "--name").getD "") (valueOf given "--url") (valueOf given "--file")

/-- The command that watches. -/
def watchEntry : Entry where
  name := "watch"
  about := "Start a file watcher and re-index on urls.py changes."
  command _ := .watch

/-- What the program declares. -/
def interface : Interface where
  name := "urlindex"
  about := ["urlindex - Route Index for Django urls.py Files.", "",
    "Finds path() declarations and namespaced include() calls, and renders \x7b% url",
    "%\x7d snippets for them."]
  version := "urlindex v" ++ version
  switches := [{ long := "--debug", help := "Log debug output to stderr." }]
  entries := [initEntry, scanEntry, routesEntry, snippetEntry, watchEntry]

/-- Runs a command line on a host. -/
def Host.run (host : Host) (fs : Tree) (here : Standpoint) (words : List String) : Progress :=
  match host.read interface fs here words with
  | .error ending => .ended ⟨fs, {}, ending⟩
  | .ok (.told text) => .ended ⟨fs, ({} : Printed).echo text, .done⟩
  | .ok (.onPath path command) =>
    if here.isAstray path then runAstray fs here.location path command
    else runCommand host.mostOpen fs here.location path command

end RouteAtlas.CommandLine
