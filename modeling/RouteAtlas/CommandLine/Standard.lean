import RouteAtlas.CommandLine.Arguments
import RouteAtlas.CommandLine.Command
import RouteAtlas.Text.Terminal

/-!
# The standard host

The host of the running program. Words are read as options of a command and the path of a directory, which
has to exist. Output goes to no terminal, and so control sequences are left out of it.
-/

namespace RouteAtlas.CommandLine

/-- The option that asks for the version. -/
def versionSwitch : Switch := { long := "--version", help := "Show the version and exit." }

/-- The option that asks for the help. -/
def helpSwitch : Switch := { long := "--help", help := "Show this message and exit." }

/-- All options before a command. -/
def Interface.known (i : Interface) : List Switch := versionSwitch :: i.switches ++ [helpSwitch]

/-- All options of a command. -/
def Entry.known (e : Entry) : List Switch := e.switches ++ [helpSwitch]

/-! ## The help -/

/-- Rows of two columns. -/
def columns (rows : List (String × String)) : List String :=
  let width := (rows.map fun row => row.1.length).foldl max 0
  rows.map fun row =>
    "  " ++ row.1 ++ String.ofList (List.replicate (width + 2 - row.1.length) ' ') ++ row.2

/-- An option as the help shows it. -/
def Switch.row (o : Switch) : String × String :=
  let short := match o.short with | some c => String.ofList ['-', c] ++ ", " | none => ""
  (short ++ o.long ++ (if o.takesValue then " TEXT" else ""),
    o.help ++ (if o.required then "  [required]" else ""))

/-- A line that is set in; an empty one stays empty. -/
def setIn (line : String) : String := if line.isEmpty then "" else "  " ++ line

/-- The help on a command. -/
def Entry.help (e : Entry) (program : String) : String :=
  String.intercalate "\n" (["Usage: " ++ program ++ " " ++ e.name ++ " [OPTIONS] [PATH]", "",
    setIn e.about, "", "Options:"] ++ columns (e.known.map Switch.row))

/-- The help on a program. Its commands are listed by their names. -/
def Interface.help (i : Interface) : String :=
  let rows := (i.entries.map fun e => (e.name, e.about)).mergeSort fun a b => decide (a.1 ≤ b.1)
  String.intercalate "\n" (["Usage: " ++ i.name ++ " [OPTIONS] COMMAND [ARGS]...", ""] ++
    i.about.map setIn ++ ["", "Options:"] ++ columns (i.known.map Switch.row) ++
    ["", "Commands:"] ++ columns rows)

/-! ## Reading the words -/

/-- What words ask for, before the path of a directory has been looked at. -/
inductive Asked where
  | told (text : String)
  /-- A command on the directory at a path. What is wrong with its other arguments is said after
  the path has been looked at. -/
  | onPath (path : String) (command : Except UsageError Command)

/-- The command with these arguments: no option is missing, and one word at most names a directory. -/
def Entry.commandOf (e : Entry) (a : Arguments) : Except UsageError Command :=
  match e.switches.find? fun o => o.required && !isGiven a.given o.long with
  | some o => .error (.missingOption o.long)
  | none =>
    match a.words.drop 1 with
    | [] => .ok (e.command a.given)
    | word :: _ => .error (.unexpectedWord word)

/-- Reads the words after the name of a command. The directory is the current one if none is
named. -/
def readCommand (i : Interface) (e : Entry) (words : List String) : Except UsageError Asked := do
  let a ← readArguments e.known true words
  if isGiven a.given "--help" then return .told (e.help i.name)
  return .onPath (a.words.head?.getD ".") (e.commandOf a)

/-- The help or the version, if the options before the command ask for one. -/
def askedFirst (i : Interface) (a : Arguments) : Option Asked :=
  match a.firstOf ["--help", "--version"] with
  | some "--help" => some (.told i.help)
  | some _ => some (.told i.version)
  | none => none

/-- Refuses words whose first is the name of no command. The name is then read as an option, if it
looks like one, and so the words may still ask for the help or the version. -/
def refuseCommand (i : Interface) (name : String) (rest : List String) : Except UsageError Asked := do
  let a ← readArguments i.known false (name :: rest)
  match askedFirst i a with
  | some asked => return asked
  | none => .error (.unknownCommand name)

/-- Reads the words of a command line. Without a command they ask for the help. -/
def Asked.read (i : Interface) (words : List String) : Except UsageError Asked := do
  let a ← readArguments i.known false words
  match askedFirst i a with
  | some asked => return asked
  | none =>
    match a.words with
    | [] => return .told i.help
    | name :: rest =>
      match i.entries.find? (·.name == name) with
      | some e => readCommand i e rest
      | none => refuseCommand i name rest

/-! ## Looking at the path -/

/-- Whether a path leads to a directory, as a command line asks for one. -/
def isDirectory (fs : Tree) (here : Tree.Location) (path : String) : Bool :=
  match fs.reach here path with
  | .ok t => t.isFolder
  | .error _ => false

/-- Whether a path goes nowhere but up. -/
def onlyClimbs (path : String) : Bool :=
  !path.isEmpty && (Tree.steps path).all fun s => s = "" || s = "." || s = ".."

/-- What words ask for, once the path has been looked at. -/
def Asked.settle (fs : Tree) (here : Standpoint) : Asked → Except Ending Invocation
  | .told text => .ok (.told text)
  | .onPath path command =>
    if !Tree.isAddress path then .error (.crashed .nullInPath)
    else if !(if here.isAstray path then onlyClimbs path else isDirectory fs here.location path) then
      .error (.misused (UsageError.noDirectory path).message)
    else
      match command with
      | .ok c => .ok (.onPath path c)
      | .error e => .error (.misused e.message)

/-- The exit code of an ending. -/
def Ending.code : Ending → Nat
  | .done => 0
  | .misused _ => 2
  | .failed | .crashed _ => 1

/-- The host of the running program. -/
def Host.standard : Host where
  read i fs here words :=
    match Asked.read i words with
    | .ok asked => asked.settle fs here
    | .error e => .error (.misused e.message)
  written := Text.withoutControls
  exit := Ending.code
  mostOpen := Json.mostOpen

end RouteAtlas.CommandLine
