import RouteAtlas.Fault
import RouteAtlas.Path
import RouteAtlas.Tree.Walk

/-!
# What the program runs on

A program declares its commands and their options. How the words of a command line are read by these
declarations, what is written of a text that is printed, with which code the program exits and how many
brackets may be open in settings that are read is not for the program to decide. A host decides it, and
the commands are said for any host.
-/

namespace RouteAtlas.CommandLine

/-- A command. -/
inductive Command where
  /-- Writes default settings. -/
  | init (force : Bool)
  /-- Shows the routes as a tree. -/
  | scan (json : Bool)
  /-- Lists the routes that a query selects. -/
  | routes (query : Option String) (json : Bool)
  /-- Prints the snippet of a route. -/
  | snippet (name : String) (url label : Option String)
  /-- Scans again at every change. -/
  | watch
deriving DecidableEq, Repr

/-! ## Declarations -/

/-- An option that a command knows. -/
structure Switch where
  /-- The long name, with its dashes. -/
  long : String
  /-- The letter of the short form. -/
  short : Option Char := none
  /-- Whether a value has to follow. -/
  takesValue : Bool := false
  /-- Whether it has to be given. -/
  required : Bool := false
  /-- What the help says about it. -/
  help : String := ""
deriving DecidableEq, Repr

/-- Whether a word is read as an option. -/
def looksLikeOption (word : String) : Bool :=
  match word.toList with
  | '-' :: _ :: _ => true
  | _ => false

/-- An option that was given, by its long name. -/
structure Given where
  long : String
  value : Option String := none
deriving DecidableEq, Repr

/-- Whether an option is given. -/
def isGiven (given : List Given) (long : String) : Bool := given.any (·.long == long)

/-- The value of an option: the last one given counts. -/
def valueOf (given : List Given) (long : String) : Option String :=
  (given.reverse.find? (·.long == long)).bind Given.value

/-- A command on a directory, as it is declared. -/
structure Entry where
  name : String
  /-- What the help says about it. -/
  about : String
  switches : List Switch := []
  /-- The command with the options that are given, of which none is missing that has to be. -/
  command : List Given → Command

/-- What a program declares. -/
structure Interface where
  name : String
  /-- The lines that the help says about it. -/
  about : List String
  /-- The line that shows the version. -/
  version : String
  /-- The options before the command, besides those for the version and the help. -/
  switches : List Switch
  entries : List Entry

/-! ## Hosts -/

/-- What a command line asks for. -/
inductive Invocation where
  /-- The help or the version, which is this text. -/
  | told (text : String)
  /-- A command on the directory at a path. -/
  | onPath (path : String) (command : Command)

/-- How a command line ends. -/
inductive Ending where
  | done
  /-- The command line is refused. -/
  | misused (message : String)
  /-- The user was told why nothing more is done. -/
  | failed
  | crashed (f : Fault)

/-- Where a command line is given. -/
structure Standpoint where
  /-- The place of the current folder. -/
  location : Tree.Location
  /-- Whether that folder has been taken away since it became the current one. Something else may
  stand at its place by now. -/
  removed : Bool := false
deriving DecidableEq, Repr

/-- The standpoint after a change of the file tree. -/
def Standpoint.after (here : Standpoint) (fs : Tree) : Standpoint :=
  { here with removed := here.removed || !(fs.at? here.location).any Tree.isFolder }

/-- Whether a path is read from a folder that has been taken away. -/
def Standpoint.isAstray (here : Standpoint) (path : String) : Bool :=
  here.removed && !(Path.ofString path).isAbsolute

/-- What a program runs on. -/
structure Host where
  /-- Reads the words of a command line by what is declared. What is refused has an ending of its own. -/
  read : Interface → Tree → Standpoint → List String → Except Ending Invocation
  /-- What is written of a text that is printed. -/
  written : String → String
  /-- The exit code of an ending. -/
  exit : Ending → Nat
  /-- The most brackets open at one place of settings that are read. -/
  mostOpen : Nat

/-- What is written of lines, each with its line end. -/
def Host.text (host : Host) (lines : List String) : String :=
  String.join (lines.map fun line => host.written (line ++ "\n"))

end RouteAtlas.CommandLine
