import RouteAtlas.Json

/-!
# Reports to the user

A report is a failure at the edge of the program: a bad setting, a bad argument, a directory or a
file that cannot be used. It has a code, a message for the log, a message for the user, and hints
how to recover.
-/

namespace RouteAtlas

namespace Report

/-- The numbered causes of reports. -/
inductive Code where
  | fileNotFound
  | fileReadFailed
  | fileWriteFailed
  | directoryNotFound
  | permissionDenied
  | fileTooLarge
  | invalidConfig
  | invalidArguments
  | routeNotFound
  | validationFailed
deriving DecidableEq, Repr

namespace Code

/-- Every code. -/
def all : List Code :=
  [.fileNotFound, .fileReadFailed, .fileWriteFailed, .directoryNotFound, .permissionDenied,
    .fileTooLarge, .invalidConfig, .invalidArguments, .routeNotFound, .validationFailed]

/-- The number of a code. The thousands tell files, settings and user input apart. -/
def number : Code → Int
  | .fileNotFound => 2001
  | .fileReadFailed => 2002
  | .fileWriteFailed => 2003
  | .directoryNotFound => 2004
  | .permissionDenied => 2005
  | .fileTooLarge => 2006
  | .invalidConfig => 4001
  | .invalidArguments => 6001
  | .routeNotFound => 6002
  | .validationFailed => 6003

/-- The name of a code. -/
def name : Code → String
  | .fileNotFound => "FILE_NOT_FOUND"
  | .fileReadFailed => "FILE_READ_FAILED"
  | .fileWriteFailed => "FILE_WRITE_FAILED"
  | .directoryNotFound => "DIRECTORY_NOT_FOUND"
  | .permissionDenied => "PERMISSION_DENIED"
  | .fileTooLarge => "FILE_TOO_LARGE"
  | .invalidConfig => "INVALID_CONFIG"
  | .invalidArguments => "INVALID_ARGS"
  | .routeNotFound => "ROUTE_NOT_FOUND"
  | .validationFailed => "VALIDATION_FAILED"

/-- The code with a number. -/
def ofNumber? (n : Int) : Option Code := all.find? (·.number == n)

theorem ofNumber?_number (c : Code) : ofNumber? c.number = some c := by cases c <;> decide

end Code

/-- How grave a report is. -/
inductive Severity where
  | low
  | medium
  | high
  | critical
deriving DecidableEq, Repr

namespace Severity

/-- Every severity. -/
def all : List Severity := [.low, .medium, .high, .critical]

/-- The word for a severity. -/
def word : Severity → String
  | .low => "low"
  | .medium => "medium"
  | .high => "high"
  | .critical => "critical"

/-- The name of a severity. -/
def name : Severity → String
  | .low => "LOW"
  | .medium => "MEDIUM"
  | .high => "HIGH"
  | .critical => "CRITICAL"

/-- The severity with a word. -/
def ofWord? (s : String) : Option Severity := all.find? (·.word == s)

end Severity

/-- Something that the user may do about a report. -/
structure Recovery where
  /-- What to do. -/
  description : String
  /-- The command that does it. -/
  command : Option String := none
deriving DecidableEq, Repr

/-- What was being done when a report arose. -/
structure Context where
  operation : Option String := none
  filePath : Option String := none
  component : Option String := none
  /-- Anything else worth keeping. -/
  info : Json := .object []
deriving Repr

/-- What a report is about. -/
inductive Kind where
  | general
  | configuration
  | validation
  | resource
  /-- The file at `path` could not be read as text. -/
  | unreadable (path reason : String)
deriving DecidableEq, Repr

end Report

/-- A failure to be shown to the user. -/
structure Report where
  kind : Report.Kind
  code : Report.Code
  /-- The word for the severity. It is free text until the report is described. -/
  severity : String
  /-- The message for the log. -/
  message : String
  /-- The message for the user. -/
  userMessage : String
  context : Report.Context := {}
  recovery : List Report.Recovery := []
deriving Repr

namespace Report

/-- The name of a kind of report. -/
def Kind.name : Kind → String
  | .general => "UrlIndexError"
  | .configuration => "ConfigurationError"
  | .validation => "ValidationError"
  | .resource => "ResourceError"
  | .unreadable .. => "FileReadError"

/-- The message, or a fallback where it is missing or empty. -/
def messageOr (fallback : String) : Option String → String
  | some s => if s.isEmpty then fallback else s
  | none => fallback

/-- A bad setting. -/
def configuration (message : String) (userMessage : Option String := none) (context : Context := {})
    (recovery : List Recovery := []) : Report where
  kind := .configuration
  code := .invalidConfig
  severity := Severity.high.word
  message := message
  userMessage := messageOr "Configuration error occurred." userMessage
  context := context
  recovery := recovery

/-- A bad argument. -/
def validation (message : String) (userMessage : Option String := none)
    (code : Code := .validationFailed) (context : Context := {}) (recovery : List Recovery := []) :
    Report where
  kind := .validation
  code := code
  severity := Severity.low.word
  message := message
  userMessage := messageOr "Validation failed." userMessage
  context := context
  recovery := recovery

/-- A directory or a file that cannot be used. -/
def resource (message : String) (userMessage : Option String := none)
    (code : Code := .directoryNotFound) (context : Context := {}) (recovery : List Recovery := []) :
    Report where
  kind := .resource
  code := code
  severity := Severity.medium.word
  message := message
  userMessage := messageOr "Resource access failed." userMessage
  context := context
  recovery := recovery

/-- A routing module that cannot be read as text. -/
def unreadable (path reason : String) (code : Code := .fileReadFailed) : Report where
  kind := .unreadable path reason
  code := code
  severity := Severity.medium.word
  message := "Cannot read " ++ path ++ ": " ++ reason
  userMessage := "Skipped unreadable file: " ++ path
  context := { operation := some "read", filePath := some path }

/-! ## Showing a report -/

/-- A line for a part of the context that is there and not empty. -/
def contextLine (title : String) : Option String → List String
  | some s => if s.isEmpty then [] else ["   " ++ title ++ ": " ++ s]
  | none => []

/-- The lines of the hints, numbered from `n`. -/
def recoveryLines (n : Nat) : List Recovery → List String
  | [] => []
  | r :: rest =>
    let run := match r.command with
      | some c => if c.isEmpty then [] else ["      Run: " ++ c]
      | none => []
    ("   " ++ toString n ++ ". " ++ r.description) :: run ++ recoveryLines (n + 1) rest

/-- The lines shown to the user. -/
def lines (r : Report) : List String :=
  ["[Error] " ++ r.userMessage, "   Code: " ++ toString r.code.number]
    ++ contextLine "Operation" r.context.operation ++ contextLine "File" r.context.filePath
    ++ (if r.recovery.isEmpty then [] else "" :: "Suggested actions:" :: recoveryLines 1 r.recovery)

/-- The text shown to the user. -/
def formatted (r : Report) : String := String.intercalate "\n" r.lines

end Report

end RouteAtlas
