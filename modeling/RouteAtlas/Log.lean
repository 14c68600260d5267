import RouteAtlas.Request
import RouteAtlas.Text.LowerCase

/-!
# Logging

Log lines have a level and the identifier of the request that they were written under. Lines below
the threshold do not show.
-/

namespace RouteAtlas.Log

/-- How important a line is. -/
inductive Level where
  | trace
  | debug
  | info
  | success
  | warning
  | error
  | critical
deriving DecidableEq, Repr

namespace Level

/-- Every level, least important first. -/
def all : List Level := [.trace, .debug, .info, .success, .warning, .error, .critical]

/-- The rank of a level. -/
def rank : Level → Nat
  | .trace => 5
  | .debug => 10
  | .info => 20
  | .success => 25
  | .warning => 30
  | .error => 40
  | .critical => 50

/-- The name of a level. -/
def name : Level → String
  | .trace => "TRACE"
  | .debug => "DEBUG"
  | .info => "INFO"
  | .success => "SUCCESS"
  | .warning => "WARNING"
  | .error => "ERROR"
  | .critical => "CRITICAL"

end Level

/-- A message with its level. -/
structure Message where
  level : Level
  text : String
deriving DecidableEq, Repr

/-- A line of the log. -/
structure Line where
  message : Message
  /-- The identifier of the request that the line was written under, if it has one. -/
  requestId : Option String
deriving DecidableEq, Repr

/-- The line for a message written while a request is current. An empty identifier marks nothing. -/
def line (current : Request.Current) (m : Message) : Line :=
  ⟨m, (Request.currentId current).filter (!·.isEmpty)⟩

/-- How the identifier of a line shows. -/
def Line.mark (l : Line) : String := l.requestId.getD "-"

/-- Whether the environment asks for debug output. -/
def debugAsked (environment : Option String) : Bool := Text.lower (environment.getD "") == "true"

/-- The least level that shows. -/
def threshold (debug : Bool) (environment : Option String) : Level :=
  if debug || debugAsked environment then .debug else .warning

/-- Whether a level shows. -/
def passes (least level : Level) : Bool := least.rank ≤ level.rank

end RouteAtlas.Log
