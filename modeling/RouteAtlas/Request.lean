import RouteAtlas.Fault
import RouteAtlas.Numeral.Base36
import RouteAtlas.Numeral.Truncate

/-!
# Requests

Work is done under a request, whose identifier marks the log lines written meanwhile. Entering a
request gives a token with which it is left: leaving restores what was current at the entry.
-/

namespace RouteAtlas

/-- A request that work is done under. -/
structure Request where
  /-- The identifier that marks log lines. -/
  id : String
  /-- What the request does. -/
  operation : Option String := none
deriving DecidableEq, Repr

namespace Request

/-- The request that is current, if any. -/
abbrev Current := Option Request

/-- What was current when a request was entered. -/
structure Token where
  saved : Current
deriving DecidableEq, Repr

/-- Makes a request current and gives the token to leave it with. -/
def enter (current : Current) (r : Request) : Current × Token := (some r, ⟨current⟩)

/-- What is current after leaving. -/
def leave (t : Token) : Current := t.saved

/-- The identifier of the current request. -/
def currentId (current : Current) : Option String := current.map Request.id

/-- The whole milliseconds of a time in seconds. -/
def milliseconds (seconds : Float) : Except Fault Nat :=
  let x := seconds * 1000
  if x.isNaN || x.isInf then .error (.notFinite x.isNaN) else .ok (Numeral.truncate x).toNat

/-- The identifier of a request made at a time, with some random characters. -/
def makeId (milliseconds : Nat) (random : String) : String :=
  "req_" ++ Numeral.Base36.encode milliseconds ++ "_" ++ random

end Request

end RouteAtlas
