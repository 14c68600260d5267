import RouteAtlas.Request

/-!
# Work in blocks of requests

Work may be done in the block of a request, and blocks may stand in and after one another. Each is
left with the token of its entry, whether its work is done or has failed: a failure goes outwards
through everything that waits around the work at hand, until something catches it, and leaves the
blocks that it comes to.
-/

namespace RouteAtlas

/-- What is to be done. -/
inductive Work where
  /-- Nothing. -/
  | done
  /-- Asks for the identifier of the current request and goes on by the answer. -/
  | ask (next : Option String → Work)
  /-- Fails. -/
  | fail (f : Fault)
  /-- One thing and then another, which is left out if the first fails. -/
  | andThen (first second : Work)
  /-- Work in the block of a request. -/
  | under (request : Request) (body : Work)
  /-- Work that is followed by other work where it fails in a way that is caught. -/
  | rescue (body : Work) (catches : Fault → Bool) (handler : Fault → Work)

namespace Work

/-- What waits around the work at hand. -/
inductive Layer where
  /-- Work that comes next. -/
  | next (work : Work)
  /-- An open block, with the token to leave it. -/
  | block (token : Request.Token)
  /-- Work for the failures that are caught. -/
  | rescue (catches : Fault → Bool) (handler : Fault → Work)

/-- The token of an open block. -/
def Layer.token? : Layer → Option Request.Token
  | next _ => none
  | block token => some token
  | rescue _ _ => none

/-- What shows of work. -/
inductive Sight where
  /-- The block of a request was entered while `before` was current. -/
  | entered (request : Request) (before : Request.Current)
  /-- An identifier was asked for, with this answer. -/
  | read (id : Option String)
  /-- A block was left, and `after` is current since. -/
  | left (after : Request.Current)
deriving DecidableEq, Repr

end Work

/-- Work in progress. -/
structure Worker where
  /-- The request that is current. -/
  current : Request.Current
  /-- The work at hand, or the failure on its way outwards. -/
  hand : Except Fault Work
  /-- What waits, innermost first. -/
  stack : List Work.Layer := []
  /-- What has shown so far, newest first. -/
  trace : List Work.Sight := []

namespace Worker

/-- Goes on with other work among fewer layers. -/
def goOn (w : Worker) (hand : Except Fault Work) (stack : List Work.Layer) : Worker :=
  { w with hand, stack }

/-- Enters the block of a request. -/
def enter (w : Worker) (request : Request) (body : Work) : Worker :=
  let (current, token) := Request.enter w.current request
  { current, hand := .ok body, stack := .block token :: w.stack
    trace := .entered request w.current :: w.trace }

/-- Leaves a block, with the work in it done or with the failure that has come to it. -/
def leave (w : Worker) (token : Request.Token) (stack : List Work.Layer) : Worker :=
  { w with current := Request.leave token, stack, trace := .left (Request.leave token) :: w.trace }

/-- Goes on with what waits next. -/
def finish (w : Worker) : Worker :=
  match w.stack with
  | [] => w
  | .next work :: rest => w.goOn (.ok work) rest
  | .block token :: rest => w.leave token rest
  | .rescue _ _ :: rest => w.goOn w.hand rest

/-- Takes a failure one layer outwards. -/
def escape (w : Worker) (f : Fault) : Worker :=
  match w.stack with
  | [] => w
  | .next _ :: rest => w.goOn w.hand rest
  | .block token :: rest => w.leave token rest
  | .rescue catches handler :: rest =>
    w.goOn (if catches f then .ok (handler f) else w.hand) rest

/-- Asks for the identifier of the current request. -/
def ask (w : Worker) (next : Option String → Work) : Worker :=
  let id := Request.currentId w.current
  { w with hand := .ok (next id), trace := .read id :: w.trace }

/-- Does one thing. -/
def step (w : Worker) : Worker :=
  match w.hand with
  | .error f => w.escape f
  | .ok .done => w.finish
  | .ok (.ask next) => w.ask next
  | .ok (.fail f) => w.goOn (.error f) w.stack
  | .ok (.andThen first second) => w.goOn (.ok first) (.next second :: w.stack)
  | .ok (.under request body) => w.enter request body
  | .ok (.rescue body catches handler) => w.goOn (.ok body) (.rescue catches handler :: w.stack)

/-- Does some things, one after the other. -/
def run : Nat → Worker → Worker
  | 0, w => w
  | fuel + 1, w => run fuel w.step

/-- Work about to be begun while some request is current. -/
def start (current : Request.Current) (work : Work) : Worker := { current, hand := .ok work }

end Worker

end RouteAtlas
