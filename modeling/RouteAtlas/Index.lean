import RouteAtlas.Scan

/-!
# The index and its observers

The index publishes the snapshot of each scan and tells its observers, one round for each snapshot.
An observer may itself ask for scans, subscribe and cancel subscriptions, and fail. A scan asked for
during a round publishes at once, and its round waits until the round in progress has ended.

The index is a machine that takes small steps, so that everything that holds between two steps can
be said. Its stack holds the rescans that have published and not yet returned: `Machine.step` goes on
with the topmost one, and `Machine.rescan` starts a rescan from outside and steps until the stack is
empty.
-/

namespace RouteAtlas

/-- The state of an index with observers of type `ω`. -/
structure Index (ω : Type) where
  /-- The published snapshot. -/
  snapshot : Snapshot := .initial
  /-- The subscribed observers, oldest first. One that subscribes twice is called twice. -/
  observers : List ω := []
  /-- The published snapshots whose rounds have not been started. -/
  pending : Nat := 0
  /-- Whether some rescan is running rounds. -/
  notifying : Bool := false
  /-- The subscriptions that were named, with their observers. -/
  handles : Table String ω := .empty
deriving Repr

/-- What an observer may do, one thing at a time. The state of the world around the index has type
`σ`. -/
inductive Deed (σ ω : Type) where
  /-- Asks for a scan of some files. -/
  | rescan (paths : List String)
  /-- Subscribes an observer and names the subscription. -/
  | subscribe (observer : ω) (handle : String)
  /-- Cancels a named subscription. -/
  | cancel (handle : String)
  /-- Fails. -/
  | raise (f : Fault)
  /-- Changes the world, or fails. -/
  | change (f : Snapshot → σ → Except Fault σ)

/-- The world around an index. -/
structure World (σ ω : Type) where
  /-- What the text of a file declares. -/
  extract : String → Urlconf
  /-- Reads a file. -/
  read : σ → String → Except Fault String
  /-- What an observer does when it is called. -/
  respond : σ → ω → Snapshot → List (Deed σ ω)
  /-- How an observer shows in the log. -/
  describe : ω → String
  /-- The identifiers of requests, in the order of their use. -/
  requestId : Nat → String

/-- What has happened, for the trace of a machine. -/
inductive Event (ω : Type) where
  /-- A snapshot was published. -/
  | published (generation : Int)
  /-- A round was started for the observers then subscribed. -/
  | roundStarted (observers : List ω)
  /-- An observer was called while a snapshot was published. -/
  | called (observer : ω) (generation : Int)
  /-- The round in progress ended. -/
  | roundEnded
  /-- A request to stop ended the round in progress. -/
  | roundBroken
deriving DecidableEq, Repr

/-- How far a rescan that has published its snapshot has come. -/
inductive Phase (σ ω : Type) where
  /-- It has not yet asked for its round. -/
  | published
  /-- It runs the rounds and is between two of them. -/
  | between
  /-- It is in a round, with the observers that are still to be called. -/
  | round (waiting : List ω)
  /-- It is in the call of an observer, which has some deeds still to do. -/
  | call (waiting : List ω) (observer : ω) (deeds : List (Deed σ ω))
  /-- It has nothing left to do but return. -/
  | returning

/-- A rescan in progress. -/
structure Frame (σ ω : Type) where
  /-- What was current when the scan was asked for. -/
  token : Request.Token
  phase : Phase σ ω

/-- An index at work. Trace and log have the newest entry first. -/
structure Machine (σ ω : Type) where
  index : Index ω
  /-- The state of the world. -/
  world : σ
  /-- The rescans in progress, innermost first. -/
  stack : List (Frame σ ω) := []
  /-- The request that is current. -/
  current : Request.Current := none
  /-- The number of request identifiers used. -/
  requests : Nat := 0
  trace : List (Event ω) := []
  log : List Log.Line := []
  /-- The request to stop that ended the last rescan after it had published, if one did. -/
  escaped : Option Fault := none

namespace Index

variable {ω : Type}

/-- Adds a subscription and names it. -/
def subscribe (i : Index ω) (observer : ω) (handle : String) : Index ω :=
  { i with observers := i.observers ++ [observer], handles := i.handles.put handle observer }

/-- Removes the oldest subscription of an observer, if it has any. -/
def unsubscribe [DecidableEq ω] (i : Index ω) (observer : ω) : Index ω :=
  { i with observers := i.observers.erase observer }

/-- Cancels a named subscription: the oldest one of its observer goes. -/
def cancel [DecidableEq ω] (i : Index ω) (handle : String) : Except Fault (Index ω) :=
  match i.handles.get? handle with
  | some observer => .ok (i.unsubscribe observer)
  | none => .error (.missingKey [.text handle])

end Index

namespace Machine

variable {σ ω : Type}

/-- Writes a message to the log. -/
def say (m : Machine σ ω) (message : Log.Message) : Machine σ ω :=
  { m with log := Log.line m.current message :: m.log }

/-- Scans files under a request of its own and publishes the snapshot. A request to stop leaves the
index as it was. -/
def publish (w : World σ ω) (m : Machine σ ω) (paths : List String) :
    Machine σ ω × Except Fault Scan :=
  let (during, token) := Request.enter m.current ⟨w.requestId m.requests, some "rescan"⟩
  let (outcome, messages) := Scan.run w.extract m.index.snapshot paths (w.read m.world)
  let m := messages.foldl say { m with current := during, requests := m.requests + 1 }
  match outcome with
  | .error f => ({ m with current := Request.leave token }, .error f)
  | .ok scan =>
    ({ m with
        index := { m.index with snapshot := scan.snapshot, pending := m.index.pending + 1 }
        stack := ⟨token, .published⟩ :: m.stack
        trace := .published scan.snapshot.generation :: m.trace
        escaped := none },
      .ok scan)

/-- Does one thing. A rescan is only begun. -/
def perform [DecidableEq ω] (w : World σ ω) (m : Machine σ ω) :
    Deed σ ω → Machine σ ω × Except Fault Unit
  | .rescan paths =>
    let (m, outcome) := m.publish w paths
    (m, outcome.map fun _ => ())
  | .subscribe observer handle => ({ m with index := m.index.subscribe observer handle }, .ok ())
  | .cancel handle =>
    match m.index.cancel handle with
    | .ok index => ({ m with index }, .ok ())
    | .error f => (m, .error f)
  | .raise f => (m, .error f)
  | .change f =>
    match f m.index.snapshot m.world with
    | .ok world => ({ m with world }, .ok ())
    | .error f => (m, .error f)

/-- The warning about an observer that failed. -/
def failureMessage (w : World σ ω) (observer : ω) (f : Fault) : Log.Message :=
  ⟨.warning, "Index observer " ++ w.describe observer ++ " failed: " ++ f.text⟩

/-- Takes the topmost rescan to another phase, above the others. -/
def goOn (m : Machine σ ω) (frame : Frame σ ω) (below : List (Frame σ ω)) (phase : Phase σ ω) :
    Machine σ ω :=
  { m with stack := { frame with phase } :: below }

/-- Asks for the round of a published snapshot: a rescan that is already running rounds will run this
one too. -/
def dispatch (m : Machine σ ω) (frame : Frame σ ω) (below : List (Frame σ ω)) : Machine σ ω :=
  if m.index.notifying then m.goOn frame below .returning
  else { m with index := { m.index with notifying := true } }.goOn frame below .between

/-- Starts the next round, or ends the notification if none is pending. -/
def nextRound (m : Machine σ ω) (frame : Frame σ ω) (below : List (Frame σ ω)) : Machine σ ω :=
  match m.index.pending with
  | 0 => { m with index := { m.index with notifying := false } }.goOn frame below .returning
  | pending + 1 =>
    { m with
      index := { m.index with pending }
      trace := .roundStarted m.index.observers :: m.trace }.goOn frame below (.round m.index.observers)

/-- Calls the next observer of a round, or ends the round if all have been called. -/
def nextCall (w : World σ ω) (m : Machine σ ω) (frame : Frame σ ω) (below : List (Frame σ ω)) :
    List ω → Machine σ ω
  | [] => { m with trace := .roundEnded :: m.trace }.goOn frame below .between
  | observer :: waiting =>
    { m with trace := .called observer m.index.snapshot.generation :: m.trace }.goOn frame below
      (.call waiting observer (w.respond m.world observer m.index.snapshot))

/-- Leaves every rescan in progress because of a request to stop. -/
def unwind (m : Machine σ ω) (f : Fault) : Machine σ ω :=
  { m with
    index := { m.index with notifying := false }
    stack := []
    current := m.stack.foldl (fun _ frame => Request.leave frame.token) m.current
    trace := .roundBroken :: m.trace
    escaped := some f }

/-- Goes on with the call of an observer. An observer that fails is done with; a request to stop ends
the rescans in progress. -/
def nextDeed [DecidableEq ω] (w : World σ ω) (m : Machine σ ω) (frame : Frame σ ω)
    (below : List (Frame σ ω)) (waiting : List ω) (observer : ω) : List (Deed σ ω) → Machine σ ω
  | [] => m.goOn frame below (.round waiting)
  | deed :: deeds =>
    match (m.goOn frame below (.call waiting observer deeds)).perform w deed with
    | (m, .ok ()) => m
    | (m, .error f) =>
      if f.isFatal then m.unwind f
      else (m.say (failureMessage w observer f)).goOn frame below (.round waiting)

/-- Returns from the topmost rescan. -/
def leave (m : Machine σ ω) (frame : Frame σ ω) (below : List (Frame σ ω)) : Machine σ ω :=
  { m with stack := below, current := Request.leave frame.token }

/-- Takes one step of the topmost rescan in progress. -/
def step [DecidableEq ω] (w : World σ ω) (m : Machine σ ω) : Machine σ ω :=
  match m.stack with
  | [] => m
  | frame :: below =>
    match frame.phase with
    | .published => m.dispatch frame below
    | .between => m.nextRound frame below
    | .round waiting => m.nextCall w frame below waiting
    | .call waiting observer deeds => m.nextDeed w frame below waiting observer deeds
    | .returning => m.leave frame below

/-- Steps until no rescan is in progress, `fuel` times at most. -/
def settle [DecidableEq ω] (w : World σ ω) : Nat → Machine σ ω → Machine σ ω
  | 0, m => m
  | fuel + 1, m => if m.stack.isEmpty then m else settle w fuel (m.step w)

/-- Scans files from outside a round and notifies. The answer is the scan, or the request to stop
that ended the scan or the notification. -/
def rescan [DecidableEq ω] (w : World σ ω) (fuel : Nat) (m : Machine σ ω) (paths : List String) :
    Machine σ ω × Except Fault Scan :=
  match m.publish w paths with
  | (m, .error f) => (m, .error f)
  | (m, .ok scan) =>
    let m := settle w fuel m
    match m.escaped with
    | some f => (m, .error f)
    | none => (m, .ok scan)

end Machine

end RouteAtlas
