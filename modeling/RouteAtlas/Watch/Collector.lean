import RouteAtlas.Fault
import RouteAtlas.Log
import RouteAtlas.Watch.Change

/-!
# Collecting changes

A collector keeps the changes of watched files until it is quiet and delivers them in one batch, so
that saving several files asks for one scan. Of several changes of one path the last counts, at the
place of the first. Without a waiting time each change is delivered by itself.

`Collector.armed` says whether a timer runs that will deliver what is pending.
-/

namespace RouteAtlas.Watch

/-- What a collector does with changes. The state of the world around it has type `σ`. -/
structure Handling (σ : Type) where
  /-- Which files are watched. -/
  filter : Filter
  /-- Whether changes are delivered without waiting. -/
  immediate : Bool
  /-- Whether the watcher's owner wants to hear of a path. -/
  accept : σ → String → Except Fault Bool
  /-- Hands a batch to the watcher's owner. -/
  deliver : σ → List FileChange → σ × List Log.Message × Except Fault Unit

/-- A collector at work. Batches and messages have the newest first. -/
structure Collector (σ : Type) where
  /-- The state of the world. -/
  world : σ
  /-- The changes that wait, by path. -/
  pending : Table String ChangeKind := .empty
  /-- Whether a timer runs. -/
  armed : Bool := false
  /-- The batches delivered so far. -/
  delivered : List (List FileChange) := []
  log : List Log.Message := []

namespace Collector

variable {σ : Type}

/-- The changes that wait, in order. -/
def waiting (c : Collector σ) : List FileChange := c.pending.entries.map fun p => ⟨p.1, p.2⟩

/-- Drops what waits and stops the timer. -/
def cancel (c : Collector σ) : Collector σ := { c with pending := .empty, armed := false }

/-- The warning about an owner that failed. -/
def failureMessage (f : Fault) : Log.Message :=
  ⟨.warning, "Error in file change callback: " ++ f.text⟩

/-- Hands a batch over. A fault of the owner is only logged, unless it is a request to stop. -/
def hand (h : Handling σ) (c : Collector σ) (batch : List FileChange) :
    Collector σ × Except Fault Unit :=
  let (world, messages, outcome) := h.deliver c.world batch
  let c := { c with world, delivered := batch :: c.delivered, log := messages.reverse ++ c.log }
  match outcome with
  | .ok () => (c, .ok ())
  | .error f =>
    if f.isFatal then (c, .error f) else ({ c with log := failureMessage f :: c.log }, .ok ())

/-- Delivers what waits, if anything does, and answers with it. -/
def flush (h : Handling σ) (c : Collector σ) : Collector σ × Except Fault (List FileChange) :=
  match c.waiting with
  | [] => (c.cancel, .ok [])
  | batch =>
    let (c, outcome) := c.cancel.hand h batch
    (c, outcome.map fun () => batch)

/-- Whether a path is to be heard of. -/
def wants (h : Handling σ) (c : Collector σ) (path : String) : Except Fault Bool :=
  if h.filter.covers path then h.accept c.world path else .ok false

/-- Notes a change, if its path is to be heard of, and starts the timer again. -/
def note (h : Handling σ) (c : Collector σ) (change : FileChange) :
    Collector σ × Except Fault Unit :=
  match c.wants h change.path with
  | .error f => (c, .error f)
  | .ok false => (c, .ok ())
  | .ok true =>
    let c := { c with pending := c.pending.put change.path change.kind }
    if h.immediate then
      let (c, outcome) := c.flush h
      (c, outcome.map fun _ => ())
    else ({ c with armed := true }, .ok ())

/-- Notes changes in turn, up to the first that ends in a fault. -/
def noteAll (h : Handling σ) (c : Collector σ) : List FileChange → Collector σ × Except Fault Unit
  | [] => (c, .ok ())
  | change :: rest =>
    match c.note h change with
    | (c, .ok ()) => noteAll h c rest
    | (c, .error f) => (c, .error f)

/-- Hears of an event. -/
def hear (h : Handling σ) (c : Collector σ) (e : Event) : Collector σ × Except Fault Unit :=
  c.noteAll h e.changes

end Collector

end RouteAtlas.Watch
