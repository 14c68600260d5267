import RouteAtlas.Settings
import RouteAtlas.Watch.Collector

/-!
# Watching a folder

A watcher asks the operating system to tell a collector of events below a folder. Starting twice or
stopping twice does nothing the second time, and stopping drops what waits.
-/

namespace RouteAtlas

/-- What a watcher is asked to do. -/
structure WatchOptions where
  fileName : WideText := ({} : Settings).fileName
  ignored : List Value := ({} : Settings).ignored
  /-- How many seconds of quiet the watcher waits for. -/
  debounce : Float := ({} : Settings).debounce
  /-- Whether folders in the watched folder are watched, too. -/
  recursive : Bool := true
deriving Repr

namespace WatchOptions

/-- The shape of options as objects. -/
def shape : Shape where
  type := "WatcherOptions"
  keying := .never
  fields :=
    let d : WatchOptions := {}
    [("file_name", some (.text d.fileName)), ("ignored", some (.sequence .list d.ignored)),
      ("debounce_seconds", some (.float d.debounce)), ("recursive", some (.bool d.recursive))]

/-- The options that settings ask for. -/
def ofSettings (s : Settings) : WatchOptions :=
  { fileName := s.fileName, ignored := s.ignored, debounce := s.debounce }

/-- Which files are watched below `root`. -/
def filter (o : WatchOptions) (root : Option Path) : Except Fault Watch.Filter := do
  return ⟨o.fileName, ← Settings.namesIn o.ignored, root⟩

/-- Whether changes are delivered without waiting. -/
def immediate (o : WatchOptions) : Bool := o.debounce ≤ 0

end WatchOptions

namespace Watch

/-- What is asked of the operating system. -/
inductive ObserverCall where
  | schedule (path : String) (recursive : Bool)
  | start
  | stop
  | join
deriving DecidableEq, Repr

/-- A watcher with its collector. -/
structure Watcher (σ : Type) where
  /-- The watched folder. -/
  root : Path
  recursive : Bool
  handling : Handling σ
  collector : Collector σ
  running : Bool := false

namespace Watcher

variable {σ : Type}

/-- Starts to watch, unless the watcher is running. -/
def start (w : Watcher σ) : Watcher σ × List ObserverCall :=
  if w.running then (w, [])
  else ({ w with running := true }, [.schedule (toString w.root) w.recursive, .start])

/-- Stops watching, if the watcher is running. -/
def stop (w : Watcher σ) : Watcher σ × List ObserverCall :=
  if w.running then ({ w with running := false, collector := w.collector.cancel }, [.stop, .join])
  else (w, [])

end Watcher

end Watch

end RouteAtlas
