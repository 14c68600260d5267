import RouteAtlas.CommandLine.Standard

/-!
# Sessions

A command that watches goes on with every event and ends when it is interrupted. On the standard host
all commands can be run (`run`).
-/

namespace RouteAtlas.CommandLine

/-- Runs a command line. -/
def run : Tree → Standpoint → List String → Progress := Host.standard.run

namespace Printed

/-- The output. -/
def out (p : Printed) : String := Host.standard.text p.lines

/-- The messages. -/
def err (p : Printed) : String := Host.standard.text p.warnings

end Printed

namespace Session

/-- Tells of the refreshes that have not been told. -/
def tell (s : Session) : Session :=
  let refreshed := s.watcher.collector.world.refreshed
  let news := (refreshed.take (refreshed.length - s.told)).reverse
  { s with printed := news.foldl Printed.tellRefresh s.printed, told := refreshed.length }

/-- The file tree as the session sees it. -/
def fs (s : Session) : Tree := s.watcher.collector.world.fs

/-- The session after a change of the file tree. -/
def withTree (s : Session) (fs : Tree) : Session :=
  { s with
    watcher := { s.watcher with
      collector := { s.watcher.collector with
        world := { s.watcher.collector.world with fs } } } }

/-- Goes on with what a collector has done. A fault ends the session. -/
def goOn {α : Type} (s : Session) (r : Watch.Collector Workspace.Site × Except Fault α) :
    Progress :=
  let s := tell { s with watcher := { s.watcher with collector := r.1 } }
  match r.2 with
  | .ok _ => .watching s
  | .error f => .ended (endWith s.fs s.printed f)

/-- Hears of an event. -/
def hear (s : Session) (e : Watch.Event) : Progress :=
  s.goOn (s.watcher.collector.hear s.watcher.handling e)

/-- Delivers what waits. -/
def flush (s : Session) : Progress :=
  s.goOn (s.watcher.collector.flush s.watcher.handling)

/-- Ends the session when it is interrupted. -/
def interrupt (s : Session) : Outcome := ⟨s.fs, s.printed.echo "Stopped.", .done⟩

end Session

end RouteAtlas.CommandLine
