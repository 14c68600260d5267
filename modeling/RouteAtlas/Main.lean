import RouteAtlas.CommandLine.Session
import RouteAtlas.Watch.Sighting

/-!
# The program

Shows a command the part of the file system that it is about, prints what the command prints and
writes back the settings that it has written. Of files only the settings and the routing modules are
read.

A session looks for changes at regular times; what has come together by then is one batch. It ends
with the process.
-/

namespace RouteAtlas.Program

open CommandLine

/-- The place that an absolute path names. -/
def locationOf (path : String) : Tree.Location := (Path.ofString path).names

/-- A name in a folder, as the file system takes it. -/
def within (above name : String) := (IO.FS.DirEntry.mk above name).path

/-- Where a path leads; a path that leads nowhere stands for itself. -/
def realPath (path : String) : IO String := do
  match ← (IO.FS.realPath path).toBaseIO with
  | .ok real => return toString real
  | .error _ => return path

/-- The directory that a command line is about. -/
def directoryOf (words : List String) : Option String :=
  match Asked.read interface words with
  | .ok (.onPath path _) => if Tree.isAddress path then some path else none
  | _ => none

/-! ## Looking at the file system -/

/-- A look at files gathers the targets of the links that it meets. -/
abbrev Look := StateT (List String) IO

mutual

/-- What stands in a folder. Of hidden folders only the one with settings is looked into. -/
partial def lookInto (path : String) : Look Tree := do
  match ← (within path ".").readDir.toBaseIO with
  | .error _ => return .folder []
  | .ok entries =>
    let seen ← entries.toList.filterMapM fun e => do
      return (← lookAt path e.fileName).map (e.fileName, ·)
    return .folder seen

/-- What stands at a name in a folder. The contents of files are left for later. -/
partial def lookAt (above name : String) : Look (Option Tree) := do
  let there := within above name
  match ← there.symlinkMetadata.toBaseIO with
  | .error _ => return none
  | .ok found =>
    match found.type with
    | .file => return some (.file [])
    | .symlink =>
      let target ← realPath (toString there)
      modify (target :: ·)
      return some (.link target)
    | .dir =>
      if Discovery.isHidden name && name != Settings.storeFolder then return some (.folder [])
      else return some (← lookInto (toString there))
    | .other => return none

end

/-- Adds what stands where a link leads. Below a folder there nothing is shown. -/
def addTarget (fs : Tree) (target : String) : IO Tree := do
  let place := locationOf target
  if (fs.at? place).isSome then return fs
  match ← (within target ".").symlinkMetadata.toBaseIO with
  | .ok _ => return Tree.put (.folder []) place fs
  | .error _ => return Tree.put (.file []) place fs

/-- Adds the folders and the links on the way to a path. -/
def addWay (here path : String) : IO Tree := do
  let mut fs := Tree.put (.folder []) (locationOf here) (.folder [])
  let mut above := if path.startsWith "/" then "/" else here
  for name in (Path.ofString path).names do
    match ← (within above name).symlinkMetadata.toBaseIO with
    | .error _ => return fs
    | .ok found =>
      let target ← realPath (toString (within above name))
      if found.type == .symlink then
        fs := Tree.put (.link target) (locationOf above ++ [name]) fs
      fs ← addTarget fs target
      above := target
  return fs

/-- Reads the file at a path. -/
def readInto (fs : Tree) (path : String) : IO Tree := do
  match ← (IO.FS.readBinFile path).toBaseIO with
  | .ok bytes =>
    let place := locationOf (← realPath path)
    return Tree.put (.file bytes.toList) place fs
  | .error _ => return fs

/-- The file system as far as a command on a directory looks at it. -/
def survey (here path : String) : IO Tree := do
  let mut fs ← addWay here path
  let .ok root := fs.resolve (locationOf here) (Path.ofString path) | return fs
  if !((fs.at? root.names).any Tree.isFolder) then return fs
  let (t, targets) ← (lookInto (toString root)).run []
  fs := Tree.put t root.names fs
  for target in targets do
    fs ← addTarget fs target
  fs ← readInto fs (toString (Settings.storePath root))
  let .ok w := Workspace.openAt fs (locationOf here) root none | return fs
  let .ok modules := w.modules fs (locationOf here) | return fs
  for path in modules do
    fs ← readInto fs path
  return fs

/-- The routing modules of a workspace, each marked with the time of its last change and its size.
-/
def sight (w : Workspace) (fs : Tree) (here : Tree.Location) : IO Watch.Sighting := do
  let .ok modules := w.modules fs here | return .empty
  let marks ← modules.filterMapM fun path : String => do
    match ← (within "/" path).metadata.toBaseIO with
    | .ok found =>
      let time := toString found.modified.sec ++ "." ++ toString found.modified.nsec
      return some (path, time ++ "/" ++ toString found.byteSize)
    | .error _ => return none
  return .ofList marks

/-! ## Acting on it -/

/-- The bytes of the settings that a file tree holds for the project at a path. -/
def settingsIn (fs : Tree) (here path : String) : Option (List UInt8) :=
  match fs.get (locationOf here) (toString (Settings.storePath (Path.ofString path))) with
  | .ok (.file bytes) => some bytes
  | _ => none

/-- Writes the settings of the project at a path to their file, if they are no longer what they
were. -/
def writeBack (before after : Tree) (here path : String) : IO Unit := do
  match settingsIn after here path with
  | none => pure ()
  | some bytes =>
    if settingsIn before here path != some bytes then
      let store := Settings.storePath (Path.ofString path)
      IO.FS.createDirAll (toString store.parent)
      IO.FS.writeBinFile (toString store) ⟨bytes.toArray⟩

/-- Prints what a command has printed. -/
def emit (p : Printed) : IO Unit := do
  IO.print p.out
  IO.eprint p.err
  (← IO.getStdout).flush

/-- Tells how a command has ended, with the exit code. -/
def finish (o : Outcome) : IO UInt32 := do
  emit o.printed
  match o.ending with
  | .misused message => IO.eprintln ("Error: " ++ message)
  | .crashed f => IO.eprintln ("Error: " ++ f.text)
  | .done | .failed => pure ()
  return o.ending.code.toUInt32

/-- How many milliseconds pass between two looks. -/
def pause : UInt32 := 500

/-- What becomes of a session that hears of events and then delivers what waits. -/
def hearAll (s : Session) : List Watch.Event → Progress
  | [] => s.flush
  | e :: rest =>
    match s.hear e with
    | .watching s => hearAll s rest
    | .ended o => .ended o

/-- Goes on with a session until it ends, looking again and again. -/
partial def attend (here path : String) (s : Session) (before : Watch.Sighting) : IO UInt32 := do
  emit s.printed
  IO.sleep pause
  let fs ← survey here path
  let now ← sight s.watcher.collector.world.workspace fs (locationOf here)
  match hearAll ({ s with printed := {} }.withTree fs) (before.eventsSince now) with
  | .ended o => finish o
  | .watching s => attend here path s now

/-- Runs a command line in the current directory. -/
def run (words : List String) : IO UInt32 := do
  let here := toString (← IO.currentDir)
  let path := (directoryOf words).getD "."
  let fs ← survey here path
  match CommandLine.run fs ⟨locationOf here, false⟩ words with
  | .ended o =>
    writeBack fs o.fs here path
    finish o
  | .watching s =>
    let now ← sight s.watcher.collector.world.workspace fs (locationOf here)
    attend here path s now

end RouteAtlas.Program

/-- The command line. -/
def main (words : List String) : IO UInt32 := RouteAtlas.Program.run words
