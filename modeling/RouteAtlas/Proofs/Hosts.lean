import RouteAtlas.CommandLine.Command
import RouteAtlas.Text.Terminal

/-!
# What is asked of a host

A host is lawful (`Host.Lawful`) if it gives a command the options that are spelled out on a command line,
writes plain text as it is and exits with the usual codes. On a lawful host the words for an outline, a
list of routes and a snippet run the commands that they are meant for (`Host.Lawful.run_scan`,
`Host.Lawful.run_routes`, `Host.Lawful.run_snippet`).
-/

namespace RouteAtlas.CommandLine

/-! ## Words -/

/-- The words name a directory by its path, or nothing: then it is the current one. -/
inductive Directs : List String → String → Prop
  | here : Directs [] "."
  | named {path : String} (h : looksLikeOption path = false) : Directs [path] path

/-- The words give options by their long names. -/
inductive Spells (known : List Switch) : List String → List Given → Prop
  | nil : Spells known [] []
  | flag {o : Switch} {words : List String} {given : List Given} (ho : o ∈ known)
      (hflag : o.takesValue = false) (h : Spells known words given) :
      Spells known (o.long :: words) (⟨o.long, none⟩ :: given)
  | value {o : Switch} {words : List String} {given : List Given} (ho : o ∈ known)
      (hvalue : o.takesValue = true) (v : String) (h : Spells known words given) :
      Spells known (o.long :: v :: words) (⟨o.long, some v⟩ :: given)

/-- Whether a long name is two dashes and a word of small letters. -/
def isLongName (name : String) : Bool :=
  match name.toList with
  | '-' :: '-' :: c :: rest => (c :: rest).all Char.isLower
  | _ => false

/-- Commands have distinct names, and so have the options of each command. Nothing has to be given before
the command. -/
structure Interface.WellFormed (i : Interface) : Prop where
  names : (i.entries.map Entry.name).Nodup
  commands : ∀ e ∈ i.entries, looksLikeOption e.name = false
  longs : ∀ e ∈ i.entries, (e.switches.map Switch.long).Nodup
  switches : ∀ e ∈ i.entries, ∀ o ∈ e.switches, isLongName o.long = true ∧ o.long ≠ "--help"
  leading : ∀ o ∈ i.switches, isLongName o.long = true ∧ o.required = false

/-- A path leads to a folder, and not from one that has been taken away. -/
structure Standpoint.Sees (here : Standpoint) (fs : Tree) (path : String) : Prop where
  address : Tree.isAddress path = true
  near : here.isAstray path = false
  folder : ∃ es, fs.reach here.location path = .ok (.folder es)

/-! ## Laws -/

/-- Text without an escape character is written as it is. -/
def Host.Plain (host : Host) : Prop :=
  ∀ s : String, Text.escapeCharacter ∉ s.toList → host.written s = s

/-- Sequences that change the colour are not written. -/
def Host.Colourless (host : Host) : Prop :=
  ∀ before code after : String, Text.escapeCharacter ∉ before.toList →
    (∀ c ∈ code.toList, c.isDigit ∨ c = ';') →
    host.written (before ++ "\x1b[" ++ code ++ "m" ++ after) = host.written (before ++ after)

/-- What is asked of a host. -/
structure Host.Lawful (host : Host) : Prop where
  /-- The words after the name of a command name a directory and give the command its options, each of
  them once. -/
  reads : ∀ {i : Interface} {e : Entry} {place words : List String} {path : String}
    {given : List Given} {fs : Tree} {here : Standpoint}, i.WellFormed → e ∈ i.entries →
    Directs place path → Spells e.switches words given → (given.map Given.long).Nodup →
    (∀ o ∈ e.switches, o.required = true → isGiven given o.long = true) → here.Sees fs path →
    host.read i fs here (e.name :: (place ++ words)) = .ok (.onPath path (e.command given))
  plain : host.Plain
  exit_done : host.exit .done = 0
  exit_failed : host.exit .failed = 1

variable {host : Host} {fs : Tree} {here : Standpoint} {place : List String} {path : String}

theorem Host.text_singleton (host : Host) (line : String) :
    host.text [line] = host.written (line ++ "\n") := by
  rw [Host.text, List.map_singleton]
  exact String.empty_append

/-- A line without an escape character is written with its line end and nothing else. -/
theorem Host.Plain.text_of_notMem (hplain : host.Plain) {line : String}
    (h : Text.escapeCharacter ∉ line.toList) : host.text [line] = line ++ "\n" := by
  have hescape : Text.escapeCharacter ∉ (line ++ "\n").toList := by
    rw [String.toList_append, List.mem_append]
    rintro (hmem | hmem)
    · exact h hmem
    · exact absurd hmem (by decide)
  rw [host.text_singleton, hplain _ hescape]

/-- What is done with one outcome and fails with the other exits with 0 or 1. -/
theorem Host.Lawful.exit_iff (hhost : host.Lawful) {ending : Ending} {P : Prop}
    (h : ending = .done ∧ P ∨ ending = .failed ∧ ¬ P) :
    (host.exit ending = 0 ↔ P) ∧ (host.exit ending = 0 ∨ host.exit ending = 1) := by
  rcases h with ⟨rfl, hp⟩ | ⟨rfl, hp⟩
  · exact ⟨iff_of_true hhost.exit_done hp, Or.inl hhost.exit_done⟩
  · have hexit : host.exit .failed ≠ 0 := by
      rw [hhost.exit_failed]
      decide
    exact ⟨iff_of_false hexit hp, Or.inr hhost.exit_failed⟩

/-! ## The words of the program -/

/-- The words for an option that is given with a value, or not at all. -/
def optional (option : String) : Option String → List String
  | none => []
  | some value => [option, value]

/-- The command line that prints the outline of a project as JSON. -/
def scanWords (place : List String) : List String := "scan" :: (place ++ ["--json"])

/-- The command line that lists the routes of a project as JSON. -/
def routesWords (place : List String) : List String := "routes" :: (place ++ ["--json"])

/-- The command line that prints the snippet of a route. -/
def snippetWords (place : List String) (name : String) (url label : Option String) : List String :=
  "snippet" :: (place ++ (["--name", name] ++ optional "--url" url ++ optional "--file" label))

theorem wellFormed_interface : interface.WellFormed where
  names := by decide
  commands := by decide
  longs := by decide
  switches := by decide
  leading := by decide

/-- The options that a snippet is given. -/
def snippetGiven (name : String) (url label : Option String) : List Given :=
  ⟨"--name", some name⟩ :: ((url.toList.map fun u => ⟨"--url", some u⟩) ++
    label.toList.map fun l => ⟨"--file", some l⟩)

theorem spells_snippet (name : String) (url label : Option String) :
    Spells snippetEntry.switches (["--name", name] ++ optional "--url" url ++ optional "--file" label)
      (snippetGiven name url label) := by
  have hname : snippetEntry.switches[0] ∈ snippetEntry.switches := List.getElem_mem _
  have hurl : snippetEntry.switches[1] ∈ snippetEntry.switches := List.getElem_mem _
  have hlabel : snippetEntry.switches[2] ∈ snippetEntry.switches := List.getElem_mem _
  have hlast : Spells snippetEntry.switches (optional "--file" label)
      (label.toList.map fun l => ⟨"--file", some l⟩) := by
    cases label with
    | none => exact .nil
    | some l => exact .value hlabel rfl l .nil
  have hmore : Spells snippetEntry.switches (optional "--url" url ++ optional "--file" label)
      ((url.toList.map fun u => ⟨"--url", some u⟩) ++
        label.toList.map fun l => ⟨"--file", some l⟩) := by
    cases url with
    | none => exact hlast
    | some u => exact .value hurl rfl u hlast
  exact .value hname rfl name hmore

namespace Host.Lawful

/-- A command whose options are spelled out is run. -/
theorem run_entry (hhost : host.Lawful) {e : Entry} {words : List String} {given : List Given}
    (he : e ∈ interface.entries) (hplace : Directs place path) (hwords : Spells e.switches words given)
    (honce : (given.map Given.long).Nodup)
    (hrequired : ∀ o ∈ e.switches, o.required = true → isGiven given o.long = true)
    (hsees : here.Sees fs path) :
    host.run fs here (e.name :: (place ++ words)) =
      runCommand host.mostOpen fs here.location path (e.command given) := by
  have hread := hhost.reads wellFormed_interface he hplace hwords honce hrequired hsees
  rw [Host.run, hread]
  simp only [hsees.near]
  rfl

theorem run_scan (hhost : host.Lawful) (hplace : Directs place path) (hsees : here.Sees fs path) :
    host.run fs here (scanWords place) =
      runCommand host.mostOpen fs here.location path (.scan true) := by
  have he : scanEntry ∈ interface.entries := by simp [interface]
  have hwords : Spells scanEntry.switches ["--json"] [⟨"--json", none⟩] :=
    .flag (o := jsonSwitch) (by simp [scanEntry]) rfl .nil
  exact hhost.run_entry he hplace hwords (List.pairwise_singleton _ _)
    (by simp [scanEntry, jsonSwitch]) hsees

theorem run_routes (hhost : host.Lawful) (hplace : Directs place path) (hsees : here.Sees fs path) :
    host.run fs here (routesWords place) =
      runCommand host.mostOpen fs here.location path (.routes none true) := by
  have he : routesEntry ∈ interface.entries := by simp [interface]
  have hwords : Spells routesEntry.switches ["--json"] [⟨"--json", none⟩] :=
    .flag (o := jsonSwitch) (by simp [routesEntry]) rfl .nil
  exact hhost.run_entry he hplace hwords (List.pairwise_singleton _ _)
    (by simp [routesEntry, jsonSwitch]) hsees

theorem run_snippet (hhost : host.Lawful) (hplace : Directs place path) (hsees : here.Sees fs path)
    (name : String) (url label : Option String) :
    host.run fs here (snippetWords place name url label) =
      runCommand host.mostOpen fs here.location path (.snippet name url label) := by
  have he : snippetEntry ∈ interface.entries := by simp [interface]
  have honce : ((snippetGiven name url label).map Given.long).Nodup := by
    cases url <;> cases label <;> simp [snippetGiven]
  have hrequired : ∀ o ∈ snippetEntry.switches, o.required = true →
      isGiven (snippetGiven name url label) o.long = true := by
    simp [snippetEntry, isGiven, snippetGiven]
  have hcommand : snippetEntry.command (snippetGiven name url label) = .snippet name url label := by
    cases url <;> cases label <;> rfl
  rw [← hcommand]
  exact hhost.run_entry he hplace (spells_snippet name url label) honce hrequired hsees

end Host.Lawful

end RouteAtlas.CommandLine
