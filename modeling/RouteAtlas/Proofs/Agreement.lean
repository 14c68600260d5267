import RouteAtlas.Proofs.Opening
import RouteAtlas.Proofs.StandardHost
import RouteAtlas.Proofs.Template
import RouteAtlas.Proofs.Views

/-!
# The commands agree

The outline that `scan` prints, the list that `routes` prints and the route that `snippet` takes come
from one snapshot of the project each, but by ways of their own. On a project that stays as it is they
show the same routes in the same order, and the first of them that meets the criteria is the one whose
snippet is printed, on every lawful host (`CommandLine.commands_agree`).
-/

namespace RouteAtlas

open RouteAtlas.Tree (Location)

namespace Scan

variable {extract : String → Urlconf} {read : String → Except Fault String} {paths : List String}

/-- What comes earlier in a sorted list is smaller. -/
theorem lt_of_idxOf_lt {a b : String} (hpaths : paths.Pairwise (· ≤ ·)) (hb : b ∈ paths)
    (h : paths.idxOf a < paths.idxOf b) : a < b := by
  have hbound : paths.idxOf b < paths.length := List.idxOf_lt_length_of_mem hb
  have hle := List.pairwise_iff_getElem.mp hpaths _ _ (Nat.lt_trans h hbound) hbound h
  rw [List.getElem_idxOf, List.getElem_idxOf] at hle
  refine lt_of_le_of_ne hle ?_
  rintro rfl
  exact Nat.lt_irrefl _ h

/-- The records of a scan of sorted paths are sorted. -/
theorem Finds.sorted {scan : Scan} (h : Finds extract read paths scan) (hpaths : paths.Pairwise (· ≤ ·)) :
    scan.snapshot.records.keys.Pairwise (· < ·) :=
  h.records_sorted.imp_of_mem fun _ hb hless =>
    lt_of_idxOf_lt hpaths ((h.mem_records _).mp hb).1 hless

theorem Finds.keyed {scan : Scan} (h : Finds extract read paths scan) : scan.snapshot.Keyed :=
  fun p hp => (h.record p.1 p.2 (Table.get?_eq_some_iff.mpr hp)).1

end Scan

namespace Snapshot

variable {s : Snapshot}

theorem Keyed.paths (h : s.Keyed) : s.files.map FileRecord.path = s.records.keys := by
  rw [files, Table.values, Table.keys, List.map_map]
  exact List.map_congr_left fun p hp => h p hp

/-- Routes are listed in the order of their files. -/
theorem Keyed.sorted_listed (h : s.Keyed) (hsorted : s.records.keys.Pairwise (· < ·)) :
    (s.listed.map Listed.path).Pairwise (· ≤ ·) := by
  have hpaths : s.listed.map Listed.path = s.files.flatMap fun r => r.routes.map fun _ => r.path := by
    rw [listed, routes, List.map_map, List.map_flatMap]
    simp only [List.map_map]
    rfl
  rw [hpaths, List.pairwise_flatMap]
  rw [← h.paths, List.pairwise_map] at hsorted
  refine ⟨fun r _ => ?_, hsorted.imp fun hless x hx y hy => ?_⟩
  · rw [List.pairwise_map]
    exact List.pairwise_of_forall fun _ _ => le_refl _
  · obtain ⟨-, -, rfl⟩ := List.mem_map.mp hx
    obtain ⟨-, -, rfl⟩ := List.mem_map.mp hy
    exact le_of_lt hless

end Snapshot

namespace CommandLine

/-! ## Commands on a project that is scanned -/

/-- A command on a project that can be opened and scanned, once the files that were skipped are told. -/
theorem runScanned_of_ok {most : Nat} {fs : Tree} {here : Location} {path : String} {w : Workspace}
    {scan : Scan}
    (hopen : Workspace.openAt fs here (Path.ofString path) none most = .ok w)
    (hscan : (w.refresh fs here).2.2 = .ok scan) (command : Printed → Workspace → Progress) :
    runScanned most fs here path command =
      command (({} : Printed).tellFailures scan) (w.refresh fs here).1 := by
  unfold runScanned
  rw [hopen]
  dsimp only
  split
  · rename_i hrefresh
    rw [hrefresh] at hscan
    cases hscan
  · rename_i hrefresh
    rw [hrefresh] at hscan ⊢
    cases hscan
    rfl

theorem lines_tellFailures (p : Printed) (scan : Scan) : (p.tellFailures scan).lines = p.lines := by
  rw [Printed.tellFailures]
  induction scan.failures generalizing p with
  | nil => rfl
  | cons f rest ih => rw [List.foldl_cons, ih]; rfl

/-! ## A project that commands can work on -/

/-- The path of a command line leads to the folder at `root`, and the settings there, or those that stand
for them where there are none, can be loaded with `most` brackets open and ignore texts only. -/
structure WorksOn (most : Nat) (fs : Tree) (here : Standpoint) (path : String) (root : Location)
    (s : Settings) : Prop where
  address : Tree.isAddress path = true
  names : AreNames root
  folder : ∃ es, fs.locate .target here.location path = .ok (.taken root (.folder es))
  near : here.isAstray path = false
  loads : Settings.load fs here.location ⟨.root, root⟩ most = .ok s
  texts : ∀ v ∈ s.ignored, ∃ w, v = .text w

variable {host : Host} {most : Nat} {fs : Tree} {here : Standpoint} {path : String} {root : Location}
  {s : Settings} {ignored : List String} {t : Template}

/-- What a first scan of the project at `root` finds. -/
def firstScan (fs : Tree) (here root : Location) (s : Settings) (ignored : List String) : Scan :=
  Scan.found (Urlconf.read s.blockOnly) .initial (Source.read fs here)
    (Discovery.modulePaths fs s.fileName ignored root)

/-- Its records are sorted by the paths of their files. -/
theorem sorted_firstScan (fs : Tree) (here root : Location) (s : Settings) (ignored : List String) :
    (firstScan fs here root s ignored).snapshot.records.keys.Pairwise (· < ·) :=
  (Scan.finds_found _ _ _ _).sorted (Discovery.pairwise_modulePaths fs root)

theorem keyed_firstScan (fs : Tree) (here root : Location) (s : Settings) (ignored : List String) :
    (firstScan fs here root s ignored).snapshot.Keyed := (Scan.finds_found _ _ _ _).keyed

namespace WorksOn

theorem sees (h : WorksOn most fs here path root s) : here.Sees fs path := by
  obtain ⟨es, hes⟩ := h.folder
  exact ⟨h.address, h.near, es, by rw [Tree.reach, hes]⟩

/-- A command that scans works on what the first scan finds. -/
theorem runScanned (h : WorksOn most fs here path root s) (hignored : s.ignoredNames = .ok ignored)
    (ht : Template.ofWide s.template = .ok t) :
    ∃ p : Printed, p.lines = [] ∧ ∀ command, runScanned most fs here.location path command =
      command p ⟨⟨.root, root⟩, s, t, (firstScan fs here.location root s ignored).snapshot⟩ := by
  obtain ⟨es, hes⟩ := h.folder
  have hfolder : fs.sightAt? root = some .folder :=
    (Tree.leads_of_walk_folder (Tree.locate_eq_walk hes).1).1
  have hopen := Workspace.openAt_directory h.address h.names hes h.loads ht
  have hshort := Settings.short_of_load h.names hfolder h.loads
  have hmodules : Workspace.modules ⟨⟨.root, root⟩, s, t, .initial⟩ fs here.location = .ok _ :=
    Workspace.modules_directory h.names hfolder hshort rfl hignored
  obtain ⟨hpublished, hfound⟩ := Workspace.refresh_of_ok hmodules
  refine ⟨({} : Printed).tellFailures (firstScan fs here.location root s ignored),
    lines_tellFailures _ _, fun command => ?_⟩
  rw [runScanned_of_ok hopen hfound, hpublished]
  rfl

end WorksOn

/-! ## What is printed -/

/-- A command line ends well, leaves the files as they are and prints a JSON value. -/
def Prints (host : Host) (fs : Tree) (here : Standpoint) (words : List String) (v : Json) : Prop :=
  ∃ o, host.run fs here words = .ended o ∧ o.fs = fs ∧ host.exit o.ending = 0 ∧
    Json.read (host.text o.printed.lines) = .ok v

/-- What a command prints as JSON is one value. -/
theorem Prints.unique {words : List String} {v v' : Json} (h : Prints host fs here words v)
    (h' : Prints host fs here words v') : v = v' := by
  obtain ⟨o, hrun, -, -, hread⟩ := h
  obtain ⟨o', hrun', -, -, hread'⟩ := h'
  cases hrun.symm.trans hrun'
  exact Except.ok.inj (hread.symm.trans hread')

theorem Prints.of_echoJson (hhost : host.Lawful) {words : List String} {p : Printed} {v : Value} {j : Json}
    (hrun : host.run fs here words = .ended ⟨fs, p.echoJson v, .done⟩) (hp : p.lines = [])
    (hv : v.primitive = j) {room : Nat} (hj : j.Fits room) (hroom : room ≤ Json.mostOpen) :
    Prints host fs here words j := by
  subst hv
  exact ⟨_, hrun, rfl, hhost.exit_done, hhost.plain.read_echoJson hp hj hroom⟩

namespace WorksOn

variable {place : List String}

theorem prints_scan (h : WorksOn host.mostOpen fs here path root s) (hhost : host.Lawful)
    (hignored : s.ignoredNames = .ok ignored) (ht : Template.ofWide s.template = .ok t)
    (hplace : Directs place path) :
    Prints host fs here (scanWords place)
      (.ofOutline (firstScan fs here.location root s ignored).snapshot) := by
  obtain ⟨p, hp, hcommand⟩ := h.runScanned hignored ht
  have hrun := hhost.run_scan hplace h.sees
  rw [runCommand, hcommand] at hrun
  exact .of_echoJson hhost hrun hp (Snapshot.primitive_outline (keyed_firstScan _ _ _ _ _))
    (Json.fits_ofOutline _) (by decide)

theorem prints_routes (h : WorksOn host.mostOpen fs here path root s) (hhost : host.Lawful)
    (hignored : s.ignoredNames = .ok ignored) (ht : Template.ofWide s.template = .ok t)
    (hplace : Directs place path) :
    Prints host fs here (routesWords place)
      (.ofChoices (firstScan fs here.location root s ignored).snapshot) := by
  obtain ⟨p, hp, hcommand⟩ := h.runScanned hignored ht
  have hrun := hhost.run_routes hplace h.sees
  rw [runCommand, hcommand] at hrun
  exact .of_echoJson hhost hrun hp (Snapshot.primitive_choices _) (Json.fits_ofChoices _) (by decide)

theorem run_snippet (h : WorksOn host.mostOpen fs here path root s) (hhost : host.Lawful)
    (hignored : s.ignoredNames = .ok ignored) (ht : Template.ofWide s.template = .ok t)
    (hplace : Directs place path) (name : String) (url label : Option String) :
    ∃ p : Printed, p.lines = [] ∧
      let w : Workspace := ⟨⟨.root, root⟩, s, t, (firstScan fs here.location root s ignored).snapshot⟩
      host.run fs here (snippetWords place name url label) =
        .ended ⟨fs, (showSnippet p w name url label).1, (showSnippet p w name url label).2⟩ := by
  obtain ⟨p, hp, hcommand⟩ := h.runScanned hignored ht
  have hrun := hhost.run_snippet hplace h.sees name url label
  rw [runCommand, hcommand] at hrun
  exact ⟨p, hp, hrun⟩

end WorksOn

/-! ## The route that a snippet is for -/

/-- The first object of a list that meets the criteria is that of the first route that does. -/
theorem find?_choices (snapshot : Snapshot) (name : String) (url label : Option String) :
    ((Choice.all snapshot none).map Json.ofChoice).find? (Json.meets name url label) =
      (snapshot.find (some name) url label).head?.map fun p => Json.ofChoice ⟨p.1, p.2⟩ := by
  have hmeets : (Json.meets name url label ∘ fun p : FileRecord × Route => Json.ofChoice ⟨p.1, p.2⟩) =
      fun p => Snapshot.meets (some name) p.2.name && Snapshot.meets url p.2.url &&
        Snapshot.meets label p.1.label :=
    funext fun p => Json.meets_ofChoice name url label ⟨p.1, p.2⟩
  rw [Choice.all_none, List.map_map, Snapshot.find, List.head?_filter, ← hmeets]
  exact List.find?_map ..

variable {p : Printed} {w : Workspace} {name : String} {url label : Option String}

theorem showSnippet_of_nil (h : w.snapshot.find (some name) url label = []) :
    (showSnippet p w name url label).2 = .failed := by
  rw [showSnippet]
  simp only [h]

theorem showSnippet_of_cons {r : FileRecord} {route : Route} {more : List (FileRecord × Route)}
    {line : String} (h : w.snapshot.find (some name) url label = (r, route) :: more)
    (hline : w.snapshot.snippet w.template r.path route = .plain line) :
    (showSnippet p w name url label).2 = .done ∧
      (showSnippet p w name url label).1.lines = p.lines ++ [line] := by
  rw [showSnippet]
  simp only [h, hline, true_and]
  split <;> rfl

theorem showSnippet_of_unpaired {r : FileRecord} {route : Route} {more : List (FileRecord × Route)}
    {codes : List Nat} (h : w.snapshot.find (some name) url label = (r, route) :: more)
    (hcodes : w.snapshot.snippet w.template r.path route = .unpaired codes) :
    (showSnippet p w name url label).2 = .crashed (.unpairedHalf codes) := by
  rw [showSnippet]
  simp only [h, hcodes]

/-- The reference to a route of the file at a path, by the namespace that an outline shows for the file. -/
def shownReference (outline : Json) (path name : String) : String :=
  match outline.namespaceOf? (FileKey.subpath path) with
  | some space => space ++ ":" ++ name
  | none => name

theorem shownReference_ofOutline (snapshot : Snapshot) (path name : String) :
    shownReference (.ofOutline snapshot) path name =
      Snippet.reference (FileKey.subpath path) name snapshot.namespaces := by
  rw [shownReference, Json.namespaceOf?_ofOutline]
  rfl

/-- How a snippet is chosen and printed, told by the outline and the list of the same snapshot. -/
theorem showSnippet_answers {text : String} (w : Workspace) (hp : p.lines = [])
    (ht : Template.ofWide (.plain text) = .ok w.template) (name : String) (url label : Option String) :
    let items := (Choice.all w.snapshot none).map Json.ofChoice
    let answer := showSnippet p w name url label
    (answer.2 = .done ∧ (∃ v ∈ items, v.meets name url label = true) ∨
        answer.2 = .failed ∧ ¬ ∃ v ∈ items, v.meets name url label = true) ∧
      ∀ first, items.find? (Json.meets name url label) = some first →
        ∃ path line, first.textAt? "file_path" = some path ∧
          w.template.fill name (shownReference (.ofOutline w.snapshot) path name) = .plain line ∧
          answer.1.lines = [line] := by
  intro items answer
  have hfirst : items.find? (Json.meets name url label) = _ := find?_choices w.snapshot name url label
  cases hfound : w.snapshot.find (some name) url label with
  | nil =>
    have hfailed : answer.2 = .failed := showSnippet_of_nil hfound
    rw [hfound, List.head?_nil, Option.map_none] at hfirst
    refine ⟨Or.inr ⟨hfailed, ?_⟩, fun first h => ?_⟩
    · rintro ⟨v, hv, hmeets⟩
      exact List.find?_eq_none.mp hfirst v hv hmeets
    · rw [hfirst] at h
      cases h
  | cons q more =>
    obtain ⟨r, route⟩ := q
    obtain ⟨line, hline⟩ := Template.fill_plain ht route.name
      (Snippet.reference (FileKey.subpath r.path) route.name w.snapshot.namespaces)
    obtain ⟨hdone, hlines⟩ := showSnippet_of_cons (p := p) hfound hline
    rw [hfound, List.head?_cons, Option.map_some] at hfirst
    have hmem : (r, route) ∈ w.snapshot.find (some name) url label :=
      hfound ▸ List.mem_cons_self
    have hname : name = route.name := by
      have hmeets := (List.mem_filter.mp hmem).2
      simp only [Bool.and_eq_true] at hmeets
      exact beq_iff_eq.mp hmeets.1.1
    refine ⟨Or.inl ⟨hdone, _, List.mem_of_find?_eq_some hfirst, List.find?_some hfirst⟩,
      fun first h => ?_⟩
    rw [hfirst] at h
    cases h
    refine ⟨r.path, line, rfl, ?_, ?_⟩
    · rw [shownReference_ofOutline, hname]
      exact hline
    · rw [hp, List.nil_append] at hlines
      exact hlines

/-- On a lawful host and a project that commands can work on, the outline and the list show the same
routes in the same order, file by file in the order of their paths. Where the template has no halves of
surrogate pairs, a snippet is printed exactly if the list has a route that meets the criteria. It is one
line: the template, filled in with the name and with the reference that the outline gives for the file of
the first such route. If there is no escape character in it, it is written as it is. -/
theorem commands_agree (hhost : host.Lawful) (h : WorksOn host.mostOpen fs here path root s)
    {place : List String} (hplace : Directs place path) :
    ∃ (outline : Json) (items : List Json) (listed : List Listed) (files : List String),
      Prints host fs here (scanWords place) outline ∧
      Prints host fs here (routesWords place) (.list items) ∧
      outline.outlined? = some listed ∧ (Json.list items).listed? = some listed ∧
      (listed.map Listed.path).Pairwise (· ≤ ·) ∧
      outline.files? = some files ∧ files.Pairwise (· < ·) ∧
      ∀ text, s.template = .plain text → ∀ name url label,
        ∃ o, host.run fs here (snippetWords place name url label) = .ended o ∧
          (host.exit o.ending = 0 ↔ ∃ v ∈ items, v.meets name url label = true) ∧
          (host.exit o.ending = 0 ∨ host.exit o.ending = 1) ∧
          ∀ first, items.find? (Json.meets name url label) = some first →
            ∃ path template line, first.textAt? "file_path" = some path ∧
              Template.ofWide s.template = .ok template ∧
              template.fill name (shownReference outline path name) = .plain line ∧
              o.printed.lines = [line] ∧
              (Text.escapeCharacter ∉ line.toList → host.text o.printed.lines = line ++ "\n") := by
  obtain ⟨ignored, hignored⟩ := Workspace.exists_ignoredNames h.texts
  obtain ⟨t, ht⟩ := Settings.exists_template_of_load h.loads
  have hkeyed := keyed_firstScan fs here.location root s ignored
  have hsorted := sorted_firstScan fs here.location root s ignored
  refine ⟨_, _, _, _, h.prints_scan hhost hignored ht hplace, h.prints_routes hhost hignored ht hplace,
    Json.outlined?_ofOutline _, Json.listed?_ofChoices _, hkeyed.sorted_listed hsorted,
    Json.files?_ofOutline _, hkeyed.paths ▸ hsorted, ?_⟩
  intro text htext name url label
  obtain ⟨p, hp, hrun⟩ := h.run_snippet hhost hignored ht hplace name url label
  rw [htext] at ht
  obtain ⟨hending, hprinted⟩ := showSnippet_answers ⟨⟨.root, root⟩, s, t, _⟩ hp ht name url label
  obtain ⟨hexit, hexits⟩ := hhost.exit_iff hending
  refine ⟨_, hrun, hexit, hexits, fun first hfirst => ?_⟩
  obtain ⟨path, line, hpath, hfill, hlines⟩ := hprinted first hfirst
  refine ⟨path, t, line, hpath, htext ▸ ht, hfill, hlines, fun hescape => ?_⟩
  exact (congrArg host.text hlines).trans (hhost.plain.text_of_notMem hescape)

/-- A template with half of a surrogate pair gives no snippet that can be printed, though the list has
the route. -/
theorem snippet_crashes_of_half (hhost : host.Lawful) (h : WorksOn host.mostOpen fs here path root s)
    {place : List String} (hplace : Directs place path)
    (hcodes : ∀ n ∈ s.template.codes, n < 0x110000 ∧ n ≠ 0)
    (hhalf : s.template.codes.any WideText.isHalf = true) :
    ∃ items : List Json, Prints host fs here (routesWords place) (.list items) ∧
      ∀ name url label, (∃ v ∈ items, v.meets name url label = true) →
        ∃ o codes, host.run fs here (snippetWords place name url label) = .ended o ∧
          o.ending = .crashed (.unpairedHalf codes) := by
  obtain ⟨ignored, hignored⟩ := Workspace.exists_ignoredNames h.texts
  obtain ⟨t, ht⟩ := Settings.exists_template_of_load h.loads
  refine ⟨_, h.prints_routes hhost hignored ht hplace, fun name url label hmeets => ?_⟩
  obtain ⟨p, -, hrun⟩ := h.run_snippet hhost hignored ht hplace name url label
  have hfirst := find?_choices (firstScan fs here.location root s ignored).snapshot name url label
  cases hfound : (firstScan fs here.location root s ignored).snapshot.find (some name) url label with
  | nil =>
    rw [hfound, List.head?_nil, Option.map_none] at hfirst
    obtain ⟨v, hv, hmeets⟩ := hmeets
    exact absurd hmeets (List.find?_eq_none.mp hfirst v hv)
  | cons q more =>
    obtain ⟨codes, hfill⟩ := Template.fill_unpaired hcodes hhalf ht q.2.name
      (Snippet.reference (FileKey.subpath q.1.path) q.2.name
        (firstScan fs here.location root s ignored).snapshot.namespaces)
    exact ⟨_, codes, hrun, showSnippet_of_unpaired hfound hfill⟩

/-! ## A small project -/

/-- A routing module. The name of its second route begins with a control sequence. -/
def mallText : String :=
  "path('home/', home, name='home'), path('red/', red, name='\x1b[31mred'), " ++
    "include(('shop.urls', 'shop'), namespace='mall')"

/-- A project with the routing module, and a link to the project. -/
def mall : Tree :=
  .folder [("srv", .folder [("shop", .folder [("urls.py", .file mallText.toUTF8.toList)])]),
    ("site", .link "/srv/shop")]

/-- What is found in it. -/
def mallSnapshot : Snapshot where
  generation := 1
  records := .ofList [("/srv/shop/urls.py",
    ⟨"/srv/shop/urls.py", [⟨"home/", "home"⟩, ⟨"red/", "\x1b[31mred"⟩], List.cons_ne_nil _ _⟩)]
  namespaces := .ofList [("shop/urls", "mall")]

theorem worksOn_mall (most : Nat) : WorksOn most mall ⟨[], false⟩ "/site" ["srv", "shop"] {} where
  address := by decide
  names := by decide
  folder := ⟨_, rfl⟩
  near := rfl
  loads := rfl
  texts := by
    intro v hv
    obtain ⟨s, -, rfl⟩ := List.mem_map.mp hv
    exact ⟨_, rfl⟩

theorem directs_site : Directs ["/site"] "/site" := .named rfl

theorem read_mall : Source.read mall [] "/srv/shop/urls.py" = .ok mallText := by
  have hsize : mallText.toUTF8.toList.length ≤ Source.largest := by
    rw [Text.Utf8.toList_toUTF8]
    decide +kernel
  exact Source.read_written (l := ["srv", "shop", "urls.py"]) (by decide) (by decide) rfl hsize
    (by decide +kernel) []

theorem modulePaths_mall (ignored : List String) :
    Discovery.modulePaths mall "urls.py" ignored ["srv", "shop"] = ["/srv/shop/urls.py"] := by
  have hmodules : Discovery.modulesIn mall "urls.py" ignored ["srv", "shop"]
      ((mall.at? ["srv", "shop"]).getD (.folder [])) = [["srv", "shop", "urls.py"]] := by
    show [["srv", "shop", "urls.py"]] ++ (if Discovery.skips ignored "urls.py" then [] else []) ++ [] = _
    rw [ite_self]
    rfl
  rw [Discovery.modulePaths, hmodules, List.map_singleton, List.mergeSort_singleton]
  rfl

theorem snapshot_mall (ignored : List String) :
    (firstScan mall [] ["srv", "shop"] {} ignored).snapshot = mallSnapshot := by
  have hreadings : Scan.readings (Source.read mall []) ["/srv/shop/urls.py"] =
      [("/srv/shop/urls.py", .ok mallText)] := by
    show [("/srv/shop/urls.py", Source.read mall [] "/srv/shop/urls.py")] = _
    rw [read_mall]
  have hurlconf : Urlconf.read false mallText =
      ⟨[⟨"home/", "home"⟩, ⟨"red/", "\x1b[31mred"⟩], .ofList [("shop/urls", "mall")]⟩ := by cbv
  show Scan.nextSnapshot .initial (Scan.said (Urlconf.read false) (Scan.readings (Source.read mall [])
    (Discovery.modulePaths mall "urls.py" ignored ["srv", "shop"]))) = _
  rw [modulePaths_mall, hreadings]
  show Scan.nextSnapshot .initial [("/srv/shop/urls.py", Urlconf.read false mallText)] = _
  rw [hurlconf]
  rfl

theorem prints_scan_mall (hhost : host.Lawful) :
    Prints host mall ⟨[], false⟩ (scanWords ["/site"]) (.ofOutline mallSnapshot) := by
  have hprints := (worksOn_mall _).prints_scan hhost rfl Template.ofText_defaultText directs_site
  rw [snapshot_mall] at hprints
  exact hprints

theorem prints_routes_mall (hhost : host.Lawful) :
    Prints host mall ⟨[], false⟩ (routesWords ["/site"]) (.ofChoices mallSnapshot) := by
  have hprints := (worksOn_mall _).prints_routes hhost rfl Template.ofText_defaultText directs_site
  rw [snapshot_mall] at hprints
  exact hprints

/-- The snippet of the first route, with the namespace of its file. -/
theorem commands_agree_mall :
    Host.standard.Lawful ∧
      WorksOn Host.standard.mostOpen mall ⟨[], false⟩ "/site" ["srv", "shop"] {} ∧
      Directs ["/site"] "/site" ∧
      ∃ o, Host.standard.run mall ⟨[], false⟩ (snippetWords ["/site"] "home" none none) = .ended o ∧
        Host.standard.exit o.ending = 0 ∧
        Host.standard.text o.printed.lines = "const url_home = \"\x7b% url 'mall:home' %\x7d\";\n" := by
  have hhost := Host.lawful_standard
  refine ⟨hhost, worksOn_mall _, directs_site, ?_⟩
  obtain ⟨outline, items, -, -, houtline, hitems, -, -, -, -, -, hsnippet⟩ :=
    commands_agree hhost (worksOn_mall _) directs_site
  obtain rfl := houtline.unique (prints_scan_mall hhost)
  cases hitems.unique (prints_routes_mall hhost)
  obtain ⟨o, hrun, hcode, -, hprinted⟩ := hsnippet Template.defaultText rfl "home" none none
  obtain ⟨path, template, line, hpath, htemplate, hline, -, hwritten⟩ := hprinted _ rfl
  cases hpath
  cases htemplate.symm.trans Template.ofText_defaultText
  have hfilled : Template.default.fill "home" "mall:home" =
      .plain "const url_home = \"\x7b% url 'mall:home' %\x7d\";" := by decide +kernel
  cases hline.symm.trans hfilled
  exact ⟨o, hrun, hcode.mpr ⟨_, List.mem_cons_self, rfl⟩, hwritten (by decide)⟩

/-- The snippet of the second route, which has the control sequence twice. -/
def redSnippet : String := "const url_\x1b[31mred = \"\x7b% url 'mall:\x1b[31mred' %\x7d\";"

/-- A host that writes no colours writes another line. -/
theorem Host.Colourless.text_redSnippet (hcolour : host.Colourless) (hplain : host.Plain) :
    host.text [redSnippet] ≠ redSnippet ++ "\n" := by
  have hcode : ∀ c ∈ "31".toList, c.isDigit ∨ c = ';' := by simp
  have hstart : Text.escapeCharacter ∉ "const url_".toList := by decide
  have hmiddle : Text.escapeCharacter ∉ "const url_red = \"\x7b% url 'mall:".toList := by decide +kernel
  have hwhole : Text.escapeCharacter ∉ "const url_red = \"\x7b% url 'mall:red' %\x7d\";\n".toList := by
    decide +kernel
  have hwritten : host.text [redSnippet] = "const url_red = \"\x7b% url 'mall:red' %\x7d\";\n" := by
    rw [host.text_singleton]
    exact (hcolour _ "31" "red = \"\x7b% url 'mall:\x1b[31mred' %\x7d\";\n" hstart hcode).trans
      ((hcolour _ "31" "red' %\x7d\";\n" hmiddle hcode).trans (hplain _ hwhole))
  rw [hwritten]
  decide

/-- On a host that writes no colours, a control sequence in the name of a route is in its snippet, but it
is not written. -/
theorem snippet_loses_controls :
    Host.standard.Lawful ∧ Host.standard.Colourless ∧
      ∀ host : Host, host.Lawful → host.Colourless →
        WorksOn host.mostOpen mall ⟨[], false⟩ "/site" ["srv", "shop"] {} ∧
        ∃ (outline : Json) (items : List Json) (first : Json) (o : Outcome) (path line : String),
          Prints host mall ⟨[], false⟩ (scanWords ["/site"]) outline ∧
          Prints host mall ⟨[], false⟩ (routesWords ["/site"]) (.list items) ∧
          items.find? (Json.meets "\x1b[31mred" none none) = some first ∧
          first.textAt? "file_path" = some path ∧
          host.run mall ⟨[], false⟩ (snippetWords ["/site"] "\x1b[31mred" none none) = .ended o ∧
          host.exit o.ending = 0 ∧ Template.ofWide ({} : Settings).template = .ok .default ∧
          Template.default.fill "\x1b[31mred" (shownReference outline path "\x1b[31mred") = .plain line ∧
          host.text o.printed.lines ≠ line ++ "\n" := by
  refine ⟨Host.lawful_standard, Host.colourless_standard, ?_⟩
  intro host hhost hcolour
  have hfilled : Template.default.fill "\x1b[31mred" "mall:\x1b[31mred" = .plain redSnippet := by
    decide +kernel
  obtain ⟨p, hp, hrun⟩ := (worksOn_mall _).run_snippet hhost rfl Template.ofText_defaultText directs_site
    "\x1b[31mred" none none
  rw [snapshot_mall] at hrun
  have hfound : mallSnapshot.find (some "\x1b[31mred") none none =
      [(⟨"/srv/shop/urls.py", [⟨"home/", "home"⟩, ⟨"red/", "\x1b[31mred"⟩], List.cons_ne_nil _ _⟩,
        ⟨"red/", "\x1b[31mred"⟩)] := rfl
  let w : Workspace := ⟨⟨.root, ["srv", "shop"]⟩, {}, .default, mallSnapshot⟩
  obtain ⟨hending, hlines⟩ := showSnippet_of_cons (w := w) (p := p) hfound hfilled
  have hexit : host.exit (showSnippet p w "\x1b[31mred" none none).2 = 0 :=
    (congrArg host.exit hending).trans hhost.exit_done
  rw [hp, List.nil_append] at hlines
  refine ⟨worksOn_mall _, _, _, _, _, _, _, prints_scan_mall hhost, prints_routes_mall hhost, rfl, rfl, hrun,
    hexit, Template.ofText_defaultText, hfilled, ?_⟩
  rw [hlines]
  exact hcolour.text_redSnippet hhost.plain

end CommandLine

end RouteAtlas
