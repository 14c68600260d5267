import RouteAtlas.Proofs.Freshness
import RouteAtlas.Proofs.Opening

/-!
# What is found and what is watched

Without links three rules agree on every file: the one by which discovery walks the tree, the one by which
a workspace judges a path, and the one by which its watcher judges it (`found_iff_watched`). With links
they part. Discovery goes by the names on the way to a link, while a workspace looks at where the link
leads, so a link that discovery finds is watched only if it leads to a place below the root that is in no
skipped folder (`modules_watched_iff`).
-/

namespace RouteAtlas

namespace Tree

variable {fs : Tree} {here : Location} {names : List String}

/-! ## Paths to files -/

/-- A walk by names that meets no link ends at the place with these names. -/
theorem stroll_clear_taken (hnames : AreNames names) (h : Clear fs here names) {l : Location} {t : Tree}
    (hreached : stroll fs .target here names = .place (.taken l t)) :
    l = here ++ names ∧ fs.at? l = some t := by
  induction names generalizing here with
  | nil =>
    rw [stroll] at hreached
    split at hreached
    · rename_i ht
      cases hreached
      exact ⟨(List.append_nil _).symm, ht⟩
    · contradiction
  | cons name rest ih =>
    obtain ⟨hname, hrest⟩ := List.forall_mem_cons.mp hnames
    rcases turns_or_enters here name with ⟨next, hturn⟩ | henter | hlong
    · cases hturn with
      | stay hstay => exact absurd hstay (not_or.mpr ⟨hname.1, hname.2.1⟩)
      | up => exact absurd rfl hname.2.2.1
    · rw [stroll_enter henter, if_neg (by simp)] at hreached
      split at hreached
      · split at hreached <;> cases hreached
      · obtain ⟨hl, ht⟩ := ih hrest h.next hreached
        rw [List.append_assoc] at hl
        exact ⟨hl, ht⟩
      · rename_i target htarget
        exact absurd htarget (h.first target)
      · rename_i bytes ht
        split at hreached
        · rename_i hend
          cases hreached
          rw [hend]
          exact ⟨rfl, ht⟩
        · contradiction
    · rw [hlong] at hreached
      contradiction

/-- A path of names that meets no link and leads to a file leads to the one at its place. -/
theorem exists_file_of_hasFile (hnames : AreNames names) (hclear : Clear fs [] names)
    (h : fs.hasFile here (pathTo names) = .ok true) :
    (∃ bytes, fs.at? names = some (.file bytes)) ∧ ¬ TooLong names := by
  obtain ⟨-, l, t, hlocate, hfile⟩ := locate_of_holds h
  have hreach : fs.reach here (Path.toString ⟨.root, names⟩) = .ok t := by
    show fs.reach here (pathTo names) = _
    rw [reach, hlocate]
  -- the walk follows no link, so that it ends where the names say
  have hat : fs.at? names = some t := by
    have hstroll := stroll_clear hnames hclear .target
    obtain ⟨hwalk, -⟩ := locate_eq_walk hlocate
    rw [pathTo, startOf_toString, walk, stroll_steps fs hnames] at hwalk
    split at hwalk
    · rename_i p hplace
      cases hwalk
      obtain ⟨rfl, ht⟩ := stroll_clear_taken hnames hclear hplace
      exact ht
    · contradiction
    · rename_i hlink
      rw [hlink] at hstroll
      exact hstroll.elim
  cases t with
  | file bytes =>
    refine ⟨⟨bytes, hat⟩, ?_⟩
    intro hlong
    rw [reach_toString hnames hat (by simp) here, if_pos hlong] at hreach
    contradiction
  | link target => contradiction
  | folder es => contradiction

theorem hasFile_of_at (hnames : AreNames names) {bytes : List UInt8}
    (hfile : fs.at? names = some (.file bytes)) (hshort : ¬ TooLong names) (here : Location) :
    fs.hasFile here (pathTo names) = .ok true := by
  have hreach := reach_toString hnames hfile (by simp) here
  rw [if_neg hshort] at hreach
  rw [hasFile, holds, pathTo, isAddress_toString hnames, if_pos rfl, hreach]
  rfl

end Tree

namespace Watch.Watcher

variable {σ : Type} {w : Watcher σ} {e : Event} {change : FileChange}

/-! ## One event -/

/-- A change that is heard of is handed over, at once or when time is up. -/
theorem world_of_wanted (hh : w.handling.Ordinary) (hidle : w.collector.Idle)
    (he : e.changes = [change]) (hwants : w.collector.wants w.handling change.path = .ok true) :
    ((w.after (.event e)).after .flush).collector.world =
      (w.handling.deliver w.collector.world [change]).1 := by
  have hheard : (w.after (.event e)).collector = (w.collector.note w.handling change).1 := by
    show (w.collector.noteAll w.handling e.changes).1 = _
    have hnote : (w.collector.note w.handling change).2 = .ok () := by
      cases hi : w.handling.immediate with
      | true => rw [Collector.note_of_immediate hh hi hwants]
      | false => rw [Collector.note_of_waiting hi hwants]
    rw [he, Collector.noteAll_of_ok hnote]
    rfl
  have hwaiting : (w.collector.keep change).waiting = [change] := by
    show (w.collector.pending.put change.path change.kind).entries.map _ = _
    rw [hidle.1]
    rfl
  show ((w.after (.event e)).collector.flush w.handling).1.world = _
  rw [hheard]
  cases hi : w.handling.immediate with
  | true =>
    -- it is handed over at once, and nothing is left for the second time
    have hleft : ((w.collector.keep change).flush w.handling).1.waiting = [] := by
      rw [Collector.flush_fst]
      rfl
    rw [Collector.note_of_immediate hh hi hwants, Collector.flush_fst, if_pos hleft,
      Collector.flush_fst, hwaiting]
    rfl
  | false =>
    have hwaiting' : ({ w.collector.keep change with armed := true } : Collector σ).waiting = [change] :=
      hwaiting
    rw [Collector.note_of_waiting hi hwants, Collector.flush_fst, hwaiting']
    rfl

/-- A change that is not heard of changes nothing. -/
theorem world_of_unwanted (hidle : w.collector.Idle) (he : e.changes = [change])
    (hwants : w.collector.wants w.handling change.path ≠ .ok true) :
    ((w.after (.event e)).after .flush).collector.world = w.collector.world := by
  have hheard : (w.after (.event e)).collector = w.collector := by
    show (w.collector.noteAll w.handling e.changes).1 = _
    rw [he]
    cases hanswer : w.collector.wants w.handling change.path with
    | error f => rw [Collector.noteAll_of_error (Collector.note_of_error hanswer)]
    | ok accepted =>
      cases accepted with
      | true => exact absurd hanswer hwants
      | false =>
        have hnote := Collector.note_of_unwanted hanswer
        rw [Collector.noteAll_of_ok (congrArg Prod.snd hnote), hnote]
        rfl
  have hwaiting : w.collector.waiting = [] := by
    rw [Collector.waiting, hidle.1]
    rfl
  show ((w.after (.event e)).collector.flush w.handling).1.world = _
  rw [hheard, Collector.flush_fst, if_pos hwaiting]

end Watch.Watcher

namespace Workspace

open RouteAtlas.Tree (Location IsProject pathTo)
open Discovery (isModule)
open Watch (Collector Handling)

variable {fs : Tree} {root here : Location} {ignored : List String} {w : Workspace}
  {es : List (String × Tree)}

/-! ## Without links -/

theorem exists_watch (hignored : w.settings.ignoredNames = .ok ignored) (fs : Tree) (here : Location) :
    ∃ start, watch { fs, here, workspace := w } = .ok start ∧ Handles w ignored start.handling ∧
      start.collector = { world := { fs, here, workspace := w } } := by
  obtain ⟨h, hhandling, hh⟩ := exists_handling hignored
  exact ⟨_, by rw [watch, hhandling]; rfl, hh, rfl⟩

/-- A watcher leaves it to the workspace to judge the paths of places of modules. -/
theorem wants_of_isModule {h : Handling Site} (hh : Handles w ignored h) (hroot : w.root = ⟨.root, root⟩)
    {c : Collector Site} (hc : c.world = { fs, here, workspace := w }) {q : Location}
    (hq : AreNames (root ++ q)) (hmodule : isModule w.settings.fileName ignored q = true) :
    c.wants h (pathTo (root ++ q)) = w.concerns fs here (pathTo (root ++ q)) := by
  obtain ⟨hspells, hskips⟩ := of_isModule hmodule
  rw [Collector.wants, hh.filter, hroot, if_pos (covers_pathTo hq hspells hskips), hh.accept, hc]

/-- In a tree without links a file is found by discovery if and only if a change of it concerns the
workspace, and if and only if the watcher wants to hear of it: in all three cases if it has the right name
and no folder between it and the root is skipped. The names of the root and of what is above it do not
matter. -/
theorem found_iff_watched (hnames : AreNames root) (hfolder : fs.at? root = some (.folder es))
    (hplain : (Tree.folder es).Plain) (hroot : w.root = ⟨.root, root⟩)
    (htexts : ∀ v ∈ w.settings.ignored, ∃ t, v = .text t) {q : Location} (hq : AreNames q)
    (hfile : fs.hasFile here (pathTo (root ++ q)) = .ok true) :
    ∃ ignored paths start, w.settings.ignoredNames = .ok ignored ∧ w.modules fs here = .ok paths ∧
      watch { fs, here, workspace := w } = .ok start ∧
      (pathTo (root ++ q) ∈ paths ↔ isModule w.settings.fileName ignored q = true) ∧
      w.concerns fs here (pathTo (root ++ q)) = .ok (isModule w.settings.fileName ignored q) ∧
      start.collector.wants start.handling (pathTo (root ++ q)) =
        .ok (isModule w.settings.fileName ignored q) := by
  obtain ⟨ignored, hignored⟩ := exists_ignoredNames htexts
  obtain ⟨start, hwatch, hh, hstart⟩ := exists_watch hignored fs here
  have hpath : AreNames (root ++ q) := hnames.append hq
  obtain ⟨⟨bytes, hat⟩, hshort⟩ :=
    Tree.exists_file_of_hasFile hpath (Tree.clear_of_plain hfolder hplain q) hfile
  have hproject : IsProject fs root := by
    refine ⟨hnames, ?_, es, hfolder, hplain⟩
    intro hlong
    exact hshort (hlong.append q)
  have hne : q ≠ [] := by
    rintro rfl
    rw [List.append_nil, hfolder] at hat
    cases hat
  have hmodules : w.modules fs here =
      .ok (Discovery.modulePaths fs w.settings.fileName ignored root) :=
    modules_directory hnames (Tree.sightAt?_of_at hfolder) hproject.short hroot hignored
  have hfound : pathTo (root ++ q) ∈ Discovery.modulePaths fs w.settings.fileName ignored root ↔
      isModule w.settings.fileName ignored q = true := by
    rw [Discovery.mem_modulePaths hproject]
    constructor
    · rintro ⟨r, hr, hmodule, -, bytes', hfile'⟩
      have heq := (Path.toString_inj hpath (hproject.names_of_sight hfile')).mp hr
      rwa [List.append_cancel_left heq]
    · intro hmodule
      have hlistable : Discovery.isListable (root ++ q) = true := Discovery.isListable_of_short hshort
      rw [← List.dropLast_append_getLast hne, ← List.append_assoc] at hlistable
      exact ⟨q, rfl, hmodule, Discovery.isListable_of_append hlistable, bytes,
        Tree.sightAt?_of_at hat⟩
  have hconcerns : w.concerns fs here (pathTo (root ++ q)) =
      .ok (isModule w.settings.fileName ignored q) := by
    rw [concerns_pathTo hproject hignored hroot hpath, isModule_eq hne]
  refine ⟨ignored, _, start, hignored, hmodules, hwatch, hfound, hconcerns, ?_⟩
  cases hmodule : isModule w.settings.fileName ignored q with
  | true => rw [wants_of_isModule hh hroot (by rw [hstart]) hpath hmodule, hconcerns, hmodule]
  | false =>
    rw [Collector.wants, hh.accept, hstart]
    split
    · rw [hconcerns, hmodule]
    · rfl

/-- A project in a hidden folder, itself in a folder whose name is ignored below the root. -/
def retreat : Tree :=
  .folder [(".work", .folder [("build", .folder [("app", .folder [("urls.py", .file [])])])])]

/-- A workspace of the project. -/
def retreatOpened : Workspace :=
  { root := ⟨.root, [".work", "build"]⟩, settings := { ignored := [.text "build"] }, template := .default }

theorem found_iff_watched_retreat :
    ∃ paths start, retreatOpened.modules retreat [] = .ok paths ∧
      watch { fs := retreat, here := [], workspace := retreatOpened } = .ok start ∧
      "/.work/build/app/urls.py" ∈ paths ∧
      retreatOpened.concerns retreat [] "/.work/build/app/urls.py" = .ok true ∧
      start.collector.wants start.handling "/.work/build/app/urls.py" = .ok true := by
  have hpath : pathTo ([".work", "build"] ++ ["app", "urls.py"]) = "/.work/build/app/urls.py" := by decide
  have hplain : (Tree.folder [("app", .folder [("urls.py", .file [])])]).Plain := by
    simp only [Tree.Plain, Tree.PlainAmong]
    decide
  have htexts : ∀ v ∈ retreatOpened.settings.ignored, ∃ t, v = .text t :=
    List.forall_mem_singleton.mpr ⟨_, rfl⟩
  have hfile : retreat.hasFile [] (pathTo ([".work", "build"] ++ ["app", "urls.py"])) = .ok true :=
    Tree.hasFile_of_at (by decide) rfl (by decide) []
  obtain ⟨ignored, paths, start, hignored, hmodules, hwatch, hfound, hconcerns, hwants⟩ :=
    found_iff_watched (w := retreatOpened) (by decide) rfl hplain rfl htexts (by decide) hfile
  have hmodule : isModule retreatOpened.settings.fileName ignored ["app", "urls.py"] = true := by
    cases hignored
    decide
  rw [hpath, hmodule] at hconcerns hwants
  rw [hpath] at hfound
  exact ⟨paths, start, hmodules, hwatch, hfound.mpr hmodule, hconcerns, hwants⟩

/-! ## With links -/

/-- A path leads to a place below the root that is in no skipped folder. -/
def LeadsInside (fs : Tree) (here root : Location) (ignored : List String) (path : String) : Prop :=
  ∃ names, fs.resolve here (Path.ofString path) = .ok ⟨.root, root ++ names⟩ ∧
    names.dropLast.any (Discovery.skips ignored) = false

theorem concerns_iff (hignored : w.settings.ignoredNames = .ok ignored) (hroot : w.root = ⟨.root, root⟩)
    {path : String} (hspells : w.settings.fileName.spells (Path.ofString path).name = true) :
    w.concerns fs here path = .ok true ↔ LeadsInside fs here root ignored path := by
  have hbelow : ∀ found names,
      Path.relativeTo? found w.root = some names ↔ found = ⟨.root, root ++ names⟩ := by
    intro found names
    rw [Path.relativeTo?_eq_some, hroot]
    rfl
  simp only [concerns, hspells, hignored, LeadsInside, bind, Except.bind]
  cases hresolve : fs.resolve here (Path.ofString path) with
  | error f => cases f <;> simp [pure, Except.pure]
  | ok found =>
    cases hrelative : found.relativeTo? w.root with
    | none =>
      have hnone : ∀ names, found ≠ ⟨.root, root ++ names⟩ := by
        intro names hfound
        rw [(hbelow found names).mpr hfound] at hrelative
        cases hrelative
      simp [pure, Except.pure, hrelative, hnone]
    | some names =>
      obtain rfl := (hbelow found names).mp hrelative
      simp [pure, Except.pure, hrelative]

/-- A file that discovery finds leads inside: it is where its names say. -/
theorem leadsInside_of_file {fileName : WideText} {q : Location} (hq : AreNames (root ++ q))
    (hmodule : isModule fileName ignored q = true) {bytes : List UInt8}
    (hfile : fs.at? (root ++ q) = some (.file bytes)) (here : Location) :
    LeadsInside fs here root ignored (pathTo (root ++ q)) := by
  have hclear : Tree.Clear fs [] (root ++ q) :=
    Tree.clear_of_sight (Tree.sightAt?_of_at hfile) fun target => Tree.Sight.noConfusion
  have hpath : Path.ofString (pathTo (root ++ q)) = ⟨.root, root ++ q⟩ := Path.ofString_toString hq
  obtain ⟨-, hskips⟩ : fileName.spells (Path.mk .root (root ++ q)).name = true ∧ _ :=
    of_isModule hmodule
  exact ⟨q, by rw [hpath, Tree.resolve_clear hq hclear], hskips⟩

/-- Modules that are found at all are those below the root. -/
theorem eq_modulePaths {paths : List String} (hnames : AreNames root)
    (hfolder : fs.sightAt? root = some .folder) (hroot : w.root = ⟨.root, root⟩)
    (hignored : w.settings.ignoredNames = .ok ignored) (h : w.modules fs here = .ok paths) :
    paths = Discovery.modulePaths fs w.settings.fileName ignored root := by
  by_cases hlong : Tree.TooLong root
  · obtain ⟨es, hes⟩ := Tree.exists_folder_of_sight hfolder
    have hresolve := Tree.resolve_clear hnames (Tree.clear_of_folder hfolder) here
    rw [modules, hroot, Discovery.find_of_long hnames hes hlong hresolve] at h
    cases h
  · rw [modules_directory hnames hfolder hlong hroot hignored] at h
    exact (Except.ok.inj h).symm

/-- What discovery finds is watched as far as it leads inside. Every file among it does, and a link does
if its target is below the root and in no skipped folder. Then a change of it concerns the workspace, the
watcher wants to hear of it, and an event refreshes the workspace, at once or when time is up; otherwise
none of this is so, and the event passes unnoticed. -/
theorem modules_watched_iff (hnames : AreNames root) (hfolder : fs.at? root = some (.folder es))
    (hnamed : (Tree.folder es).Named) (hroot : w.root = ⟨.root, root⟩)
    (htexts : ∀ v ∈ w.settings.ignored, ∃ t, v = .text t) {paths : List String}
    (hmodules : w.modules fs here = .ok paths) :
    ∃ ignored start, w.settings.ignoredNames = .ok ignored ∧
      watch { fs, here, workspace := w } = .ok start ∧
      ∀ path ∈ paths,
        (∃ q, path = pathTo (root ++ q) ∧
          ((∃ bytes, fs.at? (root ++ q) = some (.file bytes)) ∧
              LeadsInside fs here root ignored path ∨
            ∃ target, fs.at? (root ++ q) = some (.link target))) ∧
        (w.concerns fs here path = .ok true ↔ LeadsInside fs here root ignored path) ∧
        (start.collector.wants start.handling path = .ok true ↔
          LeadsInside fs here root ignored path) ∧
        ∀ e kind, e.changes = [⟨path, kind⟩] →
          (LeadsInside fs here root ignored path →
            ((start.after (.event e)).after .flush).collector.world.workspace =
              (w.refresh fs here).1) ∧
          (¬ LeadsInside fs here root ignored path →
            ((start.after (.event e)).after .flush).collector.world =
              { fs, here, workspace := w }) := by
  obtain ⟨ignored, hignored⟩ := exists_ignoredNames htexts
  obtain ⟨start, hwatch, hh, hstart⟩ := exists_watch hignored fs here
  refine ⟨ignored, start, hignored, hwatch, ?_⟩
  intro path hpath
  rw [eq_modulePaths hnames (Tree.sightAt?_of_at hfolder) hroot hignored hmodules,
    Discovery.mem_modulePaths_iff hfolder hnamed] at hpath
  obtain ⟨q, rfl, hmodule, -, c, hc, hleads⟩ := hpath
  have hq : AreNames (root ++ q) := by
    rw [Tree.at?_append, hfolder, Option.bind_some] at hc
    exact hnames.append (hnamed.of_at hc).1
  have hspells : w.settings.fileName.spells (Path.ofString (pathTo (root ++ q))).name = true := by
    have hofString : Path.ofString (pathTo (root ++ q)) = ⟨.root, root ++ q⟩ := Path.ofString_toString hq
    rw [hofString]
    exact (of_isModule hmodule).1
  have hconcerns : w.concerns fs here (pathTo (root ++ q)) = .ok true ↔
      LeadsInside fs here root ignored (pathTo (root ++ q)) := concerns_iff hignored hroot hspells
  have hwants : start.collector.wants start.handling (pathTo (root ++ q)) = .ok true ↔
      LeadsInside fs here root ignored (pathTo (root ++ q)) := by
    rw [wants_of_isModule hh hroot (by rw [hstart]) hq hmodule, hconcerns]
  have hidle : start.collector.Idle := by
    rw [hstart]
    exact ⟨rfl, rfl⟩
  refine ⟨⟨q, rfl, ?_⟩, hconcerns, hwants, ?_⟩
  · cases c with
    | file bytes => exact Or.inl ⟨⟨bytes, hc⟩, leadsInside_of_file hq hmodule hc here⟩
    | link target => exact Or.inr ⟨target, hc⟩
    | folder entries => cases hleads
  · intro e kind he
    constructor
    · intro hinside
      have hworld := Watch.Watcher.world_of_wanted hh.ordinary hidle he (hwants.mpr hinside)
      rw [hworld, hh.refreshed, hstart]
    · intro houtside
      have hunwanted : start.collector.wants start.handling (pathTo (root ++ q)) ≠ .ok true := by
        intro hwanted
        exact houtside (hwants.mp hwanted)
      rw [Watch.Watcher.world_of_unwanted hidle he hunwanted, hstart]

/-- A project with a link that stays in it and a link that leaves it. -/
def branches : Tree :=
  .folder [("shared", .folder [("urls.py", .file [])]), ("srv", .folder [
    ("app", .folder [("urls.py", .link "../routes.py")]), ("routes.py", .file []),
    ("urls.py", .link "../shared/urls.py")])]

/-- A workspace of the project. -/
def branchesOpened : Workspace :=
  { root := ⟨.root, ["srv"]⟩, settings := { ignored := [.text "build"] }, template := .default }

theorem named_branches : (Tree.folder [("app", .folder [("urls.py", .link "../routes.py")]),
    ("routes.py", .file []), ("urls.py", .link "../shared/urls.py")]).Named := by
  simp only [Tree.Named, Tree.NamedAmong]
  decide

theorem modules_branches :
    ∃ paths, branchesOpened.modules branches [] = .ok paths ∧
      "/srv/app/urls.py" ∈ paths ∧ "/srv/urls.py" ∈ paths := by
  have hmodules : branchesOpened.modules branches [] =
      .ok (Discovery.modulePaths branches "urls.py" ["build"] ["srv"]) :=
    modules_directory (by decide) rfl (by decide) rfl rfl
  refine ⟨_, hmodules, ?_, ?_⟩
  · rw [Discovery.mem_modulePaths_iff rfl named_branches]
    exact ⟨["app", "urls.py"], rfl, rfl, rfl, _, rfl, rfl⟩
  · rw [Discovery.mem_modulePaths_iff rfl named_branches]
    exact ⟨["urls.py"], rfl, rfl, rfl, _, rfl, rfl⟩

theorem modules_watched_iff_branches :
    ∃ start, watch { fs := branches, here := [], workspace := branchesOpened } = .ok start ∧
      branchesOpened.concerns branches [] "/srv/app/urls.py" = .ok true ∧
      start.collector.wants start.handling "/srv/app/urls.py" = .ok true ∧
      ((start.after (.event (.modified "/srv/app/urls.py"))).after .flush).collector.world.workspace =
        (branchesOpened.refresh branches []).1 ∧
      ((start.after (.event (.modified "/srv/urls.py"))).after .flush).collector.world =
        { fs := branches, here := [], workspace := branchesOpened } := by
  obtain ⟨paths, hmodules, hin, hout⟩ := modules_branches
  have htexts : ∀ v ∈ branchesOpened.settings.ignored, ∃ t, v = .text t :=
    List.forall_mem_singleton.mpr ⟨_, rfl⟩
  obtain ⟨ignored, start, hignored, hwatch, hall⟩ :=
    modules_watched_iff (by decide) rfl named_branches rfl htexts hmodules
  obtain rfl : ["build"] = ignored := Except.ok.inj hignored
  have hstays : LeadsInside branches [] ["srv"] ["build"] "/srv/app/urls.py" := ⟨["routes.py"], rfl, rfl⟩
  have hleaves : ¬ LeadsInside branches [] ["srv"] ["build"] "/srv/urls.py" := by
    rintro ⟨names, hresolve, -⟩
    have htarget : branches.resolve [] (Path.ofString "/srv/urls.py") =
        .ok ⟨.root, ["shared", "urls.py"]⟩ := rfl
    rw [htarget] at hresolve
    exact absurd (Except.ok.inj hresolve) (by simp)
  obtain ⟨-, hconcerns, hwants, hevent⟩ := hall _ hin
  obtain ⟨-, -, -, hpassed⟩ := hall _ hout
  exact ⟨start, hwatch, hconcerns.mpr hstays, hwants.mpr hstays, (hevent _ _ rfl).1 hstays,
    (hpassed _ _ rfl).2 hleaves⟩

/-- Discovery finds a link that leaves the project, and nobody hears of a change of it. -/
theorem modules_unwatched :
    ∃ paths start, branchesOpened.modules branches [] = .ok paths ∧ "/srv/urls.py" ∈ paths ∧
      watch { fs := branches, here := [], workspace := branchesOpened } = .ok start ∧
      branchesOpened.concerns branches [] "/srv/urls.py" = .ok false ∧
      start.collector.wants start.handling "/srv/urls.py" = .ok false := by
  obtain ⟨paths, hmodules, -, hpath⟩ := modules_branches
  exact ⟨paths, _, hmodules, hpath, rfl, rfl, rfl⟩

end Workspace

end RouteAtlas
