import RouteAtlas.Proofs.Discovery
import RouteAtlas.Proofs.Edit
import RouteAtlas.Proofs.Refresh
import RouteAtlas.Proofs.Resolution
import RouteAtlas.Proofs.Upkeep

/-!
# A watched workspace is never out of date

Files below the root of a project are edited while a watcher of the workspace hears of the edits, sooner
or later, and delivers what waits, now and then (`Watched`). All along the snapshot of the workspace is
current, or something waits that will make it so, or an edit is still to be heard of (`Keeps`). So in the
end the snapshot is the one of a workspace opened then (`watched_upToDate`), but for namespaces that no
file binds any more, which are kept.
-/

namespace RouteAtlas

namespace Workspace

open RouteAtlas.Tree (Location Edit Edited IsProject pathTo)
open Discovery (isModule modulePaths)
open Watch (Collector Handling Watcher)

/-! ## What a workspace hears of -/

/-- The path of a place below the root. -/
def Known (root : Location) (path : String) : Prop :=
  ∃ q, AreNames (root ++ q) ∧ path = pathTo (root ++ q)

/-- The path of a place where a routing module may be. -/
def Matters (fileName : WideText) (ignored : List String) (root : Location) (path : String) : Prop :=
  ∃ q, isModule fileName ignored q = true ∧ AreNames (root ++ q) ∧ path = pathTo (root ++ q)

variable {settings : Settings} {ignored : List String} {root here : Location}

/-- The last name of a path, with what stands before it below the root, is what is looked at. -/
theorem concerns_pathTo {w : Workspace} {fs : Tree} (h : IsProject fs root)
    (hignored : w.settings.ignoredNames = .ok ignored) (hroot : w.root = ⟨.root, root⟩) {q : Location}
    (hq : AreNames (root ++ q)) (here : Location) :
    w.concerns fs here (pathTo (root ++ q)) = .ok (
      w.settings.fileName.spells (Path.mk .root (root ++ q)).name &&
      !q.dropLast.any (Discovery.skips ignored)) := by
  have hpath : Path.ofString (pathTo (root ++ q)) = ⟨.root, root ++ q⟩ := Path.ofString_toString hq
  have hrelative : (Path.mk .root (root ++ q)).relativeTo? ⟨.root, root⟩ = some q :=
    Path.relativeTo?_eq_some.mpr rfl
  simp only [concerns, hpath, h.resolve hq, hroot, hrelative, hignored, bind, Except.bind, pure,
    Except.pure]
  cases w.settings.fileName.spells (Path.mk .root (root ++ q)).name <;> rfl

/-- The filter lets every routing module through. It knows nothing of hidden folders. -/
theorem covers_pathTo {fileName : WideText} {q : Location} (hq : AreNames (root ++ q))
    (hspells : fileName.spells (Path.mk .root (root ++ q)).name = true)
    (hskips : q.dropLast.any (Discovery.skips ignored) = false) :
    (Watch.Filter.mk fileName ignored (some ⟨.root, root⟩)).covers (pathTo (root ++ q)) = true := by
  have hpath : Path.ofString (pathTo (root ++ q)) = ⟨.root, root ++ q⟩ := Path.ofString_toString hq
  have hrelative : (Path.mk .root (root ++ q)).relativeTo? ⟨.root, root⟩ = some q :=
    Path.relativeTo?_eq_some.mpr rfl
  have hignored : q.dropLast.any ignored.contains = false := by
    rw [List.any_eq_false] at hskips ⊢
    intro a ha hmem
    exact hskips a ha (by rw [Discovery.skips, hmem, Bool.true_or])
  simp [Watch.Filter.covers, Watch.Filter.partsOf, hpath, hrelative, hspells, hignored]

/-- The rule for places of modules, as a workspace applies it to a path. -/
theorem isModule_eq {fileName : WideText} {q : Location} (hq : q ≠ []) :
    isModule fileName ignored q =
      (fileName.spells (Path.mk .root (root ++ q)).name &&
        !q.dropLast.any (Discovery.skips ignored)) := by
  obtain ⟨above, name, rfl⟩ : ∃ above name, q = above ++ [name] :=
    ⟨_, _, (List.dropLast_append_getLast hq).symm⟩
  rw [Discovery.isModule_append, ← List.append_assoc]
  simp [Path.name]

/-- A routing module has the right name, and no folder above it is skipped. -/
theorem of_isModule {fileName : WideText} {q : Location}
    (h : isModule fileName ignored q = true) :
    fileName.spells (Path.mk .root (root ++ q)).name = true ∧
      q.dropLast.any (Discovery.skips ignored) = false := by
  rwa [isModule_eq (Discovery.ne_nil_of_isModule h), Bool.and_eq_true, Bool.not_eq_true'] at h

/-! ## What a refresh gives -/

/-- The modules below a root, with what they say. -/
def filesAt (settings : Settings) (ignored : List String) (root here : Location) (fs : Tree) :
    List (String × Urlconf) :=
  Scan.said (Urlconf.read settings.blockOnly)
    (Scan.readings (Source.read fs here) (modulePaths fs settings.fileName ignored root))

/-- A refresh succeeds and publishes what the files say. -/
theorem refresh_project {w : Workspace} {fs : Tree} (h : IsProject fs root)
    (hignored : w.settings.ignoredNames = .ok ignored) (hroot : w.root = ⟨.root, root⟩)
    (here : Location) :
    (w.refresh fs here).1 = { w with
      snapshot := Scan.nextSnapshot w.snapshot (filesAt w.settings ignored root here fs) } ∧
    ∃ scan, (w.refresh fs here).2.2 = .ok scan := by
  have hmodules : w.modules fs here = .ok (modulePaths fs w.settings.fileName ignored root) := by
    rw [modules, hroot, hignored]
    exact Discovery.find_project h here _ _
  obtain ⟨hpublished, hscan⟩ := refresh_of_ok hmodules
  exact ⟨hpublished, _, hscan⟩

/-- A snapshot holds the records that a first scan of some files would give, and every namespace that
it would bind. -/
def Current (files : List (String × Urlconf)) (s : Snapshot) : Prop :=
  s.records = (Scan.nextSnapshot .initial files).records ∧
    ∀ key space, (Scan.nextSnapshot .initial files).namespaces.get? key = some space →
      s.namespaces.get? key = some space

/-- Whatever was published before, a refresh publishes a current snapshot. -/
theorem current_nextSnapshot (settings : Settings) (ignored : List String) (root here : Location)
    (fs : Tree) (previous : Snapshot) :
    Current (filesAt settings ignored root here fs)
      (Scan.nextSnapshot previous (filesAt settings ignored root here fs)) := by
  refine ⟨rfl, fun key space hfresh => ?_⟩
  rw [filesAt, Scan.get?_nextSnapshot] at hfresh ⊢
  have hempty : Snapshot.initial.namespaces.get? key = none := rfl
  rw [hempty, Option.or_none] at hfresh
  rw [hfresh, Option.some_or]

/-- What the modules say does not change where no change matters. -/
theorem filesAt_edited {fs fs' : Tree} {changes : List Watch.FileChange} (h : IsProject fs root)
    (hedited : Edited root fs changes fs')
    (hquiet : ∀ change ∈ changes, ¬ Matters settings.fileName ignored root change.path) :
    filesAt settings ignored root here fs' = filesAt settings ignored root here fs := by
  have hsame : ∀ q, isModule settings.fileName ignored q = true → ∀ bytes,
      fs'.sightAt? (root ++ q) = some (.file bytes) ↔ fs.sightAt? (root ++ q) = some (.file bytes) := by
    intro q hq bytes
    rcases hedited.elsewhere (root ++ q) with hsame | ⟨change, hmem, hpath⟩
    · rw [hsame]
    · -- a change here would matter, unless no file can be here, before or after
      have hsilent : ¬ AreNames (root ++ q) := fun hnames =>
        hquiet change hmem ⟨q, hq, hnames, hpath⟩
      constructor
      · exact fun hfile => absurd (hedited.project.names_of_sight hfile) hsilent
      · exact fun hfile => absurd (h.names_of_sight hfile) hsilent
  have hpaths : modulePaths fs' settings.fileName ignored root =
      modulePaths fs settings.fileName ignored root :=
    Discovery.modulePaths_congr h hedited.project hsame
  rw [filesAt, filesAt, hpaths]
  congr 1
  refine List.map_congr_left fun path hpath => ?_
  obtain ⟨q, rfl, hq, -, bytes, hfile⟩ :=
    (Discovery.mem_modulePaths h).mp (List.mem_eraseDups.mp hpath)
  have hread := Source.read_congr (h.names_of_sight hfile) hfile ((hsame q hq bytes).mpr hfile) here
  rw [hread]

/-! ## Watching -/

/-- A site of a project, with a file tree. -/
structure Sound (settings : Settings) (root here : Location) (fs : Tree) (s : Site) : Prop where
  fs : s.fs = fs
  here : s.here = here
  root : s.workspace.root = ⟨.root, root⟩
  settings : s.workspace.settings = settings

theorem Sound.ignoredNames {settings : Settings} {root here : Location} {fs : Tree} {s : Site}
    (hs : Sound settings root here fs s) {ignored : List String}
    (h : settings.ignoredNames = .ok ignored) : s.workspace.settings.ignoredNames = .ok ignored := by
  rw [hs.settings]
  exact h

/-- The published snapshot of a site is current. -/
def Fresh (settings : Settings) (ignored : List String) (root here : Location) (s : Site) : Prop :=
  Current (filesAt settings ignored root here s.fs) s.workspace.snapshot

theorem Handles.keepsUp {w : Workspace} {h : Handling Site} (hh : Handles w ignored h)
    (hignored : w.settings.ignoredNames = .ok ignored) (hroot : w.root = ⟨.root, root⟩) {fs : Tree}
    (hproject : IsProject fs root) :
    h.KeepsUp (Sound w.settings root here fs) (Fresh w.settings ignored root here) (Known root)
      (Matters w.settings.fileName ignored root) where
  ordinary := hh.ordinary
  decides := by
    rintro c path hc ⟨q, hq, rfl⟩
    rw [Collector.wants, hh.accept, hc.fs,
      concerns_pathTo hproject (hc.ignoredNames hignored) hc.root hq]
    split
    · exact ⟨_, rfl⟩
    · exact ⟨_, rfl⟩
  wants := by
    rintro c path hc ⟨q, hmodule, hq, rfl⟩
    obtain ⟨hspells, hskips⟩ := of_isModule hmodule
    rw [Collector.wants, hh.filter, hroot, if_pos (covers_pathTo hq hspells hskips), hh.accept, hc.fs,
      concerns_pathTo hproject (hc.ignoredNames hignored) hc.root hq, hc.settings, hspells, hskips]
    rfl
  sound := by
    intro s batch hs
    have hpublished := (refresh_project hproject (hs.ignoredNames hignored) hs.root s.here).1
    constructor
    · rw [hh.files, hs.fs]
    · rw [hh.here, hs.here]
    · rw [hh.refreshed, hs.fs, hpublished, hs.root]
    · rw [hh.refreshed, hs.fs, hpublished, hs.settings]
  fresh := by
    intro s batch hs
    have hpublished := (refresh_project hproject (hs.ignoredNames hignored) hs.root s.here).1
    rw [Fresh, hh.refreshed, hh.files, hs.fs, hpublished, hs.settings, hs.here]
    exact current_nextSnapshot w.settings ignored root here fs _

/-! ## Runs -/

/-- The states of a watcher while files below the root are edited, with the events that it has not heard
of yet. Time may be up at any moment. -/
inductive Watched (root : Location) (start : Watcher Site) : Watcher Site → List Watch.Event → Prop
  | begun : Watched root start start []
  | edited {w : Watcher Site} {unheard : List Watch.Event} {e : Watch.Event} {fs : Tree}
      (h : Watched root start w unheard) (he : Edit root w.collector.world.fs e fs) :
      Watched root start (w.after (.world fun s => { s with fs })) (unheard ++ [e])
  | heard {w : Watcher Site} {unheard : List Watch.Event} {e : Watch.Event}
      (h : Watched root start w (e :: unheard)) : Watched root start (w.after (.event e)) unheard
  | flushed {w : Watcher Site} {unheard : List Watch.Event} (h : Watched root start w unheard) :
      Watched root start (w.after .flush) unheard

/-- What a watched workspace keeps: its snapshot is current, or something waits that will make it so,
or an event is under way that will be heard of. -/
structure Keeps (settings : Settings) (ignored : List String) (root here : Location)
    (h : Handling Site) (w : Watcher Site) (unheard : List Watch.Event) : Prop where
  handling : w.handling = h
  sound : Sound settings root here w.collector.world.fs w.collector.world
  project : IsProject w.collector.world.fs root
  known : ∀ e ∈ unheard, ∀ change ∈ e.changes, Known root change.path
  current : w.collector.Settled (Fresh settings ignored root here) ∨
    ∃ e ∈ unheard, ∃ change ∈ e.changes, Matters settings.fileName ignored root change.path
  idle : h.immediate = true → w.collector.Idle

namespace Keeps

variable {h : Handling Site} {w : Watcher Site} {unheard : List Watch.Event} {e : Watch.Event}

theorem edited (hw : Keeps settings ignored root here h w unheard) {fs : Tree}
    (he : Edit root w.collector.world.fs e fs) :
    Keeps settings ignored root here h (w.after (.world fun s => { s with fs })) (unheard ++ [e]) := by
  have hedited := he.edited hw.project
  refine ⟨hw.handling, ⟨rfl, hw.sound.here, hw.sound.root, hw.sound.settings⟩, hedited.project, ?_, ?_,
    hw.idle⟩
  · intro e' he' change hchange
    rcases List.mem_append.mp he' with he' | he'
    · exact hw.known e' he' change hchange
    · rw [List.mem_singleton.mp he'] at hchange
      exact hedited.known change hchange
  · -- either the edit is one that is to be heard of, or it leaves what the modules say as it was
    by_cases hmatters : ∃ change ∈ e.changes, Matters settings.fileName ignored root change.path
    · exact Or.inr ⟨e, List.mem_append_right _ (List.mem_singleton_self e), hmatters⟩
    · rcases hw.current with (hwaiting | hfresh) | ⟨e', he', hchange⟩
      · exact Or.inl (Or.inl hwaiting)
      · have hquiet : ∀ change ∈ e.changes,
            ¬ Matters settings.fileName ignored root change.path :=
          fun change hmem hchange => hmatters ⟨change, hmem, hchange⟩
        refine Or.inl (Or.inr ?_)
        show Current (filesAt settings ignored root here fs) w.collector.world.workspace.snapshot
        rw [filesAt_edited hw.project hedited hquiet]
        exact hfresh
      · exact Or.inr ⟨e', List.mem_append_left _ he', hchange⟩

/-- A collector whose world is as sound as before may take the place of the one before. -/
theorem replace (hw : Keeps settings ignored root here h w unheard) {c : Collector Site}
    (hc : Sound settings root here w.collector.world.fs c.world) {unheard' : List Watch.Event}
    (hknown : ∀ e ∈ unheard', e ∈ unheard)
    (hcurrent : c.Settled (Fresh settings ignored root here) ∨
      ∃ e ∈ unheard', ∃ change ∈ e.changes, Matters settings.fileName ignored root change.path)
    (hidle : h.immediate = true → c.Idle) :
    Keeps settings ignored root here h { w with collector := c } unheard' := by
  have hfs : c.world.fs = w.collector.world.fs := hc.fs
  refine ⟨hw.handling, ⟨rfl, hc.here, hc.root, hc.settings⟩, ?_,
    fun e he => hw.known e (hknown e he), hcurrent, hidle⟩
  show IsProject c.world.fs root
  rw [hfs]
  exact hw.project

variable {opened : Workspace}

/-- The owner keeps up wherever the run has come to. -/
theorem keepsUp (hw : Keeps opened.settings ignored root here h w unheard)
    (hh : Handles opened ignored h) (hignored : opened.settings.ignoredNames = .ok ignored)
    (hroot : opened.root = ⟨.root, root⟩) :
    w.handling.KeepsUp (Sound opened.settings root here w.collector.world.fs)
      (Fresh opened.settings ignored root here) (Known root)
      (Matters opened.settings.fileName ignored root) := by
  rw [hw.handling]
  exact hh.keepsUp hignored hroot hw.project

theorem heard (hw : Keeps opened.settings ignored root here h w (e :: unheard))
    (hh : Handles opened ignored h) (hignored : opened.settings.ignoredNames = .ok ignored)
    (hroot : opened.root = ⟨.root, root⟩) :
    Keeps opened.settings ignored root here h (w.after (.event e)) unheard := by
  obtain ⟨-, hsound, hsettled⟩ := Collector.noteAll_keepsUp (hw.keepsUp hh hignored hroot) hw.sound
    (hw.known e List.mem_cons_self)
  refine hw.replace hsound (fun _ => List.mem_cons_of_mem e) ?_ fun hi => ?_
  · rcases hw.current with hbefore | ⟨e', he', hchange⟩
    · exact Or.inl (hsettled (Or.inl hbefore))
    · rcases List.mem_cons.mp he' with rfl | he'
      · exact Or.inl (hsettled (Or.inr hchange))
      · exact Or.inr ⟨e', he', hchange⟩
  · have hordinary : w.handling.Ordinary := by
      rw [hw.handling]
      exact hh.ordinary
    have himmediate : w.handling.immediate = true := by
      rw [hw.handling]
      exact hi
    exact (Collector.noteAll_of_immediate hordinary himmediate e.changes (hw.idle hi)).1

/-- Hearing of an event leaves the files as they are. -/
theorem fs_heard (hw : Keeps opened.settings ignored root here h w (e :: unheard))
    (hh : Handles opened ignored h) (hignored : opened.settings.ignoredNames = .ok ignored)
    (hroot : opened.root = ⟨.root, root⟩) :
    (w.after (.event e)).collector.world.fs = w.collector.world.fs :=
  (Collector.noteAll_keepsUp (hw.keepsUp hh hignored hroot) hw.sound
    (hw.known e List.mem_cons_self)).2.1.fs

/-- So does delivering what waits. -/
theorem fs_flushed (hw : Keeps opened.settings ignored root here h w unheard)
    (hh : Handles opened ignored h) (hignored : opened.settings.ignoredNames = .ok ignored)
    (hroot : opened.root = ⟨.root, root⟩) :
    (w.after .flush).collector.world.fs = w.collector.world.fs :=
  (Collector.flush_keepsUp (hw.keepsUp hh hignored hroot) hw.sound).1.fs

theorem flushed (hw : Keeps opened.settings ignored root here h w unheard)
    (hh : Handles opened ignored h) (hignored : opened.settings.ignoredNames = .ok ignored)
    (hroot : opened.root = ⟨.root, root⟩) :
    Keeps opened.settings ignored root here h (w.after .flush) unheard := by
  obtain ⟨hsound, hfresh⟩ := Collector.flush_keepsUp (hw.keepsUp hh hignored hroot) hw.sound
  refine hw.replace hsound (fun _ => id) ?_ fun hi => ?_
  · rcases hw.current with hbefore | hunder
    · exact Or.inl (Or.inr (hfresh hbefore))
    · exact Or.inr hunder
  · rw [Collector.flush_fst]
    exact ⟨rfl, rfl⟩

end Keeps

theorem Watched.keeps {start w : Watcher Site} {unheard : List Watch.Event} {opened : Workspace}
    {h : Handling Site} (hrun : Watched root start w unheard)
    (hstart : Keeps opened.settings ignored root here h start [])
    (hh : Handles opened ignored h) (hignored : opened.settings.ignoredNames = .ok ignored)
    (hroot : opened.root = ⟨.root, root⟩) :
    Keeps opened.settings ignored root here h w unheard := by
  induction hrun with
  | begun => exact hstart
  | edited hrun he ih => exact ih.edited he
  | heard hrun ih => exact ih.heard hh hignored hroot
  | flushed hrun ih => exact ih.flushed hh hignored hroot

/-! ## Never out of date -/

/-- The published snapshot has the records that a workspace opened now would publish, and every namespace
that it would bind. -/
def UpToDate (root : Path) (settings : Settings) (s : Site) : Prop :=
  ∃ opened, openAt s.fs s.here root (some settings) = .ok opened ∧
    (∃ scan, (opened.refresh s.fs s.here).2.2 = .ok scan) ∧
    s.workspace.snapshot.records = (opened.refresh s.fs s.here).1.snapshot.records ∧
    ∀ key space, (opened.refresh s.fs s.here).1.snapshot.namespaces.get? key = some space →
      s.workspace.snapshot.namespaces.get? key = some space

/-- A project is opened if its settings have a template, whatever files there are. -/
theorem openAt_project {fs : Tree} (h : IsProject fs root) (here : Location) (settings : Settings) :
    openAt fs here ⟨.root, root⟩ (some settings) = (Snippet.template settings.template).map
      fun template => { root := ⟨.root, root⟩, settings, template } := by
  simp only [openAt, h.resolve_root, bind, Except.bind, pure, Except.pure]
  cases Snippet.template settings.template <;> rfl

theorem of_openAt {fs : Tree} (h : IsProject fs root) {here : Location} {opened : Workspace}
    (hopened : openAt fs here ⟨.root, root⟩ (some settings) = .ok opened) :
    opened.root = ⟨.root, root⟩ ∧ opened.settings = settings ∧ opened.snapshot = .initial := by
  rw [openAt_project h] at hopened
  cases htemplate : Snippet.template settings.template with
  | error f =>
    rw [htemplate] at hopened
    contradiction
  | ok template =>
    rw [htemplate] at hopened
    cases hopened
    exact ⟨rfl, rfl, rfl⟩

/-- A current snapshot is up to date. -/
theorem upToDate_of_fresh {opened : Workspace} {s : Site} (hproject : IsProject s.fs root)
    (hopened : openAt s.fs s.here ⟨.root, root⟩ (some settings) = .ok opened)
    (hignored : settings.ignoredNames = .ok ignored) (hfresh : Fresh settings ignored root s.here s) :
    UpToDate ⟨.root, root⟩ settings s := by
  obtain ⟨hroot, rfl, hinitial⟩ := of_openAt hproject hopened
  obtain ⟨hpublished, hscan⟩ := refresh_project hproject hignored hroot s.here
  refine ⟨opened, hopened, hscan, ?_⟩
  rw [hpublished, hinitial]
  exact hfresh

/-- Watching begins with a current snapshot. -/
theorem exists_start {opened : Workspace} (hignored : opened.settings.ignoredNames = .ok ignored)
    (hroot : opened.root = ⟨.root, root⟩) {fs : Tree} (hproject : IsProject fs root)
    (here : Location) :
    ∃ h start, Handles opened ignored h ∧
      watch { fs, here, workspace := (opened.refresh fs here).1 } = .ok start ∧
      Keeps opened.settings ignored root here h start [] := by
  obtain ⟨hpublished, -⟩ := refresh_project hproject hignored hroot here
  have hignored' : (opened.refresh fs here).1.settings.ignoredNames = .ok ignored := by
    rw [hpublished]
    exact hignored
  obtain ⟨h, hhandling, hh⟩ := exists_handling hignored'
  have hopened : Handles opened ignored h := by
    rw [hpublished] at hh
    exact ⟨hh.filter, hh.immediate, hh.accept, hh.files, hh.here, hh.refreshed, hh.outcome⟩
  refine ⟨h, _, hopened, by rw [watch, hhandling]; rfl, rfl, ⟨rfl, rfl, ?_, ?_⟩, hproject, ?_,
    Or.inl (Or.inr ?_), fun _ => ⟨rfl, rfl⟩⟩
  · show (opened.refresh fs here).1.root = _
    rw [hpublished]
    exact hroot
  · show (opened.refresh fs here).1.settings = _
    rw [hpublished]
  · exact fun e he => absurd he List.not_mem_nil
  · show Current (filesAt opened.settings ignored root here fs) (opened.refresh fs here).1.snapshot
    rw [hpublished]
    exact current_nextSnapshot opened.settings ignored root here fs _

/-- However files below the root are edited, and whenever time is up: once a watched workspace has heard
of all edits and delivered what waited, it is up to date. Without a waiting time it is so as soon as it
has heard of them. -/
theorem watched_upToDate {fs : Tree} {root : Location} (hproject : IsProject fs root) {here : Location}
    {settings : Settings} (htexts : ∀ v ∈ settings.ignored, ∃ t, v = .text t) {opened : Workspace}
    (hopened : openAt fs here ⟨.root, root⟩ (some settings) = .ok opened) :
    ∃ start, watch { fs, here, workspace := (opened.refresh fs here).1 } = .ok start ∧
      ∀ w unheard, Watched root start w unheard →
        (∀ e ∈ unheard, (w.collector.hear w.handling e).2 = .ok ()) ∧
        (w.collector.flush w.handling).2 = .ok w.collector.waiting ∧
        (unheard = [] →
          UpToDate ⟨.root, root⟩ settings (w.after .flush).collector.world ∧
          (settings.debounce ≤ 0 → UpToDate ⟨.root, root⟩ settings w.collector.world)) := by
  obtain ⟨ignored, hignored⟩ := exists_ignoredNames htexts
  obtain ⟨hroot, rfl, -⟩ := of_openAt hproject hopened
  obtain ⟨h, start, hh, hwatch, hstart⟩ := exists_start hignored hroot hproject here
  refine ⟨start, hwatch, fun w unheard hrun => ?_⟩
  have hkeeps := hrun.keeps hstart hh hignored hroot
  have hkeepsUp := hkeeps.keepsUp hh hignored hroot
  refine ⟨fun e he => (Collector.noteAll_keepsUp hkeepsUp hkeeps.sound (hkeeps.known e he)).1,
    Collector.flush_snd hkeepsUp.ordinary w.collector, ?_⟩
  rintro rfl
  have hsettled : w.collector.Settled (Fresh opened.settings ignored root here) := by
    refine hkeeps.current.resolve_right ?_
    rintro ⟨e, he, -⟩
    exact List.not_mem_nil he
  have hupToDate : ∀ {w' : Watcher Site}, Keeps opened.settings ignored root here h w' [] →
      Fresh opened.settings ignored root here w'.collector.world →
      UpToDate ⟨.root, root⟩ opened.settings w'.collector.world := by
    intro w' hw' hfresh
    have hopened' : openAt w'.collector.world.fs w'.collector.world.here ⟨.root, root⟩
        (some opened.settings) = .ok opened := by
      rw [openAt_project hw'.project, ← openAt_project hproject here]
      exact hopened
    refine upToDate_of_fresh hw'.project hopened' hignored ?_
    rw [hw'.sound.here]
    exact hfresh
  constructor
  · exact hupToDate (hkeeps.flushed hh hignored hroot)
      ((Collector.flush_keepsUp hkeepsUp hkeeps.sound).2 hsettled)
  · intro hdebounce
    have himmediate : h.immediate = true := by
      rw [hh.immediate]
      exact decide_eq_true hdebounce
    have hwaiting : w.collector.waiting = [] := by
      rw [Collector.waiting, (hkeeps.idle himmediate).1]
      rfl
    exact hupToDate hkeeps (hsettled.resolve_left fun hne => hne hwaiting)

/-! ## A small project -/

theorem world_of_watch {s : Site} {start : Watcher Site} (h : watch s = .ok start) :
    start.collector.world = s := by
  rw [watch] at h
  cases hhandling : s.workspace.handling with
  | error f =>
    rw [hhandling] at h
    contradiction
  | ok handling =>
    rw [hhandling] at h
    cases h
    rfl

/-- A project with one folder. -/
def shop : Tree := .folder [("srv", .folder [("app", .folder [])]), ("home", .link "/srv")]

/-- A routing module. -/
def shopText : String := "path('home/', home, name='home'), include(('app.urls', 'app'), namespace='shop')"

/-- The project with the routing module. -/
def stocked : Tree := .put (.file shopText.toUTF8.toList) ["srv", "app", "urls.py"] shop

/-- A workspace of the project. -/
def shopOpened : Workspace := { root := ⟨.root, ["srv"]⟩, settings := {}, template := .default }

theorem isProject_shop : IsProject shop ["srv"] := by
  refine ⟨List.forall_mem_singleton.mpr (by decide), by decide, _, rfl, ?_⟩
  simp only [Tree.Plain, Tree.PlainAmong]
  decide

theorem edit_shop : Edit ["srv"] shop (.created "/srv/app/urls.py") stocked := by
  have hpath : pathTo ["srv", "app", "urls.py"] = "/srv/app/urls.py" := by decide
  rw [← hpath]
  exact @Edit.created ["srv"] shop ["app"] "urls.py" shopText.toUTF8.toList (by decide)
    ⟨rfl, by decide⟩ rfl

theorem isProject_stocked : IsProject stocked ["srv"] := (edit_shop.edited isProject_shop).project

/-- The project is opened alike with the module and without it. -/
theorem openAt_shop {fs : Tree} (h : IsProject fs ["srv"]) :
    openAt fs [] ⟨.root, ["srv"]⟩ (some {}) = .ok shopOpened := by
  have hwide : Template.ofWide ({} : Settings).template = .ok .default := Template.ofText_defaultText
  have htemplate : Snippet.template ({} : Settings).template = .ok .default := by
    rw [Snippet.template, hwide]
  rw [openAt_project h, htemplate]
  rfl

/-- The folder of the project is not among those that are passed over. -/
theorem exists_ignored_shop : ∃ ignored, shopOpened.settings.ignoredNames = .ok ignored ∧
    Discovery.skips ignored "app" = false := ⟨_, rfl, by decide⟩

theorem read_stocked : Source.read stocked [] "/srv/app/urls.py" = .ok shopText := by
  have hsize : shopText.toUTF8.toList.length ≤ Source.largest := by
    rw [Text.Utf8.toList_toUTF8]
    decide +kernel
  exact Source.read_written (l := ["srv", "app", "urls.py"]) (by decide) (by decide) rfl hsize
    (by decide +kernel) []

theorem modulePaths_stocked (hskips : Discovery.skips ignored "app" = false) :
    modulePaths stocked "urls.py" ignored ["srv"] = ["/srv/app/urls.py"] := by
  have hmodules : Discovery.modulesIn stocked "urls.py" ignored ["srv"]
      ((stocked.at? ["srv"]).getD (.folder [])) = [["srv", "app", "urls.py"]] := by
    show [] ++ (if Discovery.skips ignored "app" then [] else
      [["srv", "app", "urls.py"]] ++ (if Discovery.skips ignored "urls.py" then [] else []) ++ []) ++ [] = _
    rw [hskips, ite_self]
    rfl
  rw [modulePaths, hmodules, List.map_singleton, List.mergeSort_singleton]
  rfl

/-- What the module says. -/
theorem filesAt_stocked (hskips : Discovery.skips ignored "app" = false) :
    filesAt {} ignored ["srv"] [] stocked =
      [("/srv/app/urls.py", ⟨[⟨"home/", "home"⟩], .ofList [("app/urls", "shop")]⟩)] := by
  have hpaths : modulePaths stocked ({} : Settings).fileName ignored ["srv"] = ["/srv/app/urls.py"] :=
    modulePaths_stocked hskips
  have hreadings : Scan.readings (Source.read stocked []) ["/srv/app/urls.py"] =
      [("/srv/app/urls.py", .ok shopText)] := by
    show [("/srv/app/urls.py", Source.read stocked [] "/srv/app/urls.py")] = _
    rw [read_stocked]
  have hurlconf : Urlconf.read false shopText =
      ⟨[⟨"home/", "home"⟩], .ofList [("app/urls", "shop")]⟩ := by decide +kernel
  rw [filesAt, hpaths, hreadings]
  show [("/srv/app/urls.py", Urlconf.read false shopText)] = _
  rw [hurlconf]

theorem snapshot_stocked : (shopOpened.refresh stocked []).1.snapshot =
    Scan.nextSnapshot .initial
      [("/srv/app/urls.py", ⟨[⟨"home/", "home"⟩], .ofList [("app/urls", "shop")]⟩)] := by
  obtain ⟨ignored, hignored, hskips⟩ := exists_ignored_shop
  have hpublished := (refresh_project isProject_stocked hignored rfl []).1
  have hfiles : filesAt shopOpened.settings ignored ["srv"] [] stocked = _ := filesAt_stocked hskips
  rw [hpublished, hfiles]
  rfl

/-- When the edit has been heard of and delivered, the files are those of the edit still. -/
theorem world_stocked {start : Watcher Site}
    (hwatch : watch { fs := shop, here := [], workspace := (shopOpened.refresh shop []).1 } = .ok start)
    (hedit : Edit ["srv"] start.collector.world.fs (.created "/srv/app/urls.py") stocked) :
    let s := (((start.after (.world fun s => { s with fs := stocked })).after
      (.event (.created "/srv/app/urls.py"))).after .flush).collector.world
    s.fs = stocked ∧ s.here = [] := by
  obtain ⟨ignored, hignored, -⟩ := exists_ignored_shop
  obtain ⟨h, start', hh, hwatch', hstart⟩ := exists_start hignored rfl isProject_shop []
  cases hwatch.symm.trans hwatch'
  have hedited := (Watched.begun.edited hedit).keeps hstart hh hignored rfl
  have hheard := hedited.heard hh hignored rfl
  exact ⟨(hheard.fs_flushed hh hignored rfl).trans (hedited.fs_heard hh hignored rfl),
    (hheard.flushed hh hignored rfl).sound.here⟩

/-- A module is made, and then time is up: its route and its namespace are published. -/
theorem watched_upToDate_shop :
    ∃ start, watch { fs := shop, here := [], workspace := (shopOpened.refresh shop []).1 } = .ok start ∧
      let s := (((start.after (.world fun s => { s with fs := stocked })).after
        (.event (.created "/srv/app/urls.py"))).after .flush).collector.world
      UpToDate ⟨.root, ["srv"]⟩ {} s ∧
        s.workspace.snapshot.files.map (fun r => (r.path, r.routes)) =
          [("/srv/app/urls.py", [⟨"home/", "home"⟩])] ∧
        s.workspace.snapshot.namespaceOf "app/urls" = some "shop" := by
  have htexts : ∀ v ∈ ({} : Settings).ignored, ∃ t, v = .text t := by
    intro v hv
    obtain ⟨s, -, rfl⟩ := List.mem_map.mp hv
    exact ⟨_, rfl⟩
  obtain ⟨start, hwatch, hrun⟩ := watched_upToDate isProject_shop htexts (openAt_shop isProject_shop)
  have hedit : Edit ["srv"] start.collector.world.fs (.created "/srv/app/urls.py") stocked := by
    rw [world_of_watch hwatch]
    exact edit_shop
  have hupToDate := ((hrun _ [] (.heard (.edited .begun hedit))).2.2 rfl).1
  obtain ⟨hfs, hhere⟩ := world_stocked hwatch hedit
  refine ⟨start, hwatch, hupToDate, ?_⟩
  obtain ⟨opened, hopened, -, hrecords, hspaces⟩ := hupToDate
  rw [hfs, hhere] at hopened hrecords hspaces
  cases hopened.symm.trans (openAt_shop isProject_stocked)
  rw [snapshot_stocked] at hrecords hspaces
  constructor
  · rw [Snapshot.files, hrecords]
    rfl
  · exact hspaces "app/urls" "shop" rfl

end Workspace

end RouteAtlas
