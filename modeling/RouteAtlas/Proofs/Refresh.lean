import RouteAtlas.Proofs.Coalescing
import RouteAtlas.Workspace

/-!
# A refresh never asks to stop

Whatever the file tree is like, a refresh that fails does so in an ordinary way, so that a watcher of a
workspace only logs its faults (`Workspace.Handles.ordinary`).
-/

namespace RouteAtlas

open RouteAtlas.Tree (Location)

theorem Tree.not_fatal_of_resolve {fs : Tree} {here : Location} {p : Path} {f : Fault}
    (h : fs.resolve here p = .error f) : f.isFatal = false := by
  rw [resolve] at h
  split at h
  · dsimp only at h
    split at h
    · cases h
      rfl
    · contradiction
  · cases h
    rfl

theorem Tree.not_fatal_of_hasFolder {fs : Tree} {here : Location} {path : String} {f : Fault}
    (h : fs.hasFolder here path = .error f) : f.isFatal = false := by
  rw [hasFolder, holds] at h
  split at h
  · split at h
    · contradiction
    · split at h
      · contradiction
      · cases h
        rfl
  · contradiction

theorem Settings.not_fatal_of_namesIn {items : List Value} {f : Fault}
    (h : namesIn items = .error f) : f.isFatal = false := by
  induction items with
  | nil => contradiction
  | cons v items ih =>
    rw [namesIn] at h
    split at h
    · cases h
      rfl
    · rename_i s _ _
      cases hrest : namesIn items with
      | ok names =>
        rw [hrest] at h
        contradiction
      | error f' =>
        rw [hrest] at h
        cases h
        exact ih hrest
    · exact ih h

/-- Names can be looked up in an ignored list if every item of it can be. -/
theorem Settings.exists_namesIn_iff {items : List Value} :
    (∃ names, namesIn items = .ok names) ↔ ∀ v ∈ items, v.unkeyed? = none := by
  induction items with
  | nil => exact iff_of_true ⟨[], rfl⟩ (List.forall_mem_nil _)
  | cons v items ih =>
    rw [List.forall_mem_cons, ← ih, namesIn]
    cases hkey : v.unkeyed? with
    | some type => simp
    | none =>
      cases htext : v.text? with
      | none => simp
      | some w =>
        cases w with
        | unpaired codes => simp
        | plain name => cases namesIn items <;> simp [Except.map]

theorem Discovery.not_fatal_of_find {fs : Tree} {here : Location} {root : Path}
    {fileName : WideText} {ignored : Except Fault (List String)} {f : Fault}
    (hignored : ∀ f, ignored = .error f → f.isFatal = false)
    (h : find fs here root fileName ignored = .error f) : f.isFatal = false := by
  simp only [find, bind, Except.bind, pure, Except.pure] at h
  split at h
  · rename_i f' hresolve
    cases h
    exact Tree.not_fatal_of_resolve hresolve
  · split at h
    · rename_i f' hfolder
      cases h
      exact Tree.not_fatal_of_hasFolder hfolder
    · split at h
      · cases ignored with
        | ok names => contradiction
        | error f' =>
          cases h
          exact hignored _ rfl
      · cases h
        rfl

/-- Reading a file never asks to stop. -/
theorem Source.not_fatal_of_read {fs : Tree} {here : Location} {path : String} {f : Fault}
    (h : read fs here path = .error f) : f.isFatal = false := by
  have hget : ∀ path f, fs.get here path = .error f → f.isFatal = false := by
    intro path f hf
    rw [Tree.get] at hf
    split at hf
    · split at hf
      · contradiction
      · cases hf
        rfl
    · cases hf
      rfl
  have hdecode : ∀ bytes f, decode bytes = .error f → f.isFatal = false := by
    intro bytes f hf
    rw [decode] at hf
    split at hf
    · contradiction
    · cases hf
      rfl
  simp only [read, bind, Except.bind] at h
  split at h
  · rename_i f' hf
    cases h
    exact hget _ _ hf
  · split at h
    · split at h
      · cases h
        rfl
      · exact hdecode _ _ h
    · cases h
      rfl

/-- A scan that reads files is never stopped. -/
theorem Scan.run_read (extract : String → Urlconf) (previous : Snapshot) (paths : List String)
    (fs : Tree) (here : Location) :
    (run extract previous paths (Source.read fs here)).1 =
      .ok (found extract previous (Source.read fs here) paths) :=
  (run_finds (fun _ _ _ => Source.not_fatal_of_read) previous).1

namespace Workspace

variable {w : Workspace} {fs : Tree} {here : Location}

/-- A refresh that finds the modules publishes what is found in them. -/
theorem refresh_of_ok {paths : List String} (h : w.modules fs here = .ok paths) :
    let scan := Scan.found (Urlconf.read w.settings.blockOnly) w.snapshot (Source.read fs here) paths
    (w.refresh fs here).1 = { w with snapshot := scan.snapshot } ∧
      (w.refresh fs here).2.2 = .ok scan := by
  have hrun := Scan.run_read (Urlconf.read w.settings.blockOnly) w.snapshot paths fs here
  rw [refresh, h]
  dsimp only
  rw [hrun]
  exact ⟨rfl, rfl⟩

/-- Ignored items that are texts can be looked up. -/
theorem exists_ignoredNames {settings : Settings} (h : ∀ v ∈ settings.ignored, ∃ t, v = .text t) :
    ∃ ignored, settings.ignoredNames = .ok ignored := by
  refine Settings.exists_namesIn_iff.mpr fun v hv => ?_
  obtain ⟨t, rfl⟩ := h v hv
  rfl

theorem not_fatal_of_refresh {f : Fault} (h : (w.refresh fs here).2.2 = .error f) :
    f.isFatal = false := by
  cases hmodules : w.modules fs here with
  | ok paths =>
    rw [(refresh_of_ok hmodules).2] at h
    contradiction
  | error f' =>
    rw [refresh, hmodules] at h
    cases h
    exact Discovery.not_fatal_of_find (fun _ => Settings.not_fatal_of_namesIn) hmodules

/-- How a workspace handles changes: it hears of the modules that concern it, and a batch asks for a
refresh. -/
structure Handles (w : Workspace) (ignored : List String) (h : Watch.Handling Site) : Prop where
  filter : h.filter = ⟨w.settings.fileName, ignored, some w.root⟩
  immediate : h.immediate = (WatchOptions.ofSettings w.settings).immediate
  accept : ∀ s path, h.accept s path = s.workspace.concerns s.fs s.here path
  files : ∀ s batch, (h.deliver s batch).1.fs = s.fs
  here : ∀ s batch, (h.deliver s batch).1.here = s.here
  refreshed : ∀ s batch, (h.deliver s batch).1.workspace = (s.workspace.refresh s.fs s.here).1
  outcome : ∀ s batch,
    (h.deliver s batch).2.2 = (s.workspace.refresh s.fs s.here).2.2.map fun _ => ()

theorem exists_handling {ignored : List String} (hignored : w.settings.ignoredNames = .ok ignored) :
    ∃ h, w.handling = .ok h ∧ Handles w ignored h := by
  have hnames : Settings.namesIn w.settings.ignored = .ok ignored := hignored
  cases hh : w.handling with
  | error f =>
    simp [handling, WatchOptions.filter, WatchOptions.ofSettings, hnames, bind, Except.bind, pure,
      Except.pure] at hh
  | ok h =>
    simp only [handling, WatchOptions.filter, WatchOptions.ofSettings, hnames, bind, Except.bind, pure,
      Except.pure] at hh
    obtain rfl := Except.ok.inj hh
    refine ⟨_, rfl, rfl, rfl, fun s path => rfl, ?_, ?_, ?_, ?_⟩
    all_goals
      intro s batch
      rcases hrefresh : s.workspace.refresh s.fs s.here with ⟨refreshed, messages, outcome⟩
      cases outcome <;> simp [Site.refresh, hrefresh, Except.map]

/-- A watcher of a workspace is never asked to stop. -/
theorem Handles.ordinary {ignored : List String} {h : Watch.Handling Site} (hh : Handles w ignored h) :
    h.Ordinary := by
  intro s batch f hf
  rw [hh.outcome] at hf
  cases houtcome : (s.workspace.refresh s.fs s.here).2.2 with
  | ok scan =>
    rw [houtcome] at hf
    contradiction
  | error f' =>
    rw [houtcome] at hf
    cases hf
    exact not_fatal_of_refresh houtcome

end Workspace

end RouteAtlas
