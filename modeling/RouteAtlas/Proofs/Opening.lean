import RouteAtlas.Proofs.Canonical
import RouteAtlas.Proofs.Discovery
import RouteAtlas.Proofs.Refresh
import RouteAtlas.Proofs.SettingsFaults

/-!
# Opening a project by a path

A path to a folder opens the project at the folder if its settings can be loaded
(`Workspace.openAt_directory`), and then the project can be scanned (`Workspace.modules_directory`):
settings that can be loaded have a template, and the path of the folder is not too long
(`Settings.short_of_load`).
-/

namespace RouteAtlas

open RouteAtlas.Tree (Location TooLong)

namespace Tree

variable {fs : Tree} {here : Location} {name last : String} {names more : List String}

/-! ## Paths that are too long -/

/-- A walk that meets a name that is too long meets it whatever comes after. -/
theorem stroll_append_of_long (h : stroll fs .target here names = .failed .nameTooLong) :
    stroll fs .target here (names ++ more) = .failed .nameTooLong := by
  induction names generalizing here with
  | nil =>
    rw [stroll] at h
    split at h <;> cases h
  | cons name rest ih =>
    rcases turns_or_enters here name with ⟨next, hturn⟩ | henter | hlong
    · rw [stroll_turn hturn] at h
      rw [List.cons_append, stroll_turn hturn]
      exact ih h
    · rw [stroll_enter henter, if_neg (by simp)] at h
      rw [List.cons_append, stroll_enter henter, if_neg (by simp)]
      split at h
      · split at h <;> cases h
      · exact ih h
      · rw [if_neg (by simp)] at h
        cases h
      · split at h <;> cases h
    · exact hlong fs .target (rest ++ more)

/-- Nothing can be reached below a folder whose path is too long. -/
theorem reach_of_long {es : List (String × Tree)} (hnames : AreNames names)
    (hlast : AreNames [name, last])
    (hfolder : fs.at? names = some (.folder es)) (hlong : TooLong names) (here : Location) :
    fs.reach here (Path.toString ⟨.root, names ++ [name, last]⟩) = .error .nameTooLong := by
  have hlocate : fs.locate .target here (Path.toString ⟨.root, names ++ [name, last]⟩) =
      .error .nameTooLong := by
    rw [locate, isEmpty_toString, startOf_toString, if_neg (by simp)]
    split
    · rfl
    · rename_i hshort
      rcases hlong with hpath | hname
      · have hle := Path.size_toString_le names [name, last]
        omega
      · have hstroll : stroll fs .target [] names = .failed .nameTooLong := by
          have hreached : stroll fs .target [] names = if _ then _ else _ :=
            stroll_names hnames hfolder fun target => by simp
          rw [hreached, if_pos hname]
        rw [walk, stroll_steps fs (hnames.append hlast), stroll_append_of_long hstroll]
  rw [reach, hlocate]

end Tree

namespace Settings

variable {most : Nat} {fs : Tree} {here root : Location}

/-- Settings that can be loaded, or are known not to be there, are not below a path that is too long. -/
theorem short_of_load {s : Settings} (hroot : AreNames root)
    (hfolder : fs.sightAt? root = some .folder) (h : load fs here ⟨.root, root⟩ most = .ok s) :
    ¬ TooLong root := by
  intro hlong
  obtain ⟨es, hes⟩ := Tree.exists_folder_of_sight hfolder
  have hmore : AreNames [storeFolder, "config.json"] := by decide
  have hreach := Tree.reach_of_long hroot hmore hes hlong here
  have haddress := Tree.isAddress_toString (hroot.append hmore)
  have hfile : fs.hasFile here (toString (storePath ⟨.root, root⟩)) =
      .error (.file .nameTooLong (toString (storePath ⟨.root, root⟩))) := by
    show fs.holds Tree.isFile here (Path.toString ⟨.root, root ++ [storeFolder, "config.json"]⟩) = _
    rw [Tree.holds, haddress, if_pos rfl, hreach]
    rfl
  simp only [load, hfile, bind, Except.bind] at h
  cases h

theorem exists_template_of_check {source : Source} {s s' : Settings} (h : check source s = .ok s') :
    ∃ t, Template.ofWide s'.template = .ok t := by
  obtain ⟨rfl, -, -, ht⟩ := check_eq_ok_iff.mp h
  exact ht

theorem exists_template_of_ofJson {source : Source} {data : Json} {s : Settings}
    (h : ofJson source data = .ok s) : ∃ t, Template.ofWide s.template = .ok t := by
  unfold ofJson at h
  split at h
  · simp only [ofEntries, bind_eq_ok_iff] at h
    obtain ⟨_, _, _, _, _, _, _, _, _, _, _, _, _, _, _, _, _, _, _, _, hcheck⟩ := h
    exact exists_template_of_check hcheck
  · cases h

/-- Settings that can be loaded have a template. -/
theorem exists_template_of_load {p : Path} {s : Settings} (h : load fs here p most = .ok s) :
    ∃ t, Template.ofWide s.template = .ok t := by
  simp only [load, bind_eq_ok_iff] at h
  obtain ⟨there, -, h⟩ := h
  split at h
  · split at h
    · exact exists_template_of_ofJson h
    · cases h
  · cases h
    exact ⟨.default, Template.ofText_defaultText⟩

end Settings

namespace Workspace

variable {fs : Tree} {here root : Location}

/-- A path to a folder whose settings can be loaded opens the project there. -/
theorem openAt_directory {most : Nat} {path : String} {es : List (String × Tree)} {s : Settings} {t : Template}
    (haddress : Tree.isAddress path = true) (hroot : AreNames root)
    (hfolder : fs.locate .target here path = .ok (.taken root (.folder es)))
    (hload : Settings.load fs here ⟨.root, root⟩ most = .ok s)
    (ht : Template.ofWide s.template = .ok t) :
    openAt fs here (Path.ofString path) none most = .ok ⟨⟨.root, root⟩, s, t, .initial⟩ := by
  have hresolve := Tree.resolve_of_locate haddress hroot hfolder
  have htemplate : Snippet.template s.template = .ok t := by rw [Snippet.template, ht]
  simp only [openAt, hresolve, hload, htemplate, bind, Except.bind]
  rfl

/-- A path to a folder opens the project there with settings that are given. -/
theorem openAt_given {path : String} {es : List (String × Tree)} {s : Settings} {t : Template}
    (haddress : Tree.isAddress path = true) (hroot : AreNames root)
    (hfolder : fs.locate .target here path = .ok (.taken root (.folder es)))
    (ht : Template.ofWide s.template = .ok t) :
    openAt fs here (Path.ofString path) (some s) = .ok ⟨⟨.root, root⟩, s, t, .initial⟩ := by
  have hresolve := Tree.resolve_of_locate haddress hroot hfolder
  have htemplate : Snippet.template s.template = .ok t := by rw [Snippet.template, ht]
  simp only [openAt, hresolve, htemplate, bind, Except.bind, pure, Except.pure]

/-- The modules of an opened project are found. -/
theorem modules_directory {w : Workspace} {ignored : List String} (hroot : AreNames root)
    (hfolder : fs.sightAt? root = some .folder) (hshort : ¬ TooLong root)
    (hw : w.root = ⟨.root, root⟩) (hignored : w.settings.ignoredNames = .ok ignored) :
    w.modules fs here = .ok (Discovery.modulePaths fs w.settings.fileName ignored root) := by
  have hresolve := Tree.resolve_clear hroot (Tree.clear_of_folder hfolder) here
  obtain ⟨es, hes⟩ := Tree.exists_folder_of_sight hfolder
  rw [modules, hw, hignored]
  exact Discovery.find_of_resolve hroot hes hshort hresolve

end Workspace

end RouteAtlas
