import RouteAtlas.Proofs.Coverage

/-!
# What discovery finds below a root

Discovery of a folder finds the modules below it (`HasModule`), in the order of their paths and each of
them once, as far as the paths of the folders that they are in are not too long (`Discovery.find_finds`).
What is in folders one in the other whose path is too long is not found (`Discovery.modulesIn_nested`).
-/

namespace RouteAtlas

open RouteAtlas.Tree (Location TooLong pathTo)

namespace Settings

/-- An ignored list of texts is read as it is. Texts that no name spells are left out. -/
theorem namesIn_texts (ignored : List WideText) :
    ∃ names, namesIn (ignored.map .text) = .ok names ∧
      ∀ name, name ∈ names ↔ WideText.plain name ∈ ignored := by
  induction ignored with
  | nil => exact ⟨[], rfl, by simp⟩
  | cons w ignored ih =>
    obtain ⟨names, hnames, hmem⟩ := ih
    cases w with
    | plain s =>
      refine ⟨s :: names, ?_, fun name => ?_⟩
      · show (namesIn (ignored.map .text)).map (s :: ·) = _
        rw [hnames]
        rfl
      · rw [List.mem_cons, List.mem_cons, hmem, WideText.plain.injEq]
    | unpaired codes =>
      refine ⟨names, hnames, fun name => ?_⟩
      rw [hmem, List.mem_cons, or_iff_right (by simp)]

end Settings

namespace Discovery

variable {fs : Tree} {here root folders : Location} {fileName : WideText} {ignored : List WideText}
  {name : String}

/-! ## Modules below a root -/

/-- A module has the right name, is in real folders below the root, of which none is ignored or hidden,
and is a file or a link that does not lead to a folder. -/
structure HasModule (fs : Tree) (fileName : WideText) (ignored : List WideText)
    (root folders : Location) (name : String) : Prop where
  spelled : fileName = .plain name
  real : ∀ above, above <+: folders → fs.sightAt? (root ++ above) = some .folder
  shown : ∀ folder ∈ folders, WideText.plain folder ∉ ignored ∧ folder.toList.head? ≠ some '.'
  entry : (∃ bytes, fs.sightAt? (root ++ folders ++ [name]) = some (.file bytes)) ∨
    ∃ target, fs.sightAt? (root ++ folders ++ [name]) = some (.link target) ∧
      fs.hasFolder [] (pathTo (root ++ folders ++ [name])) ≠ .ok true

/-- What leads to an entry are folders. -/
theorem folders_of_sight {s : Tree.Sight} (h : fs.sightAt? (root ++ folders ++ [name]) = some s)
    (above : Location) (habove : above <+: folders) :
    fs.sightAt? (root ++ above) = some .folder := by
  obtain ⟨below, rfl⟩ := habove
  have hsplit : root ++ (above ++ below) ++ [name] = (root ++ above) ++ (below ++ [name]) := by simp
  rw [hsplit] at h
  exact Tree.sightAt?_of_append (by simp) h

/-- A folder is skipped if it is ignored or its name begins with a dot. -/
theorem skips_eq_false_iff {names : List String} {folder : String} (h : IsName folder) :
    skips names folder = false ↔ folder ∉ names ∧ folder.toList.head? ≠ some '.' := by
  simp [skips, isHidden, h.2.1, h.2.2.1]

/-- What is taken for a file, by what is seen at its place. -/
theorem entry_iff {l : Location} :
    ((∃ bytes, fs.sightAt? l = some (.file bytes)) ∨
        ∃ target, fs.sightAt? l = some (.link target) ∧ fs.hasFolder [] (pathTo l) ≠ .ok true) ↔
      ∃ c, fs.at? l = some c ∧ leadsToFolder fs l c = false := by
  constructor
  · rintro (⟨bytes, hfile⟩ | ⟨target, hlink, hfolder⟩)
    · exact ⟨_, Tree.at?_of_sight_file hfile,
        (leadsToFolder_eq_false_iff fs l _).mpr (Or.inl ⟨bytes, rfl⟩)⟩
    · exact ⟨_, Tree.at?_of_sight_link hlink,
        (leadsToFolder_eq_false_iff fs l _).mpr (Or.inr ⟨target, rfl, hfolder⟩)⟩
  · rintro ⟨c, hc, hleads⟩
    rcases (leadsToFolder_eq_false_iff fs l c).mp hleads with ⟨bytes, rfl⟩ | ⟨target, rfl, hfolder⟩
    · exact Or.inl ⟨bytes, Tree.sightAt?_of_at hc⟩
    · exact Or.inr ⟨target, Tree.sightAt?_of_at hc, hfolder⟩

/-- The walk goes by the same rule. -/
theorem hasModule_iff {names : List String} (hnamed : fs.Named)
    (hnames : ∀ name, name ∈ names ↔ WideText.plain name ∈ ignored) :
    HasModule fs fileName ignored root folders name ↔
      isModule fileName names (folders ++ [name]) = true ∧
        ∃ c, fs.at? (root ++ (folders ++ [name])) = some c ∧
          leadsToFolder fs (root ++ (folders ++ [name])) c = false := by
  have hskips : AreNames folders → (folders.any (skips names) = false ↔
      ∀ folder ∈ folders, WideText.plain folder ∉ ignored ∧ folder.toList.head? ≠ some '.') := by
    intro hfolders
    rw [List.any_eq_false]
    refine forall₂_congr fun folder hmem => ?_
    rw [Bool.not_eq_true, skips_eq_false_iff (hfolders folder hmem), hnames]
  have hbetween : ∀ c, fs.at? (root ++ folders ++ [name]) = some c → AreNames folders := by
    intro c hc folder hmem
    exact (hnamed.of_at hc).1 folder (by simp [hmem])
  rw [← List.append_assoc, isModule_append, Bool.and_eq_true, Bool.not_eq_true', WideText.spells,
    beq_iff_eq]
  constructor
  · rintro ⟨hspelled, -, hshown, hentry⟩
    obtain ⟨c, hc, hleads⟩ := entry_iff.mp hentry
    exact ⟨⟨hspelled, (hskips (hbetween c hc)).mpr hshown⟩, c, hc, hleads⟩
  · rintro ⟨⟨hspelled, hshown⟩, c, hc, hleads⟩
    exact ⟨hspelled, folders_of_sight (Tree.sightAt?_of_at hc),
      (hskips (hbetween c hc)).mp hshown, entry_iff.mpr ⟨c, hc, hleads⟩⟩

namespace HasModule

theorem names (hnamed : fs.Named) (h : HasModule fs fileName ignored root folders name) :
    AreNames (root ++ folders ++ [name]) := by
  obtain ⟨c, hc, -⟩ := entry_iff.mp h.entry
  exact (hnamed.of_at hc).1

/-- A path is that of one module only. -/
theorem eq_of_path {above : Location} {last : String} (hnamed : fs.Named)
    (h : HasModule fs fileName ignored root folders name) (hnames : AreNames (root ++ above ++ [last]))
    (hpath : pathTo (root ++ above ++ [last]) = pathTo (root ++ folders ++ [name])) :
    above = folders ∧ last = name := by
  have heq : root ++ above ++ [last] = root ++ folders ++ [name] :=
    (Path.toString_inj hnames (h.names hnamed)).mp hpath
  rw [List.append_assoc, List.append_assoc] at heq
  exact List.concat_inj.mp (by simpa using List.append_cancel_left heq)

end HasModule

/-- The modules that are found are those below the root in folders whose path is not too long. -/
theorem mem_modulePaths_iff_hasModule {names : List String} {es : List (String × Tree)}
    (hnamed : fs.Named) (hes : fs.at? root = some (.folder es))
    (hnames : ∀ name, name ∈ names ↔ WideText.plain name ∈ ignored) {found : String} :
    found ∈ modulePaths fs fileName names root ↔
      ∃ folders name, found = pathTo (root ++ folders ++ [name]) ∧
        HasModule fs fileName ignored root folders name ∧
        (pathTo (root ++ folders)).utf8ByteSize ≤ Tree.longestPath := by
  have hassoc : ∀ (folders : Location) (name : String),
      root ++ (folders ++ [name]) = root ++ folders ++ [name] := by simp
  rw [mem_modulePaths_iff hes (hnamed.of_at hes).2]
  constructor
  · rintro ⟨q, rfl, hmodule, hlistable, hentry⟩
    have hq : q.dropLast ++ [q.getLast (ne_nil_of_isModule hmodule)] = q :=
      List.dropLast_append_getLast _
    generalize q.getLast (ne_nil_of_isModule hmodule) = name at hq
    generalize q.dropLast = folders at hq hlistable
    subst hq
    refine ⟨folders, name, ?_, (hasModule_iff hnamed hnames).mpr ⟨hmodule, hentry⟩,
      isListable_iff.mp hlistable⟩
    rw [hassoc]
    rfl
  · rintro ⟨folders, name, rfl, hmodule, hshort⟩
    obtain ⟨hmodule, hentry⟩ := (hasModule_iff hnamed hnames).mp hmodule
    refine ⟨folders ++ [name], ?_, hmodule, ?_, hentry⟩
    · rw [hassoc]
      rfl
    · rw [List.dropLast_concat]
      exact isListable_iff.mpr hshort

/-- Discovery of a folder finds the modules below the folder where the path leads, in the order of their
paths and each of them once, as far as the paths of the folders that they are in are not too long. Only
where the path of the folder itself is too long does discovery fail. -/
theorem find_finds (hnamed : fs.Named) {path : String} (hexists : fs.hasFolder here path = .ok true)
    (fileName : WideText) (ignored : List WideText) :
    ∃ root, fs.resolve here (Path.ofString path) = .ok ⟨.root, root⟩ ∧
      fs.sightAt? root = some .folder ∧
      (TooLong root → find fs here (Path.ofString path) fileName (Settings.namesIn (ignored.map .text)) =
        .error (.file .nameTooLong (pathTo root))) ∧
      (¬ TooLong root → ∃ paths,
        find fs here (Path.ofString path) fileName (Settings.namesIn (ignored.map .text)) = .ok paths ∧
        paths.Pairwise (· < ·) ∧
        ∀ found, found ∈ paths ↔ ∃ folders name, found = pathTo (root ++ folders ++ [name]) ∧
          HasModule fs fileName ignored root folders name ∧
          (pathTo (root ++ folders)).utf8ByteSize ≤ Tree.longestPath) := by
  obtain ⟨haddress, root, es, hlocate⟩ := Tree.locate_of_hasFolder hexists
  have hfolder : fs.sightAt? root = some .folder :=
    (Tree.leads_of_walk_folder (Tree.locate_eq_walk hlocate).1).1
  obtain ⟨es, hes⟩ := Tree.exists_folder_of_sight hfolder
  obtain ⟨hroot, hentries⟩ := hnamed.of_at hes
  have hresolve := Tree.resolve_of_locate haddress hroot hlocate
  obtain ⟨names, hignored, hnames⟩ := Settings.namesIn_texts ignored
  refine ⟨root, hresolve, hfolder, fun hlong => find_of_long hroot hes hlong hresolve _,
    fun hshort => ?_⟩
  rw [hignored]
  refine ⟨_, find_of_resolve hroot hes hshort hresolve, ?_, fun found =>
    mem_modulePaths_iff_hasModule hnamed hes hnames⟩
  exact (pairwise_modulePaths fs root).imp₂ (fun _ _ hle hne => lt_of_le_of_ne hle hne)
    (nodup_modulePaths hroot hes hentries)

/-- A project in a hidden folder, with a link to it. One of its folders is hidden, and the modules of the
project are links. -/
def attic : Tree :=
  .folder [("current", .link "srv/.site"), ("srv", .folder [(".site", .folder [
    (".git", .folder [("urls.py", .file [])]), ("blog", .folder [("urls.py", .link "gone.py")]),
    ("urls.py", .link "/srv")])])]

theorem named_attic : attic.Named := by
  simp only [attic, Tree.Named, Tree.NamedAmong]
  decide

theorem find_finds_attic :
    ∃ paths, find attic [] (Path.ofString "current") "urls.py" (Settings.namesIn [.text "env"]) =
        .ok paths ∧
      "/srv/.site/blog/urls.py" ∈ paths ∧ "/srv/.site/urls.py" ∉ paths ∧
      "/srv/.site/.git/urls.py" ∉ paths := by
  have hexists : attic.hasFolder [] "current" = .ok true := rfl
  obtain ⟨root, hresolve, -, -, hfinds⟩ := find_finds named_attic hexists "urls.py" [.plain "env"]
  have hroot : attic.resolve [] (Path.ofString "current") = .ok ⟨.root, ["srv", ".site"]⟩ := rfl
  obtain rfl : root = ["srv", ".site"] := by
    rw [hroot] at hresolve
    cases hresolve
    rfl
  obtain ⟨paths, hfind, -, hmem⟩ := hfinds (by decide)
  refine ⟨paths, hfind, ?_, ?_, ?_⟩
  · -- the link leads nowhere
    have hlink : attic.sightAt? (["srv", ".site"] ++ ["blog"] ++ ["urls.py"]) =
        some (.link "gone.py") := rfl
    have hgone : attic.hasFolder [] "/srv/.site/blog/urls.py" = .ok false := rfl
    refine (hmem _).mpr ⟨["blog"], "urls.py", rfl, ⟨rfl, folders_of_sight hlink, by decide,
      Or.inr ⟨"gone.py", hlink, ?_⟩⟩, by decide⟩
    intro hfolder
    cases hgone.symm.trans hfolder
  · -- the link leads to a folder
    intro hfound
    obtain ⟨folders, name, hpath, hmodule, -⟩ := (hmem _).mp hfound
    obtain ⟨rfl, rfl⟩ : [] = folders ∧ "urls.py" = name :=
      hmodule.eq_of_path named_attic (by decide) hpath
    rcases hmodule.entry with ⟨bytes, hfile⟩ | ⟨target, -, hfolder⟩
    · cases hfile
    · exact hfolder rfl
  · intro hfound
    obtain ⟨folders, name, hpath, hmodule, -⟩ := (hmem _).mp hfound
    obtain ⟨rfl, rfl⟩ : [".git"] = folders ∧ "urls.py" = name :=
      hmodule.eq_of_path named_attic (by decide) hpath
    exact (hmodule.shown ".git" (by simp)).2 rfl

/-! ## Folders that cannot be listed -/

/-- Folders of one name, each in the other, around something. -/
def nested (name : String) (t : Tree) : Nat → Tree
  | 0 => t
  | n + 1 => .folder [(name, nested name t n)]

theorem at?_nested (name : String) (t : Tree) (n : Nat) (q : Location) :
    (nested name t n).at? (List.replicate n name ++ q) = t.at? q := by
  induction n with
  | zero => rfl
  | succ n ih =>
    rw [List.replicate_succ, List.cons_append, Tree.at?_cons]
    simpa [nested, Tree.child?, Tree.entries, Table.lookup] using ih

theorem size_join_replicate (name : String) (n : Nat) :
    (String.join (List.replicate n name)).utf8ByteSize = n * name.utf8ByteSize := by
  induction n with
  | zero => simp
  | succ n ih =>
    rw [List.replicate_succ, String.join_cons, String.utf8ByteSize_append, ih, Nat.succ_mul,
      Nat.add_comm]

/-- Nothing is found in folders one in the other whose path is too long. -/
theorem modulesIn_nested {names : List String} {location : Location} {es : List (String × Tree)} {n : Nat}
    (hspells : fileName.spells name = false)
    (hlong : isListable (location ++ List.replicate n name) = false) :
    modulesIn fs fileName names location (nested name (.folder es) n) = [] := by
  induction n generalizing location with
  | zero =>
    rw [List.replicate_zero, List.append_nil] at hlong
    rw [nested, modulesIn, hlong]
    rfl
  | succ n ih =>
    rw [List.replicate_succ, List.append_cons] at hlong
    rw [nested, modulesIn]
    split
    · simp [modulesAmong, hspells, ih hlong]
    · rfl

theorem modulePaths_nested {names : List String} {es : List (String × Tree)} {n : Nat}
    (hat : fs.at? root = some (nested name (.folder es) n)) (hspells : fileName.spells name = false)
    (hlong : isListable (root ++ List.replicate n name) = false) :
    modulePaths fs fileName names root = [] := by
  rw [modulePaths, hat, Option.getD_some, modulesIn_nested hspells hlong, List.map_nil,
    List.mergeSort_nil]

/-- A name of 31 bytes, so that the path of 128 folders of the name is one byte longer than paths may
be. -/
def longName : String := "abcdefghijklmnopqrstuvwxyz-1234"

/-- A module in that many folders. -/
def deep : Tree := nested longName (.folder [("urls.py", .file [])]) 128

/-- The module is not found. -/
theorem find_misses_deep :
    deep.hasFolder [] "/" = .ok true ∧
      HasModule deep "urls.py" [] [] (List.replicate 128 longName) "urls.py" ∧
      find deep [] (Path.ofString "/") "urls.py" (Settings.namesIn []) = .ok [] := by
  have hentry : deep.sightAt? ([] ++ List.replicate 128 longName ++ ["urls.py"]) =
      some (.file []) := by
    rw [List.nil_append, Tree.sightAt?, deep, at?_nested]
    rfl
  have hlong : isListable (List.replicate 128 longName) = false := by
    have hsize : longName.utf8ByteSize = 31 := rfl
    rw [← Bool.not_eq_true, isListable_iff, Path.size_toString (by simp), size_join_replicate,
      List.length_replicate, hsize]
    decide
  refine ⟨rfl, ⟨rfl, folders_of_sight hentry, ?_, Or.inl ⟨[], hentry⟩⟩, ?_⟩
  · intro folder hfolder
    obtain rfl := List.eq_of_mem_replicate hfolder
    decide
  · have hresolve : deep.resolve [] (Path.ofString "/") = .ok ⟨.root, []⟩ :=
      Tree.resolve_of_locate (by decide) (by decide) rfl
    have hfind : find deep [] (Path.ofString "/") "urls.py" (.ok []) =
        .ok (modulePaths deep "urls.py" [] []) :=
      find_of_resolve (by decide) rfl (by decide) hresolve
    have hat : deep.at? [] = some (nested longName (.folder [("urls.py", .file [])]) 128) := rfl
    have hpaths : modulePaths deep "urls.py" [] [] = [] :=
      modulePaths_nested hat (by decide) hlong
    rw [hpaths] at hfind
    exact hfind

end Discovery

end RouteAtlas
