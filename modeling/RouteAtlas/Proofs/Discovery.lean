import Mathlib.Data.List.Sort
import Mathlib.Data.String.Basic
import RouteAtlas.Discovery
import RouteAtlas.Proofs.Newline
import RouteAtlas.Proofs.Project
import RouteAtlas.Source

/-!
# What discovery finds

Discovery finds what is taken for a file at the places of routing modules (`isModule`) in folders that can
be listed (`isListable`), each of them once (`mem_modulesIn`, `nodup_modulesIn`). In a project without links these are the files there
(`mem_modulePaths`), so what it finds, and what reading the modules gives, depends on the files at these
places alone (`modulePaths_congr`, `read_congr`).
-/

namespace RouteAtlas

namespace Discovery

open RouteAtlas.Tree (Location NamedAmong IsProject)

variable {fileName : WideText} {ignored : List String}

/-- Whether names below the root lead to where a routing module may be: no folder on the way is
skipped. -/
def isModule (fileName : WideText) (ignored : List String) : Location → Bool
  | [] => false
  | [name] => fileName.spells name
  | name :: next :: rest => !skips ignored name && isModule fileName ignored (next :: rest)

theorem isModule_cons {name : String} {rest : Location} (h : rest ≠ []) :
    isModule fileName ignored (name :: rest) =
      (!skips ignored name && isModule fileName ignored rest) := by
  cases rest with
  | nil => exact absurd rfl h
  | cons next rest => rfl

theorem ne_nil_of_isModule {q : Location} (h : isModule fileName ignored q = true) : q ≠ [] := by
  rintro rfl
  contradiction

/-- A routing module has the right name, and is in no folder that is skipped. -/
theorem isModule_append (above : Location) (name : String) :
    isModule fileName ignored (above ++ [name]) =
      (fileName.spells name && !above.any (skips ignored)) := by
  induction above with
  | nil => simp [isModule]
  | cons a above ih =>
    rw [List.cons_append, isModule_cons (by simp), ih, List.any_cons]
    cases skips ignored a <;> simp

/-! ## Folders that can be listed -/

variable {fs : Tree} {location : Location}

theorem isListable_iff :
    isListable location = true ↔
      (Path.toString ⟨.root, location⟩).utf8ByteSize ≤ Tree.longestPath :=
  decide_eq_true_iff

/-- A folder that can be listed is in folders that can be listed. -/
theorem isListable_of_append {more : Location} (h : isListable (location ++ more) = true) :
    isListable location = true :=
  isListable_iff.mpr ((Path.size_toString_le location more).trans (isListable_iff.mp h))

theorem isListable_of_short (h : ¬ Tree.TooLong location) : isListable location = true :=
  isListable_iff.mpr (Nat.le_of_not_lt (not_or.mp h).1)

/-! ## What is found -/

/-- Something that is taken for a file stands where a routing module may be, in what stands at a place, and
the folder that it is in can be listed. -/
def IsListed (fs : Tree) (fileName : WideText) (ignored : List String) (location : Location) (t : Tree)
    (q : Location) : Prop :=
  isModule fileName ignored q = true ∧ isListable (location ++ q.dropLast) = true ∧
    ∃ c, t.at? q = some c ∧ leadsToFolder fs (location ++ q) c = false

theorem not_isListed_nil (t : Tree) : ¬ IsListed fs fileName ignored location t [] :=
  fun h => ne_nil_of_isModule h.1 rfl

/-- Nothing is listed in what has no entries. -/
theorem not_isListed_of_entries {t : Tree} (h : t.entries = []) (q : Location) :
    ¬ IsListed fs fileName ignored location t q := by
  rintro ⟨hmodule, -, c, hc, -⟩
  obtain ⟨name, rest, rfl⟩ := List.exists_cons_of_ne_nil (ne_nil_of_isModule hmodule)
  rw [Tree.at?_cons, Tree.child?, h] at hc
  contradiction

theorem isListed_cons (hlistable : isListable location = true) {es : List (String × Tree)}
    {name : String} {t : Tree} {q : Location} :
    IsListed fs fileName ignored location (.folder ((name, t) :: es)) q ↔
      (q = [name] ∧ fileName.spells name = true ∧ leadsToFolder fs (location ++ [name]) t = false) ∨
      (skips ignored name = false ∧ ∃ r, q = name :: r ∧
        IsListed fs fileName ignored (location ++ [name]) t r) ∨
      (q.head? ≠ some name ∧ IsListed fs fileName ignored location (.folder es) q) := by
  cases q with
  | nil => simp [not_isListed_nil]
  | cons n r =>
    have hchild : ∀ es, (Tree.folder es).at? (n :: r) = (Table.lookup n es).bind fun c => c.at? r :=
      fun es => Tree.at?_cons _ n r
    by_cases hn : name = n
    · subst hn
      rw [IsListed, hchild, Table.lookup, if_pos rfl, Option.bind_some]
      cases r with
      | nil => simp [isModule, Tree.at?_nil, not_isListed_nil, hlistable]
      | cons n' r =>
        rw [isModule_cons (List.cons_ne_nil _ _)]
        simp [IsListed, and_assoc]
    · rw [IsListed, hchild, Table.lookup, if_neg hn, ← hchild]
      simp [Ne.symm hn, IsListed]

theorem head?_of_isListed {es : List (String × Tree)} {name : String}
    (hname : name ∉ es.map Prod.fst) {q : Location}
    (h : IsListed fs fileName ignored location (.folder es) q) : q.head? ≠ some name := by
  cases q with
  | nil => simp
  | cons n r =>
    obtain ⟨-, -, c, hc, -⟩ := h
    rw [Tree.at?_cons] at hc
    obtain ⟨c, hc, -⟩ := Option.bind_eq_some_iff.mp hc
    intro hhead
    have hn : n = name := by simpa using hhead
    exact hname (hn ▸ List.mem_map_of_mem (Table.mem_of_lookup hc))

mutual

/-- Discovery finds what is taken for a file where routing modules may be, in folders that can be
listed. -/
theorem mem_modulesIn (location l : Location) (t : Tree) (h : t.Named) :
    l ∈ modulesIn fs fileName ignored location t ↔
      ∃ q, l = location ++ q ∧ IsListed fs fileName ignored location t q := by
  cases t with
  | file bytes =>
    have hnone := @not_isListed_of_entries fileName ignored fs location (.file bytes) rfl
    simp [modulesIn, hnone]
  | link target =>
    have hnone := @not_isListed_of_entries fileName ignored fs location (.link target) rfl
    simp [modulesIn, hnone]
  | folder es =>
    rw [modulesIn]
    split
    · rename_i hlistable
      exact mem_modulesAmong location l es h hlistable
    · -- nothing below a folder that cannot be listed can be listed
      rename_i hlistable
      have hnone : ∀ q, ¬ IsListed fs fileName ignored location (.folder es) q :=
        fun q hq => hlistable (isListable_of_append hq.2.1)
      simp [hnone]

theorem mem_modulesAmong (location l : Location) (es : List (String × Tree))
    (h : NamedAmong es) (hlistable : isListable location = true) :
    l ∈ modulesAmong fs fileName ignored location es ↔
      ∃ q, l = location ++ q ∧ IsListed fs fileName ignored location (.folder es) q := by
  cases es with
  | nil =>
    have hnone := @not_isListed_of_entries fileName ignored fs location (.folder []) rfl
    simp [modulesAmong, hnone]
  | cons e es =>
    obtain ⟨name, t⟩ := e
    obtain ⟨hname, hfresh, ht, hes⟩ := h
    have hbelow := mem_modulesIn (location ++ [name]) l t ht
    have hmore := mem_modulesAmong location l es hes hlistable
    simp only [modulesAmong, List.mem_append, isListed_cons hlistable]
    constructor
    · rintro ((hhere | hin) | hrest)
      · split at hhere
        · rename_i hfile
          obtain ⟨hspells, hleads⟩ := Bool.and_eq_true_iff.mp hfile
          exact ⟨[name], List.mem_singleton.mp hhere, Or.inl ⟨rfl, hspells, by simpa using hleads⟩⟩
        · contradiction
      · split at hin
        · contradiction
        · rename_i hskip
          obtain ⟨r, rfl, hr⟩ := hbelow.mp hin
          exact ⟨name :: r, by simp, Or.inr (Or.inl ⟨by simpa using hskip, r, rfl, hr⟩)⟩
      · obtain ⟨q, rfl, hq⟩ := hmore.mp hrest
        exact ⟨q, rfl, Or.inr (Or.inr ⟨head?_of_isListed hfresh hq, hq⟩)⟩
    · rintro ⟨q, rfl, ⟨rfl, hspells, hleads⟩ | ⟨hskip, r, rfl, hr⟩ | ⟨-, hq⟩⟩
      · exact Or.inl (Or.inl (by simp [hspells, hleads]))
      · refine Or.inl (Or.inr ?_)
        rw [if_neg (by simp [hskip])]
        exact hbelow.mpr ⟨r, by simp, hr⟩
      · exact Or.inr (hmore.mpr ⟨q, rfl, hq⟩)

end

mutual

/-- Discovery finds nothing twice. -/
theorem nodup_modulesIn (location : Location) (t : Tree) (h : t.Named) :
    (modulesIn fs fileName ignored location t).Nodup := by
  cases t with
  | file bytes => exact List.nodup_nil
  | link target => exact List.nodup_nil
  | folder es =>
    rw [modulesIn]
    split
    · rename_i hlistable
      exact nodup_modulesAmong location es h hlistable
    · exact List.nodup_nil

theorem nodup_modulesAmong (location : Location) (es : List (String × Tree))
    (h : NamedAmong es) (hlistable : isListable location = true) :
    (modulesAmong fs fileName ignored location es).Nodup := by
  cases es with
  | nil => exact List.nodup_nil
  | cons e es =>
    obtain ⟨name, t⟩ := e
    obtain ⟨hname, hfresh, ht, hes⟩ := h
    have hbelow := nodup_modulesIn (location ++ [name]) t ht
    have hmore := nodup_modulesAmong location es hes hlistable
    -- a module in the entry has names after that of the entry, and a module among the other entries
    -- has another name in its place
    have hlonger : ∀ l ∈ modulesIn fs fileName ignored (location ++ [name]) t,
        ∃ r, r ≠ [] ∧ l = location ++ name :: r := by
      intro l hl
      obtain ⟨r, rfl, hr⟩ := (mem_modulesIn _ l t ht).mp hl
      exact ⟨r, ne_nil_of_isModule hr.1, by simp⟩
    have hother : ∀ l ∈ modulesAmong fs fileName ignored location es,
        ∀ r, l ≠ location ++ name :: r := by
      intro l hl r heq
      obtain ⟨q, rfl, hq⟩ := (mem_modulesAmong location l es hes hlistable).mp hl
      rw [List.append_cancel_left heq] at hq
      exact head?_of_isListed hfresh hq rfl
    rw [modulesAmong]
    refine List.nodup_append.mpr ⟨List.nodup_append.mpr ⟨?_, ?_, ?_⟩, hmore, ?_⟩
    · split
      · exact List.nodup_singleton _
      · exact List.nodup_nil
    · split
      · exact List.nodup_nil
      · exact hbelow
    · rintro l hl m hm rfl
      split at hl
      · split at hm
        · contradiction
        · obtain ⟨r, hr, heq⟩ := hlonger l hm
          rw [List.mem_singleton.mp hl] at heq
          exact hr (by simpa using (List.append_cancel_left heq).symm)
      · contradiction
    · rintro l hl m hm rfl
      rcases List.mem_append.mp hl with hl | hl
      · split at hl
        · exact hother l hm [] (List.mem_singleton.mp hl)
        · contradiction
      · split at hl
        · contradiction
        · obtain ⟨r, -, heq⟩ := hlonger l hl
          exact hother l hm r heq

end

/-- What is taken for a file: files, and links that do not lead to a folder. -/
theorem leadsToFolder_eq_false_iff (fs : Tree) (l : Location) (t : Tree) :
    leadsToFolder fs l t = false ↔ (∃ bytes, t = .file bytes) ∨
      ∃ target, t = .link target ∧ fs.hasFolder [] (Path.toString ⟨.root, l⟩) ≠ .ok true := by
  cases t with
  | file bytes => simp [leadsToFolder]
  | folder es => simp [leadsToFolder]
  | link target =>
    cases hfolder : fs.hasFolder [] (Path.toString ⟨.root, l⟩) with
    | ok b =>
      have hthere : fs.hasFolder [] (toString (Path.mk .root l)) = .ok b := hfolder
      simp [leadsToFolder, hthere]
    | error f =>
      have hthere : fs.hasFolder [] (toString (Path.mk .root l)) = .error f := hfolder
      simp [leadsToFolder, hthere]

/-- Where there are no links, only files are taken for files. -/
theorem not_leadsToFolder_iff (fs : Tree) {t : Tree} (h : t.Plain) (l : Location) :
    leadsToFolder fs l t = false ↔ ∃ bytes, t = .file bytes := by
  rw [leadsToFolder_eq_false_iff, or_iff_left]
  rintro ⟨target, rfl, -⟩
  exact h.elim

/-! ## The modules below a root -/

/-- The paths of the modules below a folder, in the order of their characters. -/
def modulePaths (fs : Tree) (fileName : WideText) (ignored : List String) (root : Location) :
    List String :=
  ((modulesIn fs fileName ignored root ((fs.at? root).getD (.folder []))).map
    fun l => Path.toString ⟨.root, l⟩).mergeSort (· ≤ ·)

section Find

variable {here root : Location} {p : Path} {es : List (String × Tree)}

/-- Discovery succeeds where the canonical path of a folder is not too long. -/
theorem find_of_resolve (hnames : AreNames root) (hes : fs.at? root = some (.folder es))
    (hshort : ¬ Tree.TooLong root) (hresolve : fs.resolve here p = .ok ⟨.root, root⟩) :
    find fs here p fileName (.ok ignored) = .ok (modulePaths fs fileName ignored root) := by
  have hfolder : fs.hasFolder here (toString (Path.mk .root root)) = .ok true := by
    have hthere := Tree.hasFolder_toString hnames hes here
    rwa [if_neg hshort] at hthere
  simp only [find, hresolve, bind, Except.bind, hfolder]
  rfl

/-- Discovery fails where the canonical path of a folder is too long. -/
theorem find_of_long (hnames : AreNames root) (hes : fs.at? root = some (.folder es))
    (hlong : Tree.TooLong root) (hresolve : fs.resolve here p = .ok ⟨.root, root⟩)
    (names : Except Fault (List String)) :
    find fs here p fileName names =
      .error (.file .nameTooLong (Path.toString ⟨.root, root⟩)) := by
  have hfolder : fs.hasFolder here (toString (Path.mk .root root)) =
      .error (.file .nameTooLong (Path.toString ⟨.root, root⟩)) := by
    have hthere := Tree.hasFolder_toString hnames hes here
    rwa [if_pos hlong] at hthere
  simp only [find, hresolve, bind, Except.bind, hfolder]

/-- Discovery succeeds in a project. -/
theorem find_project (h : IsProject fs root) (here : Location) (fileName : WideText)
    (ignored : List String) :
    find fs here ⟨.root, root⟩ fileName (.ok ignored) =
      .ok (modulePaths fs fileName ignored root) := by
  obtain ⟨es, hes, -⟩ := h.plain
  exact find_of_resolve h.names hes h.short (h.resolve_root here)

end Find

/-- A path is among those of the modules if something at its place is taken for a file, the place is that of
a module, and the folder there can be listed. -/
theorem mem_modulePaths_iff {root : Location} {es : List (String × Tree)}
    (hes : fs.at? root = some (.folder es)) (hnamed : (Tree.folder es).Named) {path : String} :
    path ∈ modulePaths fs fileName ignored root ↔
      ∃ q, path = Path.toString ⟨.root, root ++ q⟩ ∧ isModule fileName ignored q = true ∧
        isListable (root ++ q.dropLast) = true ∧
        ∃ c, fs.at? (root ++ q) = some c ∧ leadsToFolder fs (root ++ q) c = false := by
  have hat : ∀ q, fs.at? (root ++ q) = (Tree.folder es).at? q := by
    intro q
    rw [Tree.at?_append, hes, Option.bind_some]
  rw [modulePaths, List.mem_mergeSort, List.mem_map, hes, Option.getD_some]
  constructor
  · rintro ⟨l, hl, rfl⟩
    obtain ⟨q, rfl, hmodule, hlistable, hlisted⟩ := (mem_modulesIn root l _ hnamed).mp hl
    exact ⟨q, rfl, hmodule, hlistable, by simpa only [hat] using hlisted⟩
  · rintro ⟨q, rfl, hmodule, hlistable, hlisted⟩
    simp only [hat] at hlisted
    exact ⟨root ++ q, (mem_modulesIn root _ _ hnamed).mpr ⟨q, rfl, hmodule, hlistable, hlisted⟩, rfl⟩

/-- In a project a path is among those of the modules if a file is at its place, in a folder that can be
listed. -/
theorem mem_modulePaths {fs : Tree} {root : Location} (h : IsProject fs root) {path : String} :
    path ∈ modulePaths fs fileName ignored root ↔
      ∃ q, path = Path.toString ⟨.root, root ++ q⟩ ∧ isModule fileName ignored q = true ∧
        isListable (root ++ q.dropLast) = true ∧
        ∃ bytes, fs.sightAt? (root ++ q) = some (.file bytes) := by
  obtain ⟨es, hes, hplain⟩ := h.plain
  rw [mem_modulePaths_iff hes hplain.named]
  refine exists_congr fun q => and_congr_right fun _ => and_congr_right fun _ =>
    and_congr_right fun _ => ?_
  have hc : ∀ c, fs.at? (root ++ q) = some c → c.Plain := by
    intro c hat
    rw [Tree.at?_append, hes, Option.bind_some] at hat
    exact (hplain.of_at hat).2
  constructor
  · rintro ⟨c, hat, hleads⟩
    obtain ⟨bytes, rfl⟩ := (not_leadsToFolder_iff fs (hc c hat) _).mp hleads
    exact ⟨bytes, congrArg (Option.map Tree.sight) hat⟩
  · rintro ⟨bytes, hfile⟩
    have hat := Tree.at?_of_sight_file hfile
    exact ⟨_, hat, (not_leadsToFolder_iff fs (hc _ hat) _).mpr ⟨bytes, rfl⟩⟩

theorem nodup_modulePaths {root : Location} {es : List (String × Tree)} (hroot : AreNames root)
    (hes : fs.at? root = some (.folder es)) (hnamed : (Tree.folder es).Named) :
    (modulePaths fs fileName ignored root).Nodup := by
  rw [modulePaths, (List.mergeSort_perm _ _).nodup_iff, hes, Option.getD_some]
  refine (nodup_modulesIn root _ hnamed).map_on fun l hl m hm heq => ?_
  obtain ⟨q, rfl, -, -, c, hq, -⟩ := (mem_modulesIn root l _ hnamed).mp hl
  obtain ⟨r, rfl, -, -, d, hr, -⟩ := (mem_modulesIn root m _ hnamed).mp hm
  have hnames : ∀ q c, (Tree.folder es).at? q = some c → AreNames (root ++ q) := fun q c hc =>
    hroot.append (hnamed.of_at hc).1
  exact (Path.toString_inj (hnames q c hq) (hnames r d hr)).mp heq

theorem pairwise_modulePaths (fs : Tree) (root : Location) :
    (modulePaths fs fileName ignored root).Pairwise (· ≤ ·) :=
  List.pairwise_mergeSort' (· ≤ ·) _

/-- What discovery finds depends on the files at the places of modules alone. -/
theorem modulePaths_congr {fs fs' : Tree} {root : Location} (h : IsProject fs root)
    (h' : IsProject fs' root)
    (hsame : ∀ q, isModule fileName ignored q = true → ∀ bytes,
      fs'.sightAt? (root ++ q) = some (.file bytes) ↔ fs.sightAt? (root ++ q) = some (.file bytes)) :
    modulePaths fs' fileName ignored root = modulePaths fs fileName ignored root := by
  -- both are sorted, so that it is enough that the same paths are found
  have hperm : (modulePaths fs' fileName ignored root).Perm (modulePaths fs fileName ignored root) := by
    obtain ⟨es, hes, hplain⟩ := h.plain
    obtain ⟨es', hes', hplain'⟩ := h'.plain
    refine (List.perm_ext_iff_of_nodup (nodup_modulePaths h'.names hes' hplain'.named)
      (nodup_modulePaths h.names hes hplain.named)).mpr fun path => ?_
    rw [mem_modulePaths h', mem_modulePaths h]
    constructor
    · rintro ⟨q, hpath, hq, hlistable, bytes, hfile⟩
      exact ⟨q, hpath, hq, hlistable, bytes, (hsame q hq bytes).mp hfile⟩
    · rintro ⟨q, hpath, hq, hlistable, bytes, hfile⟩
      exact ⟨q, hpath, hq, hlistable, bytes, (hsame q hq bytes).mpr hfile⟩
  exact hperm.eq_of_pairwise (fun a b _ _ => le_antisymm) (pairwise_modulePaths fs' root)
    (pairwise_modulePaths fs root)

end Discovery

namespace Source

open RouteAtlas.Tree (Location)

/-- Reading a file by its path gives the text of the file, unless the path or the file is too long. -/
theorem read_toString {fs : Tree} {l : Location} (hl : AreNames l) {bytes : List UInt8}
    (h : fs.sightAt? l = some (.file bytes)) (here : Location) :
    read fs here (Path.toString ⟨.root, l⟩) =
      if Tree.TooLong l then .error (.file .nameTooLong (Path.toString ⟨.root, l⟩))
      else if largest < bytes.length then
        .error (.report (tooLarge (Path.toString ⟨.root, l⟩) bytes.length) none)
      else decode bytes := by
  have ht := Tree.at?_of_sight_file h
  have hshown : toString (Path.ofString (Path.toString ⟨.root, l⟩)) = Path.toString ⟨.root, l⟩ :=
    congrArg Path.toString (Path.ofString_toString hl)
  have hreach := Tree.reach_toString hl ht (by simp) here
  have hget : fs.get here (Path.toString ⟨.root, l⟩) =
      if Tree.TooLong l then .error (.file .nameTooLong (Path.toString ⟨.root, l⟩))
      else .ok (.file bytes) := by
    rw [Tree.get, Tree.isAddress_toString hl, if_pos rfl, hreach]
    by_cases hlong : Tree.TooLong l
    · rw [if_pos hlong, if_pos hlong]
    · rw [if_neg hlong, if_neg hlong]
  simp only [read, hshown, hget, bind, Except.bind]
  by_cases hlong : Tree.TooLong l
  · rw [if_pos hlong, if_pos hlong]
  · rw [if_neg hlong, if_neg hlong]

/-- A text without carriage returns is read as it was written, unless it is too large. -/
theorem read_written {fs : Tree} {l : Location} (hl : AreNames l) (hshort : ¬ Tree.TooLong l) {s : String}
    (h : fs.sightAt? l = some (.file s.toUTF8.toList)) (hsize : s.toUTF8.toList.length ≤ largest)
    (hs : '\r' ∉ s.toList) (here : Location) : read fs here (Path.toString ⟨.root, l⟩) = .ok s := by
  rw [read_toString hl h, if_neg hshort, if_neg (Nat.not_lt.mpr hsize), decode_of_notMem hs]

/-- Files are read alike where they are alike. -/
theorem read_congr {fs fs' : Tree} {l : Location} (hl : AreNames l) {bytes : List UInt8}
    (h : fs.sightAt? l = some (.file bytes)) (h' : fs'.sightAt? l = some (.file bytes))
    (here : Location) :
    read fs' here (Path.toString ⟨.root, l⟩) = read fs here (Path.toString ⟨.root, l⟩) := by
  rw [read_toString hl h, read_toString hl h']

end Source

end RouteAtlas
