import RouteAtlas.Proofs.PlainTree
import RouteAtlas.Tree.Canonical

/-!
# Projects without links

In a project without links (`Tree.IsProject`) every path of names leads to the place with these names,
or is too long (`Tree.reach_toString`), and it is its own canonical form
(`Tree.IsProject.resolve`). Outside of the project there may be links.
-/

namespace RouteAtlas

namespace Tree

/-! ## Walks that meet no link -/

/-- No link stands on the way by some names from a place. -/
def Clear (fs : Tree) (here names : Location) : Prop :=
  ∀ l, l <+: names → ∀ target, fs.at? (here ++ l) ≠ some (link target)

namespace Clear

variable {fs : Tree} {here rest : Location} {name : String}

theorem first (h : Clear fs here (name :: rest)) (target : String) :
    fs.at? (here ++ [name]) ≠ some (link target) :=
  h [name] (List.prefix_append [name] rest) target

theorem next (h : Clear fs here (name :: rest)) : Clear fs (here ++ [name]) rest := by
  intro l hl target
  rw [List.append_assoc]
  exact h (name :: l) (List.cons_prefix_cons.mpr ⟨rfl, hl⟩) target

end Clear

/-- A walk ends before it has to follow a link. -/
def Reached.Linkless : Reached → Prop
  | .place _ => True
  | .link .. => False
  | .failed e => e ≠ .tooManyLinks

theorem stroll_clear {fs : Tree} {here names : Location} (hnames : AreNames names)
    (h : Clear fs here names) (purpose : Purpose) : (stroll fs purpose here names).Linkless := by
  induction names generalizing here with
  | nil =>
    rw [stroll]
    split
    · trivial
    · exact FileError.noConfusion
  | cons name rest ih =>
    obtain ⟨hname, hrest⟩ := List.forall_mem_cons.mp hnames
    rw [stroll, if_neg (by simp [hname.1, hname.2.1]), if_neg hname.2.2.1]
    split
    · exact FileError.noConfusion
    split
    · exact FileError.noConfusion
    dsimp only
    split
    · split
      · trivial
      · exact FileError.noConfusion
    · exact ih hrest h.next
    · rename_i target ht
      exact absurd ht (h.first target)
    · split
      · trivial
      · exact FileError.noConfusion

/-! ## Paths of names -/

/-- A path is too long for a walk, or one of its names is. -/
def TooLong (names : List String) : Prop :=
  longestPath < (Path.toString ⟨.root, names⟩).utf8ByteSize ∨
    ∃ name ∈ names, longestName < name.utf8ByteSize

instance (names : List String) : Decidable (TooLong names) := inferInstanceAs (Decidable (_ ∨ _))

theorem TooLong.append {names : List String} (h : TooLong names) (more : List String) :
    TooLong (names ++ more) := by
  rcases h with hpath | ⟨long, hmem, hlong⟩
  · exact Or.inl (Nat.lt_of_lt_of_le hpath (Path.size_toString_le names more))
  · exact Or.inr ⟨long, List.mem_append_left _ hmem, hlong⟩

/-- A walk by names to something that is there gets there, unless a name is too long. -/
theorem stroll_names {fs : Tree} {here names : List String} (hnames : AreNames names) {t : Tree}
    (ht : fs.at? (here ++ names) = some t) (hlink : ∀ target, t ≠ .link target) :
    stroll fs .target here names = if ∃ name ∈ names, longestName < name.utf8ByteSize
      then .failed .nameTooLong else .place (.taken (here ++ names) t) := by
  induction names generalizing here with
  | nil =>
    rw [List.append_nil] at ht
    simp [stroll, ht]
  | cons name rest ih =>
    obtain ⟨hname, hrest⟩ := List.forall_mem_cons.mp hnames
    have hsplit : here ++ name :: rest = (here ++ [name]) ++ rest := by simp
    rw [hsplit] at ht ⊢
    have hmore := ih hrest ht
    rw [stroll, if_neg (by simp [hname.1, hname.2.1]), if_neg hname.2.2.1]
    by_cases hlong : longestName < name.utf8ByteSize
    · rw [if_pos hlong, if_pos ⟨name, List.mem_cons_self, hlong⟩]
    · have hexists : (∃ s ∈ name :: rest, longestName < s.utf8ByteSize) ↔
          ∃ s ∈ rest, longestName < s.utf8ByteSize := by simp [hlong]
      rw [if_neg hlong, if_neg (by simp), if_congr hexists rfl rfl, ← hmore]
      dsimp only
      cases rest with
      | nil =>
        rw [List.append_nil] at ht
        cases t with
        | folder es => simp [ht]
        | file bytes => simp [ht, stroll]
        | link target => exact absurd rfl (hlink target)
      | cons name' rest =>
        have hfolder : fs.sightAt? (here ++ [name]) = some .folder := by
          have hsight : fs.sightAt? ((here ++ [name]) ++ name' :: rest) = some t.sight :=
            congrArg (Option.map sight) ht
          exact sightAt?_of_append (List.cons_ne_nil _ _) hsight
        obtain ⟨c, hc, hsight⟩ := Option.map_eq_some_iff.mp hfolder
        obtain ⟨es, rfl⟩ := sight_eq_folder hsight
        simp [hc]

/-- At the top the text of a path has no names but a slash, which changes nothing. -/
theorem stroll_steps (fs : Tree) {names : List String} (h : AreNames names) :
    stroll fs .target [] (steps (Path.toString ⟨.root, names⟩)) = stroll fs .target [] names := by
  rw [steps_toString h]
  by_cases hnames : names = []
  · subst hnames
    rfl
  · rw [if_neg hnames]

theorem isEmpty_toString (names : List String) :
    (Path.toString ⟨.root, names⟩).isEmpty = false := by
  have hne : Path.toString ⟨.root, names⟩ ≠ "" := by
    intro he
    have hlist := Path.toList_toString names
    rw [he] at hlist
    exact List.cons_ne_nil _ _ hlist.symm
  simpa using hne

/-- A path of names leads to what stands at the place, unless it is too long. -/
theorem reach_toString {fs : Tree} {names : List String} (h : AreNames names) {t : Tree}
    (ht : fs.at? names = some t) (hlink : ∀ target, t ≠ .link target) (here : Location) :
    fs.reach here (Path.toString ⟨.root, names⟩) =
      if TooLong names then .error .nameTooLong else .ok t := by
  have hstroll : stroll fs .target [] names =
      if ∃ name ∈ names, longestName < name.utf8ByteSize then .failed .nameTooLong
      else .place (.taken names t) := stroll_names h ht hlink
  rw [reach, locate, isEmpty_toString, startOf_toString, if_neg (by simp)]
  by_cases hpath : longestPath < (Path.toString ⟨.root, names⟩).utf8ByteSize
  · rw [if_pos hpath, if_pos (show TooLong names from Or.inl hpath)]
  · have htooLong : TooLong names ↔ ∃ name ∈ names, longestName < name.utf8ByteSize := by
      simp [TooLong, hpath]
    rw [if_neg hpath, walk, stroll_steps fs h, hstroll, if_congr htooLong rfl rfl]
    by_cases hname : ∃ name ∈ names, longestName < name.utf8ByteSize
    · rw [if_pos hname, if_pos hname]
    · rw [if_neg hname, if_neg hname]

/-- A path of names leads to the folder at the place, unless it is too long. -/
theorem hasFolder_toString {fs : Tree} {names : List String} (h : AreNames names)
    {es : List (String × Tree)} (hes : fs.at? names = some (folder es)) (here : Location) :
    fs.hasFolder here (Path.toString ⟨.root, names⟩) =
      if TooLong names then .error (.file .nameTooLong (Path.toString ⟨.root, names⟩))
      else .ok true := by
  rw [hasFolder, holds, isAddress_toString h, if_pos rfl, reach_toString h hes (by simp)]
  by_cases hlong : TooLong names
  · rw [if_pos hlong, if_pos hlong]
    rfl
  · rw [if_neg hlong, if_neg hlong]
    rfl

/-- A path of names that meets no link does not meet too many. -/
theorem reach_clear {fs : Tree} {names : List String} (h : AreNames names) (hclear : Clear fs [] names)
    (here : Location) : fs.reach here (Path.toString ⟨.root, names⟩) ≠ .error .tooManyLinks := by
  have hstroll := stroll_clear h hclear .target
  have hlocate : fs.locate .target here (Path.toString ⟨.root, names⟩) ≠ .error .tooManyLinks := by
    rw [locate, isEmpty_toString, startOf_toString, if_neg (by simp)]
    split
    · simp
    rw [walk, stroll_steps fs h]
    cases hreached : stroll fs .target [] names with
    | place p => simp
    | link above target rest =>
      rw [hreached] at hstroll
      exact hstroll.elim
    | failed e =>
      rw [hreached] at hstroll
      exact fun he => hstroll (Except.error.inj he)
  rw [reach]
  split
  · simp
  · simp
  · rename_i e he
    rw [he] at hlocate
    simpa using hlocate

/-! ## Canonical forms -/

theorem search_clear {fs : Tree} {here names : Location} (hnames : AreNames names)
    (h : Clear fs here names) (seen : Seen) :
    search fs seen here (names.map .name) = .done (here ++ names) := by
  induction names generalizing here with
  | nil => rw [List.append_nil]; rfl
  | cons name rest ih =>
    obtain ⟨hname, hrest⟩ := List.forall_mem_cons.mp hnames
    have hsplit : here ++ name :: rest = (here ++ [name]) ++ rest := by simp
    rw [List.map_cons, search, if_neg (by simp [hname.1, hname.2.1]), if_neg hname.2.2.1, hsplit]
    dsimp only
    split
    · rename_i target ht
      exact absurd ht (h.first target)
    · exact ih hrest h.next

/-- A path of names that meets no link is its own canonical form. -/
theorem resolve_clear {fs : Tree} {names : List String} (h : AreNames names)
    (hclear : Clear fs [] names) (here : Location) :
    fs.resolve here ⟨.root, names⟩ = .ok ⟨.root, names⟩ := by
  have hcanonical : fs.canonical here ⟨.root, names⟩ = ⟨.root, names⟩ := by
    have hsearch := search_clear h hclear .empty
    show settle fs fs.linkCount .empty [] (names.map .name) = _
    unfold settle
    rw [hsearch]
    rfl
  rw [resolve, isAddress_toString h, if_pos rfl, hcanonical]
  dsimp only
  split
  · rename_i hreach
    exact absurd hreach (reach_clear h hclear [])
  · rfl

/-! ## Projects -/

/-- No link stands on the way to a place in a folder without links, or to where one could be. -/
theorem clear_of_plain {fs : Tree} {root : Location} {es : List (String × Tree)}
    (hes : fs.at? root = some (folder es)) (hplain : (folder es).Plain) (q : Location) :
    Clear fs [] (root ++ q) := by
  intro l hl target ht
  rw [List.nil_append] at ht
  -- the place is above the folder or in it
  rcases List.prefix_or_prefix_of_prefix hl (List.prefix_append root q) with ⟨m, hm⟩ | ⟨m, hm⟩
  · rw [← hm] at hes
    by_cases hempty : m = []
    · subst hempty
      rw [List.append_nil, ht] at hes
      exact Tree.noConfusion (Option.some.inj hes)
    · have hfolder : fs.sightAt? l = some .folder :=
        sightAt?_of_append hempty (congrArg (Option.map Tree.sight) hes)
      rw [sightAt?, ht] at hfolder
      exact Sight.noConfusion (Option.some.inj hfolder)
  · rw [← hm, at?_append, hes, Option.bind_some] at ht
    exact hplain.at?_ne_link m target ht

/-- A project without links stands at a place, and the path to it can be walked. -/
structure IsProject (fs : Tree) (root : Location) : Prop where
  names : AreNames root
  short : ¬ TooLong root
  plain : ∃ es, fs.at? root = some (folder es) ∧ (folder es).Plain

namespace IsProject

variable {fs : Tree} {root : Location}

theorem names_of_sight (h : IsProject fs root) {q : Location} {s : Sight}
    (hs : fs.sightAt? (root ++ q) = some s) : AreNames (root ++ q) := by
  obtain ⟨es, hes, hplain⟩ := h.plain
  rw [sightAt?_append, hes, Option.bind_some] at hs
  exact h.names.append (hplain.of_sight hs)

theorem clear (h : IsProject fs root) (q : Location) : Clear fs [] (root ++ q) := by
  obtain ⟨es, hes, hplain⟩ := h.plain
  exact clear_of_plain hes hplain q

theorem resolve (h : IsProject fs root) {q : Location} (hq : AreNames (root ++ q)) (here : Location) :
    fs.resolve here ⟨.root, root ++ q⟩ = .ok ⟨.root, root ++ q⟩ :=
  resolve_clear hq (h.clear q) here

theorem resolve_root (h : IsProject fs root) (here : Location) :
    fs.resolve here ⟨.root, root⟩ = .ok ⟨.root, root⟩ := by
  have hclear := h.clear []
  rw [List.append_nil] at hclear
  exact resolve_clear h.names hclear here

theorem hasFolder (h : IsProject fs root) (here : Location) :
    fs.hasFolder here (Path.toString ⟨.root, root⟩) = .ok true := by
  obtain ⟨es, hes, -⟩ := h.plain
  rw [hasFolder_toString h.names hes, if_neg h.short]

/-- A project stays one when a file is put in it. -/
theorem put (h : IsProject fs root) {q : Location} (hq : q ≠ []) (hnames : AreNames q)
    (bytes : List UInt8) : IsProject (put (file bytes) (root ++ q) fs) root := by
  obtain ⟨es, hes, hplain⟩ := h.plain
  refine ⟨h.names, h.short, ?_⟩
  have hput : (Tree.put (file bytes) (root ++ q) fs).at? root =
      some (Tree.put (file bytes) q (folder es)) := at?_put q hes
  have hplain' := Plain.put (plain_file bytes) hnames hplain
  obtain ⟨name, rest, rfl⟩ := List.exists_cons_of_ne_nil hq
  exact ⟨_, hput, hplain'⟩

/-- A project stays one when a file is taken away from it. -/
theorem remove (h : IsProject fs root) {q : Location} (hq : q ≠ []) :
    IsProject (remove (root ++ q) fs) root := by
  obtain ⟨es, hes, hplain⟩ := h.plain
  have hremove := at?_remove hq hes
  have hplain' := hplain.remove q
  obtain ⟨es', hes'⟩ := exists_remove_folder es q
  rw [hes'] at hremove hplain'
  exact ⟨h.names, h.short, es', hremove, hplain'⟩

end IsProject

end Tree

end RouteAtlas
