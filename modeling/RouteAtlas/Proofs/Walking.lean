import RouteAtlas.Proofs.PlainTree
import RouteAtlas.Tree.Change

/-!
# Walks in a changed tree

A walk looks at folders and links only, until it ends. So it ends at the same place in every tree that
keeps the folders and the links (`Tree.walk_place`), and a walk that comes into a folder can be taken
up there (`Tree.leads_of_walk`). What is written where a path leads is found there again.
-/

namespace RouteAtlas.Tree

variable {fs fs' : Tree} {purpose : Purpose} {here next : Location} {name : String}
  {rest names : List String}

/-! ## One step of a walk -/

/-- A name that says where to go on without looking at the tree. -/
inductive Turns (here : Location) : String → Location → Prop
  | stay {name : String} (h : name = "" ∨ name = ".") : Turns here name here
  | up : Turns here ".." here.dropLast

/-- A name that an entry is looked up under. -/
structure Enters (name : String) : Prop where
  nonempty : name ≠ ""
  not_dot : name ≠ "."
  not_up : name ≠ ".."
  short : name.utf8ByteSize ≤ longestName

theorem stroll_turn (h : Turns here name next) (fs : Tree) (purpose : Purpose) (rest : List String) :
    stroll fs purpose here (name :: rest) = stroll fs purpose next rest := by
  rw [stroll]
  cases h with
  | stay hname => rw [if_pos (by simpa using hname)]
  | up => rw [if_neg (by simp), if_pos rfl]

/-- What a walk does under a name that it looks up. -/
theorem stroll_enter (h : Enters name) (fs : Tree) (purpose : Purpose) (here : Location)
    (rest : List String) :
    stroll fs purpose here (name :: rest) =
      if purpose = .writing ∧ onlySlash rest = true then .failed .isADirectory
      else
        match fs.at? (here ++ [name]) with
        | none => if rest = [] then .place (.vacant here name) else .failed .noEntry
        | some (.folder _) => stroll fs purpose (here ++ [name]) rest
        | some (.link target) =>
          if rest = [] ∧ purpose = .entry then .place (.taken (here ++ [name]) (.link target))
          else .link here target rest
        | some (.file bytes) =>
          if rest = [] then .place (.taken (here ++ [name]) (.file bytes))
          else .failed .notADirectory := by
  rw [stroll, if_neg (by simp [h.nonempty, h.not_dot]), if_neg h.not_up, if_neg (Nat.not_lt.mpr h.short)]
  by_cases hslash : purpose = .writing ∧ onlySlash rest = true
  · rw [if_pos (by simpa using hslash), if_pos hslash]
  · rw [if_neg (by simpa using hslash), if_neg hslash]
    dsimp only
    cases fs.at? (here ++ [name]) with
    | none => cases rest <;> rfl
    | some t =>
      cases t with
      | file bytes => cases rest <;> rfl
      | folder es => rfl
      | link target => cases rest <;> simp

/-- A name turns, is looked up, or is too long for any tree. -/
theorem turns_or_enters (here : Location) (name : String) :
    (∃ next, Turns here name next) ∨ Enters name ∨
      ∀ fs purpose rest, stroll fs purpose here (name :: rest) = .failed .nameTooLong := by
  by_cases hstay : name = "" ∨ name = "."
  · exact Or.inl ⟨here, .stay hstay⟩
  by_cases hup : name = ".."
  · subst hup
    exact Or.inl ⟨here.dropLast, .up⟩
  by_cases hlong : longestName < name.utf8ByteSize
  · refine Or.inr (Or.inr fun fs purpose rest => ?_)
    rw [stroll, if_neg (by simpa using hstay), if_neg hup, if_pos hlong]
  · rw [not_or] at hstay
    exact Or.inr (Or.inl ⟨hstay.1, hstay.2, hup, Nat.not_lt.mp hlong⟩)

/-! ## Trees that keep folders and links -/

/-- The place that is named, whether or not something stands there. -/
def Place.location : Place → Location
  | .taken l _ => l
  | .vacant above name => above ++ [name]

/-- Every folder and every link of one tree stands in the other, too. -/
structure Keeps (fs fs' : Tree) : Prop where
  folder : ∀ l, fs.sightAt? l = some .folder → fs'.sightAt? l = some .folder
  link : ∀ l target, fs.sightAt? l = some (.link target) → fs'.sightAt? l = some (.link target)

theorem sightAt?_of_at {t : Tree} {l : Location} (h : fs.at? l = some t) :
    fs.sightAt? l = some t.sight := by
  rw [sightAt?, h, Option.map_some]

theorem exists_folder_of_sight {l : Location} (h : fs.sightAt? l = some .folder) :
    ∃ es, fs.at? l = some (folder es) := by
  obtain ⟨t, ht, hsight⟩ := Option.map_eq_some_iff.mp h
  obtain ⟨es, rfl⟩ := sight_eq_folder hsight
  exact ⟨es, ht⟩

theorem at?_of_sight_link {l : Location} {target : String}
    (h : fs.sightAt? l = some (.link target)) : fs.at? l = some (.link target) := by
  obtain ⟨t, ht, hsight⟩ := Option.map_eq_some_iff.mp h
  cases t with
  | link target' =>
    cases hsight
    exact ht
  | file bytes => contradiction
  | folder es => contradiction

namespace Keeps

variable {l : Location}

theorem at_folder (h : Keeps fs fs') {es : List (String × Tree)} (hl : fs.at? l = some (.folder es)) :
    ∃ es', fs'.at? l = some (.folder es') :=
  exists_folder_of_sight (h.folder l (sightAt?_of_at hl))

theorem at_link (h : Keeps fs fs') {target : String} (hl : fs.at? l = some (.link target)) :
    fs'.at? l = some (.link target) :=
  at?_of_sight_link (h.link l target (sightAt?_of_at hl))

end Keeps

/-- Where the names end, the walk ends with what stands there. -/
theorem stroll_enter_last (h : Enters name) {t : Tree} (ht : fs.at? (here ++ [name]) = some t)
    (hlink : ∀ target, t ≠ .link target) :
    stroll fs .target here [name] = .place (.taken (here ++ [name]) t) := by
  rw [stroll_enter h, if_neg (by simp), ht]
  cases t with
  | file bytes => rfl
  | link target => exact absurd rfl (hlink target)
  | folder es =>
    dsimp only
    rw [stroll, ht]

/-- A walk that ends at a place ends there in the other tree, too. -/
theorem stroll_place (hkeeps : Keeps fs fs') (hpurpose : purpose ≠ .entry) {p : Place}
    (h : stroll fs purpose here names = .place p) {t : Tree} (ht : fs'.at? p.location = some t)
    (hlink : ∀ target, t ≠ .link target) :
    stroll fs' .target here names = .place (.taken p.location t) := by
  induction names generalizing here with
  | nil =>
    rw [stroll] at h
    split at h
    · cases h
      rw [stroll]
      change fs'.at? here = some t at ht
      rw [ht]
      rfl
    · contradiction
  | cons name rest ih =>
    rcases turns_or_enters here name with ⟨next, hturn⟩ | henter | hlong
    · rw [stroll_turn hturn] at h ⊢
      exact ih h
    · rw [stroll_enter henter] at h
      split at h
      · contradiction
      split at h
      · split at h
        · rename_i hrest
          cases h
          rw [hrest]
          exact stroll_enter_last henter ht hlink
        · contradiction
      · rename_i es hes
        obtain ⟨es', hes'⟩ := hkeeps.at_folder hes
        rw [stroll_enter henter, if_neg (by simp), hes']
        exact ih h
      · rw [if_neg fun hend => hpurpose hend.2] at h
        contradiction
      · split at h
        · rename_i hrest
          cases h
          rw [hrest]
          exact stroll_enter_last henter ht hlink
        · contradiction
    · rw [hlong] at h
      contradiction

/-- A walk that comes to a link comes to it in the other tree, too. -/
theorem stroll_link (hkeeps : Keeps fs fs') (hpurpose : purpose ≠ .entry) {above : Location}
    {target : String} {left : List String} (h : stroll fs purpose here names = .link above target left) :
    stroll fs' .target here names = .link above target left := by
  induction names generalizing here with
  | nil =>
    rw [stroll] at h
    split at h <;> contradiction
  | cons name rest ih =>
    rcases turns_or_enters here name with ⟨next, hturn⟩ | henter | hlong
    · rw [stroll_turn hturn] at h ⊢
      exact ih h
    · rw [stroll_enter henter] at h ⊢
      rw [if_neg (by simp)]
      split at h
      · contradiction
      split at h
      · split at h <;> contradiction
      · rename_i es hes
        obtain ⟨es', hes'⟩ := hkeeps.at_folder hes
        rw [hes']
        exact ih h
      · rename_i target' htarget'
        rw [if_neg fun hend => hpurpose hend.2] at h
        rw [hkeeps.at_link htarget']
        dsimp only
        rw [if_neg (by simp)]
        exact h
      · split at h <;> contradiction
    · rw [hlong] at h
      contradiction

/-- A walk that ends at a place ends there without following a link, or follows a first link. -/
theorem walk_induction {p : Place} {motive : Nat → Location → List String → Prop}
    (hplace : ∀ budget here names, stroll fs purpose here names = .place p →
      motive budget here names)
    (hlink : ∀ budget here names above target left,
      stroll fs purpose here names = .link above target left →
      motive budget (startOf above target) (steps target ++ left) → motive (budget + 1) here names)
    {budget : Nat} (h : walk fs purpose budget here names = .ok p) : motive budget here names := by
  induction budget generalizing here names with
  | zero =>
    rw [walk] at h
    cases hstroll : stroll fs purpose here names with
    | place q =>
      rw [hstroll] at h
      cases h
      exact hplace 0 here names hstroll
    | link above target left =>
      rw [hstroll] at h
      contradiction
    | failed e =>
      rw [hstroll] at h
      contradiction
  | succ budget ih =>
    rw [walk] at h
    cases hstroll : stroll fs purpose here names with
    | place q =>
      rw [hstroll] at h
      cases h
      exact hplace (budget + 1) here names hstroll
    | link above target left =>
      rw [hstroll] at h
      exact hlink budget here names above target left hstroll (ih h)
    | failed e =>
      rw [hstroll] at h
      contradiction

theorem walk_of_place {p : Place} (h : stroll fs purpose here names = .place p) (budget : Nat) :
    walk fs purpose budget here names = .ok p := by
  cases budget with
  | zero => rw [walk, h]
  | succ budget => rw [walk, h]

theorem walk_of_link {above : Location} {target : String} {left : List String}
    (h : stroll fs purpose here names = .link above target left) (budget : Nat) :
    walk fs purpose (budget + 1) here names =
      walk fs purpose budget (startOf above target) (steps target ++ left) := by
  rw [walk, h]

/-- A walk that ends at a place ends there in the other tree, too, links followed. -/
theorem walk_place (hkeeps : Keeps fs fs') (hpurpose : purpose ≠ .entry) {budget : Nat} {p : Place}
    (h : walk fs purpose budget here names = .ok p) {t : Tree} (ht : fs'.at? p.location = some t)
    (hlink : ∀ target, t ≠ .link target) :
    walk fs' .target budget here names = .ok (.taken p.location t) := by
  refine walk_induction (motive := fun budget here names =>
    walk fs' .target budget here names = .ok (.taken p.location t)) ?_ ?_ h
  · intro budget here names hstroll
    exact walk_of_place (stroll_place hkeeps hpurpose hstroll ht hlink) budget
  · intro budget here names above target left hstroll ih
    rw [walk_of_link (stroll_link hkeeps hpurpose hstroll), ih]

/-! ## Walks that are taken up in a folder -/

/-- Some name is not empty, so that more than a slash follows. -/
def Proper (more : List String) : Prop := ∃ s ∈ more, s ≠ ""

namespace Proper

variable {more : List String}

theorem append_ne_nil (h : Proper more) (rest : List String) : rest ++ more ≠ [] := by
  obtain ⟨s, hs, -⟩ := h
  intro hnil
  rw [(List.append_eq_nil_iff.mp hnil).2] at hs
  contradiction

theorem onlySlash_append (h : Proper more) (rest : List String) :
    onlySlash (rest ++ more) = false := by
  obtain ⟨s, hs, hne⟩ := h
  have hall : (rest ++ more).all (·.isEmpty) = false := by
    rw [List.all_eq_false]
    exact ⟨s, List.mem_append_right _ hs, by simpa using hne⟩
  rw [onlySlash, hall, Bool.and_false]

end Proper

variable {more slash : List String} {place : Location} {es : List (String × Tree)}

theorem stroll_slash (hslash : ∀ s ∈ slash, s = "") (fs : Tree) (purpose : Purpose)
    (here : Location) : stroll fs purpose here slash = stroll fs purpose here [] := by
  induction slash with
  | nil => rfl
  | cons s slash ih =>
    obtain ⟨hs, hslash⟩ := List.forall_mem_cons.mp hslash
    rw [stroll_turn (.stay (Or.inl hs)), ih hslash]

/-- Under a name with more names after it a walk goes on in a folder or follows a link. -/
theorem stroll_enter_proper (h : Enters name) (hmore : Proper more) (fs : Tree) (purpose : Purpose)
    (here : Location) (rest : List String) :
    stroll fs purpose here (name :: (rest ++ more)) =
      match fs.at? (here ++ [name]) with
      | none => .failed .noEntry
      | some (.folder _) => stroll fs purpose (here ++ [name]) (rest ++ more)
      | some (.link target) => .link here target (rest ++ more)
      | some (.file _) => .failed .notADirectory := by
  have hne : rest ++ more ≠ [] := hmore.append_ne_nil rest
  have hslash : onlySlash (rest ++ more) = false := hmore.onlySlash_append rest
  rw [stroll_enter h, if_neg (by simp [hslash])]
  simp only [hne, false_and, if_false]

/-- A walk that comes into a folder goes on from there. -/
theorem stroll_into (hslash : ∀ s ∈ slash, s = "")
    (h : stroll fs .target here (names ++ slash) = .place (.taken place (.folder es))) :
    fs.sightAt? place = some .folder ∧ ∀ purpose more, Proper more →
      stroll fs purpose here (names ++ more) = stroll fs purpose place more := by
  induction names generalizing here with
  | nil =>
    rw [List.nil_append, stroll_slash hslash, stroll] at h
    split at h
    · rename_i t ht
      cases h
      exact ⟨sightAt?_of_at ht, fun _ _ _ => rfl⟩
    · contradiction
  | cons name rest ih =>
    rcases turns_or_enters here name with ⟨next, hturn⟩ | henter | hlong
    · rw [List.cons_append, stroll_turn hturn] at h
      obtain ⟨hplace, hgoes⟩ := ih h
      refine ⟨hplace, fun purpose more hmore => ?_⟩
      rw [List.cons_append, stroll_turn hturn, hgoes purpose more hmore]
    · rw [List.cons_append, stroll_enter henter, if_neg (by simp)] at h
      split at h
      · split at h <;> cases h
      · rename_i es' hes'
        obtain ⟨hplace, hgoes⟩ := ih h
        refine ⟨hplace, fun purpose more hmore => ?_⟩
        rw [List.cons_append, stroll_enter_proper henter hmore, hes']
        exact hgoes purpose more hmore
      · rw [if_neg (by simp)] at h
        contradiction
      · split at h <;> cases h
    · rw [List.cons_append, hlong] at h
      contradiction

/-- A walk that comes to a link does so with other names after it, too. -/
theorem stroll_onto {above : Location} {target : String} {left : List String}
    (hslash : ∀ s ∈ slash, s = "")
    (h : stroll fs .target here (names ++ slash) = .link above target left) :
    ∃ rest, left = rest ++ slash ∧ ∀ purpose more, Proper more →
      stroll fs purpose here (names ++ more) = .link above target (rest ++ more) := by
  induction names generalizing here with
  | nil =>
    rw [List.nil_append, stroll_slash hslash, stroll] at h
    split at h <;> contradiction
  | cons name rest ih =>
    rcases turns_or_enters here name with ⟨next, hturn⟩ | henter | hlong
    · rw [List.cons_append, stroll_turn hturn] at h
      obtain ⟨left', hleft, hgoes⟩ := ih h
      refine ⟨left', hleft, fun purpose more hmore => ?_⟩
      rw [List.cons_append, stroll_turn hturn, hgoes purpose more hmore]
    · rw [List.cons_append, stroll_enter henter, if_neg (by simp)] at h
      split at h
      · split at h <;> contradiction
      · rename_i es' hes'
        obtain ⟨left', hleft, hgoes⟩ := ih h
        refine ⟨left', hleft, fun purpose more hmore => ?_⟩
        rw [List.cons_append, stroll_enter_proper henter hmore, hes']
        exact hgoes purpose more hmore
      · rename_i target' htarget'
        rw [if_neg (by simp)] at h
        cases h
        refine ⟨rest, rfl, fun purpose more hmore => ?_⟩
        rw [List.cons_append, stroll_enter_proper henter hmore, htarget']
      · split at h <;> contradiction
    · rw [List.cons_append, hlong] at h
      contradiction

theorem walk_congr {here' : Location} {names' : List String}
    (h : stroll fs purpose here names = stroll fs purpose here' names') {budget : Nat} :
    walk fs purpose budget here names = walk fs purpose budget here' names' := by
  cases budget with
  | zero => rw [walk, walk, h]
  | succ budget => rw [walk, walk, h]

/-- Walks by these names come into the folder at a place, and may follow some links from there on. -/
def Leads (fs : Tree) (budget : Nat) (here : Location) (names : List String) (place : Location) :
    Prop :=
  fs.sightAt? place = some .folder ∧ ∃ left, ∀ purpose more, Proper more →
    walk fs purpose budget here (names ++ more) = walk fs purpose left place more

/-- A walk that ends in a folder leads there, whether or not a slash is at the end. -/
theorem leads_of_walk {budget : Nat} (hslash : ∀ s ∈ slash, s = "")
    (h : walk fs .target budget here (names ++ slash) = .ok (.taken place (.folder es))) :
    Leads fs budget here names place := by
  refine walk_induction (motive := fun budget here all => ∀ names, all = names ++ slash →
    Leads fs budget here names place) ?_ ?_ h names rfl
  · rintro budget here all hstroll names rfl
    obtain ⟨hplace, hgoes⟩ := stroll_into hslash hstroll
    exact ⟨hplace, budget, fun purpose more hmore => walk_congr (hgoes purpose more hmore)⟩
  · rintro budget here all above target left hstroll ih names rfl
    obtain ⟨rest, rfl, hgoes⟩ := stroll_onto hslash hstroll
    obtain ⟨hplace, left, hwalk⟩ := ih _ (List.append_assoc _ _ _).symm
    refine ⟨hplace, left, fun purpose more hmore => ?_⟩
    rw [walk_of_link (hgoes purpose more hmore), ← List.append_assoc, hwalk purpose more hmore]

theorem leads_of_walk_folder {budget : Nat}
    (h : walk fs .target budget here names = .ok (.taken place (.folder es))) :
    Leads fs budget here names place := by
  have hwalk : walk fs .target budget here (names ++ []) = .ok (.taken place (.folder es)) := by
    rw [List.append_nil]
    exact h
  exact leads_of_walk (fun _ hs => absurd hs List.not_mem_nil) hwalk

/-! ## Walks from a folder -/

theorem sightAt?_dropLast {l : Location} (h : fs.sightAt? l = some .folder) :
    fs.sightAt? l.dropLast = some .folder := by
  rcases List.eq_nil_or_concat' l with rfl | ⟨above, name, rfl⟩
  · exact h
  · rw [List.dropLast_concat]
    exact sightAt?_of_append (List.cons_ne_nil _ _) h

theorem sightAt?_startOf {l : Location} (h : fs.sightAt? l = some .folder) (path : String) :
    fs.sightAt? (startOf l path) = some .folder := by
  rw [startOf]
  split
  · cases l with
    | nil => exact h
    | cons name rest => exact sightAt?_of_append (List.cons_ne_nil name rest) h
  · exact h

/-- Something stands at a place, and it is no link; or there is a folder with room for it. -/
def Place.Stands (fs : Tree) : Place → Prop
  | .taken l t => fs.at? l = some t ∧ ∀ target, t ≠ .link target
  | .vacant above name => fs.sightAt? above = some .folder ∧ fs.at? (above ++ [name]) = none

theorem stroll_stands (hhere : fs.sightAt? here = some .folder) (hpurpose : purpose ≠ .entry) :
    (∀ p, stroll fs purpose here names = .place p → p.Stands fs) ∧
      ∀ above target left, stroll fs purpose here names = .link above target left →
        fs.sightAt? above = some .folder := by
  induction names generalizing here with
  | nil =>
    obtain ⟨es, hes⟩ := exists_folder_of_sight hhere
    rw [stroll, hes]
    constructor
    · rintro p ⟨⟩
      exact ⟨hes, by simp⟩
    · intro above target left h
      contradiction
  | cons name rest ih =>
    rcases turns_or_enters here name with ⟨next, hturn⟩ | henter | hlong
    · rw [stroll_turn hturn]
      refine ih ?_
      cases hturn with
      | stay => exact hhere
      | up => exact sightAt?_dropLast hhere
    · rw [stroll_enter henter]
      split
      · exact ⟨fun p h => by contradiction, fun _ _ _ h => by contradiction⟩
      split
      · rename_i hnone
        split
        · constructor
          · rintro p ⟨⟩
            exact ⟨hhere, hnone⟩
          · intro above target left h
            contradiction
        · exact ⟨fun p h => by contradiction, fun _ _ _ h => by contradiction⟩
      · rename_i es hes
        exact ih (sightAt?_of_at hes)
      · rw [if_neg fun hend => hpurpose hend.2]
        constructor
        · intro p h
          contradiction
        · rintro above target left ⟨⟩
          exact hhere
      · rename_i bytes hbytes
        split
        · constructor
          · rintro p ⟨⟩
            exact ⟨hbytes, by simp⟩
          · intro above target left h
            contradiction
        · exact ⟨fun p h => by contradiction, fun _ _ _ h => by contradiction⟩
    · rw [hlong]
      exact ⟨fun p h => by contradiction, fun _ _ _ h => by contradiction⟩

theorem walk_stands (hhere : fs.sightAt? here = some .folder) (hpurpose : purpose ≠ .entry)
    {budget : Nat} {p : Place} (h : walk fs purpose budget here names = .ok p) : p.Stands fs := by
  refine walk_induction (motive := fun _ here _ => fs.sightAt? here = some .folder → p.Stands fs)
    ?_ ?_ h hhere
  · intro budget here names hstroll hhere
    exact (stroll_stands hhere hpurpose).1 p hstroll
  · intro budget here names above target left hstroll ih hhere
    exact ih (sightAt?_startOf ((stroll_stands hhere hpurpose).2 above target left hstroll) target)

/-- A place that is no folder is free for a file, and no link is in the way. -/
theorem Place.Stands.free {p : Place} (h : p.Stands fs) (htop : fs.sightAt? [] = some .folder)
    (hfolder : ∀ l es, p ≠ .taken l (.folder es)) :
    ∃ above name, p.location = above ++ [name] ∧ Free fs above name ∧
      ∀ target, fs.sightAt? (above ++ [name]) ≠ some (.link target) := by
  cases p with
  | vacant above name =>
    have hnone : fs.sightAt? (above ++ [name]) = none := by rw [sightAt?, h.2, Option.map_none]
    exact ⟨above, name, rfl, ⟨h.1, by simp [hnone]⟩, by simp [hnone]⟩
  | taken l t =>
    cases t with
    | folder es => exact absurd rfl (hfolder l es)
    | link target => exact absurd rfl (h.2 target)
    | file bytes =>
      have hsight : fs.sightAt? l = some (.file bytes) := sightAt?_of_at h.1
      rcases List.eq_nil_or_concat' l with rfl | ⟨above, name, rfl⟩
      · cases htop.symm.trans hsight
      · exact ⟨above, name, rfl, Free.of_file hsight, by simp [hsight]⟩

/-- What is put in a free place is in the way of no folder and no link. -/
theorem Free.keeps {above : Location} (h : Free fs above name)
    (hlink : ∀ target, fs.sightAt? (above ++ [name]) ≠ some (.link target)) {new : Tree}
    (hnew : new.entries = []) : Keeps fs (put new (above ++ [name]) fs) where
  folder l hl := by
    rw [sightAt?_put_leaf h hnew, if_neg, hl]
    rintro rfl
    exact h.vacant hl
  link l target hl := by
    rw [sightAt?_put_leaf h hnew, if_neg, hl]
    rintro rfl
    exact hlink target hl

/-! ## Writing and making folders -/

theorem sightAt?_top {l : Location} (h : fs.sightAt? l = some .folder) :
    fs.sightAt? [] = some .folder := by
  cases l with
  | nil => exact h
  | cons name rest => exact sightAt?_of_append (List.cons_ne_nil name rest) h

theorem locate_eq_walk {path : String} {p : Place} (h : fs.locate purpose here path = .ok p) :
    walk fs purpose mostLinks (startOf here path) (steps path) = .ok p ∧
      ∀ (fs' : Tree) (purpose' : Purpose), fs'.locate purpose' here path =
        walk fs' purpose' mostLinks (startOf here path) (steps path) := by
  unfold locate at h
  split at h
  · contradiction
  rename_i hempty
  split at h
  · contradiction
  rename_i hlong
  refine ⟨h, fun fs' purpose' => ?_⟩
  rw [locate, if_neg hempty, if_neg hlong]

/-- Where the way to a file leads into a folder, the file that is written is found again. -/
theorem get_writeFile {path : String} {bytes : List UInt8}
    (h : fs.writeFile here path bytes = .ok fs') (hsteps : steps path = names ++ more)
    (hmore : Proper more) (hleads : Leads fs mostLinks (startOf here path) names place) :
    fs'.get here path = .ok (.file bytes) := by
  unfold writeFile at h
  split at h
  case isFalse => contradiction
  rename_i haddress
  cases hlocate : fs.locate .writing here path with
  | error e =>
    rw [hlocate] at h
    contradiction
  | ok p =>
    obtain ⟨hwalk, hlocate'⟩ := locate_eq_walk hlocate
    obtain ⟨hplace, left, hgoes⟩ := hleads
    have hstands : p.Stands fs := by
      rw [hsteps, hgoes .writing more hmore] at hwalk
      exact walk_stands hplace (by simp) hwalk
    have hput : fs' = put (.file bytes) p.location fs ∧ ∀ l es, p ≠ .taken l (.folder es) := by
      rw [hlocate] at h
      cases p with
      | vacant above name =>
        cases h
        exact ⟨rfl, by simp⟩
      | taken l t =>
        dsimp only at h
        split at h
        · contradiction
        · rename_i hfolder
          cases h
          refine ⟨rfl, ?_⟩
          rintro l es ⟨⟩
          exact hfolder rfl
    obtain ⟨rfl, hfolder⟩ := hput
    obtain ⟨above, name, hlocation, hfree, hlink⟩ := hstands.free (sightAt?_top hplace) hfolder
    have hkeeps : Keeps fs (put (.file bytes) p.location fs) := by
      rw [hlocation]
      exact hfree.keeps hlink rfl
    have hfile : (put (.file bytes) p.location fs).at? p.location = some (.file bytes) := by
      refine at?_of_sight_file ?_
      rw [hlocation, sightAt?_put hfree, if_pos rfl]
    have hfound := walk_place hkeeps (by simp) hwalk hfile (by simp)
    rw [get, if_pos haddress, reach, hlocate', hfound]

/-- The last step of a path is taken in a folder, and it is a name that is looked up. -/
theorem lastStep_name {path : String} {slash : Bool}
    (h : fs.lastStep here path = .ok (place, .name name slash)) :
    Enters name ∧ ∃ front es, (steps path).filter (· ≠ "") = front ++ [name] ∧
      walk fs .target mostLinks (startOf here path) (front ++ [""]) =
        .ok (.taken place (.folder es)) := by
  unfold lastStep at h
  split at h
  · contradiction
  split at h
  · contradiction
  split at h
  · cases h
  rename_i last above hsteps
  obtain ⟨p, hwalk, h⟩ := bind_eq_ok_iff.mp h
  have hfilter : (steps path).filter (· ≠ "") = above.reverse ++ [last] := by
    rw [← List.reverse_cons, ← hsteps, List.reverse_reverse]
  have hmem : last ∈ (steps path).filter (· ≠ "") := by
    rw [hfilter]
    exact List.mem_append_right _ List.mem_cons_self
  have hnonempty : last ≠ "" := by simpa using (List.mem_filter.mp hmem).2
  split at h
  · rename_i l es
    split at h
    · cases h
    rename_i hdot
    split at h
    · cases h
    rename_i hup
    split at h
    · cases h
    rename_i hlong
    cases h
    exact ⟨⟨hnonempty, hdot, hup, Nat.not_lt.mp hlong⟩, above.reverse, es, hfilter, hwalk⟩
  · contradiction
  · contradiction

theorem exists_folder_of_isFolder {t : Tree} (h : t.isFolder = true) : ∃ es, t = folder es := by
  cases t with
  | folder es => exact ⟨es, rfl⟩
  | file bytes => contradiction
  | link target => contradiction

/-- A path with something of a kind at its end leads to it. -/
theorem locate_of_holds {property : Tree → Bool} {path : String}
    (h : fs.holds property here path = .ok true) :
    isAddress path = true ∧
      ∃ l t, fs.locate .target here path = .ok (.taken l t) ∧ property t = true := by
  unfold holds reach at h
  split at h
  case isFalse => cases h
  rename_i haddress
  refine ⟨haddress, ?_⟩
  cases hlocate : fs.locate .target here path with
  | error e =>
    rw [hlocate] at h
    dsimp only at h
    split at h <;> cases h
  | ok p =>
    rw [hlocate] at h
    cases p with
    | vacant above name => cases h
    | taken l t => exact ⟨l, t, rfl, Except.ok.inj h⟩

theorem locate_of_hasFolder {path : String} (h : fs.hasFolder here path = .ok true) :
    isAddress path = true ∧ ∃ l es, fs.locate .target here path = .ok (.taken l (.folder es)) := by
  obtain ⟨haddress, l, t, hlocate, hfolder⟩ := locate_of_holds h
  obtain ⟨es, rfl⟩ := exists_folder_of_isFolder hfolder
  exact ⟨haddress, l, es, hlocate⟩

theorem walk_of_hasFolder {path : String} (h : fs.hasFolder here path = .ok true) :
    ∃ l es, walk fs .target mostLinks (startOf here path) (steps path) =
      .ok (.taken l (.folder es)) := by
  obtain ⟨-, l, es, hlocate⟩ := locate_of_hasFolder h
  exact ⟨l, es, (locate_eq_walk hlocate).1⟩

/-- The path of a folder that has been made leads there. -/
theorem leads_of_makeFolder {path : String} (h : fs.makeFolder here path = .ok fs')
    (hclean : ∀ s ∈ steps path, s ≠ "") :
    ∃ place, Leads fs' mostLinks (startOf here path) (steps path) place := by
  unfold makeFolder at h
  split at h
  · rename_i added hadd
    cases h
    unfold addFolder at hadd
    obtain ⟨⟨above, last⟩, hlast, hadd⟩ := bind_eq_ok_iff.mp hadd
    split at hadd
    case h_2 => contradiction
    rename_i above name slash heq
    cases heq
    split at hadd
    · contradiction
    rename_i hvacant
    cases hadd
    obtain ⟨henter, front, es, hfilter, hwalk⟩ := lastStep_name hlast
    have hsteps : steps path = front ++ [name] := by
      rw [← hfilter, List.filter_eq_self.mpr (by simpa using hclean)]
    have habove : fs.sightAt? above = some .folder := (leads_of_walk (by simp) hwalk).1
    have hnone : fs.sightAt? (above ++ [name]) = none := by
      rw [sightAt?, Option.not_isSome_iff_eq_none.mp hvacant, Option.map_none]
    have hfree : Free fs above name := ⟨habove, by simp [hnone]⟩
    have hkeeps : Keeps fs (put (.folder []) (above ++ [name]) fs) :=
      hfree.keeps (by simp [hnone]) rfl
    -- The way up to the new folder is what it was; from there one more step is taken.
    obtain ⟨es', hes'⟩ := exists_folder_of_sight (hkeeps.folder above habove)
    have hfront : Leads (put (.folder []) (above ++ [name]) fs) mostLinks (startOf here path) front
        above := leads_of_walk (by simp) (walk_place hkeeps (by simp) hwalk hes' (by simp))
    obtain ⟨-, left, hgoes⟩ := hfront
    have hmade : (put (.folder []) (above ++ [name]) fs).sightAt? (above ++ [name]) = some .folder := by
      rw [sightAt?_put_leaf hfree rfl, if_pos rfl]
      rfl
    obtain ⟨made, hmade⟩ := exists_folder_of_sight hmade
    have hlast := walk_of_place (stroll_enter_last henter hmade (by simp)) left
    rw [← hgoes .target [name] ⟨name, List.mem_cons_self, henter.nonempty⟩, ← hsteps] at hlast
    exact ⟨above ++ [name], leads_of_walk_folder hlast⟩
  · contradiction
  · split at h
    · rename_i hfolder
      cases h
      obtain ⟨l, es, hwalk⟩ := walk_of_hasFolder hfolder
      exact ⟨l, leads_of_walk_folder hwalk⟩
    · contradiction

theorem makeFolder_of_mapError {path : String} {f : FileError → Fault}
    (h : (fs.makeFolder here path).mapError f = .ok fs') : fs.makeFolder here path = .ok fs' := by
  cases hmade : fs.makeFolder here path with
  | ok made =>
    rw [hmade] at h
    cases h
    rfl
  | error e =>
    rw [hmade] at h
    cases h

/-- The last folder that is made is the one at the path itself. -/
theorem exists_makeFolder {p : Path} (h : fs.makeFolders here p = .ok fs') :
    ∃ fs₀ : Tree, fs₀.makeFolder here p.toString = .ok fs' := by
  unfold makeFolders at h
  split at h
  case isFalse => cases h
  have hpath : p = Path.mk p.anchor p.names.reverse.reverse := by rw [List.reverse_reverse]
  rw [hpath]
  generalize p.names.reverse = names at h ⊢
  cases names with
  | nil =>
    rw [makeFoldersFrom] at h
    exact ⟨fs, makeFolder_of_mapError h⟩
  | cons name above =>
    rw [makeFoldersFrom] at h
    split at h
    · rename_i hmade
      cases h
      exact ⟨fs, hmade⟩
    · split at h
      · rename_i fs₀ _
        exact ⟨fs₀, makeFolder_of_mapError h⟩
      · contradiction
    · contradiction

end RouteAtlas.Tree
