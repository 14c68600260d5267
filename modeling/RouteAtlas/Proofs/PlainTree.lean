import RouteAtlas.Proofs.PathText
import RouteAtlas.Proofs.Table

/-!
# Trees without links

A file that is put somewhere or taken away changes what is seen at its place, and nowhere else
(`Tree.sightAt?_put`, `Tree.sightAt?_remove`). A tree of folders and files under proper names, without
links, stays one (`Tree.Plain`).
-/

namespace RouteAtlas

namespace Tree

/-! ## What is seen at a place -/

/-- What stands at a place, without what is in it if it is a folder. -/
inductive Sight where
  | file (bytes : List UInt8)
  | link (target : String)
  | folder
deriving DecidableEq, Repr

/-- How a tree is seen from outside. -/
def sight : Tree → Sight
  | file bytes => .file bytes
  | link target => .link target
  | folder _ => .folder

/-- What is seen at a place, if anything is. -/
def sightAt? (fs : Tree) (l : Location) : Option Sight := (fs.at? l).map sight

theorem sightAt?_nil (fs : Tree) : fs.sightAt? [] = some fs.sight := rfl

theorem at?_of_sight_file {fs : Tree} {l : Location} {bytes : List UInt8}
    (h : fs.sightAt? l = some (.file bytes)) : fs.at? l = some (.file bytes) := by
  obtain ⟨t, ht, hsight⟩ := Option.map_eq_some_iff.mp h
  cases t with
  | file bytes' =>
    cases hsight
    exact ht
  | link target => contradiction
  | folder es => contradiction

theorem sightAt?_folder_cons (es : List (String × Tree)) (name : String) (rest : Location) :
    (folder es).sightAt? (name :: rest) =
      (Table.lookup name es).bind fun c => c.sightAt? rest := by
  rw [sightAt?, at?_cons]
  show ((Table.lookup name es).bind fun c => c.at? rest).map sight = _
  rw [Option.map_bind]
  rfl

theorem sight_eq_folder {t : Tree} (h : t.sight = .folder) : ∃ es, t = folder es := by
  cases t with
  | folder es => exact ⟨es, rfl⟩
  | file bytes => contradiction
  | link target => contradiction

/-- There is nothing below what is no folder. -/
theorem sightAt?_cons_of_ne {t : Tree} (h : t.sight ≠ .folder) (name : String) (rest : Location) :
    t.sightAt? (name :: rest) = none := by
  cases t with
  | folder es => exact absurd rfl h
  | file bytes => rfl
  | link target => rfl

theorem sightAt?_append (fs : Tree) (l m : Location) :
    fs.sightAt? (l ++ m) = (fs.at? l).bind fun c => c.sightAt? m := by
  rw [sightAt?, at?_append, Option.map_bind]
  rfl

/-- What leads to something is a folder. -/
theorem sightAt?_of_append {fs : Tree} {l m : Location} {s : Sight} (hm : m ≠ [])
    (h : fs.sightAt? (l ++ m) = some s) : fs.sightAt? l = some .folder := by
  rw [sightAt?_append] at h
  obtain ⟨c, hc, hs⟩ := Option.bind_eq_some_iff.mp h
  rw [sightAt?, hc, Option.map_some]
  by_contra hne
  cases m with
  | nil => exact hm rfl
  | cons name rest =>
    have hnone := sightAt?_cons_of_ne (fun he => hne (congrArg some he)) name rest
    rw [hnone] at hs
    contradiction

/-! ## Putting files and taking them away -/

/-- There is a folder in which a file may stand at a place, and no folder stands there. -/
structure Free (fs : Tree) (above : Location) (name : String) : Prop where
  parent : fs.sightAt? above = some .folder
  vacant : fs.sightAt? (above ++ [name]) ≠ some .folder

namespace Free

/-- A place below an entry of a folder is free in the folder as in the entry. -/
theorem entry {es : List (String × Tree)} {a : String} {above : Location} {name : String}
    (h : Free (folder es) (a :: above) name) :
    ∃ c, Table.lookup a es = some c ∧ Free c above name := by
  have hparent := h.parent
  have hvacant := h.vacant
  rw [sightAt?_folder_cons] at hparent
  rw [List.cons_append, sightAt?_folder_cons] at hvacant
  obtain ⟨c, hc, hs⟩ := Option.bind_eq_some_iff.mp hparent
  rw [hc, Option.bind_some] at hvacant
  exact ⟨c, hc, hs, hvacant⟩

theorem exists_entries {fs : Tree} {above : Location} {name : String} (h : Free fs above name) :
    ∃ es, fs = folder es := by
  have htop : fs.sightAt? [] = some .folder := by
    by_cases hempty : above = []
    · rw [← hempty]
      exact h.parent
    · exact sightAt?_of_append hempty h.parent
  exact sight_eq_folder (Option.some.inj htop)

/-- What stood at the place was no folder, so that there is nothing below it. -/
theorem below {es : List (String × Tree)} {name : String} (h : Free (folder es) [] name)
    (n : String) (r : Location) :
    ((Table.lookup name es).bind fun c => c.sightAt? (n :: r)) = none := by
  have hvacant := h.vacant
  rw [List.nil_append, sightAt?_folder_cons] at hvacant
  cases hc : Table.lookup name es with
  | none => rfl
  | some c =>
    rw [hc, Option.bind_some, sightAt?_nil] at hvacant
    exact sightAt?_cons_of_ne (fun he => hvacant (congrArg some he)) n r

theorem of_file {fs : Tree} {above : Location} {name : String} {bytes : List UInt8}
    (h : fs.sightAt? (above ++ [name]) = some (.file bytes)) : Free fs above name where
  parent := sightAt?_of_append (List.cons_ne_nil _ _) h
  vacant := by
    rw [h]
    simp

end Free

/-- What is taken away below an entry of a folder is taken away from the entry. -/
theorem remove_cons {es : List (String × Tree)} {a : String} {c : Tree} {m : Location} (hm : m ≠ [])
    (hc : Table.lookup a es = some c) :
    remove (a :: m) (folder es) = folder (Table.assign a (remove m c) es) := by
  obtain ⟨next, more, rfl⟩ := List.exists_cons_of_ne_nil hm
  rw [remove, hc]
  simp

theorem exists_remove_folder (es : List (String × Tree)) (l : Location) :
    ∃ es', remove l (folder es) = folder es' := by
  cases l with
  | nil => exact ⟨es, rfl⟩
  | cons a m =>
    by_cases hm : m = []
    · subst hm
      exact ⟨_, rfl⟩
    · cases hc : Table.lookup a es with
      | some c => exact ⟨_, remove_cons hm hc⟩
      | none =>
        obtain ⟨next, more, rfl⟩ := List.exists_cons_of_ne_nil hm
        exact ⟨es, by rw [remove, hc]; simp⟩

/-- A change at one place of an entry is a change at one place of the folder. -/
theorem sightAt?_assign {es : List (String × Tree)} {a : String} {c c' : Tree} {place : Location}
    {s : Option Sight} (hc : Table.lookup a es = some c)
    (hchange : ∀ m, c'.sightAt? m = if m = place then s else c.sightAt? m) (m : Location) :
    (folder (Table.assign a c' es)).sightAt? m =
      if m = a :: place then s else (folder es).sightAt? m := by
  cases m with
  | nil => rfl
  | cons n r =>
    rw [sightAt?_folder_cons, sightAt?_folder_cons, Table.lookup_assign]
    by_cases hn : a = n
    · subst hn
      rw [if_pos rfl, Option.bind_some, hchange, hc, Option.bind_some]
      simp
    · rw [if_neg hn, if_neg (by simp [Ne.symm hn])]

/-- There is nothing below what has no entries. -/
theorem sightAt?_cons_of_entries {t : Tree} (h : t.entries = []) (name : String) (rest : Location) :
    t.sightAt? (name :: rest) = none := by
  rw [sightAt?, at?_cons, child?, h]
  rfl

/-- What has no entries is put in one place and seen there; nothing else changes. -/
theorem sightAt?_put_leaf {fs new : Tree} {above : Location} {name : String} (h : Free fs above name)
    (hnew : new.entries = []) (m : Location) :
    (put new (above ++ [name]) fs).sightAt? m =
      if m = above ++ [name] then some new.sight else fs.sightAt? m := by
  induction above generalizing fs m with
  | nil =>
    obtain ⟨es, rfl⟩ := h.exists_entries
    cases m with
    | nil => rfl
    | cons n r =>
      show (folder (Table.assign name new es)).sightAt? (n :: r) = _
      rw [sightAt?_folder_cons, sightAt?_folder_cons, Table.lookup_assign]
      by_cases hn : name = n
      · subst hn
        cases r with
        | nil => simp [sightAt?_nil]
        | cons n' r =>
          rw [if_pos rfl, Option.bind_some, if_neg (by simp), h.below, sightAt?_cons_of_entries hnew]
      · rw [if_neg hn, if_neg (by simp [Ne.symm hn])]
  | cons a above ih =>
    obtain ⟨es, rfl⟩ := h.exists_entries
    obtain ⟨c, hc, hfree⟩ := h.entry
    show (folder (Table.assign a (put new (above ++ [name])
      ((Table.lookup a es).getD (folder []))) es)).sightAt? m = _
    rw [hc, Option.getD_some]
    exact sightAt?_assign hc (ih hfree) m

/-- A file is put in one place and seen there; nothing else changes. -/
theorem sightAt?_put {fs : Tree} {above : Location} {name : String} (h : Free fs above name)
    (bytes : List UInt8) (m : Location) :
    (put (file bytes) (above ++ [name]) fs).sightAt? m =
      if m = above ++ [name] then some (.file bytes) else fs.sightAt? m :=
  sightAt?_put_leaf h rfl m

/-- A file is taken away from one place; nothing else changes. -/
theorem sightAt?_remove {fs : Tree} {above : Location} {name : String} (h : Free fs above name)
    (m : Location) :
    (remove (above ++ [name]) fs).sightAt? m =
      if m = above ++ [name] then none else fs.sightAt? m := by
  induction above generalizing fs m with
  | nil =>
    obtain ⟨es, rfl⟩ := h.exists_entries
    cases m with
    | nil => rfl
    | cons n r =>
      show (folder (es.filter fun e => e.1 ≠ name)).sightAt? (n :: r) = _
      rw [sightAt?_folder_cons, sightAt?_folder_cons, Table.lookup_filter_ne]
      by_cases hn : n = name
      · subst hn
        cases r with
        | nil => simp
        | cons n' r =>
          rw [if_pos rfl, Option.bind_none, if_neg (by simp), h.below]
      · rw [if_neg hn, if_neg (by simp [hn])]
  | cons a above ih =>
    obtain ⟨es, rfl⟩ := h.exists_entries
    obtain ⟨c, hc, hfree⟩ := h.entry
    rw [List.cons_append, remove_cons (by simp) hc]
    exact sightAt?_assign hc (ih hfree) m

/-- A place stays free when a file is taken away somewhere. -/
theorem Free.remove {fs : Tree} {above above' : Location} {name name' : String} {bytes : List UInt8}
    (h' : Free fs above' name') (h : Free fs above name)
    (hfile : fs.sightAt? (above ++ [name]) = some (.file bytes)) :
    Free (remove (above ++ [name]) fs) above' name' where
  parent := by
    have hne : above' ≠ above ++ [name] := by
      intro heq
      have hparent := h'.parent
      rw [heq, hfile] at hparent
      exact Sight.noConfusion (Option.some.inj hparent)
    rw [sightAt?_remove h, if_neg hne]
    exact h'.parent
  vacant := by
    rw [sightAt?_remove h]
    split
    · simp
    · exact h'.vacant

/-! ## Changes below a place -/

/-- What is put below a place is put in what stands there. -/
theorem at?_put {new fs t : Tree} {l : Location} (m : Location) (ht : fs.at? l = some t) :
    (put new (l ++ m) fs).at? l = some (put new m t) := by
  induction l generalizing fs with
  | nil =>
    cases ht
    rfl
  | cons name rest ih =>
    rw [at?_cons] at ht
    obtain ⟨c, hc, hrest⟩ := Option.bind_eq_some_iff.mp ht
    cases fs with
    | file bytes => contradiction
    | link target => contradiction
    | folder es =>
      have hlookup : Table.lookup name es = some c := hc
      show (Table.lookup name (Table.assign name (put new (rest ++ m)
        ((Table.lookup name es).getD (folder []))) es)).bind (fun c => c.at? rest) = _
      rw [Table.lookup_assign, if_pos rfl, hlookup]
      exact ih hrest

/-- What is taken away below a place is taken away from what stands there. -/
theorem at?_remove {fs t : Tree} {l m : Location} (hm : m ≠ []) (ht : fs.at? l = some t) :
    (remove (l ++ m) fs).at? l = some (remove m t) := by
  induction l generalizing fs with
  | nil =>
    cases ht
    rfl
  | cons name rest ih =>
    rw [at?_cons] at ht
    obtain ⟨c, hc, hrest⟩ := Option.bind_eq_some_iff.mp ht
    cases fs with
    | file bytes => contradiction
    | link target => contradiction
    | folder es =>
      have hlookup : Table.lookup name es = some c := hc
      have hne : rest ++ m ≠ [] := fun h => hm (List.append_eq_nil_iff.mp h).2
      rw [List.cons_append, remove_cons hne hlookup]
      show (Table.lookup name (Table.assign name (remove (rest ++ m) c) es)).bind
        (fun c => c.at? rest) = _
      rw [Table.lookup_assign, if_pos rfl]
      exact ih hrest

/-! ## Trees under proper names -/

mutual

/-- A tree whose folders have distinct proper names for their entries. There may be links in it. -/
def Named : Tree → Prop
  | file _ => True
  | link _ => True
  | folder es => NamedAmong es

/-- The entries of a folder in such a tree. -/
def NamedAmong : List (String × Tree) → Prop
  | [] => True
  | (name, t) :: rest => IsName name ∧ name ∉ rest.map Prod.fst ∧ Named t ∧ NamedAmong rest

end

namespace Named

theorem lookup {es : List (String × Tree)} (h : (folder es).Named) {name : String} {c : Tree}
    (hc : Table.lookup name es = some c) : IsName name ∧ c.Named := by
  rw [Named] at h
  induction es with
  | nil => contradiction
  | cons e es ih =>
    obtain ⟨name', t⟩ := e
    obtain ⟨hname, -, ht, hes⟩ := h
    rw [Table.lookup] at hc
    split at hc
    · rename_i heq
      cases hc
      exact ⟨heq ▸ hname, ht⟩
    · exact ih hes hc

theorem child {t : Tree} (h : t.Named) {name : String} {c : Tree} (hc : t.child? name = some c) :
    IsName name ∧ c.Named := by
  cases t with
  | folder es => exact h.lookup hc
  | file bytes => contradiction
  | link target => contradiction

theorem of_at {fs : Tree} (h : fs.Named) {l : Location} {t : Tree} (ht : fs.at? l = some t) :
    AreNames l ∧ t.Named := by
  induction l generalizing fs with
  | nil =>
    cases ht
    exact ⟨fun s hs => absurd hs List.not_mem_nil, h⟩
  | cons name rest ih =>
    rw [at?_cons] at ht
    obtain ⟨c, hc, ht⟩ := Option.bind_eq_some_iff.mp ht
    obtain ⟨hname, hnamed⟩ := h.child hc
    obtain ⟨hrest, ht⟩ := ih hnamed ht
    exact ⟨List.forall_mem_cons.mpr ⟨hname, hrest⟩, ht⟩

end Named

/-! ## Trees without links -/

mutual

/-- A tree of folders and files, whose folders have distinct proper names for their entries. -/
def Plain : Tree → Prop
  | file _ => True
  | link _ => False
  | folder es => PlainAmong es

/-- The entries of a folder in such a tree. -/
def PlainAmong : List (String × Tree) → Prop
  | [] => True
  | (name, t) :: rest => IsName name ∧ name ∉ rest.map Prod.fst ∧ Plain t ∧ PlainAmong rest

end

mutual

theorem Plain.named : {t : Tree} → t.Plain → t.Named
  | file _, _ => by rw [Named]; trivial
  | link _, h => h.elim
  | folder _, h => by
    rw [Named]
    exact PlainAmong.named h

theorem PlainAmong.named : {es : List (String × Tree)} → PlainAmong es → NamedAmong es
  | [], _ => by rw [NamedAmong]; trivial
  | (_, _) :: _, ⟨hname, hfresh, ht, hes⟩ => by
    rw [NamedAmong]
    exact ⟨hname, hfresh, ht.named, hes.named⟩

end

theorem plainAmong_iff {es : List (String × Tree)} :
    PlainAmong es ↔ (es.map Prod.fst).Nodup ∧ ∀ e ∈ es, IsName e.1 ∧ Plain e.2 := by
  induction es with
  | nil => simp [PlainAmong]
  | cons e es ih =>
    rw [PlainAmong, ih, List.map_cons, List.nodup_cons, List.forall_mem_cons]
    constructor
    · rintro ⟨hname, hfresh, ht, hdistinct, hall⟩
      exact ⟨⟨hfresh, hdistinct⟩, ⟨hname, ht⟩, hall⟩
    · rintro ⟨⟨hfresh, hdistinct⟩, ⟨hname, ht⟩, hall⟩
      exact ⟨hname, hfresh, ht, hdistinct, hall⟩

theorem plain_file (bytes : List UInt8) : (file bytes).Plain := by
  rw [Plain]
  trivial

theorem plain_folder_iff {es : List (String × Tree)} :
    (folder es).Plain ↔ (es.map Prod.fst).Nodup ∧ ∀ e ∈ es, IsName e.1 ∧ Plain e.2 := by
  rw [Plain, plainAmong_iff]

namespace Plain

theorem lookup {es : List (String × Tree)} (h : (folder es).Plain) {name : String} {c : Tree}
    (hc : Table.lookup name es = some c) : IsName name ∧ c.Plain :=
  (plain_folder_iff.mp h).2 (name, c) (Table.mem_of_lookup hc)

theorem child {t : Tree} (h : t.Plain) {name : String} {c : Tree} (hc : t.child? name = some c) :
    IsName name ∧ c.Plain := by
  cases t with
  | folder es => exact h.lookup hc
  | file bytes => contradiction
  | link target => contradiction

theorem of_at {fs : Tree} (h : fs.Plain) {l : Location} {t : Tree} (ht : fs.at? l = some t) :
    AreNames l ∧ t.Plain := by
  induction l generalizing fs with
  | nil =>
    cases ht
    exact ⟨fun s hs => absurd hs List.not_mem_nil, h⟩
  | cons name rest ih =>
    rw [at?_cons] at ht
    obtain ⟨c, hc, ht⟩ := Option.bind_eq_some_iff.mp ht
    obtain ⟨hname, hplain⟩ := h.child hc
    obtain ⟨hrest, ht⟩ := ih hplain ht
    exact ⟨List.forall_mem_cons.mpr ⟨hname, hrest⟩, ht⟩

theorem of_sight {fs : Tree} (h : fs.Plain) {l : Location} {s : Sight}
    (hs : fs.sightAt? l = some s) : AreNames l := by
  obtain ⟨t, ht, -⟩ := Option.map_eq_some_iff.mp hs
  exact (h.of_at ht).1

/-- No link is seen anywhere. -/
theorem at?_ne_link {fs : Tree} (h : fs.Plain) (l : Location) (target : String) :
    fs.at? l ≠ some (link target) :=
  fun ht => (h.of_at ht).2

theorem assign {es : List (String × Tree)} (h : (folder es).Plain) {name : String}
    (hname : IsName name) {t : Tree} (ht : t.Plain) : (folder (Table.assign name t es)).Plain := by
  obtain ⟨hdistinct, hall⟩ := plain_folder_iff.mp h
  refine plain_folder_iff.mpr ⟨Table.nodup_assign hdistinct, fun e he => ?_⟩
  rcases Table.mem_assign he with rfl | he
  · exact ⟨hname, ht⟩
  · exact hall e he

theorem put {new fs : Tree} (hnew : new.Plain) {l : Location} (hl : AreNames l) (h : fs.Plain) :
    (put new l fs).Plain := by
  induction l generalizing fs with
  | nil => exact hnew
  | cons name rest ih =>
    obtain ⟨hname, hrest⟩ := List.forall_mem_cons.mp hl
    cases fs with
    | file bytes => exact h
    | link target => exact h
    | folder es =>
      refine h.assign hname (ih hrest ?_)
      cases hc : Table.lookup name es with
      | none => exact plain_folder_iff.mpr ⟨List.nodup_nil, by simp⟩
      | some c => exact (h.lookup hc).2

theorem remove {fs : Tree} (h : fs.Plain) (l : Location) : (remove l fs).Plain := by
  induction l generalizing fs with
  | nil => exact h
  | cons name rest ih =>
    cases fs with
    | file bytes => cases rest <;> exact h
    | link target => cases rest <;> exact h
    | folder es =>
      cases rest with
      | nil =>
        obtain ⟨hdistinct, hall⟩ := plain_folder_iff.mp h
        refine plain_folder_iff.mpr ⟨hdistinct.sublist (List.filter_sublist.map _), fun e he => ?_⟩
        exact hall e (List.mem_filter.mp he).1
      | cons name' rest =>
        rw [Tree.remove]
        cases hc : Table.lookup name es with
        | none => exact h
        | some c =>
          obtain ⟨hname, hplain⟩ := h.lookup hc
          exact h.assign hname (ih hplain)
        · simp

end Plain

end Tree

end RouteAtlas
