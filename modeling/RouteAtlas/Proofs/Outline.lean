import Mathlib.Data.List.Forall2
import RouteAtlas.Proofs.Resolution
import RouteAtlas.Proofs.StandardHost
import RouteAtlas.Proofs.Views

/-!
# What the printed outline tells

Labels of files and routes are ambiguous, but the outline that is printed as JSON also carries paths,
urls and names. So the snapshots of an index that print equal JSON values have the same records in the
same order and the same namespaces (`Machine.outline_lossless`).
-/

namespace RouteAtlas

/-- What is read from related parts is related. -/
theorem rel_bind {α α' β β' : Type} {R : α → α' → Prop} {S : β → β' → Prop} {a? : Option α}
    {a?' : Option α'} {f : α → Option β} {f' : α' → Option β'} (h : Option.Rel R a? a?')
    (hf : ∀ a a', R a a' → Option.Rel S (f a) (f' a')) : Option.Rel S (a?.bind f) (a?'.bind f') := by
  cases h with
  | none => exact .none
  | some h => exact hf _ _ h

/-- What is read alike from related parts is the same. -/
theorem bind_eq_of_rel {α α' β : Type} {R : α → α' → Prop} {a? : Option α} {a?' : Option α'}
    {f : α → Option β} {f' : α' → Option β} (h : Option.Rel R a? a?')
    (hf : ∀ a a', R a a' → f a = f' a') : a?.bind f = a?'.bind f' := by
  cases h with
  | none => rfl
  | some h => exact hf _ _ h

namespace Json

/-! ## Equal values -/

/-- Two JSON values are equal: lists item by item, and objects name by name, in whatever order their
members stand. -/
inductive Same : Json → Json → Prop
  | refl (v : Json) : Same v v
  | list {items items' : List Json} (h : List.Forall₂ Same items items') :
      Same (.list items) (.list items')
  | object {members members' : List (WideText × Json)}
      (h : ∀ name, Option.Rel Same (Table.lookup name members) (Table.lookup name members')) :
      Same (.object members) (.object members')

namespace Same

variable {v v' : Json}

theorem rel_refl (v? : Option Json) : Option.Rel Same v? v? := by
  cases v? with
  | none => exact .none
  | some v => exact .some (.refl v)

theorem forall₂_refl (items : List Json) : List.Forall₂ Same items items :=
  List.forall₂_same.mpr fun v _ => .refl v

theorem member? (h : Same v v') (name : String) :
    Option.Rel Same (v.member? name) (v'.member? name) := by
  cases h with
  | refl => exact rel_refl _
  | list => exact .none
  | object h => exact h (.plain name)

theorem items? (h : Same v v') : Option.Rel (List.Forall₂ Same) v.items? v'.items? := by
  cases h with
  | refl =>
    cases v.items? with
    | none => exact .none
    | some items => exact .some (forall₂_refl items)
  | list h => exact .some h
  | object => exact .none

theorem text? (h : Same v v') : v.text? = v'.text? := by
  cases h <;> rfl

theorem textAt? (h : Same v v') (name : String) : v.textAt? name = v'.textAt? name :=
  bind_eq_of_rel (h.member? name) fun _ _ h => h.text?

theorem itemsAt? (h : Same v v') (name : String) :
    Option.Rel (List.Forall₂ Same) (v.itemsAt? name) (v'.itemsAt? name) :=
  rel_bind (h.member? name) fun _ _ h => h.items?

theorem mapM_text? {items items' : List Json} (h : List.Forall₂ Same items items') :
    items.mapM Json.text? = items'.mapM Json.text? := by
  induction h with
  | nil => rfl
  | cons h _ ih => rw [List.mapM_cons, List.mapM_cons, h.text?, ih]

theorem leaf? (h : Same v v') : v.leaf? = v'.leaf? :=
  bind_eq_of_rel (h.member? "linked_command") fun _ _ h =>
    bind_eq_of_rel (h.itemsAt? "args") fun _ _ h => by rw [mapM_text? h]

theorem namespaceOf? (h : Same v v') (key : String) : v.namespaceOf? key = v'.namespaceOf? key :=
  bind_eq_of_rel (h.member? "namespaces") fun _ _ h => h.textAt? key

end Same

/-! ## Equal outlines -/

theorem same_ofLeaf {path path' : String} {route route' : Route}
    (h : (ofLeaf path route).Same (ofLeaf path' route')) : route = route' := by
  have hleaf := h.leaf?
  rw [leaf?_ofLeaf, leaf?_ofLeaf, Option.some.injEq, Listed.mk.injEq] at hleaf
  obtain ⟨-, hurl, hname⟩ := hleaf
  cases route
  cases route'
  congr

theorem same_ofFile {r r' : FileRecord} (h : (ofFile r).Same (ofFile r')) : r = r' := by
  have hpath := h.textAt? "path"
  rw [textAt?_path_ofFile, textAt?_path_ofFile] at hpath
  have hchildren := h.itemsAt? "children"
  rw [itemsAt?_children_ofFile, itemsAt?_children_ofFile, Option.rel_some_some,
    List.forall₂_map_left_iff, List.forall₂_map_right_iff] at hchildren
  have hroutes : r.routes = r'.routes :=
    List.forall₂_eq_eq_eq ▸ hchildren.imp fun _ _ hleaf => same_ofLeaf hleaf
  obtain ⟨path, routes, hnonempty⟩ := r
  obtain rfl : path = r'.path := Option.some.inj hpath
  obtain rfl : routes = r'.routes := hroutes
  rfl

theorem lookup_texts (entries : List (String × String)) (name : WideText) :
    Table.lookup name (entries.map fun p => (WideText.plain p.1, Json.text p.2)) =
      match name with
      | .plain key => (Table.lookup key entries).map fun space : String => Json.text space
      | .unpaired _ => none := by
  induction entries with
  | nil => cases name <;> rfl
  | cons p entries ih =>
    rw [List.map_cons, Table.lookup, ih]
    cases name with
    | plain key =>
      by_cases hkey : p.1 = key
      · simp [Table.lookup, hkey]
      · simp [Table.lookup, hkey]
    | unpaired codes => simp

/-- Outlines are equal if and only if the records and the namespaces of the snapshots are: the records
in their order, the namespaces key by key. -/
theorem same_ofOutline_iff {s s' : Snapshot} :
    (ofOutline s).Same (ofOutline s') ↔
      s.files = s'.files ∧ ∀ key, s.namespaceOf key = s'.namespaceOf key := by
  constructor
  · intro h
    have hfiles := h.itemsAt? "files"
    rw [itemsAt?_files_ofOutline, itemsAt?_files_ofOutline, Option.rel_some_some,
      List.forall₂_map_left_iff, List.forall₂_map_right_iff] at hfiles
    refine ⟨List.forall₂_eq_eq_eq ▸ hfiles.imp fun _ _ hfile => same_ofFile hfile, fun key => ?_⟩
    rw [← namespaceOf?_ofOutline, ← namespaceOf?_ofOutline, h.namespaceOf?]
  · rintro ⟨hfiles, hspaces⟩
    have hnamespaces : (record (s.namespaces.entries.map fun p => (p.1, .text p.2))).Same
        (record (s'.namespaces.entries.map fun p => (p.1, .text p.2))) := by
      refine .object fun name => ?_
      rw [List.map_map, List.map_map]
      show Option.Rel Same (Table.lookup name (s.namespaces.entries.map fun p => (.plain p.1, .text p.2)))
        (Table.lookup name (s'.namespaces.entries.map fun p => (.plain p.1, .text p.2)))
      rw [lookup_texts, lookup_texts]
      cases name with
      | plain key =>
        have hspace : Table.lookup key s.namespaces.entries = Table.lookup key s'.namespaces.entries :=
          hspaces key
        dsimp only
        rw [hspace]
        exact Same.rel_refl _
      | unpaired codes => exact .none
    refine .object fun name => ?_
    rw [hfiles]
    simp only [List.map_cons, List.map_nil, Table.lookup]
    split
    · exact Same.rel_refl _
    · split
      · exact .some hnamespaces
      · exact .none

end Json

/-! ## Snapshots of an index -/

theorem Snapshot.Keyed.records_eq_iff {s s' : Snapshot} (h : s.Keyed) (h' : s'.Keyed) :
    s.records = s'.records ↔ s.files = s'.files := by
  have hentries : ∀ s : Snapshot, s.Keyed → s.records.entries = s.files.map fun r => (r.path, r) := by
    intro s hs
    rw [Snapshot.files, Table.values, List.map_map]
    exact (List.map_id _).symm.trans
      (List.map_congr_left fun p hp => Prod.ext (hs p hp).symm rfl)
  refine ⟨fun hrecords => by rw [Snapshot.files, Snapshot.files, hrecords], fun hfiles => ?_⟩
  have heq : s.records.entries = s'.records.entries := by
    rw [hentries s h, hentries s' h', hfiles]
  cases hs : s.records
  cases hs' : s'.records
  rw [hs, hs'] at heq
  cases heq
  rfl

namespace Scan

/-- A scan finds every record by the path of its file. -/
theorem keyed_nextSnapshot (previous : Snapshot) (files : List (String × Urlconf)) :
    (nextSnapshot previous files).Keyed := by
  suffices h : ∀ t : Table String FileRecord, (∀ p ∈ t.entries, p.2.path = p.1) →
      ∀ p ∈ (files.foldl addRecord t).entries, p.2.path = p.1 from
    h .empty fun p hp => absurd hp List.not_mem_nil
  induction files with
  | nil => exact fun t ht => ht
  | cons file files ih =>
    refine fun t ht => ih _ fun p hp => ?_
    rw [addRecord] at hp
    split at hp
    · exact ht p hp
    · rcases Table.mem_assign hp with rfl | hp
      · rfl
      · exact ht p hp

end Scan

namespace Machine

variable {σ ω σ' ω' : Type} [DecidableEq ω] [DecidableEq ω']

theorem Reachable.keyed {m : Machine σ ω} (h : m.Reachable) : m.index.snapshot.Keyed := by
  have hnext : ∀ (w : World σ ω) (m : Machine σ ω) (readings? : Option (List Scan.Reading)),
      m.index.snapshot.Keyed → (m.snapshotAfter w readings?).Keyed := by
    intro w m readings? hm
    cases readings? with
    | none => exact hm
    | some readings => exact Scan.keyed_nextSnapshot _ _
  induction h with
  | new world current => exact fun p hp => absurd hp List.not_mem_nil
  | perform w deed h hs ih =>
    rw [snapshot_perform]
    exact hnext w _ _ ih
  | step w h ih =>
    rw [snapshot_step]
    exact hnext w _ _ ih

open CommandLine (Host Printed showTree)

/-- On a host that writes plain text as it is, the outline of a snapshot of an index is printed as a JSON
value that can be read back. Two of these values are equal if and only if the snapshots have the same
records, in the same order and each with the same routes, and the same namespace for each key. -/
theorem outline_lossless {host : Host} (hhost : host.Plain) {m : Machine σ ω} {m' : Machine σ' ω'}
    (h : m.Reachable) (h' : m'.Reachable) {p p' : Printed} (hp : p.lines = []) (hp' : p'.lines = []) :
    ∃ j j', Json.read (host.text (showTree p m.index.snapshot true).lines) = .ok j ∧
      Json.read (host.text (showTree p' m'.index.snapshot true).lines) = .ok j' ∧
      (j.Same j' ↔ m.index.snapshot.records = m'.index.snapshot.records ∧
        ∀ key, m.index.snapshot.namespaces.get? key = m'.index.snapshot.namespaces.get? key) := by
  have hread : ∀ {s : Snapshot}, s.Keyed → ∀ {p : Printed}, p.lines = [] →
      Json.read (host.text (showTree p s true).lines) = .ok (.ofOutline s) := by
    intro s hs p hp
    have hfits := Json.fits_ofOutline s
    rw [← Snapshot.primitive_outline hs] at hfits ⊢
    exact hhost.read_echoJson hp hfits (by decide)
  refine ⟨_, _, hread h.keyed hp, hread h'.keyed hp', ?_⟩
  rw [Json.same_ofOutline_iff, h.keyed.records_eq_iff h'.keyed]
  rfl

/-! ## Namesakes -/

/-- An index after the scan of a single file. -/
def scannedOne (path text : String) : Machine Unit Unit :=
  (({ index := {}, world := () } : Machine Unit Unit).perform
    { extract := Urlconf.read false, read := fun _ _ => .ok text, respond := fun _ _ _ => [],
      describe := fun _ => "observer", requestId := fun n => toString n } (.rescan [path])).1

theorem reachable_scannedOne (path text : String) : (scannedOne path text).Reachable :=
  (Reachable.new () none).perform _ _ rfl

/-- Two snapshots that look alike, since all their labels are the same, are told apart. -/
theorem outline_lossless_namesakes :
    let m := scannedOne "red/site/urls.py" "path('a[b', view, name='c')"
    let m' := scannedOne "blue/site/urls.py" "path('a', view, name='b[c')"
    Outline.render (Outline.tree m.index.snapshot) = Outline.render (Outline.tree m'.index.snapshot) ∧
      ∃ j j', Json.read (Host.standard.text (showTree {} m.index.snapshot true).lines) = .ok j ∧
        Json.read (Host.standard.text (showTree {} m'.index.snapshot true).lines) = .ok j' ∧
        ¬ j.Same j' := by
  intro m m'
  have hempty : ({} : Printed).lines = [] := rfl
  obtain ⟨j, j', hread, hread', hsame⟩ := outline_lossless Host.plain_standard
    (reachable_scannedOne "red/site/urls.py" "path('a[b', view, name='c')")
    (reachable_scannedOne "blue/site/urls.py" "path('a', view, name='b[c')") hempty hempty
  refine ⟨by decide +kernel, j, j', hread, hread', fun h => ?_⟩
  have hkeys : m.index.snapshot.records.keys = m'.index.snapshot.records.keys := by
    rw [(hsame.mp h).1]
  exact absurd hkeys (by decide +kernel)

end Machine

end RouteAtlas
