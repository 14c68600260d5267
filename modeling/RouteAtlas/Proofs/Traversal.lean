import RouteAtlas.Choice
import RouteAtlas.Proofs.Filter
import RouteAtlas.Proofs.Outline

/-!
# Ways through a snapshot

The routes of a snapshot are reached in five ways: as a list, as a list for a query, as choices, in an
outline that is opened node by node, in the whole outline, and file by file. In the snapshots of an
index they all meet the same routes in the same order (`Machine.Reachable.concordant`).
-/

namespace RouteAtlas

namespace Outline

/-- A node with other nodes attached below it. -/
def attach (n : Node) (below : List Node) : Node := .mk n.label n.hasChildren n.path n.command below

/-- The nodes below a node, or the nodes of the files where none is given, opened for some levels. -/
def expand (s : Snapshot) : Nat → Option Node → List Node
  | 0, _ => []
  | levels + 1, node => (children s node).map fun n => attach n (expand s levels (some n))

/-- The nodes one level below some nodes. -/
def leaves (nodes : List Node) : List Node := nodes.flatMap Node.children

variable {s : Snapshot}

theorem expand_of_nil {node : Option Node} (h : children s node = []) (levels : Nat) :
    expand s levels node = [] := by
  cases levels with
  | zero => rfl
  | succ levels => rw [expand, h, List.map_nil]

/-- Leaves stay as they are, however far they are opened. -/
theorem expand_fileNode (r : FileRecord) (levels : Nat) :
    expand s (levels + 1) (some (fileNode r)) = children s (some (fileNode r)) := by
  have hleaf : ∀ route : Route, attach (leaf r.path route) (expand s levels (some (leaf r.path route))) =
      leaf r.path route := by
    intro route
    have hnone : children s (some (leaf r.path route)) = [] := rfl
    rw [expand_of_nil hnone]
    rfl
  have hbelow : children s (some (fileNode r)) = (s.routesOf r.path).map (leaf r.path) := rfl
  rw [expand, hbelow, List.map_map]
  exact List.map_congr_left fun route _ => hleaf route

/-- The whole outline is what is opened level by level, from the second level on. -/
theorem expand_eq_tree (levels : Nat) : expand s (levels + 2) none = tree s := by
  have hfiles : children s none = s.files.map fileNode := rfl
  rw [expand, hfiles, tree, top, List.map_map, List.map_map]
  refine List.map_congr_left fun r _ => ?_
  have hopened := expand_fileNode (s := s) r levels
  rw [Function.comp_apply, Function.comp_apply, hopened]
  rfl

theorem children_of_mem_tree {n : Node} (h : n ∈ tree s) : n.children = children s (some n) := by
  obtain ⟨n, -, rfl⟩ := List.mem_map.mp h
  rfl

theorem children_of_mem_below {n leaf : Node} (h : leaf ∈ children s (some n)) :
    leaf.children = [] ∧ children s (some leaf) = [] := by
  have h : leaf ∈ below s n.path := h
  cases hpath : n.path with
  | none =>
    rw [hpath] at h
    exact absurd h List.not_mem_nil
  | some path =>
    rw [hpath] at h
    obtain ⟨route, -, rfl⟩ := List.mem_map.mp h
    exact ⟨rfl, rfl⟩

/-- The leaves of the outline are those of the routes, if every file is found by its path. -/
theorem leaves_tree (h : s.Keyed) :
    leaves (tree s) = s.routes.map fun p => leaf p.1.path p.2 := by
  have hfile : ∀ r ∈ s.files, (opened s (fileNode r)).children = r.routes.map (leaf r.path) := by
    intro r hr
    have hbelow : (opened s (fileNode r)).children = (s.routesOf r.path).map (leaf r.path) := rfl
    rw [hbelow, h.routesOf hr]
  rw [leaves, tree, top, List.map_map, List.flatMap_map, Snapshot.routes, List.map_flatMap]
  refine List.flatMap_congr fun r hr => ?_
  rw [List.map_map]
  exact hfile r hr

end Outline

namespace Snapshot

open Outline (leaves)

variable {s : Snapshot}

/-- The choices for a query are the routes that it selects. -/
theorem pairs_choices (s : Snapshot) (query : Option String) :
    (Choice.all s query).map (fun c => (c.record, c.route)) = s.select query := by
  have hpairs : ∀ l : List (FileRecord × Route),
      (l.map fun p => (⟨p.1, p.2⟩ : Choice)).map (fun c => (c.record, c.route)) = l := by
    intro l
    rw [List.map_map]
    exact List.map_id l
  cases query with
  | none =>
    rw [Choice.all_none, hpairs]
    rfl
  | some query =>
    rw [Choice.all, hpairs, select_some]
    refine List.filter_congr fun p _ => ?_
    by_cases hempty : query.isEmpty = true
    · obtain rfl : query = "" := String.isEmpty_iff.mp hempty
      rw [Route.matches_empty]
      rfl
    · simp [hempty]

/-- What a key finds among distinct keys is all that belongs to it. -/
theorem flatMap_lookup {entries : List (String × FileRecord)} (hkeys : (entries.map Prod.fst).Nodup)
    (hpaths : ∀ p ∈ entries, p.2.path = p.1) (path : String) :
    (entries.flatMap fun p => if p.2.path = path then p.2.routes else []) =
      match Table.lookup path entries with
      | some r => r.routes
      | none => [] := by
  induction entries with
  | nil => rfl
  | cons p entries ih =>
    rw [List.map_cons, List.nodup_cons] at hkeys
    obtain ⟨hfirst, hrest⟩ := List.forall_mem_cons.mp hpaths
    rw [List.flatMap_cons, ih hkeys.2 hrest, hfirst, Table.lookup]
    by_cases hpath : p.1 = path
    · -- no other entry belongs to the path
      have hnone : Table.lookup path entries = none := by
        cases hlookup : Table.lookup path entries with
        | none => rfl
        | some r =>
          have hmem := List.mem_map_of_mem (f := Prod.fst) (Table.mem_of_lookup hlookup)
          exact absurd (hpath ▸ hmem) hkeys.1
      rw [hnone, if_pos hpath, if_pos hpath, List.append_nil]
    · rw [if_neg hpath, if_neg hpath, List.nil_append]

/-- The routes of a file are those of the whole list that belong to it. -/
theorem Keyed.routesOf_eq_filter (h : s.Keyed) (path : String) :
    s.routesOf path = (s.routes.filter fun p => p.1.path = path).map Prod.snd := by
  have hfile : ∀ r : FileRecord, ((r.routes.map fun route => (r, route)).filter
      fun p => p.1.path = path).map Prod.snd = if r.path = path then r.routes else [] := by
    intro r
    by_cases hpath : r.path = path
    · rw [if_pos hpath, List.filter_map, List.filter_eq_self.mpr (by simp [hpath]), List.map_map]
      exact List.map_id _
    · rw [if_neg hpath, List.filter_map, List.filter_eq_nil_iff.mpr (by simp [hpath])]
      rfl
  rw [routes, List.filter_flatMap, List.map_flatMap, files, Table.values, List.flatMap_map]
  simp only [hfile]
  rw [flatMap_lookup s.records.distinct h path]
  rfl

theorem routesOf_eq_nil_iff (s : Snapshot) (path : String) :
    s.routesOf path = [] ↔ path ∉ s.records.keys := by
  rw [Table.mem_keys_iff, routesOf]
  cases hget : s.records.get? path with
  | none => simp
  | some r => simp [r.nonempty]

theorem routeCount_eq_length (s : Snapshot) : s.routeCount = s.routes.length := by
  unfold routeCount routes
  induction s.files with
  | nil => rfl
  | cons r files ih =>
    rw [List.foldr_cons, ih, List.flatMap_cons, List.length_append, List.length_map]

/-- All ways through a snapshot meet the same routes in the same order. -/
structure Concordant (s : Snapshot) : Prop where
  /-- The choices for a query are the routes that it selects. -/
  choices : ∀ query, (Choice.all s query).map (fun c => (c.record, c.route)) = s.select query
  /-- A query selects the routes that match it, -/
  selected : ∀ query, s.select (some query) = s.routes.filter fun p => p.2.matches p.1 query
  /-- and without one, or with an empty one, they are all there. -/
  unselected : s.select none = s.routes ∧ s.select (some "") = s.routes
  /-- The outline is what is opened level by level, down to the leaves. -/
  opened : ∀ levels, Outline.expand s (levels + 2) none = Outline.tree s
  /-- Below each file stand the nodes that it is opened to, and nothing below them. -/
  attached : ∀ n ∈ Outline.tree s, n.children = Outline.children s (some n) ∧
    ∀ leaf ∈ n.children, leaf.children = [] ∧ Outline.children s (some leaf) = []
  /-- The commands of the leaves name the routes one by one. -/
  commands : (leaves (Outline.tree s)).map Node.command =
    s.routes.map fun p => some ⟨Outline.copySnippet, [p.1.path, p.2.url, p.2.name]⟩
  /-- The routes of a file are those in the list that belong to it. -/
  filed : ∀ path, s.routesOf path = (s.routes.filter fun p => p.1.path = path).map Prod.snd
  /-- There are none if and only if the file has no record. -/
  unfiled : ∀ path, s.routesOf path = [] ↔ path ∉ s.records.keys
  routeCount : s.routeCount = (leaves (Outline.tree s)).length
  size : s.size = (Outline.tree s).length

theorem concordant_of_keyed (h : s.Keyed) : s.Concordant where
  choices := pairs_choices s
  selected := select_some s
  unselected := ⟨rfl, rfl⟩
  opened := Outline.expand_eq_tree
  attached := by
    intro n hn
    have hchildren := Outline.children_of_mem_tree hn
    refine ⟨hchildren, fun leaf hleaf => ?_⟩
    rw [hchildren] at hleaf
    exact Outline.children_of_mem_below hleaf
  commands := by
    rw [Outline.leaves_tree h, List.map_map]
    rfl
  filed := h.routesOf_eq_filter
  unfiled := routesOf_eq_nil_iff s
  routeCount := by rw [routeCount_eq_length, Outline.leaves_tree h, List.length_map]
  size := by
    rw [Outline.tree, Outline.top, files, Table.values, List.length_map, List.length_map,
      List.length_map]
    rfl

end Snapshot

namespace Machine

variable {σ ω : Type} [DecidableEq ω]

/-- In the snapshots of an index all ways meet the same routes in the same order. -/
theorem Reachable.concordant {m : Machine σ ω} (h : m.Reachable) : m.index.snapshot.Concordant :=
  Snapshot.concordant_of_keyed h.keyed

/-- An index after the scan of some files, which all say the same. -/
def scannedAlike (paths : List String) (text : String) : Machine Unit Unit :=
  (({ index := {}, world := () } : Machine Unit Unit).perform
    { extract := Urlconf.read false, read := fun _ _ => .ok text, respond := fun _ _ _ => [],
      describe := fun _ => "observer", requestId := fun n => toString n } (.rescan paths)).1

/-- Two files with the same label declare the same route twice; a query for the label finds all four,
and the leaves of the outline tell the files apart. -/
theorem concordant_alike :
    let s := (scannedAlike ["red/site/urls.py", "blue/site/urls.py"]
      "path('a', view), path('a', view)").index.snapshot
    s.Concordant ∧ (s.select (some "SITE/")).length = 4 ∧
      (Choice.all s (some "SITE/")).map Choice.path =
        ["red/site/urls.py", "red/site/urls.py", "blue/site/urls.py", "blue/site/urls.py"] := by
  intro s
  have hreachable : (scannedAlike ["red/site/urls.py", "blue/site/urls.py"]
      "path('a', view), path('a', view)").Reachable := (Reachable.new () none).perform _ _ rfl
  exact ⟨hreachable.concordant, by decide +kernel, by decide +kernel⟩

end Machine

end RouteAtlas
