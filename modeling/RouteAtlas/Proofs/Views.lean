import RouteAtlas.Proofs.Hosts
import RouteAtlas.Proofs.JsonText
import RouteAtlas.Proofs.Table

/-!
# The routes in what is printed as JSON

The outline of a snapshot and the list of its choices are printed as JSON values of different shapes.
Both can be read back, and the routes found in them are those of the snapshot, in its order
(`Json.outlined?_ofOutline`, `Json.listed?_ofChoices`).
-/

namespace RouteAtlas

/-! ## Records of values -/

namespace Value

theorem primitiveItems_eq_map (items : List Value) : primitiveItems items = items.map primitive := by
  induction items with
  | nil => rfl
  | cons v rest ih => rw [primitiveItems, ih, List.map_cons]

theorem primitiveEntries_append {done : List (WideText × Json)} {entries : List (String × Value)}
    (h : (done.map Prod.fst ++ entries.map fun p => WideText.plain p.1).Nodup) :
    primitiveEntries done (entries.map fun p => (.text p.1, p.2)) =
      done ++ entries.map fun p => (WideText.plain p.1, p.2.primitive) := by
  induction entries generalizing done with
  | nil => simp [primitiveEntries]
  | cons p rest ih =>
    have hfresh : WideText.plain p.1 ∉ done.map Prod.fst := by
      intro hmem
      rw [List.map_cons, List.nodup_append] at h
      exact h.2.2 _ hmem _ List.mem_cons_self rfl
    rw [List.map_cons, primitiveEntries, shown, Table.assign_of_notMem hfresh, ih (by simpa using h)]
    simp

/-- Entries with distinct names are members with these names. -/
theorem primitive_mapping {entries : List (String × Value)} (h : (entries.map Prod.fst).Nodup)
    (readOnly : Bool) :
    primitive (.mapping readOnly (entries.map fun p => (.text p.1, p.2))) =
      Json.record (entries.map fun p => (p.1, p.2.primitive)) := by
  have hnames : (entries.map fun p => WideText.plain p.1).Nodup := by
    rw [show (fun p : String × Value => WideText.plain p.1) = WideText.plain ∘ Prod.fst from rfl,
      ← List.map_map]
    exact h.map fun a b hab => WideText.plain.inj hab
  rw [primitive, primitiveEntries_append (by simpa using hnames), Json.record]
  simp

end Value

/-! ## Objects for routes and files -/

namespace Json

/-- The object for a choice. -/
def ofChoice (c : Choice) : Json :=
  .record [("name", .text c.route.name), ("url_path", .text c.route.url),
    ("file", .text c.record.label), ("file_path", .text c.record.path)]

/-- The object for a route in the outline of the file at a path. -/
def ofLeaf (path : String) (route : Route) : Json :=
  .record [("label", .text route.label), ("has_children", .bool false),
    ("linked_command", .record [("target", .text Outline.copySnippet),
      ("args", ofTexts [path, route.url, route.name])])]

/-- The object for a file in an outline. -/
def ofFile (r : FileRecord) : Json :=
  .record [("label", .text r.label), ("has_children", .bool true), ("path", .text r.path),
    ("children", .list (r.routes.map (ofLeaf r.path)))]

/-- The object for the outline of a snapshot. -/
def ofOutline (s : Snapshot) : Json :=
  .record [("files", .list (s.files.map ofFile)),
    ("namespaces", .record (s.namespaces.entries.map fun p => (p.1, .text p.2)))]

/-- The list for the choices of a snapshot. -/
def ofChoices (s : Snapshot) : Json := .list ((Choice.all s none).map ofChoice)

end Json

theorem Choice.primitive_summary (c : Choice) : c.summary.primitive = Json.ofChoice c := rfl

/-- What output shows of the leaf of a route. -/
def Node.leafSummary (path : String) (route : Route) : Value :=
  Node.summary (.text route.label) (.bool false) none
    (some (.text Outline.copySnippet, [path, route.url, route.name].map fun s : String => .text s)) []

theorem Node.primitive_leafSummary (path : String) (route : Route) :
    (Node.leafSummary path route).primitive = Json.ofLeaf path route := rfl

theorem Node.described_leaves (path : String) (routes : List Route) :
    (Node.toValues (routes.map (Outline.leaf path))).mapM Value.described =
      .ok (routes.map (Node.leafSummary path)) := by
  induction routes with
  | nil => rfl
  | cons route rest ih =>
    have hleaf : (Outline.leaf path route).toValue.described = .ok (Node.leafSummary path route) := rfl
    rw [List.map_cons, Node.toValues, List.mapM_cons, hleaf]
    simp only [bind, Except.bind, ih]
    rfl

/-- A node whose children are described is shown with their descriptions. -/
theorem Node.primitive_describe {label hasChildren : Value} {path : Option Value}
    {command : Option (Value × List Value)} {children described : List Value}
    (h : children.mapM Value.described = .ok described) :
    (Node.describe label hasChildren path command children).primitive =
      (Node.summary label hasChildren path command described).primitive := by
  unfold Node.describe
  rw [h]
  rfl

/-- A file is shown with its routes. -/
theorem Node.primitive_opened {s : Snapshot} {r : FileRecord} (h : s.routesOf r.path = r.routes) :
    (Outline.opened s (Outline.fileNode r)).toValue.primitive = Json.ofFile r := by
  have hbelow : Outline.children s (some (Outline.fileNode r)) = r.routes.map (Outline.leaf r.path) := by
    show (s.routesOf r.path).map (Outline.leaf r.path) = _
    rw [h]
  have hchildren : ((r.routes.map (Node.leafSummary r.path)).isEmpty) = false := by
    simpa using r.nonempty
  have hitems : Value.primitiveItems (r.routes.map (Node.leafSummary r.path)) =
      r.routes.map (Json.ofLeaf r.path) := by
    rw [Value.primitiveItems_eq_map, List.map_map]
    exact List.map_congr_left fun route _ => Node.primitive_leafSummary r.path route
  rw [Outline.opened, Node.toValue, hbelow, Node.primitive_describe (Node.described_leaves _ _)]
  unfold Node.summary
  rw [hchildren, Json.ofFile, ← hitems]
  rfl

/-- Distinct keys are distinct members. -/
theorem Table.primitive_toEntries (t : Table String String) (readOnly : Bool) :
    (Value.mapping readOnly t.toEntries).primitive =
      Json.record (t.entries.map fun p => (p.1, .text p.2)) := by
  have hentries : t.toEntries =
      (t.entries.map fun p => (p.1, Value.text p.2)).map fun p => (.text p.1, p.2) := by
    rw [Table.toEntries, List.map_map]
    rfl
  have hnames : ((t.entries.map fun p => (p.1, Value.text p.2)).map Prod.fst).Nodup := by
    rw [List.map_map]
    exact t.distinct
  rw [hentries, Value.primitive_mapping hnames, List.map_map]
  congr 1

/-! ## What is printed -/

/-- Every record is found by the path of its file. -/
def Snapshot.Keyed (s : Snapshot) : Prop := ∀ p ∈ s.records.entries, p.2.path = p.1

theorem Snapshot.Keyed.routesOf {s : Snapshot} (h : s.Keyed) {r : FileRecord} (hr : r ∈ s.files) :
    s.routesOf r.path = r.routes := by
  obtain ⟨⟨path, r'⟩, hentry, rfl⟩ := List.mem_map.mp hr
  have hpath : r'.path = path := h _ hentry
  have hget : s.records.get? path = some r' := Table.get?_eq_some_iff.mpr hentry
  rw [Snapshot.routesOf, hpath, hget]

theorem Snapshot.primitive_outline {s : Snapshot} (h : s.Keyed) :
    (Value.record [("files", .sequence .list ((Outline.tree s).map Node.toValue)),
      ("namespaces", .mapping true s.namespaces.toEntries)]).primitive = Json.ofOutline s := by
  have hfiles : Value.primitiveItems ((Outline.tree s).map Node.toValue) = s.files.map Json.ofFile := by
    rw [Value.primitiveItems_eq_map, Outline.tree, Outline.top, List.map_map, List.map_map,
      List.map_map]
    exact List.map_congr_left fun r hr => Node.primitive_opened (h.routesOf hr)
  rw [Json.ofOutline, ← hfiles, ← Table.primitive_toEntries s.namespaces true]
  rfl

theorem Snapshot.primitive_choices (s : Snapshot) :
    (Value.sequence .list ((Choice.all s none).map Choice.summary)).primitive = Json.ofChoices s := by
  have hchoices : Value.primitiveItems ((Choice.all s none).map Choice.summary) =
      (Choice.all s none).map Json.ofChoice := by
    rw [Value.primitiveItems_eq_map, List.map_map]
    exact List.map_congr_left fun c _ => Choice.primitive_summary c
  rw [Json.ofChoices, ← hchoices]
  rfl

/-! ## The printed text -/

namespace CommandLine

variable {host : Host}

/-- What is printed as JSON can be read back, by a reader with room for it. -/
theorem Host.Plain.read_echoJson (hhost : host.Plain) {p : Printed} (hp : p.lines = []) {v : Value}
    {most room : Nat} (hv : v.primitive.Fits room) (hroom : room ≤ most) :
    Json.read (host.text (p.echoJson v).lines) most = .ok v.primitive := by
  have hescape : Text.escapeCharacter ∉ (v.primitive.pretty ++ "\n").toList := fun hmem =>
    absurd (Json.arePlain_line hv _ hmem) (by simp [IsPlain, Text.escapeCharacter])
  have hlines : (p.echoJson v).lines = [v.primitive.pretty] := by
    rw [Printed.echoJson, Printed.echo, hp, List.nil_append]
  rw [hlines, host.text_singleton, hhost _ hescape]
  exact Json.read_line hv hroom

end CommandLine

/-! ## Reading it back -/

/-- A route with the path of its file. -/
structure Listed where
  path : String
  url : String
  name : String
deriving DecidableEq, Repr

/-- The routes of a snapshot with the paths of their files. -/
def Snapshot.listed (s : Snapshot) : List Listed := s.routes.map fun p => ⟨p.1.path, p.2.url, p.2.name⟩

namespace Json

/-- The text at a name of an object. -/
def textAt? (name : String) (v : Json) : Option String := (v.member? name).bind text?

/-- The items at a name of an object. -/
def itemsAt? (name : String) (v : Json) : Option (List Json) := (v.member? name).bind items?

/-- The route of an object in a list of routes. -/
def choice? (v : Json) : Option Listed := do
  return ⟨← v.textAt? "file_path", ← v.textAt? "url_path", ← v.textAt? "name"⟩

/-- The routes of a list of routes. -/
def listed? (v : Json) : Option (List Listed) := do (← v.items?).mapM choice?

/-- The route that the command of a leaf is about. -/
def leaf? (v : Json) : Option Listed := do
  let command ← v.member? "linked_command"
  match ← (← command.itemsAt? "args").mapM text? with
  | [path, url, name] => return ⟨path, url, name⟩
  | _ => none

/-- The routes of an outline, leaf by leaf and file by file. -/
def outlined? (v : Json) : Option (List Listed) := do
  let leaves ← (← v.itemsAt? "files").mapM fun file => do (← file.itemsAt? "children").mapM leaf?
  return leaves.flatten

/-- The paths of the files of an outline. -/
def files? (v : Json) : Option (List String) := do (← v.itemsAt? "files").mapM (textAt? "path")

/-- The namespace that an outline shows for the key of a file. -/
def namespaceOf? (key : String) (v : Json) : Option String :=
  (v.member? "namespaces").bind (textAt? key)

/-- Whether an object in a list of routes has a name, and a url and the label of a file where they are
given. -/
def meets (name : String) (url label : Option String) (v : Json) : Bool :=
  v.textAt? "name" == some name && url.all (fun u => v.textAt? "url_path" == some u) &&
    label.all (fun l => v.textAt? "file" == some l)

theorem mapM_map_eq_some {α β γ : Type} {f : α → β} {g : β → Option γ} {k : α → γ}
    (h : ∀ a, g (f a) = some (k a)) (l : List α) : (l.map f).mapM g = some (l.map k) := by
  induction l with
  | nil => rfl
  | cons a l ih => rw [List.map_cons, List.mapM_cons, h, ih]; rfl

theorem choice?_ofChoice (c : Choice) :
    choice? (ofChoice c) = some ⟨c.record.path, c.route.url, c.route.name⟩ := rfl

theorem leaf?_ofLeaf (path : String) (route : Route) :
    leaf? (ofLeaf path route) = some ⟨path, route.url, route.name⟩ := rfl

theorem textAt?_path_ofFile (r : FileRecord) : textAt? "path" (ofFile r) = some r.path := rfl

theorem itemsAt?_children_ofFile (r : FileRecord) :
    itemsAt? "children" (ofFile r) = some (r.routes.map (ofLeaf r.path)) := rfl

theorem itemsAt?_files_ofOutline (s : Snapshot) :
    itemsAt? "files" (ofOutline s) = some (s.files.map ofFile) := rfl

/-- The list of the choices shows the routes of the snapshot. -/
theorem listed?_ofChoices (s : Snapshot) : listed? (ofChoices s) = some s.listed := by
  show ((Choice.all s none).map ofChoice).mapM choice? = _
  rw [mapM_map_eq_some choice?_ofChoice, Choice.all_none, List.map_map]
  rfl

/-- The outline shows the routes of the snapshot. -/
theorem outlined?_ofOutline (s : Snapshot) : outlined? (ofOutline s) = some s.listed := by
  have hfile : ∀ r : FileRecord,
      (do (← (ofFile r).itemsAt? "children").mapM leaf?) =
        some (r.routes.map fun route => (⟨r.path, route.url, route.name⟩ : Listed)) := by
    intro r
    rw [itemsAt?_children_ofFile]
    exact mapM_map_eq_some (leaf?_ofLeaf r.path) r.routes
  rw [outlined?, itemsAt?_files_ofOutline]
  simp only [bind, Option.bind]
  rw [mapM_map_eq_some hfile, Snapshot.listed, Snapshot.routes, List.map_flatMap]
  simp only [List.map_map, List.flatMap_def]
  rfl

theorem files?_ofOutline (s : Snapshot) :
    files? (ofOutline s) = some (s.files.map FileRecord.path) := by
  rw [files?, itemsAt?_files_ofOutline]
  exact mapM_map_eq_some textAt?_path_ofFile s.files

theorem namespaceOf?_ofOutline (s : Snapshot) (key : String) :
    namespaceOf? key (ofOutline s) = s.namespaceOf key := by
  show textAt? key (.record (s.namespaces.entries.map fun p => (p.1, .text p.2))) =
    Table.lookup key s.namespaces.entries
  induction s.namespaces.entries with
  | nil => rfl
  | cons p rest ih =>
    unfold textAt? member? record at ih ⊢
    simp only [List.map_cons, Table.lookup, WideText.plain.injEq]
    split
    · rfl
    · exact ih

theorem meets_ofChoice (name : String) (url label : Option String) (c : Choice) :
    meets name url label (ofChoice c) = (Snapshot.meets (some name) c.route.name &&
      Snapshot.meets url c.route.url && Snapshot.meets label c.record.label) := by
  have hname : textAt? "name" (ofChoice c) = some c.route.name := rfl
  have hurl : textAt? "url_path" (ofChoice c) = some c.route.url := rfl
  have hlabel : textAt? "file" (ofChoice c) = some c.record.label := rfl
  simp only [meets, hname, hurl, hlabel, Snapshot.meets]
  cases url <;> cases label <;> simp [Bool.beq_comm]

/-! ## It can be printed -/

theorem itemsFit_map {α : Type} {room : Nat} {f : α → Json} (h : ∀ a, (f a).Fits room) (l : List α) :
    ItemsFit room (l.map f) := by
  induction l with
  | nil => trivial
  | cons a l ih => exact ⟨h a, ih⟩

theorem fits_ofChoice (room : Nat) (c : Choice) : (ofChoice c).Fits (room + 1) := by
  have hnames : ([.plain "name", .plain "url_path", .plain "file", .plain "file_path"] :
      List WideText).Nodup := by decide
  exact ⟨room.succ_pos, hnames, trivial, trivial, trivial, trivial, trivial, trivial, trivial, trivial, trivial⟩

theorem fits_ofChoices (s : Snapshot) : (ofChoices s).Fits 2 :=
  ⟨by decide, itemsFit_map (fits_ofChoice 0) _⟩

theorem fits_ofLeaf (room : Nat) (path : String) (route : Route) :
    (ofLeaf path route).Fits (room + 3) := by
  have hnames : ([.plain "label", .plain "has_children", .plain "linked_command"] :
      List WideText).Nodup := by decide
  have hparts : ([.plain "target", .plain "args"] : List WideText).Nodup := by decide
  have hargs : (ofTexts [path, route.url, route.name]).Fits (room + 1) :=
    ⟨room.succ_pos, trivial, trivial, trivial, trivial⟩
  have hcommand : (Json.record [("target", .text Outline.copySnippet),
      ("args", ofTexts [path, route.url, route.name])]).Fits (room + 2) :=
    ⟨Nat.succ_pos _, hparts, trivial, trivial, trivial, hargs, trivial⟩
  exact ⟨Nat.succ_pos _, hnames, trivial, trivial, trivial, trivial, trivial, hcommand, trivial⟩

theorem fits_ofFile (room : Nat) (r : FileRecord) : (ofFile r).Fits (room + 5) := by
  have hnames : ([.plain "label", .plain "has_children", .plain "path", .plain "children"] :
      List WideText).Nodup := by decide
  have hchildren : (Json.list (r.routes.map (ofLeaf r.path))).Fits (room + 4) :=
    ⟨Nat.succ_pos _, itemsFit_map (fits_ofLeaf room r.path) r.routes⟩
  exact ⟨Nat.succ_pos _, hnames, trivial, trivial, trivial, trivial, trivial, trivial, trivial,
    hchildren, trivial⟩

theorem fits_texts {entries : List (String × String)} (h : (entries.map Prod.fst).Nodup) (room : Nat) :
    (Json.record (entries.map fun p => (p.1, .text p.2))).Fits (room + 1) := by
  refine ⟨room.succ_pos, ?_, ?_⟩
  · rw [List.map_map, List.map_map]
    have hnames : ((entries.map Prod.fst).map WideText.plain).Nodup :=
      h.map fun a b hab => WideText.plain.inj hab
    rwa [List.map_map] at hnames
  · rw [List.map_map]
    clear h
    induction entries with
    | nil => trivial
    | cons p rest ih => exact ⟨trivial, trivial, ih⟩

/-- At the deepest place, the arguments of a command, seven brackets are open. -/
theorem fits_ofOutline (s : Snapshot) : (ofOutline s).Fits 7 := by
  have hnames : ([.plain "files", .plain "namespaces"] : List WideText).Nodup := by decide
  have hfiles : (Json.list (s.files.map ofFile)).Fits 6 :=
    ⟨by decide, itemsFit_map (fits_ofFile 0) s.files⟩
  exact ⟨by decide, hnames, trivial, hfiles, trivial, fits_texts s.namespaces.distinct 5, trivial⟩

end Json

end RouteAtlas
