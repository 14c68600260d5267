import RouteAtlas.Proofs.Table
import RouteAtlas.Settings
import RouteAtlas.Value.Describe
import RouteAtlas.Value.Primitive

/-!
# Output as plain data

What output gives for a value is plain data: numbers are finite and the members of an object have
distinct names (`Json.Plain`). Plain data is its own output, so that output twice is output once
(`Value.output_plain`).
-/

namespace RouteAtlas

/-! ## Plain data -/

/-- Every number is finite, and the members of every object have distinct names. -/
inductive Json.Plain : Json → Prop
  | null : Plain .null
  | bool (b : Bool) : Plain (.bool b)
  | int (n : Int) : Plain (.int n)
  | float {x : Float} (hnan : x.isNaN = false) (hinf : x.isInf = false) : Plain (.float x)
  | text (s : WideText) : Plain (.text s)
  | list {items : List Json} (h : ∀ v ∈ items, Plain v) : Plain (.list items)
  | object {members : List (WideText × Json)} (hdistinct : (members.map Prod.fst).Nodup)
      (h : ∀ m ∈ members, Plain m.2) : Plain (.object members)

namespace Value

/-! ### Output is plain -/

/-- The members done so far have distinct names and plain values. -/
def PlainMembers (members : List (WideText × Json)) : Prop :=
  (members.map Prod.fst).Nodup ∧ ∀ m ∈ members, m.2.Plain

theorem PlainMembers.nil : PlainMembers [] := ⟨List.nodup_nil, List.forall_mem_nil _⟩

theorem PlainMembers.assign {members : List (WideText × Json)} {name : WideText} {v : Json}
    (h : PlainMembers members) (hv : v.Plain) : PlainMembers (Table.assign name v members) := by
  refine ⟨Table.nodup_assign h.1, fun m hm => ?_⟩
  rcases Table.mem_assign hm with rfl | hm
  · exact hv
  · exact h.2 m hm

mutual

theorem plain_primitive : ∀ v : Value, v.primitive.Plain
  | .none => .null
  | .bool b => .bool b
  | .int n => .int n
  | .float x => by
    show (if x.isNaN || x.isInf then Json.null else .float x).Plain
    split_ifs with hx
    · exact .null
    · rw [Bool.or_eq_true, not_or, Bool.not_eq_true, Bool.not_eq_true] at hx
      exact .float hx.1 hx.2
  | .text s => .text s
  | .moment _ => .text _
  | .member ⟨_, _, .number n, _, _⟩ => .int n
  | .member ⟨_, _, .word s, _, _⟩ => .text s
  | .bytes _ => .text _
  | .path _ => .text _
  | .range _ _ _ => .text _
  | .fault _ (some (.ok description)) => plain_primitive description
  | .fault _ (some (.error _)) => .null
  | .fault _ Option.none => .text _
  | .sequence _ items => .list (plain_primitiveItems items)
  | .mapping _ entries => by
    have h := plain_primitiveEntries entries [] .nil
    exact .object h.1 h.2
  | .object _ _ _ (some (.ok description)) => plain_primitive description
  | .object _ _ _ (some (.error _)) => .null
  | .object _ _ fields Option.none => by
    have h := plain_primitiveFields fields [] .nil
    exact .object h.1 h.2

theorem plain_primitiveItems : ∀ items : List Value, ∀ v ∈ primitiveItems items, v.Plain
  | [] => List.forall_mem_nil _
  | v :: rest => List.forall_mem_cons.mpr ⟨plain_primitive v, plain_primitiveItems rest⟩

theorem plain_primitiveEntries : ∀ (entries : List (Value × Value)) (done : List (WideText × Json)),
    PlainMembers done → PlainMembers (primitiveEntries done entries)
  | [], _, h => h
  | (_, v) :: rest, _, h => plain_primitiveEntries rest _ (h.assign (plain_primitive v))

theorem plain_primitiveFields : ∀ (fields : List (String × Value)) (done : List (WideText × Json)),
    PlainMembers done → PlainMembers (primitiveFields done fields)
  | [], _, h => h
  | (_, v) :: rest, _, h => plain_primitiveFields rest _ (h.assign (plain_primitive v))

end

/-! ### Plain data is its own output -/

mutual

theorem flaw?_ofJson : ∀ v : Json, (ofJson v).flaw? = Option.none
  | .null | .bool _ | .int _ | .float _ | .text _ => rfl
  | .list items => itemFlaw?_ofJsonItems items
  | .object members => entryFlaw?_ofJsonMembers members

theorem itemFlaw?_ofJsonItems : ∀ items : List Json, itemFlaw? (ofJsonItems items) = Option.none
  | [] => rfl
  | v :: rest => by
    show (flaw? (ofJson v)).or (itemFlaw? (ofJsonItems rest)) = Option.none
    rw [flaw?_ofJson v, itemFlaw?_ofJsonItems rest]
    rfl

theorem entryFlaw?_ofJsonMembers : ∀ members : List (WideText × Json),
    entryFlaw? (ofJsonMembers members) = Option.none
  | [] => rfl
  | (_, v) :: rest => by
    show (flaw? (ofJson v)).or (entryFlaw? (ofJsonMembers rest)) = Option.none
    rw [flaw?_ofJson v, entryFlaw?_ofJsonMembers rest]
    rfl

end

mutual

theorem primitive_ofJson : ∀ v : Json, v.Plain → (ofJson v).primitive = v
  | .null, _ | .bool _, _ | .int _, _ | .text _, _ => rfl
  | .float x, h => by
    cases h with
    | float hnan hinf =>
      show (if x.isNaN || x.isInf then Json.null else .float x) = .float x
      rw [hnan, hinf]
      rfl
  | .list items, h => by
    cases h with
    | list h => exact congrArg Json.list (primitiveItems_ofJsonItems items h)
  | .object members, h => by
    cases h with
    | object hdistinct h =>
      exact congrArg Json.object (primitiveEntries_ofJsonMembers members [] hdistinct h)

theorem primitiveItems_ofJsonItems : ∀ items : List Json, (∀ v ∈ items, v.Plain) →
    primitiveItems (ofJsonItems items) = items
  | [], _ => rfl
  | v :: rest, h => by
    obtain ⟨hv, hrest⟩ := List.forall_mem_cons.mp h
    show primitive (ofJson v) :: primitiveItems (ofJsonItems rest) = v :: rest
    rw [primitive_ofJson v hv, primitiveItems_ofJsonItems rest hrest]

/-- Members with new names go to the end of those done. -/
theorem primitiveEntries_ofJsonMembers : ∀ members done : List (WideText × Json),
    ((done ++ members).map Prod.fst).Nodup → (∀ m ∈ members, m.2.Plain) →
    primitiveEntries done (ofJsonMembers members) = done ++ members
  | [], done, _, _ => (List.append_nil done).symm
  | (name, v) :: rest, done, hdistinct, h => by
    obtain ⟨hv, hrest⟩ := List.forall_mem_cons.mp h
    have hfresh : name ∉ done.map Prod.fst := Table.notMem_of_nodup hdistinct
    show primitiveEntries (Table.assign name (primitive (ofJson v)) done) (ofJsonMembers rest) = _
    rw [primitive_ofJson v hv, Table.assign_of_notMem hfresh,
      primitiveEntries_ofJsonMembers rest (done ++ [(name, v)]) (by simpa using hdistinct) hrest,
      List.append_assoc, List.singleton_append]

end

/-- Plain data is its own output. -/
theorem output_ofJson {j : Json} (h : j.Plain) : (ofJson j).output = .ok j := by
  rw [output, flaw?_ofJson]
  dsimp only
  rw [primitive_ofJson j h]

/-! ### Descriptions -/

theorem itemFlaw?_eq_none_iff {items : List Value} :
    itemFlaw? items = Option.none ↔ ∀ v ∈ items, v.flaw? = Option.none := by
  induction items with
  | nil => exact iff_of_true rfl (List.forall_mem_nil _)
  | cons v rest ih =>
    show v.flaw?.or (itemFlaw? rest) = Option.none ↔ _
    rw [Option.or_eq_none_iff, List.forall_mem_cons, ih]

theorem entryFlaw?_eq_none_iff {entries : List (Value × Value)} :
    entryFlaw? entries = Option.none ↔ ∀ e ∈ entries, e.2.flaw? = Option.none := by
  induction entries with
  | nil => exact iff_of_true rfl (List.forall_mem_nil _)
  | cons e rest ih =>
    show e.2.flaw?.or (entryFlaw? rest) = Option.none ↔ _
    rw [Option.or_eq_none_iff, List.forall_mem_cons, ih]

theorem fieldFlaw?_eq_none_iff {fields : List (String × Value)} :
    fieldFlaw? fields = Option.none ↔ ∀ p ∈ fields, p.2.flaw? = Option.none := by
  induction fields with
  | nil => exact iff_of_true rfl (List.forall_mem_nil _)
  | cons p rest ih =>
    show p.2.flaw?.or (fieldFlaw? rest) = Option.none ↔ _
    rw [Option.or_eq_none_iff, List.forall_mem_cons, ih]

theorem flaw?_sequence {kind : SequenceKind} {items : List Value}
    (h : ∀ v ∈ items, v.flaw? = Option.none) : (sequence kind items).flaw? = Option.none :=
  itemFlaw?_eq_none_iff.mpr h

theorem flaw?_mapping {readOnly : Bool} {entries : List (Value × Value)}
    (h : ∀ e ∈ entries, e.2.flaw? = Option.none) : (mapping readOnly entries).flaw? = Option.none :=
  entryFlaw?_eq_none_iff.mpr h

theorem flaw?_fields {type : String} {keying : Keying} {fields : List (String × Value)}
    (h : ∀ p ∈ fields, p.2.flaw? = Option.none) :
    (object type keying fields Option.none).flaw? = Option.none :=
  fieldFlaw?_eq_none_iff.mpr h

theorem flaw?_record {entries : List (String × Value)}
    (h : ∀ p ∈ entries, p.2.flaw? = Option.none) : (record entries).flaw? = Option.none :=
  flaw?_mapping (List.forall_mem_map.mpr h)

theorem flaw?_ofText? (s : Option String) : (ofText? s).flaw? = Option.none := by
  cases s <;> rfl

theorem flaw?_texts {items : List String} :
    (Value.sequence .list (items.map fun s : String => .text s)).flaw? = Option.none :=
  flaw?_sequence (List.forall_mem_map.mpr fun _ _ => rfl)

end Value

open Value (flaw?_sequence flaw?_mapping flaw?_record)

theorem Route.flaw?_toValue (r : Route) : r.toValue.flaw? = none := rfl

theorem Route.flaw?_routes (routes : List Route) :
    (Value.sequence .list (routes.map Route.toValue)).flaw? = none :=
  flaw?_sequence (List.forall_mem_map.mpr fun r _ => r.flaw?_toValue)

theorem Table.flaw?_toEntries (t : Table String String) (readOnly : Bool) :
    (Value.mapping readOnly t.toEntries).flaw? = none :=
  flaw?_mapping (List.forall_mem_map.mpr fun _ _ => rfl)

theorem Urlconf.flaw?_toValue (u : Urlconf) : u.toValue.flaw? = none := by
  show (Value.record _).flaw? = none
  refine flaw?_record ?_
  simp only [List.forall_mem_cons]
  exact ⟨Route.flaw?_routes _, Table.flaw?_toEntries _ _, List.forall_mem_nil _⟩

theorem FileRecord.flaw?_toValue (r : FileRecord) : r.toValue.flaw? = none := by
  show (Value.record _).flaw? = none
  refine flaw?_record ?_
  simp only [List.forall_mem_cons]
  exact ⟨rfl, rfl, Route.flaw?_routes _, List.forall_mem_nil _⟩

theorem Snapshot.flaw?_toValue (s : Snapshot) : s.toValue.flaw? = none := by
  show (Value.record _).flaw? = none
  refine flaw?_record ?_
  simp only [List.forall_mem_cons]
  refine ⟨rfl, flaw?_sequence ?_, Table.flaw?_toEntries _ _, List.forall_mem_nil _⟩
  rw [List.map_map]
  exact List.forall_mem_map.mpr fun p _ => p.2.flaw?_toValue

theorem Failure.flaw?_toValue (f : Failure) : f.toValue.flaw? = none := rfl

/-- What a scan gave, as a value. -/
def Scan.toValue (s : Scan) (milliseconds : Int) : Value :=
  Scan.describe s.snapshot.toValue (.int s.snapshot.generation) s.snapshot.size s.snapshot.routeCount
    (s.failures.map Failure.toValue) (.int s.scanned) (.int milliseconds)

theorem Scan.flaw?_toValue (s : Scan) (milliseconds : Int) :
    (s.toValue milliseconds).flaw? = none := by
  show (Value.record _).flaw? = none
  refine flaw?_record ?_
  simp only [List.forall_mem_cons]
  refine ⟨rfl, rfl, rfl, rfl, flaw?_sequence ?_, rfl, List.forall_mem_nil _⟩
  exact List.forall_mem_map.mpr fun f _ => f.flaw?_toValue

theorem Choice.flaw?_toValue (c : Choice) : c.toValue.flaw? = none := rfl

theorem Node.flaw?_summary (label : String) (hasChildren : Bool) (path : Option String)
    (command : Option LinkedCommand) {below : List Value} (h : ∀ v ∈ below, v.flaw? = none) :
    (Node.summary (.text label) (.bool hasChildren) (path.map fun p => .text p)
      (command.map fun c => (.text c.target, c.args.map fun s : String => .text s))
      below).flaw? = none := by
  refine flaw?_record ?_
  simp only [List.forall_mem_append, List.forall_mem_cons]
  refine ⟨⟨⟨⟨rfl, rfl, List.forall_mem_nil _⟩, ?_⟩, ?_⟩, ?_⟩
  · cases path with
    | none => exact List.forall_mem_nil _
    | some p => exact List.forall_mem_singleton.mpr rfl
  · cases command with
    | none => exact List.forall_mem_nil _
    | some c =>
      refine List.forall_mem_singleton.mpr (flaw?_record ?_)
      simp only [List.forall_mem_cons]
      exact ⟨rfl, Value.flaw?_texts, List.forall_mem_nil _⟩
  · split_ifs
    · exact List.forall_mem_nil _
    · exact List.forall_mem_singleton.mpr (flaw?_sequence h)

mutual

/-- A node is described, with whatever is attached to it. -/
theorem Node.exists_described : ∀ n : Node,
    ∃ d, n.toValue.described = .ok d ∧ d.flaw? = none ∧ n.toValue.flaw? = none
  | .mk label hasChildren path command children => by
    obtain ⟨below, hbelow, hflaw⟩ := Node.exists_describeds children
    have hsummary := Node.flaw?_summary label hasChildren path command hflaw
    rw [Node.toValue]
    unfold Node.describe
    rw [hbelow]
    exact ⟨_, rfl, hsummary, hsummary⟩

/-- The nodes of a list are all described. -/
theorem Node.exists_describeds : ∀ ns : List Node,
    ∃ ds, (Node.toValues ns).mapM Value.described = .ok ds ∧ ∀ d ∈ ds, d.flaw? = none
  | [] => ⟨[], rfl, List.forall_mem_nil _⟩
  | n :: rest => by
    obtain ⟨d, hd, hflaw, -⟩ := Node.exists_described n
    obtain ⟨ds, hds, hrest⟩ := Node.exists_describeds rest
    refine ⟨d :: ds, ?_, List.forall_mem_cons.mpr ⟨hflaw, hrest⟩⟩
    rw [Node.toValues, List.mapM_cons, hd]
    simp only [bind, Except.bind, hds]
    rfl

end

theorem Settings.flaw?_describe {s : Settings} (h : ∀ v ∈ s.ignored, v.flaw? = none) :
    (Settings.describe s.fields).flaw? = none := by
  have hscanning : (Value.record [("file_name", .text s.fileName),
      ("ignored", .sequence .list s.ignored), ("urlpatterns_only", .bool s.blockOnly),
      ("max_workers", .int s.maxWorkers)]).flaw? = none := by
    refine flaw?_record ?_
    simp only [List.forall_mem_cons]
    exact ⟨rfl, flaw?_sequence h, rfl, rfl, List.forall_mem_nil _⟩
  show (Value.record _).flaw? = none
  refine flaw?_record ?_
  simp only [List.forall_mem_cons]
  exact ⟨rfl, hscanning, rfl, rfl, List.forall_mem_nil _⟩

/-- A report of a known severity is described, whatever further information it has. -/
theorem Report.exists_described {r : Report} {severity : Report.Severity}
    (h : Report.Severity.ofWord? r.severity = some severity) (behind : Option Fault)
    (timestamp : String) {info : Value} (hinfo : info.flaw? = none) :
    ∃ d, r.describe behind timestamp info = .ok d ∧ d.flaw? = none := by
  have hcontext : (Value.record [("operation", Value.ofText? r.context.operation),
      ("file_path", Value.ofText? r.context.filePath),
      ("component", Value.ofText? r.context.component), ("timestamp", .text timestamp),
      ("additional_info", info)]).flaw? = none := by
    refine flaw?_record ?_
    simp only [List.forall_mem_cons]
    exact ⟨Value.flaw?_ofText? _, Value.flaw?_ofText? _, Value.flaw?_ofText? _, rfl, hinfo,
      List.forall_mem_nil _⟩
  have hrecovery : (Value.sequence .list (r.recovery.map fun a => Value.record
      [("description", .text a.description), ("command", Value.ofText? a.command)])).flaw? =
      none := by
    refine flaw?_sequence (List.forall_mem_map.mpr fun a _ => flaw?_record ?_)
    simp only [List.forall_mem_cons]
    exact ⟨rfl, Value.flaw?_ofText? _, List.forall_mem_nil _⟩
  rw [Report.describe, h]
  refine ⟨_, rfl, flaw?_record ?_⟩
  simp only [List.forall_mem_cons]
  exact ⟨rfl, rfl, rfl, rfl, rfl, hcontext, hrecovery, Value.flaw?_ofText? _, List.forall_mem_nil _⟩

namespace Value

/-- Values that can be described: plain ones, what has no rule and is shown by its text, sequences and
mappings of values that can be described, with any keys, objects with such fields or with such a
description, and the objects of the library. Of the reports only those of a known severity belong to
them; the further information in a report may be anything that can be described. -/
inductive Describable : Value → Prop
  | none : Describable .none
  | bool (b : Bool) : Describable (.bool b)
  | int (n : Int) : Describable (.int n)
  | float (x : Float) : Describable (.float x)
  | text (s : WideText) : Describable (.text s)
  | moment (m : Moment) : Describable (.moment m)
  | member (m : Member) : Describable (.member m)
  | bytes (b : List UInt8) : Describable (.bytes b)
  | path (shown : String) : Describable (.path shown)
  | range (start stop step : Int) : Describable (.range start stop step)
  | fault (f : Fault) : Describable (.fault f Option.none)
  | sequence (kind : SequenceKind) {items : List Value} (h : ∀ v ∈ items, Describable v) :
      Describable (.sequence kind items)
  | mapping (readOnly : Bool) {entries : List (Value × Value)} (h : ∀ e ∈ entries, Describable e.2) :
      Describable (.mapping readOnly entries)
  | fields (type : String) (keying : Keying) {fields : List (String × Value)}
      (h : ∀ p ∈ fields, Describable p.2) : Describable (.object type keying fields Option.none)
  | object (type : String) (keying : Keying) (fields : List (String × Value)) {description : Value}
      (h : Describable description) : Describable (.object type keying fields (some (.ok description)))
  | route (r : Route) : Describable r.toValue
  | urlconf (u : Urlconf) : Describable u.toValue
  | record (r : FileRecord) : Describable r.toValue
  | snapshot (s : Snapshot) : Describable s.toValue
  | failure (f : Failure) : Describable f.toValue
  | scan (s : Scan) (milliseconds : Int) : Describable (s.toValue milliseconds)
  | node (n : Node) : Describable n.toValue
  | choice (c : Choice) : Describable c.toValue
  | settings {s : Settings} (h : ∀ v ∈ s.ignored, Describable v) :
      Describable (Settings.describe s.fields)
  | report {r : Report} {severity : Report.Severity}
      (hseverity : Report.Severity.ofWord? r.severity = some severity) (behind : Option Fault)
      (timestamp : String) {info : Value} (h : Describable info) :
      Describable (.fault (.report r behind) (some (r.describe behind timestamp info)))

/-- No description fails among the parts of a value that can be described. -/
theorem Describable.flaw?_eq_none {v : Value} (h : v.Describable) : v.flaw? = Option.none := by
  induction h with
  | none | bool | int | float | text | moment | member | bytes | path | range | fault => rfl
  | sequence kind h ih => exact flaw?_sequence ih
  | mapping readOnly h ih => exact flaw?_mapping ih
  | fields type keying h ih => exact flaw?_fields ih
  | object type keying fields h ih => exact ih
  | route r => exact r.flaw?_toValue
  | urlconf u => exact u.flaw?_toValue
  | record r => exact r.flaw?_toValue
  | snapshot s => exact s.flaw?_toValue
  | failure f => exact f.flaw?_toValue
  | scan s milliseconds => exact s.flaw?_toValue milliseconds
  | node n =>
    obtain ⟨d, -, -, h⟩ := n.exists_described
    exact h
  | choice c => exact c.flaw?_toValue
  | settings h ih => exact Settings.flaw?_describe ih
  | report hseverity behind timestamp h ih =>
    obtain ⟨d, hd, hflaw⟩ := Report.exists_described hseverity behind timestamp ih
    rw [hd]
    exact hflaw

/-- Output of a value that can be described is plain data, and is its own output. -/
theorem output_plain {v : Value} (h : v.Describable) :
    ∃ j, v.output = .ok j ∧ j.Plain ∧ (ofJson j).output = .ok j := by
  refine ⟨v.primitive, ?_, plain_primitive v, output_ofJson (plain_primitive v)⟩
  rw [output, h.flaw?_eq_none]

/-- Keys with the same text, a number that is none, a date among further information, and a node below
a node. -/
theorem output_plain_nested :
    let r := Report.validation "unknown route"
    let info := Value.mapping false [(.int 1, .moment ⟨2024, 2, 29, 23, 59, 0, 0, Option.none⟩)]
    let node := Node.mk "shop" true Option.none Option.none [.mk "home" false (some "/") Option.none []]
    let v := Value.mapping true [(.none, .float (0.0 / 0.0)),
      (.text "None", .sequence .set
        [.fault (.report r Option.none) (some (r.describe Option.none "" info))]),
      (.sequence .tuple [.none], .sequence .tuple [node.toValue])]
    v.Describable ∧ ∃ j, v.output = .ok j ∧ j.Plain ∧ (ofJson j).output = .ok j := by
  intro r info node v
  have hinfo : info.Describable := .mapping false (List.forall_mem_singleton.mpr (.moment _))
  have hseverity : Report.Severity.ofWord? r.severity = some .low := rfl
  have hreport : (Value.fault (.report r Option.none)
      (some (r.describe Option.none "" info))).Describable :=
    .report hseverity Option.none "" hinfo
  have hv : v.Describable := by
    refine .mapping true ?_
    simp only [List.forall_mem_cons]
    exact ⟨.float _, .sequence .set (List.forall_mem_singleton.mpr hreport),
      .sequence .tuple (List.forall_mem_singleton.mpr (.node node)), List.forall_mem_nil _⟩
  exact ⟨hv, output_plain hv⟩

/-- A report may be made with any text for its severity, but output fails if the text is no known
word. -/
theorem not_output_severe :
    let r : Report :=
      { kind := .general, code := .fileNotFound, severity := "severe", message := "m",
        userMessage := "u" }
    ¬ ∃ j, ((Fault.report r Option.none).toValue "").output = .ok j := by
  rintro r ⟨j, h⟩
  cases h

end Value

end RouteAtlas
