import RouteAtlas.Choice
import RouteAtlas.Fault.Category
import RouteAtlas.Outline
import RouteAtlas.Scan
import RouteAtlas.Value.Items
import RouteAtlas.Value.Mapping
import RouteAtlas.Value.Shape
import RouteAtlas.Value.Shown

/-!
# Descriptions of the library's objects

Each object of the index as a value: its fields, and where output shows something else the
description that stands for them. `describe` builds the value from parts of any kind, as far as they
make an object, and `toValue` from the object itself.
-/

namespace RouteAtlas

open Value (ofText?)

/-! ## Routes and files -/

/-- The shape of routes as objects. -/
def Route.shape : Shape :=
  ⟨"RouteEntry", .byFields, [("url_path", none), ("name", some (.text ""))]⟩

/-- A route, by its parts. -/
def Route.describe (url name : Value) : Value :=
  .object Route.shape.type Route.shape.keying [("url_path", url), ("name", name)]
    (some <| .ok (Value.record [("url_path", url), ("name", name)]))

/-- The url and the name of the route that some parts make. -/
def Route.partsOf (parts : List Value) : Except Fault (Value × Value) := do
  let fields ← Route.shape.fieldsOf parts
  let field (name : String) : Value := (Table.lookup name fields).getD .none
  return (field "url_path", field "name")

/-- The route: its url and its name. -/
def Route.toValue (r : Route) : Value := Route.describe (.text r.url) (.text r.name)

/-- The shape of bindings as objects. -/
def Binding.shape : Shape := ⟨"NamespaceBinding", .byFields, [("key", none), ("namespace", none)]⟩

/-- The entries of a table of texts. -/
def Table.toEntries (t : Table String String) : List (Value × Value) :=
  t.entries.map fun p => (.text p.1, .text p.2)

/-- What a text declares, by its parts. -/
def Urlconf.describe (routes : List Value) (namespaces : List (Value × Value)) : Value :=
  .object "ExtractionResult" .byFields
    [("entries", .sequence .tuple routes), ("namespaces", .mapping false namespaces)]
    (some <| .ok (Value.record
      [("entries", .sequence .list routes), ("namespaces", .mapping false namespaces)]))

/-- What a text declares: its routes and its namespaces. -/
def Urlconf.toValue (u : Urlconf) : Value :=
  Urlconf.describe (u.routes.map Route.toValue) u.namespaces.toEntries

/-- A record, by its parts. -/
def FileRecord.describe (path : Value) (label : Except Fault Value) (routes : List Value) : Value :=
  .object "FileRecord" .byFields [("file_path", path), ("entries", .sequence .tuple routes)]
    (some <| label.map fun label => Value.record
      [("file_path", path), ("label", label), ("entries", .sequence .list routes)])

/-- The record: the path and the label of the file, and its routes. -/
def FileRecord.toValue (r : FileRecord) : Value :=
  FileRecord.describe (.text r.path) (.ok (.text r.label)) (r.routes.map Route.toValue)

/-- The label of the file at a path. Only a text has one. -/
def FileRecord.labelOf : Value → Except Fault Value
  | .text path => .ok (.text (FileKey.label path.rendition))
  | v => .error (Fault.wrongType ("expected string or bytes-like object, got '" ++ v.typeName ++ "'"))

/-- The record that a path and routes make, unless there is no route. -/
def FileRecord.ofParts (path : Value) (routes : List Value) : Except Fault Value :=
  if routes.isEmpty then .error (.emptyRecord path.shown.rendition)
  else .ok (FileRecord.describe path (FileRecord.labelOf path) routes)

/-- A snapshot, by its parts. -/
def Snapshot.describe (generation : Value) (records namespaces : List (Value × Value)) : Value :=
  .object "IndexSnapshot" .byFields
    [("generation", generation), ("records", .mapping true records),
      ("namespaces", .mapping true namespaces)]
    (some <| .ok (Value.record
      [("generation", generation), ("files", .sequence .list (records.map Prod.snd)),
        ("namespaces", .mapping false namespaces)]))

/-- The snapshot: its generation, its files and its namespaces. -/
def Snapshot.toValue (s : Snapshot) : Value :=
  Snapshot.describe (.int s.generation) (s.records.entries.map fun p => (.text p.1, p.2.toValue))
    s.namespaces.toEntries

/-! ## Members of enumerations -/

/-- The category as a member of its enumeration. -/
def Category.toMember (c : Category) : Member := ⟨"ErrorCategory", c.name, .word c.word, false, true⟩

/-- The severity as a member of its enumeration. -/
def Report.Severity.toMember (s : Report.Severity) : Member :=
  ⟨"ErrorSeverity", s.name, .word s.word, false, true⟩

/-- The code as a member of its enumeration. -/
def Report.Code.toMember (c : Report.Code) : Member :=
  ⟨"ErrorCode", c.name, .number c.number, true, true⟩

/-! ## Scans -/

/-- A failure at a path of any kind. -/
def Failure.describe (path : Value) (f : Failure) : Value :=
  .object "ScanFailure" .byFields
    [("file_path", path), ("error", .text f.error),
      ("category", .member f.category.toMember), ("retryable", .bool f.retryable)]
    (some <| .ok (Value.record
      [("file_path", path), ("error", .text f.error), ("category", .text f.category.word),
        ("retryable", .bool f.retryable)]))

/-- The failure: the path, the fault, its category and whether trying again may help. -/
def Failure.toValue (f : Failure) : Value := Failure.describe (.text f.path) f

/-- What a scan gave, by its parts: the snapshot with its generation and the numbers of its files and
routes, the failures, how many files were scanned, and how long it took. -/
def Scan.describe (snapshot generation : Value) (files routes : Nat) (failures : List Value)
    (scanned milliseconds : Value) : Value :=
  .object "RescanResult" .byFields
    [("snapshot", snapshot), ("failures", .sequence .tuple failures), ("scanned", scanned),
      ("elapsed_ms", milliseconds)]
    (some <| .ok (Value.record
      [("generation", generation), ("files", .int files), ("routes", .int routes),
        ("scanned", scanned), ("failures", .sequence .list failures),
        ("elapsed_ms", milliseconds)]))

/-! ## Nodes and choices -/

/-- The shape of commands as objects. -/
def LinkedCommand.shape : Shape :=
  ⟨"LinkedCommand", .byFields, [("target", none), ("args", some (.sequence .tuple []))]⟩

/-- What output shows of a node: the label, whether it can be opened, and what else is there. -/
def Node.summary (label hasChildren : Value) (path : Option Value)
    (command : Option (Value × List Value)) (children : List Value) : Value :=
  Value.record <|
    [("label", label), ("has_children", hasChildren)]
      ++ (match path with | some p => [("path", p)] | none => [])
      ++ (match command with
        | some (target, args) =>
          [("linked_command", Value.record [("target", target), ("args", .sequence .list args)])]
        | none => [])
      ++ (if children.isEmpty then [] else [("children", .sequence .list children)])

/-- A node, by its parts. It is described if all its children are. -/
def Node.describe (label hasChildren : Value) (path : Option Value)
    (command : Option (Value × List Value)) (children : List Value) : Value :=
  .object "TreeNode" (.byFieldsExcept "children")
    [("label", label), ("has_children", hasChildren), ("path", path.getD .none),
      ("linked_command",
        match command with
        | some (target, args) =>
          .object LinkedCommand.shape.type LinkedCommand.shape.keying
            [("target", target), ("args", .sequence .tuple args)] none
        | none => .none),
      ("children", .sequence .tuple children)]
    (some <| do
      return Node.summary label hasChildren path command (← children.mapM Value.described))

mutual

/-- The node with what is attached to it. -/
def Node.toValue : Node → Value
  | .mk label hasChildren path command children =>
    Node.describe (.text label) (.bool hasChildren) (path.map fun p => .text p)
      (command.map fun c => (.text c.target, c.args.map fun s : String => .text s))
      (Node.toValues children)

/-- The nodes of a list. -/
def Node.toValues : List Node → List Value
  | [] => []
  | n :: rest => Node.toValue n :: Node.toValues rest

end

/-- The shape of items of a selection list as objects. -/
def PickItem.shape : Shape :=
  ⟨"PickItem", .byFields, [("label", none), ("description", none), ("detail", none)]⟩

/-- What output shows of a choice: the route, and the label and the path of its file. -/
def Choice.summaryOf (name url label path : Value) : Value :=
  Value.record [("name", name), ("url_path", url), ("file", label), ("file_path", path)]

/-- The choice of the only route of the file at a path, by its parts. -/
def Choice.describe (path url name : Value) : Value :=
  let route := Route.describe url name
  let label := FileRecord.labelOf path
  .object "RouteChoice" .byFields
    [("record", FileRecord.describe path label [route]), ("entry", route)]
    (some <| label.map fun label => Choice.summaryOf name url label path)

/-- What output shows of a choice. -/
def Choice.summary (c : Choice) : Value :=
  Choice.summaryOf (.text c.route.name) (.text c.route.url) (.text c.record.label)
    (.text c.record.path)

/-- The choice: its route and its file. -/
def Choice.toValue (c : Choice) : Value :=
  .object "RouteChoice" .byFields [("record", c.record.toValue), ("entry", c.route.toValue)]
    (some <| .ok c.summary)

/-! ## Reports -/

/-- The shape of hints how to recover as objects. -/
def Report.Recovery.shape : Shape :=
  ⟨"RecoveryAction", .never, [("description", none), ("command", some .none)]⟩

/-- What a report says, at the time of its making. A severity that is no known word is refused.
Whoever makes a report may also give further information that is no JSON value. -/
def Report.describe (r : Report) (behind : Option Fault) (timestamp : String)
    (info : Value := .ofJson r.context.info) : Except Fault Value :=
  match Severity.ofWord? r.severity with
  | none => .error (.notAMember (Text.quoted r.severity) "ErrorSeverity")
  | some severity => .ok <| Value.record [
      ("name", .text r.kind.name),
      ("code", .int r.code.number),
      ("message", .text r.message),
      ("user_message", .text r.userMessage),
      ("severity", .text severity.word),
      ("context", Value.record [
        ("operation", ofText? r.context.operation),
        ("file_path", ofText? r.context.filePath),
        ("component", ofText? r.context.component),
        ("timestamp", .text timestamp),
        ("additional_info", info)]),
      ("recovery_actions", .sequence .list (r.recovery.map fun a =>
        Value.record [("description", .text a.description), ("command", ofText? a.command)])),
      ("original_error", ofText? (behind.map Fault.text))]

/-- A fault. A report is described, as at the time of its making. -/
def Fault.toValue (f : Fault) (timestamp : String) : Value :=
  .fault f <| match f with
    | .report r behind => some (r.describe behind timestamp)
    | _ => none

end RouteAtlas
