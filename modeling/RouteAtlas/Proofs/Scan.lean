import Mathlib.Data.Finset.Card
import RouteAtlas.Proofs.Table
import RouteAtlas.Scan

/-!
# What a scan finds

The records, the failures and the number of files of a scan, described by the files alone
(`Scan.Finds`): which files have a record, which have a failure, and in which order. A scan whose
files ask for no stop gives a result, and the result is as described (`Scan.run_finds`).
-/

namespace RouteAtlas

/-- Dropping repetitions keeps elements in the order in which they first came. -/
theorem pairwise_idxOf_eraseDups (l : List String) :
    l.eraseDups.Pairwise fun a b => l.idxOf a < l.idxOf b := by
  induction l using List.reverseRecOn with
  | nil => exact .nil
  | append_singleton l a ih =>
    have hkeep : ∀ {x}, x ∈ l → (l ++ [a]).idxOf x = l.idxOf x := fun hx =>
      List.idxOf_append_of_mem hx
    have hold : l.eraseDups.Pairwise fun x y => (l ++ [a]).idxOf x < (l ++ [a]).idxOf y := by
      refine ih.imp_of_mem fun hx hy hlt => ?_
      rw [hkeep (List.mem_eraseDups.mp hx), hkeep (List.mem_eraseDups.mp hy)]
      exact hlt
    rw [List.eraseDups_append]
    by_cases ha : a ∈ l
    · simpa [List.removeAll, ha] using hold
    · have hnew : ([a].removeAll l).eraseDups = [a] := by
        simp [List.removeAll, ha, List.eraseDups_cons]
      rw [hnew]
      refine List.pairwise_append.mpr ⟨hold, List.pairwise_singleton _ _, fun x hx y hy => ?_⟩
      have hx := List.mem_eraseDups.mp hx
      rw [List.mem_singleton.mp hy, hkeep hx, List.idxOf_append_of_notMem ha]
      exact lt_of_lt_of_le (List.idxOf_lt_length_of_mem hx) (Nat.le_add_right _ _)

theorem nodup_of_pairwise_idxOf {l paths : List String}
    (h : l.Pairwise fun a b => paths.idxOf a < paths.idxOf b) : l.Nodup := by
  refine h.imp fun {a b} hlt hab => ?_
  rw [hab] at hlt
  exact lt_irrefl _ hlt

theorem nodup_eraseDups (l : List String) : l.eraseDups.Nodup :=
  nodup_of_pairwise_idxOf (pairwise_idxOf_eraseDups l)

theorem length_eraseDups (l : List String) : l.eraseDups.length = l.toFinset.card := by
  rw [← List.toFinset_card_of_nodup (nodup_eraseDups l)]
  congr 1
  ext x
  rw [List.mem_toFinset, List.mem_toFinset, List.mem_eraseDups]

namespace Scan

variable {extract : String → Urlconf} {read : String → Except Fault String} {path : String}

/-! ## Files -/

/-- The file cannot be read. -/
def Failed (read : String → Except Fault String) (path : String) : Prop :=
  ∃ f, read path = .error f

/-- The file is read and declares no route. -/
def Silent (extract : String → Urlconf) (read : String → Except Fault String) (path : String) :
    Prop :=
  ∃ text, read path = .ok text ∧ (extract text).routes = []

/-- The file is read and declares routes. -/
def Indexed (extract : String → Urlconf) (read : String → Except Fault String) (path : String) :
    Prop :=
  ∃ text, read path = .ok text ∧ (extract text).routes ≠ []

/-- The records and the failures of a scan of files, and the number of distinct files. -/
structure Finds (extract : String → Urlconf) (read : String → Except Fault String)
    (paths : List String) (scan : Scan) : Prop where
  /-- Every distinct file counts. -/
  scanned : scan.scanned = paths.toFinset.card
  /-- A file fails, is silent or is indexed, and the scan shows which. -/
  classes : ∀ path ∈ paths,
    (Failed read path ∧ ¬ Silent extract read path ∧ ¬ Indexed extract read path ∧
      path ∉ scan.snapshot.records.keys ∧ path ∈ scan.failures.map Failure.path) ∨
    (¬ Failed read path ∧ Silent extract read path ∧ ¬ Indexed extract read path ∧
      path ∉ scan.snapshot.records.keys ∧ path ∉ scan.failures.map Failure.path) ∨
    (¬ Failed read path ∧ ¬ Silent extract read path ∧ Indexed extract read path ∧
      path ∈ scan.snapshot.records.keys ∧ path ∉ scan.failures.map Failure.path)
  /-- The records are those of the indexed files. -/
  mem_records : ∀ path,
    path ∈ scan.snapshot.records.keys ↔ path ∈ paths ∧ Indexed extract read path
  /-- Records stand in the order in which their files first come. -/
  records_sorted : scan.snapshot.records.keys.Pairwise fun a b => paths.idxOf a < paths.idxOf b
  /-- A record holds the routes of its file. -/
  record : ∀ path r, scan.snapshot.records.get? path = some r →
    r.path = path ∧ r.routes ≠ [] ∧
      ∃ text, read path = .ok text ∧ r.routes = (extract text).routes
  /-- The failures are those of the failed files, each with its fault and the classification of the
  fault. -/
  mem_failures : ∀ failure, failure ∈ scan.failures ↔ ∃ path ∈ paths, ∃ f, read path = .error f ∧
    failure = ⟨path, f.titled, f.classify.category, f.classify.retryable⟩
  /-- Failures stand in the order in which their files first come, one for each file. -/
  failures_sorted :
    (scan.failures.map Failure.path).Pairwise fun a b => paths.idxOf a < paths.idxOf b

/-! ## What the readings give -/

/-- The readings of a scan. -/
def readings (read : String → Except Fault String) (paths : List String) : List Reading :=
  paths.eraseDups.map fun path => (path, read path)

/-- A file with its record, if it is to have one. -/
def recordOf (extract : String → Urlconf) (read : String → Except Fault String) (path : String) :
    Option (String × FileRecord) :=
  match read path with
  | .ok text =>
    if h : (extract text).routes = [] then none else some (path, ⟨path, (extract text).routes, h⟩)
  | .error _ => none

/-- The failure of a file, if it has one. -/
def failureOf (read : String → Except Fault String) (path : String) : Option Failure :=
  match read path with
  | .ok _ => none
  | .error f => some (Failure.ofFault path f)

theorem recordOf_eq_some_iff {pair : String × FileRecord} :
    recordOf extract read path = some pair ↔ ∃ text, ∃ h : (extract text).routes ≠ [],
      read path = .ok text ∧ pair = (path, ⟨path, (extract text).routes, h⟩) := by
  unfold recordOf
  cases hread : read path with
  | error f => simp
  | ok text =>
    by_cases hroutes : (extract text).routes = []
    · simp [hroutes]
    · simp [hroutes, eq_comm]

theorem failureOf_eq_some_iff {failure : Failure} :
    failureOf read path = some failure ↔
      ∃ f, read path = .error f ∧ failure = Failure.ofFault path f := by
  unfold failureOf
  cases hread : read path with
  | error f => simp [eq_comm]
  | ok text => simp

/-- The records are built from the files one after the other. -/
theorem records_nextSnapshot (previous : Snapshot) (paths : List String) :
    (nextSnapshot previous (said extract (readings read paths))).records =
      .ofList (paths.eraseDups.filterMap (recordOf extract read)) := by
  have hadd : ∀ (files : List (String × Urlconf)) (t : Table String FileRecord),
      files.foldl addRecord t = t.putAll (files.filterMap fun file =>
        if h : file.2.routes = [] then none else some (file.1, ⟨file.1, file.2.routes, h⟩)) := by
    intro files
    induction files with
    | nil => intro t; rfl
    | cons file files ih =>
      intro t
      rw [List.foldl_cons, ih, addRecord]
      by_cases h : file.2.routes = []
      · simp [h]
      · simp [h, Table.putAll_cons]
  show (said extract (readings read paths)).foldl addRecord .empty = _
  rw [hadd, said, readings, List.filterMap_map, List.filterMap_filterMap, Table.ofList]
  congr 2
  funext path
  unfold recordOf
  cases hread : read path <;> simp [hread]

theorem failuresOf_readings (paths : List String) :
    failuresOf (readings read paths) = paths.eraseDups.filterMap (failureOf read) := by
  rw [failuresOf, readings, List.filterMap_map]
  congr 1
  funext path
  unfold failureOf
  cases hread : read path <;> simp [hread]

/-- What is made of some of the files stands in the order in which they first come. -/
theorem pairwise_filterMap_eraseDups {β : Type} {make : String → Option β} {name : β → String}
    (hname : ∀ path b, make path = some b → name b = path) (paths : List String) :
    ((paths.eraseDups.filterMap make).map name).Pairwise
      fun a b => paths.idxOf a < paths.idxOf b := by
  rw [List.pairwise_map, List.pairwise_filterMap]
  refine (pairwise_idxOf_eraseDups paths).imp fun hlt b hb b' hb' => ?_
  rw [hname _ b hb, hname _ b' hb']
  exact hlt

/-- No file asks to stop. -/
def Unstopped (read : String → Except Fault String) (paths : List String) : Prop :=
  ∀ path ∈ paths, ∀ f, read path = .error f → f.isFatal = false

theorem stop?_readings {paths : List String} (h : Unstopped read paths) :
    stop? (readings read paths) = none := by
  suffices hall : ∀ l : List Reading, (∀ p ∈ l, ∀ f, p.2 = .error f → f.isFatal = false) →
      stop? l = none by
    refine hall _ fun p hp f hf => ?_
    obtain ⟨path, hpath, rfl⟩ := List.mem_map.mp hp
    exact h path (List.mem_eraseDups.mp hpath) f hf
  intro l hl
  induction l with
  | nil => rfl
  | cons p l ih =>
    have hrest := ih fun p hp => hl p (List.mem_cons_of_mem _ hp)
    obtain ⟨path, result⟩ := p
    cases result with
    | ok text => exact hrest
    | error f =>
      have hf := hl (path, .error f) List.mem_cons_self f rfl
      rw [stop?, hf, hrest]
      rfl

/-! ## Whole scans -/

/-- The records of a scan, whatever was published before. -/
def found (extract : String → Urlconf) (previous : Snapshot) (read : String → Except Fault String)
    (paths : List String) : Scan :=
  ⟨nextSnapshot previous (said extract (readings read paths)), failuresOf (readings read paths),
    (readings read paths).length⟩

/-- A scan gives what is found, or the request to stop of one of its files. -/
theorem run_eq (extract : String → Urlconf) (previous : Snapshot) (paths : List String)
    (read : String → Except Fault String) :
    (run extract previous paths read).1 = match stop? (readings read paths) with
      | some f => .error f
      | none => .ok (found extract previous read paths) := by
  show (match stop? (readings read paths) with
    | some f => (Except.error f, _)
    | none => (Except.ok (found extract previous read paths), _)).1 = _
  cases stop? (readings read paths) <;> rfl

/-- A scan that gives a result counts one up. -/
theorem generation_of_run {previous : Snapshot} {paths : List String} {scan : Scan}
    (h : (run extract previous paths read).1 = .ok scan) :
    scan.snapshot.generation = previous.generation + 1 := by
  rw [run_eq] at h
  split at h
  · exact absurd h (by simp)
  · cases h
    rfl

theorem mem_keys_found {previous : Snapshot} {paths : List String} :
    path ∈ (found extract previous read paths).snapshot.records.keys ↔
      path ∈ paths ∧ Indexed extract read path := by
  show path ∈ (nextSnapshot previous (said extract (readings read paths))).records.keys ↔ _
  rw [records_nextSnapshot, Table.keys_ofList, List.mem_eraseDups, List.mem_map]
  constructor
  · rintro ⟨pair, hpair, rfl⟩
    obtain ⟨path, hpath, hrecord⟩ := List.mem_filterMap.mp hpair
    obtain ⟨text, hroutes, hread, rfl⟩ := recordOf_eq_some_iff.mp hrecord
    exact ⟨List.mem_eraseDups.mp hpath, text, hread, hroutes⟩
  · rintro ⟨hpath, text, hread, hroutes⟩
    exact ⟨_, List.mem_filterMap.mpr ⟨path, List.mem_eraseDups.mpr hpath,
      recordOf_eq_some_iff.mpr ⟨text, hroutes, hread, rfl⟩⟩, rfl⟩

theorem mem_failures_found {previous : Snapshot} {paths : List String} {failure : Failure} :
    failure ∈ (found extract previous read paths).failures ↔
      ∃ path ∈ paths, ∃ f, read path = .error f ∧ failure = Failure.ofFault path f := by
  show failure ∈ failuresOf (readings read paths) ↔ _
  rw [failuresOf_readings, List.mem_filterMap]
  constructor
  · rintro ⟨path, hpath, hfailure⟩
    exact ⟨path, List.mem_eraseDups.mp hpath, failureOf_eq_some_iff.mp hfailure⟩
  · rintro ⟨path, hpath, hfailure⟩
    exact ⟨path, List.mem_eraseDups.mpr hpath, failureOf_eq_some_iff.mpr hfailure⟩

theorem mem_paths_failures_found {previous : Snapshot} {paths : List String} :
    path ∈ (found extract previous read paths).failures.map Failure.path ↔
      path ∈ paths ∧ Failed read path := by
  rw [List.mem_map]
  constructor
  · rintro ⟨failure, hfailure, rfl⟩
    obtain ⟨path, hpath, f, hread, rfl⟩ := mem_failures_found.mp hfailure
    exact ⟨hpath, f, hread⟩
  · rintro ⟨hpath, f, hread⟩
    exact ⟨_, mem_failures_found.mpr ⟨path, hpath, f, hread, rfl⟩, rfl⟩

/-- A record comes from the file of its key. -/
theorem record_found {previous : Snapshot} {paths : List String} {r : FileRecord}
    (h : (found extract previous read paths).snapshot.records.get? path = some r) :
    r.path = path ∧ ∃ text, read path = .ok text ∧ r.routes = (extract text).routes := by
  have hget : (nextSnapshot previous (said extract (readings read paths))).records.get? path =
      some r := h
  rw [records_nextSnapshot, Table.get?_ofList, Table.lastValue, Option.map_eq_some_iff] at hget
  obtain ⟨pair, hlast, rfl⟩ := hget
  obtain ⟨hpair, hkey⟩ := List.mem_filter.mp (List.mem_of_getLast? hlast)
  obtain ⟨path', -, hrecord⟩ := List.mem_filterMap.mp hpair
  obtain ⟨text, hroutes, hread, rfl⟩ := recordOf_eq_some_iff.mp hrecord
  obtain rfl : path' = path := by simpa using hkey
  exact ⟨rfl, text, hread, rfl⟩

/-- What is found is as described. -/
theorem finds_found (extract : String → Urlconf) (previous : Snapshot)
    (read : String → Except Fault String) (paths : List String) :
    Finds extract read paths (found extract previous read paths) where
  scanned := by
    show (readings read paths).length = _
    rw [readings, List.length_map, length_eraseDups]
  classes := by
    intro path hpath
    rw [mem_keys_found, mem_paths_failures_found]
    cases hread : read path with
    | error f => exact Or.inl (by simp [Failed, Silent, Indexed, hread, hpath])
    | ok text =>
      by_cases hroutes : (extract text).routes = []
      · exact Or.inr (Or.inl (by simp [Failed, Silent, Indexed, hread, hroutes]))
      · exact Or.inr (Or.inr (by simp [Failed, Silent, Indexed, hread, hroutes, hpath]))
  mem_records := fun path => mem_keys_found
  records_sorted := by
    show (nextSnapshot previous (said extract (readings read paths))).records.keys.Pairwise _
    have hsorted : ((paths.eraseDups.filterMap (recordOf extract read)).map Prod.fst).Pairwise
        fun a b => paths.idxOf a < paths.idxOf b := by
      refine pairwise_filterMap_eraseDups (fun path pair h => ?_) paths
      obtain ⟨text, hroutes, -, rfl⟩ := recordOf_eq_some_iff.mp h
      rfl
    rw [records_nextSnapshot, Table.keys_ofList,
      eraseDups_of_nodup (nodup_of_pairwise_idxOf hsorted)]
    exact hsorted
  record := fun path r h => ⟨(record_found h).1, r.nonempty, (record_found h).2⟩
  mem_failures := fun failure => mem_failures_found
  failures_sorted := by
    show ((failuresOf (readings read paths)).map Failure.path).Pairwise _
    rw [failuresOf_readings]
    refine pairwise_filterMap_eraseDups (fun path failure h => ?_) paths
    obtain ⟨f, -, rfl⟩ := failureOf_eq_some_iff.mp h
    rfl

/-- A scan whose files ask for no stop finds what is described. -/
theorem run_finds {paths : List String} (h : Unstopped read paths) (previous : Snapshot) :
    (run extract previous paths read).1 = .ok (found extract previous read paths) ∧
      Finds extract read paths (found extract previous read paths) := by
  refine ⟨?_, finds_found extract previous read paths⟩
  rw [run_eq, stop?_readings h]

end Scan

end RouteAtlas
