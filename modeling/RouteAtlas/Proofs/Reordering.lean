import RouteAtlas.Proofs.Rescan
import RouteAtlas.Proofs.Resolution

/-!
# The order of the files of a scan

Scans of the same files in different orders find the same records, path by path, and the same
failures. The namespaces are another matter, since of two files that give a key different namespaces
the later one wins: the order matters for these keys (`Scan.Disputed`) and for no others
(`Machine.publish_reordered`).
-/

namespace RouteAtlas

/-! ## Lists in another order -/

/-- Lists of the same elements have different last elements only if they have different elements. -/
theorem exists_ne_of_getLast?_ne {α : Type} {l l' : List α} (hperm : l.Perm l')
    (h : l.getLast? ≠ l'.getLast?) : ∃ a ∈ l, ∃ b ∈ l, a ≠ b := by
  cases hl : l.getLast? with
  | none =>
    obtain rfl := List.getLast?_eq_none_iff.mp hl
    rw [hperm.nil_eq] at h
    exact absurd rfl h
  | some a =>
    cases hl' : l'.getLast? with
    | none =>
      obtain rfl := List.getLast?_eq_none_iff.mp hl'
      rw [hperm.eq_nil] at h
      exact absurd rfl h
    | some b =>
      have hb : b ∈ l := hperm.mem_iff.mpr (List.mem_of_getLast? hl')
      refine ⟨a, List.mem_of_getLast? hl, b, hb, ?_⟩
      rintro rfl
      exact h (hl.trans hl'.symm)

theorem perm_eraseDups {l l' : List String} (h : l.Perm l') : l.eraseDups.Perm l'.eraseDups := by
  refine (List.perm_ext_iff_of_nodup (nodup_eraseDups l) (nodup_eraseDups l')).mpr fun a => ?_
  rw [List.mem_eraseDups, List.mem_eraseDups, h.mem_iff]

/-- The list with all occurrences of `a` moved to its end. -/
def movedLast (a : String) (l : List String) : List String :=
  l.filter (· ≠ a) ++ l.filter (· = a)

theorem perm_movedLast (a : String) (l : List String) : l.Perm (movedLast a l) := by
  have hsplit := List.filter_append_perm (fun x => decide (x ≠ a)) l
  simp only [ne_eq, decide_not, Bool.not_not] at hsplit
  rw [movedLast]
  simp only [ne_eq, decide_not]
  exact hsplit.symm

theorem eraseDups_movedLast {a : String} {l : List String} (h : a ∈ l) :
    (movedLast a l).eraseDups = (l.filter (· ≠ a)).eraseDups ++ [a] := by
  have hlast : ((l.filter (· = a)).removeAll (l.filter (· ≠ a))).eraseDups = [a] := by
    have hkept : (l.filter (· = a)).removeAll (l.filter (· ≠ a)) = l.filter (· = a) := by
      refine List.filter_eq_self.mpr fun x hx => ?_
      obtain rfl : x = a := by simpa using (List.mem_filter.mp hx).2
      simp
    have hall : ∀ x ∈ l.filter (· = a), x = a := fun x hx => by
      simpa using (List.mem_filter.mp hx).2
    rw [hkept]
    cases hfilter : l.filter (· = a) with
    | nil => exact absurd (List.mem_filter.mpr ⟨h, by simp⟩) (hfilter ▸ List.not_mem_nil)
    | cons x rest =>
      rw [hfilter] at hall
      obtain ⟨rfl, hrest⟩ := List.forall_mem_cons.mp hall
      rw [List.eraseDups_cons, List.filter_eq_nil_iff.mpr fun y hy => by simp [hrest y hy]]
      rfl
  rw [movedLast, List.eraseDups_append, hlast]

namespace Scan

variable {extract : String → Urlconf} {read : String → Except Fault String} {previous : Snapshot}
  {paths paths' : List String} {key : String}

/-! ## Namespaces -/

/-- Two of the files are read and give different namespaces to a key. -/
def Disputed (extract : String → Urlconf) (read : String → Except Fault String) (paths : List String)
    (key : String) : Prop :=
  ∃ path ∈ paths, ∃ path' ∈ paths, ∃ text text' space space',
    read path = .ok text ∧ read path' = .ok text' ∧
    (extract text).namespaces.get? key = some space ∧
    (extract text').namespaces.get? key = some space' ∧ space ≠ space'

/-- The namespace that a file gives to a key, if it is read and gives it one. -/
def spaceIn (extract : String → Urlconf) (read : String → Except Fault String) (key path : String) :
    Option String :=
  match read path with
  | .ok text => (extract text).namespaces.get? key
  | .error _ => none

theorem spaceIn_eq_some_iff {path space : String} :
    spaceIn extract read key path = some space ↔
      ∃ text, read path = .ok text ∧ (extract text).namespaces.get? key = some space := by
  unfold spaceIn
  cases hread : read path <;> simp

/-- The last file that gives a key a namespace wins, and a key that is given none keeps its own. -/
theorem get?_foldl_merge (files : List (String × Urlconf)) (t : Table String String) (key : String) :
    (files.foldl (fun t file => t.merge file.2.namespaces) t).get? key =
      ((files.filterMap fun file => file.2.namespaces.get? key).getLast?).or (t.get? key) := by
  induction files generalizing t with
  | nil => rfl
  | cons file files ih =>
    rw [List.foldl_cons, ih, Table.get?_merge, ← Option.or_assoc]
    cases hspace : file.2.namespaces.get? key with
    | none => simp [hspace]
    | some space =>
      simp only [List.filterMap_cons, hspace, List.getLast?_cons]
      cases (files.filterMap fun file => file.2.namespaces.get? key).getLast? <;> rfl

theorem get?_found (extract : String → Urlconf) (previous : Snapshot)
    (read : String → Except Fault String) (paths : List String) (key : String) :
    (found extract previous read paths).snapshot.namespaces.get? key =
      ((paths.eraseDups.filterMap (spaceIn extract read key)).getLast?).or
        (previous.namespaces.get? key) := by
  have hspaces : ((said extract (readings read paths)).filterMap
      fun file => file.2.namespaces.get? key) =
      paths.eraseDups.filterMap (spaceIn extract read key) := by
    rw [said, readings, List.filterMap_map, List.filterMap_filterMap]
    congr 1
    funext path
    unfold spaceIn
    cases hread : read path <;> simp [hread]
  rw [← hspaces]
  exact get?_foldl_merge _ _ _

/-- Only what is disputed depends on the order of the files. -/
theorem disputed_of_get?_ne (hperm : paths.Perm paths')
    (h : (found extract previous read paths').snapshot.namespaces.get? key ≠
      (found extract previous read paths).snapshot.namespaces.get? key) :
    Disputed extract read paths key := by
  rw [get?_found, get?_found] at h
  have hlast : (paths.eraseDups.filterMap (spaceIn extract read key)).getLast? ≠
      (paths'.eraseDups.filterMap (spaceIn extract read key)).getLast? := fun heq => h (by rw [heq])
  obtain ⟨space, hspace, space', hspace', hne⟩ :=
    exists_ne_of_getLast?_ne ((perm_eraseDups hperm).filterMap _) hlast
  obtain ⟨path, hpath, hgives⟩ := List.mem_filterMap.mp hspace
  obtain ⟨path', hpath', hgives'⟩ := List.mem_filterMap.mp hspace'
  obtain ⟨text, hread, hget⟩ := spaceIn_eq_some_iff.mp hgives
  obtain ⟨text', hread', hget'⟩ := spaceIn_eq_some_iff.mp hgives'
  exact ⟨path, List.mem_eraseDups.mp hpath, path', List.mem_eraseDups.mp hpath', text, text', space,
    space', hread, hread', hget, hget', hne⟩

/-- The file that comes last has the last word. -/
theorem get?_found_movedLast {path text space : String} (hpath : path ∈ paths)
    (hread : read path = .ok text) (hget : (extract text).namespaces.get? key = some space) :
    (found extract previous read (movedLast path paths)).snapshot.namespaces.get? key = some space := by
  have hspace : spaceIn extract read key path = some space :=
    spaceIn_eq_some_iff.mpr ⟨text, hread, hget⟩
  rw [get?_found, eraseDups_movedLast hpath, List.filterMap_append]
  simp [hspace]

/-- What is disputed does depend on the order of the files. -/
theorem exists_get?_ne_of_disputed (h : Disputed extract read paths key) :
    ∃ paths', paths.Perm paths' ∧
      (found extract previous read paths').snapshot.namespaces.get? key ≠
        (found extract previous read paths).snapshot.namespaces.get? key := by
  obtain ⟨path, hpath, path', hpath', text, text', space, space', hread, hread', hget, hget', hne⟩ := h
  by_cases hfirst :
      (found extract previous read paths).snapshot.namespaces.get? key = some space
  · refine ⟨movedLast path' paths, perm_movedLast path' paths, ?_⟩
    rw [get?_found_movedLast hpath' hread' hget', hfirst]
    simpa using hne.symm
  · refine ⟨movedLast path paths, perm_movedLast path paths, ?_⟩
    rw [get?_found_movedLast hpath hread hget]
    exact fun heq => hfirst heq.symm

/-! ## Records and failures -/

theorem get?_records_found {path : String} {r : FileRecord} :
    (found extract previous read paths).snapshot.records.get? path = some r ↔
      path ∈ paths ∧ recordOf extract read path = some (path, r) := by
  constructor
  · intro h
    obtain ⟨rfl, text, hread, hroutes⟩ := record_found h
    refine ⟨(mem_keys_found.mp (Table.mem_keys_iff.mpr ⟨r, h⟩)).1, ?_⟩
    have hsome : (extract text).routes ≠ [] := fun hnil => r.nonempty (hroutes.trans hnil)
    refine recordOf_eq_some_iff.mpr ⟨text, hsome, hread, ?_⟩
    obtain ⟨path, routes, hnonempty⟩ := r
    obtain rfl : routes = (extract text).routes := hroutes
    rfl
  · rintro ⟨hpath, hrecord⟩
    obtain ⟨text, hroutes, hread, hpair⟩ := recordOf_eq_some_iff.mp hrecord
    have hkey : path ∈ (found extract previous read paths).snapshot.records.keys :=
      mem_keys_found.mpr ⟨hpath, text, hread, hroutes⟩
    obtain ⟨r', hr'⟩ := Table.mem_keys_iff.mp hkey
    obtain ⟨hpath', text', hread', hroutes'⟩ := record_found hr'
    obtain rfl : text' = text := by simpa using hread'.symm.trans hread
    rw [hr']
    obtain ⟨path', routes', hnonempty'⟩ := r'
    obtain rfl : path' = path := hpath'
    obtain rfl : routes' = (extract text').routes := hroutes'
    exact congrArg some (congrArg Prod.snd hpair).symm

/-- Two scans agree in all but their namespaces: the records path by path, the failures in any
order. -/
structure Agrees (scan scan' : Scan) : Prop where
  generation : scan'.snapshot.generation = scan.snapshot.generation
  records : ∀ path, scan'.snapshot.records.get? path = scan.snapshot.records.get? path
  failures : scan'.failures.Perm scan.failures
  scanned : scan'.scanned = scan.scanned

theorem agrees_found (hperm : paths.Perm paths') :
    Agrees (found extract previous read paths) (found extract previous read paths') where
  generation := rfl
  records := by
    intro path
    refine Option.ext fun r => ?_
    rw [get?_records_found, get?_records_found, hperm.mem_iff]
  failures := by
    show (failuresOf (readings read paths')).Perm (failuresOf (readings read paths))
    rw [failuresOf_readings, failuresOf_readings]
    exact (perm_eraseDups hperm.symm).filterMap _
  scanned := by
    rw [(finds_found extract previous read paths').scanned,
      (finds_found extract previous read paths).scanned, List.toFinset_eq_of_perm _ _ hperm]

end Scan

/-! ## Rescans -/

namespace Machine

variable {σ ω : Type} {w : World σ ω} {m : Machine σ ω}

/-- A rescan publishes what is found, and gives it if the observers ask for no stop either. -/
def Gives [DecidableEq ω] (w : World σ ω) (m : Machine σ ω) (paths : List String) (scan : Scan) :
    Prop :=
  (m.publish w paths).2 = .ok scan ∧ (m.publish w paths).1.index.snapshot = scan.snapshot ∧
    (w.Gentle → m.stack = [] → ∀ fuel, (m.rescan w fuel paths).2 = .ok scan)

theorem gives_found [DecidableEq ω] {paths : List String}
    (h : Scan.Unstopped (w.read m.world) paths) :
    m.Gives w paths (Scan.found w.extract m.index.snapshot (w.read m.world) paths) := by
  obtain ⟨hok, hpublished⟩ := publish_of_ok (Scan.run_finds h m.index.snapshot).1
  exact ⟨hok, hpublished.snapshot, fun hw hs fuel => rescan_gentle hw hs paths fuel⟩

/-- Whatever the order of its files, a rescan publishes the same record for each path and reports the
same failures. A key has different namespaces after two orders of the files only if two of the files
give it different ones, and if two do there are such orders; so the whole tables are equal for all
orders if no key is disputed. -/
theorem publish_reordered [DecidableEq ω] (w : World σ ω) (m : Machine σ ω) (paths : List String)
    (h : Scan.Unstopped (w.read m.world) paths) :
    ∃ scan, m.Gives w paths scan ∧
      (∀ paths', paths.Perm paths' → ∃ scan', m.Gives w paths' scan' ∧ scan.Agrees scan' ∧
        (∀ key, scan'.snapshot.namespaces.get? key ≠ scan.snapshot.namespaces.get? key →
          Scan.Disputed w.extract (w.read m.world) paths key) ∧
        ((∀ key, ¬ Scan.Disputed w.extract (w.read m.world) paths key) →
          ∀ key, scan'.snapshot.namespaces.get? key = scan.snapshot.namespaces.get? key)) ∧
      ∀ key, Scan.Disputed w.extract (w.read m.world) paths key →
        ∃ paths' scan', paths.Perm paths' ∧ m.Gives w paths' scan' ∧
          scan'.snapshot.namespaces.get? key ≠ scan.snapshot.namespaces.get? key := by
  have hgives : ∀ paths', paths.Perm paths' →
      m.Gives w paths' (Scan.found w.extract m.index.snapshot (w.read m.world) paths') :=
    fun paths' hperm => gives_found fun path hpath => h path (hperm.mem_iff.mpr hpath)
  refine ⟨_, hgives paths (.refl _), fun paths' hperm => ⟨_, hgives paths' hperm,
    Scan.agrees_found hperm, fun key hne => Scan.disputed_of_get?_ne hperm hne,
    fun hnone key => ?_⟩, fun key hdisputed => ?_⟩
  · by_contra hne
    exact hnone key (Scan.disputed_of_get?_ne hperm hne)
  · obtain ⟨paths', hperm, hne⟩ := Scan.exists_get?_ne_of_disputed hdisputed
    exact ⟨paths', _, hperm, hgives paths' hperm, hne⟩

/-- Two files that bind the same module to different namespaces can be read in two ways. -/
theorem publish_reordered_rivals :
    let m : Machine Bool Unit := { index := {}, world := false }
    let paths := ["site/urls.py", "app/urls.py"]
    Scan.Disputed (Urlconf.read true) (Chronicle.vanishing.read false) paths "blog/urls" ∧
      ∃ scan paths' scan', m.Gives Chronicle.vanishing paths scan ∧ paths.Perm paths' ∧
        m.Gives Chronicle.vanishing paths' scan' ∧
        scan'.snapshot.namespaces.get? "blog/urls" ≠ scan.snapshot.namespaces.get? "blog/urls" := by
  intro m paths
  have hread : Scan.Unstopped (Chronicle.vanishing.read m.world) paths := by
    intro path hpath f hf
    rcases List.mem_cons.mp hpath with rfl | hpath
    · cases hf
    · rw [List.mem_singleton.mp hpath] at hf
      cases hf
  have hdisputed :
      Scan.Disputed (Urlconf.read true) (Chronicle.vanishing.read false) paths "blog/urls" := by
    refine ⟨"site/urls.py", by simp [paths], "app/urls.py", by simp [paths], _, _, "old", "new", rfl,
      rfl, ?_⟩
    decide +kernel
  obtain ⟨scan, hscan, -, hsharp⟩ := publish_reordered Chronicle.vanishing m paths hread
  obtain ⟨paths', scan', hperm, hscan', hne⟩ := hsharp "blog/urls" hdisputed
  exact ⟨hdisputed, scan, paths', scan', hscan, hperm, hscan', hne⟩

end Machine

end RouteAtlas
