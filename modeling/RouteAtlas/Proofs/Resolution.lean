import RouteAtlas.Proofs.Include
import RouteAtlas.Proofs.Machine
import RouteAtlas.Proofs.Occurrences
import RouteAtlas.Snapshot.Query

/-!
# The namespace that qualifies a route

The table of namespaces is never emptied: what a scan binds is added to what all scans before it have
bound. So the namespace of a file is the one that was bound last in the whole history of the index
(`Chronicle.resolves`), where `Chronicle` keeps the history beside the index: for each scan that was
completed, its distinct files with what reading them gave.
-/

namespace RouteAtlas

/-! ## Includes as they are written -/

/-- An include: the module as it is referred to, and its namespace. -/
structure Inclusion where
  reference : String
  space : String
deriving DecidableEq, Repr

namespace Inclusion

/-- What the include binds. -/
def binding (i : Inclusion) : Binding := ⟨Urlconf.moduleKey i.reference, i.space⟩

/-- The include names the module of the file at a path. -/
def Concerns (i : Inclusion) (path : String) : Prop :=
  Urlconf.moduleKey i.reference = FileKey.subpath path

instance (i : Inclusion) (path : String) : Decidable (i.Concerns path) :=
  inferInstanceAs (Decidable (_ = _))

/-- An include stands at the start of a text, and `rest` follows it. -/
inductive StandsAt : List Char → Inclusion → List Char → Prop where
  | mk {s name t t' space rest : List Char} (ho : Urlconf.Include.Opens s name t)
      (hc : Urlconf.Include.Closes t t') (hn : Urlconf.Include.Names t' space rest) :
      StandsAt s ⟨String.ofList name, String.ofList space⟩ rest

/-- Reads an include as it is written. -/
def read? : Text.Recogniser Inclusion := fun s =>
  (Urlconf.Include.head? s).bind fun (name, s) =>
  (Urlconf.word? [')'] (s.dropWhile (· != ')'))).bind fun s =>
  (Urlconf.Include.namespace? s).map fun (space, s) => (⟨String.ofList name, String.ofList space⟩, s)

theorem map_read? (s : List Char) :
    (read? s).map (fun p => (p.1.binding, p.2)) = Urlconf.Include.read? s := by
  simp only [read?, Urlconf.Include.read?, Option.map_bind, Option.map_map, Function.comp_def, binding]

theorem read?_consumes : read?.Consumes := by
  intro s i rest h
  have hread := map_read? s
  rw [h] at hread
  exact Urlconf.Include.read?_consumes s _ rest hread.symm

theorem read?_eq_some_iff {s : List Char} {i : Inclusion} {rest : List Char} :
    read? s = some (i, rest) ↔ StandsAt s i rest := by
  simp only [read?, Option.bind_eq_some_iff, Option.map_eq_some_iff, Prod.exists, Prod.mk.injEq,
    Urlconf.Include.head?_eq_some_iff, Urlconf.Include.word?_dropWhile_eq_some_iff,
    Urlconf.Include.namespace?_eq_some_iff]
  constructor
  · rintro ⟨name, t, ho, t', hc, space, rest', hn, rfl, rfl⟩
    exact .mk ho hc hn
  · rintro ⟨ho, hc, hn⟩
    exact ⟨_, _, ho, _, hc, _, _, hn, rfl, rfl⟩

/-- The includes of a text, in order. -/
def inText (text : String) : List Inclusion := Text.occurrences read? read?_consumes text.toList

/-- The includes of a text are found one after another, each where the first one starts that does not
overlap those before. -/
theorem leftmost_iff_inText {text : String} {inclusions : List Inclusion} :
    Text.Leftmost StandsAt text.toList inclusions ↔ inclusions = inText text :=
  Text.leftmost_iff_occurrences read?_consumes fun _ _ _ => read?_eq_some_iff

/-- The includes of the files that were read, file after file. -/
def inReadings (readings : List Scan.Reading) : List Inclusion :=
  readings.flatMap fun reading =>
    match reading.2 with
    | .ok text => inText text
    | .error _ => []

/-- A text binds what its includes bind. -/
theorem bindingsIn_eq (text : String) :
    Urlconf.bindingsIn text.toList = (inText text).map binding :=
  (Text.map_occurrences read?_consumes Urlconf.Include.read?_consumes map_read? text.toList).symm

/-- The key and the namespace that an include binds. -/
def pair (i : Inclusion) : String × String := (i.binding.key, i.binding.space)

theorem namespacesIn_eq (text : String) :
    Urlconf.namespacesIn text.toList = .ofList ((inText text).map pair) := by
  rw [Urlconf.namespacesIn, bindingsIn_eq, List.map_map]
  rfl

theorem lastValue_pair_eq_some_iff {inclusions : List Inclusion} {key space : String} :
    Table.lastValue key (inclusions.map pair) = some space ↔ ∃ before i after,
      inclusions = before ++ i :: after ∧ i.binding.key = key ∧ i.space = space ∧
        ∀ j ∈ after, j.binding.key ≠ key := by
  rw [Table.lastValue_map_eq_some_iff]
  simp only [pair, Prod.mk.injEq, and_assoc]
  exact Iff.rfl

end Inclusion

/-! ## What a scan does to the table -/

namespace Scan

/-- The namespaces of the next snapshot, key by key: the last include of a key wins, and keys without
an include keep their namespace. -/
theorem get?_nextSnapshot (blockOnly : Bool) (previous : Snapshot) (readings : List Reading)
    (key : String) :
    (nextSnapshot previous (said (Urlconf.read blockOnly) readings)).namespaces.get? key =
      (Table.lastValue key ((Inclusion.inReadings readings).map Inclusion.pair)).or
        (previous.namespaces.get? key) := by
  show ((said (Urlconf.read blockOnly) readings).foldl
    (fun t file => t.merge file.2.namespaces) previous.namespaces).get? key = _
  generalize previous.namespaces = table
  induction readings generalizing table with
  | nil => rfl
  | cons reading readings ih =>
    obtain ⟨path, result⟩ := reading
    cases result with
    | error f => exact ih table
    | ok text =>
      have hmerge : (table.merge (Urlconf.namespacesIn text.toList)).get? key =
          (Table.lastValue key ((Inclusion.inText text).map Inclusion.pair)).or (table.get? key) := by
        rw [Inclusion.namespacesIn_eq, Table.get?_merge, Table.get?_ofList]
      show ((said (Urlconf.read blockOnly) readings).foldl
        (fun t file => t.merge file.2.namespaces)
        (table.merge (Urlconf.namespacesIn text.toList))).get? key = _
      rw [ih, hmerge, ← Option.or_assoc, ← Table.lastValue_append, ← List.map_append]
      rfl

end Scan

/-! ## The history of an index -/

namespace Machine

variable {σ ω : Type}

/-- What the scan of a deed reads, if the deed is a scan that is completed. -/
def completed (w : World σ ω) (m : Machine σ ω) : Deed σ ω → Option (List Scan.Reading)
  | .rescan paths =>
    match (m.publish w paths).2 with
    | .ok _ => some (Scan.readings (w.read m.world) paths)
    | .error _ => none
  | _ => none

/-- The deed that the next step does, if it does one. -/
def nextDeed? (m : Machine σ ω) : Option (Deed σ ω) :=
  match m.stack with
  | ⟨_, .call _ _ (deed :: _)⟩ :: _ => some deed
  | _ => none

/-- The snapshot after a scan that may have been completed. -/
def snapshotAfter (w : World σ ω) (m : Machine σ ω) : Option (List Scan.Reading) → Snapshot
  | some readings => Scan.nextSnapshot m.index.snapshot (Scan.said w.extract readings)
  | none => m.index.snapshot

theorem snapshot_publish (w : World σ ω) (m : Machine σ ω) (paths : List String) :
    (m.publish w paths).1.index.snapshot = m.snapshotAfter w (m.completed w (.rescan paths)) := by
  cases hrun : (Scan.run w.extract m.index.snapshot paths (w.read m.world)).1 with
  | error f =>
    obtain ⟨herror, hquiet⟩ := publish_of_error hrun
    rw [completed, herror]
    exact hquiet.snapshot
  | ok scan =>
    obtain ⟨hok, hpublished⟩ := publish_of_ok hrun
    rw [completed, hok, hpublished.snapshot]
    rw [Scan.run_eq] at hrun
    split at hrun
    · exact absurd hrun (by simp)
    · cases hrun
      rfl

/-- What is completed does not depend on the rescans in progress. -/
theorem completed_goOn (w : World σ ω) (m : Machine σ ω) (frame : Frame σ ω)
    (below : List (Frame σ ω)) (phase : Phase σ ω) (deed : Deed σ ω) :
    (m.goOn frame below phase).completed w deed = m.completed w deed := by
  cases deed with
  | rescan paths =>
    rw [completed, publish_goOn]
    rfl
  | subscribe observer handle => rfl
  | cancel handle => rfl
  | raise f => rfl
  | change f => rfl

variable [DecidableEq ω]

theorem snapshot_perform (w : World σ ω) (m : Machine σ ω) (deed : Deed σ ω) :
    (m.perform w deed).1.index.snapshot = m.snapshotAfter w (m.completed w deed) := by
  cases deed with
  | rescan paths => exact snapshot_publish w m paths
  | subscribe observer handle => rfl
  | cancel handle =>
    rw [perform, Index.cancel]
    cases m.index.handles.get? handle <;> rfl
  | raise f => rfl
  | change f =>
    rw [perform]
    cases f m.index.snapshot m.world <;> rfl

theorem snapshot_nextDeed (w : World σ ω) (m : Machine σ ω) (frame : Frame σ ω)
    (below : List (Frame σ ω)) (waiting : List ω) (observer : ω) (deed : Deed σ ω)
    (deeds : List (Deed σ ω)) :
    (m.nextDeed w frame below waiting observer (deed :: deeds)).index.snapshot =
      m.snapshotAfter w (m.completed w deed) := by
  have hperform := snapshot_perform w (m.goOn frame below (.call waiting observer deeds)) deed
  rw [completed_goOn] at hperform
  cases hresult : ((m.goOn frame below (.call waiting observer deeds)).perform w deed).2 with
  | ok u =>
    rw [nextDeed_of_ok hresult]
    exact hperform
  | error f =>
    -- a deed that fails has published nothing, and leaving the call or the round publishes nothing
    rw [nextDeed_of_error hresult]
    split <;> exact hperform

theorem snapshot_step (w : World σ ω) (m : Machine σ ω) :
    (m.step w).index.snapshot = m.snapshotAfter w (m.nextDeed?.bind (m.completed w)) := by
  cases hs : m.stack with
  | nil =>
    rw [step_of_nil hs, nextDeed?, hs]
    rfl
  | cons frame below =>
    obtain ⟨token, phase⟩ := frame
    rw [step_of_stack hs, nextDeed?, hs]
    cases phase with
    | published =>
      dsimp only [dispatch]
      split <;> rfl
    | between =>
      dsimp only [nextRound]
      split <;> rfl
    | round waiting => cases waiting <;> rfl
    | call waiting observer deeds =>
      cases deeds with
      | nil => rfl
      | cons deed deeds => exact snapshot_nextDeed w m _ below waiting observer deed deeds
    | returning => rfl

/-- The states of an index with their history. Every world reads routing modules in the same way; what
the files say and what observers do need not be the same from one step to the next. -/
inductive Chronicle (blockOnly : Bool) : List (List Scan.Reading) → Machine σ ω → Prop
  | new (world : σ) (current : Request.Current) :
      Chronicle blockOnly [] { index := {}, world, current }
  | perform {scans : List (List Scan.Reading)} {m : Machine σ ω} (w : World σ ω) (deed : Deed σ ω)
      (h : Chronicle blockOnly scans m) (hw : w.extract = Urlconf.read blockOnly)
      (hs : m.stack = []) :
      Chronicle blockOnly (scans ++ (m.completed w deed).toList) (m.perform w deed).1
  | step {scans : List (List Scan.Reading)} {m : Machine σ ω} (w : World σ ω)
      (h : Chronicle blockOnly scans m) (hw : w.extract = Urlconf.read blockOnly) :
      Chronicle blockOnly (scans ++ (m.nextDeed?.bind (m.completed w)).toList) (m.step w)

namespace Chronicle

variable {blockOnly : Bool} {scans : List (List Scan.Reading)} {m : Machine σ ω}

/-- The includes of all files that were read, scan after scan. -/
def inclusions (scans : List (List Scan.Reading)) : List Inclusion :=
  scans.flatMap Inclusion.inReadings

/-- A key has the namespace that the last include of the history binds to it. -/
theorem get?_namespaces (h : Chronicle blockOnly scans m) (key : String) :
    m.index.snapshot.namespaces.get? key =
      Table.lastValue key ((inclusions scans).map Inclusion.pair) := by
  -- a step that completes a scan adds its includes at the end, and every other step adds nothing
  have hnext : ∀ (w : World σ ω) (m : Machine σ ω) (scans) (readings? : Option (List Scan.Reading)),
      w.extract = Urlconf.read blockOnly →
      m.index.snapshot.namespaces.get? key =
        Table.lastValue key ((inclusions scans).map Inclusion.pair) →
      (m.snapshotAfter w readings?).namespaces.get? key =
        Table.lastValue key ((inclusions (scans ++ readings?.toList)).map Inclusion.pair) := by
    intro w m scans readings? hw hm
    cases readings? with
    | none =>
      rw [Option.toList_none, List.append_nil]
      exact hm
    | some readings =>
      have hinclusions : inclusions (scans ++ [readings]) =
          inclusions scans ++ Inclusion.inReadings readings := by
        simp [inclusions]
      rw [snapshotAfter, hw, Scan.get?_nextSnapshot, hm, Option.toList_some, hinclusions,
        List.map_append, Table.lastValue_append]
  induction h with
  | new world current => rfl
  | perform w deed h hw hs ih =>
    rw [snapshot_perform]
    exact hnext w _ _ _ hw ih
  | step w h hw ih =>
    rw [snapshot_step]
    exact hnext w _ _ _ hw ih

theorem get?_of_concerns (h : Chronicle blockOnly scans m) {path : String}
    {before after : List Inclusion} {i : Inclusion} (hsplit : inclusions scans = before ++ i :: after)
    (hi : i.Concerns path) (hafter : ∀ j ∈ after, ¬ j.Concerns path) :
    m.index.snapshot.namespaces.get? (FileKey.subpath path) = some i.space := by
  rw [h.get?_namespaces, Inclusion.lastValue_pair_eq_some_iff]
  exact ⟨before, i, after, hsplit, hi, rfl, hafter⟩

theorem get?_eq_none_iff (h : Chronicle blockOnly scans m) {key : String} :
    m.index.snapshot.namespaces.get? key = none ↔
      ∀ i ∈ inclusions scans, i.binding.key ≠ key := by
  rw [h.get?_namespaces, Table.lastValue_eq_none_iff, List.forall_mem_map]
  rfl

/-- What a later history keeps of the table: every key, and the namespace of every key that is in no
include of the later scans. -/
theorem kept (h : Chronicle blockOnly scans m) {more : List (List Scan.Reading)} {m' : Machine σ ω}
    (h' : Chronicle blockOnly (scans ++ more) m') (key : String) :
    (m.index.snapshot.namespaces.contains key = true →
      m'.index.snapshot.namespaces.contains key = true) ∧
    ((∀ i ∈ inclusions more, i.binding.key ≠ key) →
      m'.index.snapshot.namespaces.get? key = m.index.snapshot.namespaces.get? key) := by
  have hnow := h.get?_namespaces key
  have hlater : m'.index.snapshot.namespaces.get? key =
      (Table.lastValue key ((inclusions more).map Inclusion.pair)).or
        (m.index.snapshot.namespaces.get? key) := by
    rw [h'.get?_namespaces, hnow, ← Table.lastValue_append, ← List.map_append]
    simp [inclusions]
  rw [Table.contains, Table.contains, hlater]
  constructor
  · intro hbound
    rw [Option.isSome_or, hbound, Bool.or_true]
  · intro hfresh
    have hnone : Table.lastValue key ((inclusions more).map Inclusion.pair) = none := by
      rw [Table.lastValue_eq_none_iff, List.forall_mem_map]
      exact hfresh
    rw [hnone, Option.none_or]

/-- A snippet refers to a route by its name, after the namespace of the last include in the whole
history that names the module of its file. Only a later include of the same key changes this. -/
theorem resolves (h : Chronicle blockOnly scans m) (t : Template) (path : String) (route : Route) :
    let reference :=
      Snippet.reference (FileKey.subpath path) route.name m.index.snapshot.namespaces
    m.index.snapshot.snippet t path route = t.fill route.name reference ∧
      (∀ before i after, inclusions scans = before ++ i :: after → i.Concerns path →
        (∀ j ∈ after, ¬ j.Concerns path) → reference = i.space ++ ":" ++ route.name) ∧
      (reference = route.name ↔ ∀ i ∈ inclusions scans, ¬ i.Concerns path) ∧
      ∀ more (m' : Machine σ ω), Chronicle blockOnly (scans ++ more) m' → ∀ key,
        (m.index.snapshot.namespaces.contains key = true →
          m'.index.snapshot.namespaces.contains key = true) ∧
        ((∀ i ∈ inclusions more, i.binding.key ≠ key) →
          m'.index.snapshot.namespaces.get? key = m.index.snapshot.namespaces.get? key) := by
  intro reference
  refine ⟨rfl, fun before i after hsplit hi hafter => ?_, ?_, fun more m' h' key => h.kept h' key⟩
  · show Snippet.reference _ _ _ = _
    rw [Snippet.reference, h.get?_of_concerns hsplit hi hafter]
  · have hnone : m.index.snapshot.namespaces.get? (FileKey.subpath path) = none ↔
        ∀ i ∈ inclusions scans, ¬ i.Concerns path := h.get?_eq_none_iff
    refine Iff.trans ?_ hnone
    show Snippet.reference _ _ _ = _ ↔ _
    rw [Snippet.reference]
    cases hget : m.index.snapshot.namespaces.get? (FileKey.subpath path) with
    | none => simp
    | some space => simp

/-! ## A small history -/

/-- A world with two files. The observer takes them away and asks for another scan. -/
def vanishing : World Bool Unit where
  extract := Urlconf.read true
  read gone path :=
    if gone then .error (.file .noEntry path)
    else if path = "site/urls.py" then .ok "include(('blog.urls', 'blog'), namespace='old')"
    else .ok "include(('blog.urls', 'blog'), namespace='new')"
  respond _ _ _ := [.change fun _ _ => .ok true, .rescan ["site/urls.py"]]
  describe _ := "observer"
  requestId n := toString n

/-- The index after both scans, the second of which has found nothing. -/
def vanished : Machine Bool Unit :=
  settle vanishing 5 (((({ index := {}, world := false } : Machine Bool Unit).perform vanishing
    (.subscribe () "o")).1.perform vanishing (.rescan ["site/urls.py", "app/urls.py"])).1)

/-- The readings of both scans. -/
def vanishedScans : List (List Scan.Reading) :=
  [Scan.readings (vanishing.read false) ["site/urls.py", "app/urls.py"],
    Scan.readings (vanishing.read true) ["site/urls.py"]]

theorem chronicle_vanished : Chronicle true vanishedScans vanished :=
  ((((((((Chronicle.new false none).perform vanishing (.subscribe () "o") rfl rfl).perform vanishing
    (.rescan ["site/urls.py", "app/urls.py"]) rfl rfl).step vanishing rfl).step vanishing rfl).step
    vanishing rfl).step vanishing rfl).step vanishing rfl)

/-- Two files bind the same module, and the later one wins, although both files are gone. -/
theorem resolves_vanished :
    Snippet.reference (FileKey.subpath "/srv/blog/urls.py") "detail"
        vanished.index.snapshot.namespaces = "new:detail" ∧
      Snippet.reference (FileKey.subpath "/srv/news/urls.py") "detail"
        vanished.index.snapshot.namespaces = "detail" := by
  have hinclusions : inclusions vanishedScans = [⟨"blog.urls", "old"⟩, ⟨"blog.urls", "new"⟩] := by
    decide +kernel
  constructor
  · have h := chronicle_vanished.resolves default "/srv/blog/urls.py" ⟨"x/", "detail"⟩
    exact h.2.1 [⟨"blog.urls", "old"⟩] ⟨"blog.urls", "new"⟩ [] hinclusions (by decide) (by simp)
  · have h := chronicle_vanished.resolves default "/srv/news/urls.py" ⟨"x/", "detail"⟩
    refine h.2.2.1.mpr ?_
    rw [hinclusions]
    decide

end Chronicle

end Machine

end RouteAtlas
