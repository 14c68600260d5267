import RouteAtlas.Proofs.Notification

/-!
# Rescans in a world that asks for no stop

When neither the files nor the observers ask to stop, every rescan publishes and gives its result,
whatever its observers do meanwhile. The result is described by the files alone
(`Machine.Reachable.publish_finds`).
-/

namespace RouteAtlas

variable {σ ω : Type}

/-! ## Worlds that ask for no stop -/

/-- The deed does not ask to stop, whenever it is done. -/
def Deed.Gentle : Deed σ ω → Prop
  | .raise f => f.isFatal = false
  | .change g => ∀ snapshot s f, g snapshot s = .error f → f.isFatal = false
  | .rescan _ => True
  | .subscribe _ _ => True
  | .cancel _ => True

/-- Neither the files nor the observers ask to stop, however the world changes. -/
structure World.Gentle (w : World σ ω) : Prop where
  read : ∀ s path f, w.read s path = .error f → f.isFatal = false
  respond : ∀ s observer snapshot, ∀ deed ∈ w.respond s observer snapshot, deed.Gentle

/-- What an observer has still to do does not ask to stop. -/
def Phase.Gentle : Phase σ ω → Prop
  | .call _ _ deeds => ∀ deed ∈ deeds, deed.Gentle
  | .published => True
  | .between => True
  | .round _ => True
  | .returning => True

namespace Machine

variable {w : World σ ω} {m m' : Machine σ ω}

theorem publish_gentle (hw : w.Gentle) (m : Machine σ ω) (paths : List String) :
    let scan := Scan.found w.extract m.index.snapshot (w.read m.world) paths
    (m.publish w paths).2 = .ok scan ∧ Published m (m.publish w paths).1 scan ∧
      Scan.Finds w.extract (w.read m.world) paths scan := by
  intro scan
  have hread : Scan.Unstopped (w.read m.world) paths := fun path _ f => hw.read m.world path f
  obtain ⟨hrun, hfinds⟩ := Scan.run_finds hread m.index.snapshot
  obtain ⟨hok, hpublished⟩ := publish_of_ok hrun
  exact ⟨hok, hpublished, hfinds⟩

/-- No request to stop has ended the last rescan, and none is to come from the calls in progress. -/
structure Calm (m : Machine σ ω) : Prop where
  escaped : m.escaped = none
  stack : ∀ frame ∈ m.stack, frame.phase.Gentle

namespace Calm

theorem of_quiet (h : Calm m) (hq : Quiet m m') : Calm m' where
  escaped := hq.escaped.trans h.escaped
  stack := by
    rw [hq.stack]
    exact h.stack

theorem of_published {scan : Scan} (h : ∀ frame ∈ m.stack, frame.phase.Gentle)
    (hp : Published m m' scan) : Calm m' where
  escaped := hp.escaped
  stack := by
    obtain ⟨token, hstack⟩ := hp.stack
    rw [hstack]
    exact List.forall_mem_cons.mpr ⟨trivial, h⟩

/-- A rescan above others may go on to any phase that asks for no stop. -/
theorem goOn {frame : Frame σ ω} {below : List (Frame σ ω)} {phase : Phase σ ω}
    (he : m.escaped = none) (hbelow : ∀ frame ∈ below, frame.phase.Gentle) (hphase : phase.Gentle) :
    Calm (m.goOn frame below phase) :=
  ⟨he, List.forall_mem_cons.mpr ⟨hphase, hbelow⟩⟩

variable [DecidableEq ω]

/-- A deed that asks for no stop fails at most in an ordinary way. -/
theorem not_fatal_of_perform (hw : w.Gentle) {deed : Deed σ ω} (hd : deed.Gentle) {f : Fault}
    (h : (m.perform w deed).2 = .error f) : f.isFatal = false := by
  cases deed with
  | rescan paths =>
    have hok : (m.perform w (.rescan paths)).2 = .ok () := by
      rw [perform_rescan, (publish_gentle hw m paths).1]
      rfl
    rw [hok] at h
    exact absurd h (by simp)
  | subscribe observer handle => exact absurd h (by simp [perform])
  | cancel handle =>
    simp only [perform, Index.cancel] at h
    cases hget : m.index.handles.get? handle with
    | some observer =>
      rw [hget] at h
      exact absurd h (by simp)
    | none =>
      rw [hget] at h
      cases h
      rfl
  | raise fault =>
    cases h
    exact hd
  | change g =>
    simp only [perform] at h
    cases hg : g m.index.snapshot m.world with
    | ok world =>
      rw [hg] at h
      exact absurd h (by simp)
    | error fault =>
      rw [hg] at h
      cases h
      exact hd _ _ _ hg

/-- A deed of an observer keeps calm: what it does may fail, but not ask to stop. -/
theorem nextDeed (hw : w.Gentle) {token : Request.Token} {below : List (Frame σ ω)}
    {waiting : List ω} {observer : ω} {deed : Deed σ ω} {deeds : List (Deed σ ω)}
    (he : m.escaped = none) (hbelow : ∀ frame ∈ below, frame.phase.Gentle) (hdeed : deed.Gentle)
    (hdeeds : ∀ deed ∈ deeds, deed.Gentle) :
    Calm (m.nextDeed w ⟨token, .call waiting observer (deed :: deeds)⟩ below waiting observer
      (deed :: deeds)) := by
  let frame : Frame σ ω := ⟨token, .call waiting observer (deed :: deeds)⟩
  have hcall : Calm (m.goOn frame below (.call waiting observer deeds)) := goOn he hbelow hdeeds
  have hround : Calm (m.goOn frame below (.round waiting)) := goOn he hbelow trivial
  rcases nextDeed_cases w m frame below waiting observer deed deeds with
    hq | ⟨scan, hp⟩ | hq | ⟨f, hf, hperform, -⟩
  · exact hcall.of_quiet hq
  · exact of_published hcall.stack hp
  · exact hround.of_quiet hq
  · exact absurd hf (by simp [not_fatal_of_perform hw hdeed hperform])

/-- Every step keeps calm. -/
theorem step (hw : w.Gentle) (h : Calm m) : Calm (m.step w) := by
  have he := h.escaped
  cases hs : m.stack with
  | nil =>
    rw [step_of_nil hs]
    exact h
  | cons frame below =>
    have hstack := h.stack
    rw [hs] at hstack
    obtain ⟨hframe, hbelow⟩ := List.forall_mem_cons.mp hstack
    obtain ⟨token, phase⟩ := frame
    rw [step_of_stack hs]
    cases phase with
    | published =>
      dsimp only [dispatch]
      split <;> exact goOn he hbelow trivial
    | between =>
      dsimp only [nextRound]
      split <;> exact goOn he hbelow trivial
    | round waiting =>
      cases waiting with
      | nil => exact goOn he hbelow trivial
      | cons observer waiting =>
        exact goOn he hbelow (hw.respond m.world observer m.index.snapshot)
    | call waiting observer deeds =>
      cases deeds with
      | nil => exact goOn he hbelow trivial
      | cons deed deeds =>
        obtain ⟨hdeed, hdeeds⟩ := List.forall_mem_cons.mp hframe
        exact nextDeed hw he hbelow hdeed hdeeds
    | returning => exact ⟨he, hbelow⟩

end Calm

variable [DecidableEq ω]

/-- A rescan from outside stays calm. -/
theorem calm_settle_publish (hw : w.Gentle) (hs : m.stack = []) (paths : List String) (fuel : Nat) :
    Calm (settle w fuel (m.publish w paths).1) := by
  have hnone : ∀ frame ∈ m.stack, frame.phase.Gentle := by
    rw [hs]
    exact List.forall_mem_nil _
  exact settle_induction (fun _ h => h.step hw)
    (Calm.of_published hnone (publish_gentle hw m paths).2.1) fuel

/-- A rescan from outside gives the scan that it publishes, whatever its observers do and however
many steps are taken. -/
theorem rescan_gentle (hw : w.Gentle) (hs : m.stack = []) (paths : List String) (fuel : Nat) :
    (m.rescan w fuel paths).2 =
      .ok (Scan.found w.extract m.index.snapshot (w.read m.world) paths) := by
  rw [rescan_of_ok (publish_gentle hw m paths).1, (calm_settle_publish hw hs paths fuel).escaped]

/-- In a world that asks for no stop every rescan, from outside or by an observer, publishes what is
described by its files, under the next generation. From outside it also gives this, however its
observers behave. What it gives apart from the generation and the namespaces depends on nothing that
was published before. -/
theorem Reachable.publish_finds (h : m.Reachable) (hw : w.Gentle) (paths : List String) :
    ∃ scan, (m.publish w paths).2 = .ok scan ∧
      (m.publish w paths).1.index.snapshot = scan.snapshot ∧
      (m.stack = [] → ∀ fuel, (m.rescan w fuel paths).2 = .ok scan) ∧
      scan.snapshot.generation = m.index.snapshot.generation + 1 ∧
      m.index.snapshot.generation = Trace.publications m.trace ∧
      (Trace.generations m.trace).reverse =
        (List.range (Trace.publications m.trace)).map (fun n : Nat => (n : Int) + 1) ∧
      Scan.Finds w.extract (w.read m.world) paths scan ∧
      ∀ (m' : Machine σ ω) (w' : World σ ω), w'.Gentle → w'.extract = w.extract →
        (∀ path ∈ paths, w'.read m'.world path = w.read m.world path) →
        ∃ scan', (m'.publish w' paths).2 = .ok scan' ∧
          (m'.stack = [] → ∀ fuel, (m'.rescan w' fuel paths).2 = .ok scan') ∧
          scan'.snapshot.records = scan.snapshot.records ∧ scan'.failures = scan.failures ∧
          scan'.scanned = scan.scanned := by
  obtain ⟨hok, hpublished, hfinds⟩ := publish_gentle hw m paths
  obtain ⟨waiting?, hnotified⟩ := h.notified
  refine ⟨_, hok, hpublished.snapshot, fun hs fuel => rescan_gentle hw hs paths fuel,
    hpublished.generation, hnotified.numbered, hnotified.orderly.reverse_generations, hfinds, ?_⟩
  intro m' w' hw' hextract hread
  obtain ⟨hok', -, -⟩ := publish_gentle hw' m' paths
  have hreadings : Scan.readings (w'.read m'.world) paths = Scan.readings (w.read m.world) paths := by
    refine List.map_congr_left fun path hpath => ?_
    rw [hread path (List.mem_eraseDups.mp hpath)]
  refine ⟨_, hok', fun hs fuel => rescan_gentle hw' hs paths fuel, ?_, ?_, ?_⟩
  all_goals simp only [Scan.found, Scan.nextSnapshot, hreadings, hextract]

end Machine

/-! ## A small world -/

/-- A world with a single file. The first observer that is called asks for another scan and then
fails. -/
def smallWorld : World Nat Bool where
  extract := Urlconf.read false
  read _ path :=
    if path = "urls.py" then .ok "path('home/', home, name='home')"
    else .error (.file .noEntry path)
  respond asked _ _ :=
    match asked with
    | 0 => [.change fun _ n => .ok (n + 1), .rescan [], .raise (.missingKey [])]
    | _ + 1 => []
  describe observer := toString observer
  requestId n := toString n

theorem smallWorld_gentle : smallWorld.Gentle where
  read s path f h := by
    dsimp only [smallWorld] at h
    split at h
    · exact absurd h (by simp)
    · cases h
      rfl
  respond asked observer snapshot deed hdeed := by
    cases asked with
    | zero =>
      rcases List.mem_cons.mp hdeed with rfl | hdeed
      · exact fun _ _ f h => absurd h (by simp)
      · rcases List.mem_cons.mp hdeed with rfl | hdeed
        · trivial
        · rw [List.mem_singleton.mp hdeed]
          rfl
    | succ asked => exact absurd hdeed (List.not_mem_nil)

namespace Machine

/-- An index in the small world with two observers. -/
def small : Machine Nat Bool :=
  ((({ index := {}, world := 0 } : Machine Nat Bool).perform smallWorld (.subscribe true "a")).1.perform
    smallWorld (.subscribe false "b")).1

theorem reachable_small : small.Reachable :=
  ((Reachable.new 0 none).perform smallWorld _ rfl).perform smallWorld _ rfl

/-- After a rescan during which an observer asked for another one, a file that is there, one that is
not and one that comes twice count as two. -/
theorem publish_finds_small :
    ∃ scan, (∀ fuel, ((small.rescan smallWorld 30 []).1.rescan smallWorld fuel
        ["urls.py", "a.py", "urls.py"]).2 = .ok scan) ∧
      scan.snapshot.generation = (small.rescan smallWorld 30 []).1.index.snapshot.generation + 1 ∧
      scan.scanned = 2 := by
  have hreachable := reachable_small.rescan rfl smallWorld 30 []
  have hrest : (small.rescan smallWorld 30 []).1.stack = [] := rfl
  obtain ⟨scan, -, -, hok, hgeneration, -, -, hfinds, -⟩ :=
    hreachable.publish_finds smallWorld_gentle ["urls.py", "a.py", "urls.py"]
  refine ⟨scan, hok hrest, hgeneration, ?_⟩
  rw [hfinds.scanned]
  decide

end Machine

end RouteAtlas
