import RouteAtlas.Proofs.Rescan

/-!
# Scans that are asked to stop

A scan of which a file asks to stop takes a request identifier and writes to the log, and that is all
(`Machine.publish_of_stop`). The index reads neither, so that whatever is asked of it afterwards goes as it
would have gone without that scan (`Machine.Alike.play`). An observer that asks for such a scan is as one
that asks to stop itself (`Machine.nextDeed_rescan_of_stop`).
-/

namespace RouteAtlas

namespace Scan

variable {read : String → Except Fault String} {paths : List String} {path : String} {f : Fault}

/-- `path` is the first of the files that asks to stop, and `f` is how it asks. -/
def FirstStop (read : String → Except Fault String) (paths : List String) (path : String) (f : Fault) :
    Prop :=
  ∃ before after, paths = before ++ path :: after ∧ Unstopped read before ∧ read path = .error f ∧
    f.isFatal = true

theorem exists_firstStop (h : ∃ path ∈ paths, ∃ f, read path = .error f ∧ f.isFatal = true) :
    ∃ path f, FirstStop read paths path f := by
  induction paths with
  | nil => exact absurd h (by simp)
  | cons p paths ih =>
    by_cases hp : ∃ f, read p = .error f ∧ f.isFatal = true
    · obtain ⟨f, hread, hf⟩ := hp
      exact ⟨p, f, [], paths, rfl, fun _ hmem => absurd hmem List.not_mem_nil, hread, hf⟩
    · obtain ⟨path, hpath, hstop⟩ := h
      have hrest : path ∈ paths := by
        rcases List.mem_cons.mp hpath with rfl | hrest
        · exact absurd hstop hp
        · exact hrest
      obtain ⟨path, f, before, after, rfl, hbefore, hread, hf⟩ := ih ⟨path, hrest, hstop⟩
      refine ⟨path, f, p :: before, after, rfl, List.forall_mem_cons.mpr ⟨fun f hread => ?_, hbefore⟩,
        hread, hf⟩
      exact Bool.eq_false_iff.mpr fun hf => hp ⟨f, hread, hf⟩

theorem stop?_append {front back : List Reading} (h : stop? front = none) :
    stop? (front ++ back) = stop? back := by
  induction front with
  | nil => rfl
  | cons p front ih =>
    obtain ⟨path, result⟩ := p
    rw [List.cons_append]
    cases result with
    | ok text => exact ih h
    | error f =>
      rw [stop?] at h ⊢
      split at h
      · exact absurd h (by simp)
      · rename_i hf
        rw [if_neg hf]
        exact ih h

/-- A file that comes twice is read where it comes first, so that the first file to ask to stop is the
first of those that are read. -/
theorem stop?_of_firstStop (h : FirstStop read paths path f) :
    stop? (readings read paths) = some f := by
  obtain ⟨before, after, rfl, hbefore, hread, hf⟩ := h
  have hnew : path ∉ before := fun hmem => absurd hf (by simp [hbefore path hmem f hread])
  have hcut : ∃ rest, readings read (before ++ path :: after) =
      readings read before ++ (path, .error f) :: rest := by
    have hremove : (path :: after).removeAll before = path :: after.removeAll before := by
      simp [List.removeAll, hnew]
    rw [readings, List.eraseDups_append, hremove, List.eraseDups_cons, List.map_append, List.map_cons,
      hread]
    exact ⟨_, rfl⟩
  obtain ⟨rest, hcut⟩ := hcut
  rw [hcut, stop?_append (stop?_readings hbefore), stop?, if_pos hf]

end Scan

/-- The world in which some request identifiers have been used already. -/
def World.delayed {σ ω : Type} (more : Nat) (w : World σ ω) : World σ ω :=
  { w with requestId := fun n => w.requestId (more + n) }

namespace Machine

variable {σ ω : Type} {w : World σ ω} {m m' : Machine σ ω} {paths : List String} {f : Fault}

/-! ## The scan itself -/

/-- What a scan writes to the log, newest line first. -/
def linesOf (w : World σ ω) (m : Machine σ ω) (paths : List String) : List Log.Line :=
  (((Scan.readings (w.read m.world) paths).filterMap Scan.message?).map
    (Log.line (some ⟨w.requestId m.requests, some "rescan"⟩))).reverse

/-- The machine after a scan of which nothing is published. -/
def scanned (w : World σ ω) (m : Machine σ ω) (paths : List String) : Machine σ ω :=
  { m with requests := m.requests + 1, log := linesOf w m paths ++ m.log }

theorem log_foldl_say (messages : List Log.Message) (m : Machine σ ω) :
    (messages.foldl say m).log = (messages.map (Log.line m.current)).reverse ++ m.log := by
  induction messages generalizing m with
  | nil => rfl
  | cons message messages ih =>
    rw [List.foldl_cons, ih]
    simp [say]

/-- The machine after a scan whose snapshot is published. -/
def publishing (w : World σ ω) (m : Machine σ ω) (paths : List String) (scan : Scan) : Machine σ ω :=
  { scanned w m paths with
    index := { m.index with snapshot := scan.snapshot, pending := m.index.pending + 1 }
    stack := ⟨⟨m.current⟩, .published⟩ :: m.stack
    current := some ⟨w.requestId m.requests, some "rescan"⟩
    trace := .published scan.snapshot.generation :: m.trace
    escaped := none }

/-- A scan publishes what it finds unless a file asks to stop, and does nothing else. -/
theorem publish_eq (w : World σ ω) (m : Machine σ ω) (paths : List String) :
    m.publish w paths = match Scan.stop? (Scan.readings (w.read m.world) paths) with
      | some f => (scanned w m paths, .error f)
      | none =>
        (publishing w m paths (Scan.found w.extract m.index.snapshot (w.read m.world) paths),
          .ok (Scan.found w.extract m.index.snapshot (w.read m.world) paths)) := by
  have hrun : Scan.run w.extract m.index.snapshot paths (w.read m.world) =
      (match Scan.stop? (Scan.readings (w.read m.world) paths) with
        | some f => .error f
        | none => .ok (Scan.found w.extract m.index.snapshot (w.read m.world) paths),
      (Scan.readings (w.read m.world) paths).filterMap Scan.message?) := by
    refine Prod.ext (Scan.run_eq ..) ?_
    simp only [Scan.run, Scan.readings]
    split <;> rfl
  simp only [publish, hrun]
  rw [foldl_say, log_foldl_say]
  cases Scan.stop? (Scan.readings (w.read m.world) paths) <;> rfl

theorem publish_of_stop (h : Scan.stop? (Scan.readings (w.read m.world) paths) = some f) :
    m.publish w paths = (scanned w m paths, .error f) := by
  rw [publish_eq, h]

/-! ## Machines that differ in what nothing reads -/

/-- `m'` is `m` with more request identifiers used, and with `log'` in the place of `log` below the lines
that both have written since. -/
def Alike (more : Nat) (log log' : List Log.Line) (m m' : Machine σ ω) : Prop :=
  ∃ lines, m.log = lines ++ log ∧
    m' = { m with requests := more + m.requests, log := lines ++ log' }

/-- A scan of which nothing is published leaves the index as it would be without it. -/
theorem alike_scanned (w : World σ ω) (m : Machine σ ω) (paths : List String) :
    Alike 1 m.log (linesOf w m paths ++ m.log) m (m.scanned w paths) :=
  ⟨[], rfl, by rw [scanned, Nat.add_comm]; rfl⟩

namespace Alike

variable {more : Nat} {log log' : List Log.Line}

theorem goOn (h : Alike more log log' m m') (frame : Frame σ ω) (below : List (Frame σ ω))
    (phase : Phase σ ω) : Alike more log log' (m.goOn frame below phase) (m'.goOn frame below phase) := by
  obtain ⟨lines, hlog, rfl⟩ := h
  exact ⟨lines, hlog, rfl⟩

theorem say (h : Alike more log log' m m') (message : Log.Message) :
    Alike more log log' (m.say message) (m'.say message) := by
  obtain ⟨lines, hlog, rfl⟩ := h
  exact ⟨Log.line m.current message :: lines, congrArg (Log.line m.current message :: ·) hlog, rfl⟩

theorem unwind (h : Alike more log log' m m') (f : Fault) :
    Alike more log log' (m.unwind f) (m'.unwind f) := by
  obtain ⟨lines, hlog, rfl⟩ := h
  exact ⟨lines, hlog, rfl⟩

theorem scanned (h : Alike more log log' m m') (w : World σ ω) (paths : List String) :
    Alike more log log' (m.scanned (w.delayed more) paths) (m'.scanned w paths) := by
  obtain ⟨lines, hlog, rfl⟩ := h
  have hlines : ∀ l, linesOf (w.delayed more) m paths ++ (lines ++ l) =
      linesOf (w.delayed more) m paths ++ lines ++ l := fun l => (List.append_assoc ..).symm
  refine ⟨linesOf (w.delayed more) m paths ++ lines, ?_, ?_⟩
  · rw [← hlines, ← hlog]
    rfl
  · rw [← hlines]
    rfl

/-- A scan finds the same and says the same, under the same identifier. -/
theorem publish (h : Alike more log log' m m') (w : World σ ω) (paths : List String) :
    Alike more log log' (m.publish (w.delayed more) paths).1 (m'.publish w paths).1 ∧
      (m'.publish w paths).2 = (m.publish (w.delayed more) paths).2 := by
  obtain ⟨lines, hlog, hscanned⟩ := h.scanned w paths
  obtain ⟨before, -, rfl⟩ := h
  have hread : (w.delayed more).read = w.read := rfl
  rw [publish_eq, publish_eq, hread]
  dsimp only
  cases Scan.stop? (Scan.readings (w.read m.world) paths) with
  | some f => exact ⟨⟨lines, hlog, hscanned⟩, rfl⟩
  | none =>
    refine ⟨⟨lines, hlog, ?_⟩, rfl⟩
    dsimp only
    rw [publishing, hscanned]
    rfl

variable [DecidableEq ω]

/-- What is done comes out alike. -/
theorem perform (h : Alike more log log' m m') (w : World σ ω) (deed : Deed σ ω) :
    Alike more log log' (m.perform (w.delayed more) deed).1 (m'.perform w deed).1 ∧
      (m'.perform w deed).2 = (m.perform (w.delayed more) deed).2 := by
  cases deed with
  | rescan paths =>
    obtain ⟨halike, houtcome⟩ := h.publish w paths
    rw [perform_rescan, perform_rescan]
    exact ⟨halike, congrArg (Except.map fun _ => ()) houtcome⟩
  | subscribe observer handle =>
    obtain ⟨lines, hlog, rfl⟩ := h
    exact ⟨⟨lines, hlog, rfl⟩, rfl⟩
  | cancel handle =>
    obtain ⟨lines, hlog, rfl⟩ := h
    simp only [Machine.perform]
    cases m.index.cancel handle <;> exact ⟨⟨lines, hlog, rfl⟩, rfl⟩
  | raise f => exact ⟨h, rfl⟩
  | change f =>
    obtain ⟨lines, hlog, rfl⟩ := h
    simp only [Machine.perform]
    cases f m.index.snapshot m.world <;> exact ⟨⟨lines, hlog, rfl⟩, rfl⟩

theorem nextDeed (h : Alike more log log' m m') (w : World σ ω) (frame : Frame σ ω)
    (below : List (Frame σ ω)) (waiting : List ω) (observer : ω) (deeds : List (Deed σ ω)) :
    Alike more log log' (m.nextDeed (w.delayed more) frame below waiting observer deeds)
      (m'.nextDeed w frame below waiting observer deeds) := by
  cases deeds with
  | nil => exact h.goOn frame below _
  | cons deed deeds =>
    obtain ⟨halike, houtcome⟩ := (h.goOn frame below (.call waiting observer deeds)).perform w deed
    cases hresult : ((m.goOn frame below (.call waiting observer deeds)).perform (w.delayed more)
      deed).2 with
    | ok u =>
      rw [hresult] at houtcome
      rw [nextDeed_of_ok hresult, nextDeed_of_ok houtcome]
      exact halike
    | error f =>
      rw [hresult] at houtcome
      rw [nextDeed_of_error hresult, nextDeed_of_error houtcome]
      split
      · exact halike.unwind f
      · exact (halike.say _).goOn frame below _

/-- A step leads to machines that are alike. -/
theorem step (h : Alike more log log' m m') (w : World σ ω) :
    Alike more log log' (m.step (w.delayed more)) (m'.step w) := by
  have hstack : m'.stack = m.stack := by
    obtain ⟨lines, hlog, rfl⟩ := h
    rfl
  cases hs : m.stack with
  | nil =>
    rw [step_of_nil hs, step_of_nil (hstack.trans hs)]
    exact h
  | cons frame below =>
    rw [step_of_stack hs, step_of_stack (hstack.trans hs)]
    cases frame.phase with
    | published =>
      obtain ⟨lines, hlog, rfl⟩ := h
      dsimp only [dispatch]
      split <;> exact ⟨lines, hlog, rfl⟩
    | between =>
      obtain ⟨lines, hlog, rfl⟩ := h
      dsimp only [nextRound]
      split <;> exact ⟨lines, hlog, rfl⟩
    | round waiting =>
      obtain ⟨lines, hlog, rfl⟩ := h
      cases waiting <;> exact ⟨lines, hlog, rfl⟩
    | call waiting observer deeds => exact h.nextDeed w frame below waiting observer deeds
    | returning =>
      obtain ⟨lines, hlog, rfl⟩ := h
      exact ⟨lines, hlog, rfl⟩

theorem settle (h : Alike more log log' m m') (w : World σ ω) (fuel : Nat) :
    Alike more log log' (Machine.settle (w.delayed more) fuel m) (Machine.settle w fuel m') := by
  induction fuel generalizing m m' with
  | zero => exact h
  | succ fuel ih =>
    rw [settle_succ, settle_succ]
    exact ih (h.step w)

/-- A rescan gives the same. -/
theorem rescan (h : Alike more log log' m m') (w : World σ ω) (fuel : Nat) (paths : List String) :
    Alike more log log' (m.rescan (w.delayed more) fuel paths).1 (m'.rescan w fuel paths).1 ∧
      (m'.rescan w fuel paths).2 = (m.rescan (w.delayed more) fuel paths).2 := by
  obtain ⟨halike, houtcome⟩ := h.publish w paths
  cases hresult : (m.publish (w.delayed more) paths).2 with
  | error f =>
    rw [hresult] at houtcome
    rw [rescan_of_error hresult, rescan_of_error houtcome]
    exact ⟨halike, rfl⟩
  | ok scan =>
    rw [hresult] at houtcome
    rw [rescan_of_ok hresult, rescan_of_ok houtcome]
    have hsettled := halike.settle w fuel
    have hescaped : (Machine.settle w fuel (m'.publish w paths).1).escaped =
        (Machine.settle (w.delayed more) fuel (m.publish (w.delayed more) paths).1).escaped := by
      obtain ⟨lines, hlog, heq⟩ := hsettled
      rw [heq]
    refine ⟨hsettled, ?_⟩
    dsimp only
    rw [hescaped]

end Alike

/-! ## What is asked of an index -/

variable [DecidableEq ω]

/-- Something that is asked of an index, each time in a world of its own. -/
inductive Move (σ ω : Type) where
  /-- Does one thing. -/
  | perform (w : World σ ω) (deed : Deed σ ω)
  /-- Takes one step of the topmost rescan in progress. -/
  | step (w : World σ ω)
  /-- Scans files from outside a round and notifies. -/
  | rescan (w : World σ ω) (fuel : Nat) (paths : List String)

/-- The same, where some request identifiers have been used already. -/
def Move.delayed (more : Nat) : Move σ ω → Move σ ω
  | .perform w deed => .perform (w.delayed more) deed
  | .step w => .step (w.delayed more)
  | .rescan w fuel paths => .rescan (w.delayed more) fuel paths

/-- Does what is asked. A scan is given only for a rescan from outside. -/
def move (m : Machine σ ω) : Move σ ω → Machine σ ω × Except Fault (Option Scan)
  | .perform w deed => ((m.perform w deed).1, (m.perform w deed).2.map fun _ => none)
  | .step w => (m.step w, .ok none)
  | .rescan w fuel paths => ((m.rescan w fuel paths).1, (m.rescan w fuel paths).2.map some)

/-- Does all that is asked, in order, and gives what came of it. -/
def play (m : Machine σ ω) : List (Move σ ω) → Machine σ ω × List (Except Fault (Option Scan))
  | [] => (m, [])
  | asked :: moves =>
    (((m.move asked).1.play moves).1, (m.move asked).2 :: ((m.move asked).1.play moves).2)

theorem Alike.move {more : Nat} {log log' : List Log.Line} (h : Alike more log log' m m')
    (asked : Move σ ω) :
    Alike more log log' (m.move (asked.delayed more)).1 (m'.move asked).1 ∧
      (m'.move asked).2 = (m.move (asked.delayed more)).2 := by
  cases asked with
  | perform w deed =>
    obtain ⟨halike, houtcome⟩ := h.perform w deed
    exact ⟨halike, congrArg (Except.map fun _ => none) houtcome⟩
  | step w => exact ⟨h.step w, rfl⟩
  | rescan w fuel paths =>
    obtain ⟨halike, houtcome⟩ := h.rescan w fuel paths
    exact ⟨halike, congrArg (Except.map some) houtcome⟩

/-- Machines that are alike go on alike, whatever is asked of them. -/
theorem Alike.play {more : Nat} {log log' : List Log.Line} (h : Alike more log log' m m')
    (moves : List (Move σ ω)) :
    Alike more log log' (m.play (moves.map (Move.delayed more))).1 (m'.play moves).1 ∧
      (m'.play moves).2 = (m.play (moves.map (Move.delayed more))).2 := by
  induction moves generalizing m m' with
  | nil => exact ⟨h, rfl⟩
  | cons asked moves ih =>
    obtain ⟨hmove, houtcome⟩ := h.move asked
    obtain ⟨hplay, houtcomes⟩ := ih hmove
    exact ⟨hplay, congrArg₂ List.cons houtcome houtcomes⟩

/-! ## Scans that are asked to stop -/

/-- An observer that asks for a scan which is asked to stop is as one that asks to stop itself. -/
theorem nextDeed_rescan_of_stop (h : Scan.stop? (Scan.readings (w.read m.world) paths) = some f)
    (frame : Frame σ ω) (below : List (Frame σ ω)) (waiting : List ω) (observer : ω)
    (deeds : List (Deed σ ω)) :
    m.nextDeed w frame below waiting observer (.rescan paths :: deeds) =
      (m.scanned w paths).nextDeed w frame below waiting observer (.raise f :: deeds) := by
  have hpublish : (m.goOn frame below (.call waiting observer deeds)).publish w paths =
      (scanned w (m.goOn frame below (.call waiting observer deeds)) paths, .error f) :=
    publish_of_stop h
  simp only [nextDeed, perform, hpublish]
  rfl

/-- A rescan of which a file asks to stop gives the request of the first file that does. It uses a request
identifier and writes to the log what is wrong with the files that fail otherwise; everything else is as it
was, and whatever is asked of the index later comes out as it would have come out without the rescan. -/
theorem rescan_of_stop (w : World σ ω) (m : Machine σ ω) (paths : List String)
    (h : ∃ path ∈ paths, ∃ f, w.read m.world path = .error f ∧ f.isFatal = true) :
    ∃ path f, Scan.FirstStop (w.read m.world) paths path f ∧
      (∀ fuel, m.rescan w fuel paths =
        ({ m with requests := m.requests + 1, log := linesOf w m paths ++ m.log }, .error f)) ∧
      m.perform w (.rescan paths) =
        ({ m with requests := m.requests + 1, log := linesOf w m paths ++ m.log }, .error f) ∧
      ∀ (fuel : Nat) (moves : List (Move σ ω)),
        ((m.rescan w fuel paths).1.play moves).2 = (m.play (moves.map (Move.delayed 1))).2 ∧
        Alike 1 m.log (linesOf w m paths ++ m.log) (m.play (moves.map (Move.delayed 1))).1
          ((m.rescan w fuel paths).1.play moves).1 := by
  obtain ⟨path, f, hfirst⟩ := Scan.exists_firstStop h
  have hpublish := publish_of_stop (Scan.stop?_of_firstStop hfirst)
  have hrescan : ∀ fuel, m.rescan w fuel paths = (scanned w m paths, .error f) := by
    intro fuel
    rw [rescan_of_error (by rw [hpublish]), hpublish]
  refine ⟨path, f, hfirst, hrescan, ?_, fun fuel moves => ?_⟩
  · rw [perform_rescan, hpublish]
    rfl
  · rw [hrescan]
    exact ((alike_scanned w m paths).play moves).symm

end Machine

/-! ## A small world that asks to stop -/

/-- The small world, with a file that asks to stop. -/
def interruptedWorld : World Nat Bool :=
  { smallWorld with
    read := fun asked path =>
      if path = "b.py" then .error (.stop .interrupt []) else smallWorld.read asked path }

namespace Machine

/-- A file that is not there, one that asks to stop and one that is there: the index keeps its snapshot and
its observers, and the log says that the first file is not there. -/
theorem rescan_of_stop_interrupted :
    (∃ path ∈ ["a.py", "b.py", "urls.py"], ∃ f,
      interruptedWorld.read small.world path = .error f ∧ f.isFatal = true) ∧
    ∀ fuel, (small.rescan interruptedWorld fuel ["a.py", "b.py", "urls.py"]).1.index = small.index ∧
      (small.rescan interruptedWorld fuel ["a.py", "b.py", "urls.py"]).1.log.map (·.message.level) =
        [.warning] ∧
      (∃ f, (small.rescan interruptedWorld fuel ["a.py", "b.py", "urls.py"]).2 = .error f ∧
        f.isFatal = true) ∧
      ((small.rescan interruptedWorld fuel ["a.py", "b.py", "urls.py"]).1.play
          [.rescan smallWorld 30 ["urls.py"]]).2 =
        (small.play [.rescan (smallWorld.delayed 1) 30 ["urls.py"]]).2 := by
  have hstop : ∃ path ∈ ["a.py", "b.py", "urls.py"], ∃ f,
      interruptedWorld.read small.world path = .error f ∧ f.isFatal = true :=
    ⟨"b.py", by simp, .stop .interrupt [], rfl, rfl⟩
  obtain ⟨path, f, ⟨before, after, -, -, -, hf⟩, hrescan, -, hlater⟩ :=
    rescan_of_stop interruptedWorld small ["a.py", "b.py", "urls.py"] hstop
  refine ⟨hstop, fun fuel => ⟨?_, ?_, ⟨f, ?_, hf⟩, (hlater fuel [.rescan smallWorld 30 ["urls.py"]]).1⟩⟩
  · rw [hrescan]
  · rw [hrescan]
    rfl
  · rw [hrescan]

end Machine

end RouteAtlas
