import Mathlib.Data.List.Basic
import RouteAtlas.Index
import RouteAtlas.Proofs.Scan

/-!
# What the index does in one step

For each thing that the index does, what it changes of the stack, the trace and the counters. Whatever
an observer does, and whatever is done from outside, either leaves all of these alone
(`Machine.Quiet`) or publishes the snapshot of a scan (`Machine.Published`). The states of the index
are those that are reached from a new one by such deeds and by steps (`Machine.Reachable`).
-/

namespace RouteAtlas.Machine

variable {σ ω : Type}

/-! ## Publishing -/

/-- `m'` differs from `m` in nothing that notification depends on. -/
structure Quiet (m m' : Machine σ ω) : Prop where
  stack : m'.stack = m.stack
  trace : m'.trace = m.trace
  escaped : m'.escaped = m.escaped
  snapshot : m'.index.snapshot = m.index.snapshot
  pending : m'.index.pending = m.index.pending
  notifying : m'.index.notifying = m.index.notifying

/-- `m'` is `m` after the snapshot of `scan` has been published. -/
structure Published (m m' : Machine σ ω) (scan : Scan) : Prop where
  generation : scan.snapshot.generation = m.index.snapshot.generation + 1
  snapshot : m'.index.snapshot = scan.snapshot
  pending : m'.index.pending = m.index.pending + 1
  notifying : m'.index.notifying = m.index.notifying
  stack : ∃ token, m'.stack = ⟨token, .published⟩ :: m.stack
  trace : m'.trace = .published scan.snapshot.generation :: m.trace
  escaped : m'.escaped = none

/-- Writing to the log changes nothing but the log. -/
theorem foldl_say (messages : List Log.Message) (m : Machine σ ω) :
    messages.foldl say m = { m with log := (messages.foldl say m).log } := by
  induction messages generalizing m with
  | nil => rfl
  | cons message messages ih =>
    rw [List.foldl_cons, ih]
    rfl

theorem publish_of_ok {w : World σ ω} {m : Machine σ ω} {paths : List String} {scan : Scan}
    (h : (Scan.run w.extract m.index.snapshot paths (w.read m.world)).1 = .ok scan) :
    (m.publish w paths).2 = .ok scan ∧ Published m (m.publish w paths).1 scan := by
  have hgeneration := Scan.generation_of_run h
  unfold publish
  simp only [h]
  rw [foldl_say]
  exact ⟨trivial, hgeneration, rfl, rfl, rfl, ⟨_, rfl⟩, rfl, rfl⟩

theorem publish_of_error {w : World σ ω} {m : Machine σ ω} {paths : List String} {f : Fault}
    (h : (Scan.run w.extract m.index.snapshot paths (w.read m.world)).1 = .error f) :
    (m.publish w paths).2 = .error f ∧ Quiet m (m.publish w paths).1 := by
  unfold publish
  simp only [h]
  rw [foldl_say]
  exact ⟨trivial, rfl, rfl, rfl, rfl, rfl, rfl⟩

/-- A rescan gives a scan only if it publishes it. -/
theorem published_of_ok {w : World σ ω} {m : Machine σ ω} {paths : List String} {scan : Scan}
    (h : (m.publish w paths).2 = .ok scan) : Published m (m.publish w paths).1 scan := by
  cases hrun : (Scan.run w.extract m.index.snapshot paths (w.read m.world)).1 with
  | error f =>
    rw [(publish_of_error hrun).1] at h
    exact absurd h (by simp)
  | ok scan' =>
    obtain ⟨hok, hpublished⟩ := publish_of_ok hrun
    rw [hok] at h
    cases h
    exact hpublished

theorem quiet_of_error {w : World σ ω} {m : Machine σ ω} {paths : List String} {f : Fault}
    (h : (m.publish w paths).2 = .error f) : Quiet m (m.publish w paths).1 := by
  cases hrun : (Scan.run w.extract m.index.snapshot paths (w.read m.world)).1 with
  | error f' => exact (publish_of_error hrun).2
  | ok scan =>
    rw [(publish_of_ok hrun).1] at h
    exact absurd h (by simp)

/-- What a rescan gives does not depend on the rescans in progress. -/
theorem publish_goOn (w : World σ ω) (m : Machine σ ω) (frame : Frame σ ω) (below : List (Frame σ ω))
    (phase : Phase σ ω) (paths : List String) :
    ((m.goOn frame below phase).publish w paths).2 = (m.publish w paths).2 := by
  rcases hrun : Scan.run w.extract m.index.snapshot paths (w.read m.world) with ⟨outcome, messages⟩
  simp only [publish, goOn, hrun]
  cases outcome <;> rfl

theorem publish_observers (w : World σ ω) (m : Machine σ ω) (paths : List String) :
    (m.publish w paths).1.index.observers = m.index.observers := by
  unfold publish
  rcases Scan.run w.extract m.index.snapshot paths (w.read m.world) with ⟨outcome, messages⟩
  dsimp only
  rw [foldl_say]
  cases outcome <;> rfl

variable [DecidableEq ω]

theorem perform_rescan (w : World σ ω) (m : Machine σ ω) (paths : List String) :
    m.perform w (.rescan paths) = ((m.publish w paths).1, (m.publish w paths).2.map fun _ => ()) :=
  rfl

/-- Only a scan changes anything that notification depends on. -/
theorem quiet_perform (w : World σ ω) (m : Machine σ ω) {deed : Deed σ ω}
    (hdeed : ∀ paths, deed ≠ .rescan paths) : Quiet m (m.perform w deed).1 := by
  have hself : Quiet m m := ⟨rfl, rfl, rfl, rfl, rfl, rfl⟩
  cases deed with
  | rescan paths => exact absurd rfl (hdeed paths)
  | subscribe observer handle => exact ⟨rfl, rfl, rfl, rfl, rfl, rfl⟩
  | cancel handle =>
    rw [perform, Index.cancel]
    cases m.index.handles.get? handle with
    | none => exact hself
    | some observer => exact ⟨rfl, rfl, rfl, rfl, rfl, rfl⟩
  | raise f => exact hself
  | change f =>
    rw [perform]
    cases f m.index.snapshot m.world with
    | error fault => exact hself
    | ok world => exact ⟨rfl, rfl, rfl, rfl, rfl, rfl⟩

/-- A deed publishes a snapshot, or changes nothing that notification depends on. -/
theorem perform_cases (w : World σ ω) (m : Machine σ ω) (deed : Deed σ ω) :
    Quiet m (m.perform w deed).1 ∨
      ∃ scan, Published m (m.perform w deed).1 scan ∧ (m.perform w deed).2 = .ok () := by
  cases deed with
  | rescan paths =>
    cases hrun : (Scan.run w.extract m.index.snapshot paths (w.read m.world)).1 with
    | error f => exact Or.inl (publish_of_error hrun).2
    | ok scan =>
      obtain ⟨hok, hpublished⟩ := publish_of_ok hrun
      refine Or.inr ⟨scan, hpublished, ?_⟩
      rw [perform_rescan, hok]
      rfl
  | subscribe | cancel | raise | change => exact Or.inl (quiet_perform w m (by simp))

/-! ## Steps -/

/-- A step of the topmost rescan, by its phase. -/
theorem step_of_stack {w : World σ ω} {m : Machine σ ω} {frame : Frame σ ω}
    {below : List (Frame σ ω)} (hs : m.stack = frame :: below) :
    m.step w = match frame.phase with
      | .published => m.dispatch frame below
      | .between => m.nextRound frame below
      | .round waiting => m.nextCall w frame below waiting
      | .call waiting observer deeds => m.nextDeed w frame below waiting observer deeds
      | .returning => m.leave frame below := by
  obtain ⟨index, world, stack, current, requests, trace, log, escaped⟩ := m
  obtain rfl : stack = frame :: below := hs
  rfl

theorem step_of_nil {w : World σ ω} {m : Machine σ ω} (hs : m.stack = []) : m.step w = m := by
  rw [step, hs]

/-- A deed that is done leaves the call as it was, with one deed fewer. -/
theorem nextDeed_of_ok {w : World σ ω} {m : Machine σ ω} {frame : Frame σ ω}
    {below : List (Frame σ ω)} {waiting : List ω} {observer : ω} {deed : Deed σ ω}
    {deeds : List (Deed σ ω)}
    (h : ((m.goOn frame below (.call waiting observer deeds)).perform w deed).2 = .ok ()) :
    m.nextDeed w frame below waiting observer (deed :: deeds) =
      ((m.goOn frame below (.call waiting observer deeds)).perform w deed).1 := by
  rcases hperform : (m.goOn frame below (.call waiting observer deeds)).perform w deed with
    ⟨m', result⟩
  rw [hperform] at h
  cases h
  rw [nextDeed, hperform]

/-- A deed that fails ends the call, and the round too if it asks to stop. -/
theorem nextDeed_of_error {w : World σ ω} {m : Machine σ ω} {frame : Frame σ ω}
    {below : List (Frame σ ω)} {waiting : List ω} {observer : ω} {deed : Deed σ ω}
    {deeds : List (Deed σ ω)} {f : Fault}
    (h : ((m.goOn frame below (.call waiting observer deeds)).perform w deed).2 = .error f) :
    m.nextDeed w frame below waiting observer (deed :: deeds) =
      if f.isFatal then ((m.goOn frame below (.call waiting observer deeds)).perform w deed).1.unwind f
      else (((m.goOn frame below (.call waiting observer deeds)).perform w deed).1.say
        (failureMessage w observer f)).goOn frame below (.round waiting) := by
  rcases hperform : (m.goOn frame below (.call waiting observer deeds)).perform w deed with
    ⟨m', result⟩
  rw [hperform] at h
  cases h
  rw [nextDeed, hperform]

/-- What comes of the next deed of an observer: the call goes on, perhaps below a rescan that has
published, or the observer has failed and the round goes on, or every rescan is left. -/
theorem nextDeed_cases (w : World σ ω) (m : Machine σ ω) (frame : Frame σ ω)
    (below : List (Frame σ ω)) (waiting : List ω) (observer : ω) (deed : Deed σ ω)
    (deeds : List (Deed σ ω)) :
    let before := m.goOn frame below (.call waiting observer deeds)
    let after := m.nextDeed w frame below waiting observer (deed :: deeds)
    Quiet before after ∨ (∃ scan, Published before after scan) ∨
      Quiet (m.goOn frame below (.round waiting)) after ∨
      ∃ f, f.isFatal = true ∧ (before.perform w deed).2 = .error f ∧
        Quiet (before.unwind f) after := by
  intro before after
  rcases perform_cases w before deed with hquiet | ⟨scan, hpublished, hok⟩
  · cases hresult : (before.perform w deed).2 with
    | ok u =>
      have hafter : after = (before.perform w deed).1 := nextDeed_of_ok hresult
      rw [hafter]
      exact Or.inl hquiet
    | error f =>
      have hafter : after = if f.isFatal then (before.perform w deed).1.unwind f
          else ((before.perform w deed).1.say (failureMessage w observer f)).goOn frame below
            (.round waiting) := nextDeed_of_error hresult
      obtain ⟨hstack, htrace, hescaped, hsnapshot, hpending, hnotifying⟩ := hquiet
      by_cases hf : f.isFatal = true
      · refine Or.inr (Or.inr (Or.inr ⟨f, hf, rfl, ?_⟩))
        rw [hafter, if_pos hf]
        exact ⟨rfl, congrArg (Event.roundBroken :: ·) htrace, rfl, hsnapshot, hpending, rfl⟩
      · refine Or.inr (Or.inr (Or.inl ?_))
        rw [hafter, if_neg hf]
        exact ⟨rfl, htrace, hescaped, hsnapshot, hpending, hnotifying⟩
  · have hafter : after = (before.perform w deed).1 := nextDeed_of_ok hok
    rw [hafter]
    exact Or.inr (Or.inl ⟨scan, hpublished⟩)

/-! ## Runs -/

theorem settle_of_nil {w : World σ ω} {m : Machine σ ω} (hs : m.stack = []) (fuel : Nat) :
    settle w fuel m = m := by
  cases fuel with
  | zero => rfl
  | succ fuel => simp [settle, hs]

/-- A machine at rest does not step, so that a step may always be taken first. -/
theorem settle_succ (w : World σ ω) (fuel : Nat) (m : Machine σ ω) :
    settle w (fuel + 1) m = settle w fuel (m.step w) := by
  by_cases hs : m.stack = []
  · rw [settle_of_nil hs, step_of_nil hs, settle_of_nil hs]
  · simp [settle, hs]

theorem settle_add (w : World σ ω) (fuel more : Nat) (m : Machine σ ω) :
    settle w (fuel + more) m = settle w more (settle w fuel m) := by
  induction fuel generalizing m with
  | zero => rw [Nat.zero_add, settle]
  | succ fuel ih => rw [Nat.succ_add, settle_succ, settle_succ, ih]

/-- What every step keeps holds after all of them. -/
theorem settle_induction {P : Machine σ ω → Prop} {w : World σ ω}
    (hstep : ∀ m, P m → P (m.step w)) {m : Machine σ ω} (hm : P m) (fuel : Nat) :
    P (settle w fuel m) := by
  induction fuel generalizing m with
  | zero => exact hm
  | succ fuel ih =>
    rw [settle_succ]
    exact ih (hstep m hm)

/-- A rescan that does not publish gives its request to stop. -/
theorem rescan_of_error {w : World σ ω} {m : Machine σ ω} {paths : List String} {f : Fault}
    (h : (m.publish w paths).2 = .error f) (fuel : Nat) :
    m.rescan w fuel paths = ((m.publish w paths).1, .error f) := by
  rcases hpublish : m.publish w paths with ⟨m', result⟩
  rw [hpublish] at h
  cases h
  rw [rescan, hpublish]

/-- A rescan that publishes steps until it has returned. -/
theorem rescan_of_ok {w : World σ ω} {m : Machine σ ω} {paths : List String} {scan : Scan}
    (h : (m.publish w paths).2 = .ok scan) (fuel : Nat) :
    m.rescan w fuel paths = (settle w fuel (m.publish w paths).1,
      match (settle w fuel (m.publish w paths).1).escaped with
      | some f => .error f
      | none => .ok scan) := by
  rcases hpublish : m.publish w paths with ⟨m', result⟩
  rw [hpublish] at h
  cases h
  rw [rescan, hpublish]
  dsimp only
  cases (settle w fuel m').escaped <;> rfl

/-- The states of an index. An index starts without observers in any world; while no rescan is in
progress anything may be done to it, and a rescan in progress takes steps. What an observer does and
what the files say need not be the same from one step to the next. -/
inductive Reachable : Machine σ ω → Prop
  | new (world : σ) (current : Request.Current) : Reachable { index := {}, world, current }
  | perform {m : Machine σ ω} (w : World σ ω) (deed : Deed σ ω) (h : Reachable m)
      (hs : m.stack = []) : Reachable (m.perform w deed).1
  | step {m : Machine σ ω} (w : World σ ω) (h : Reachable m) : Reachable (m.step w)

theorem Reachable.settle {m : Machine σ ω} (h : m.Reachable) (w : World σ ω) (fuel : Nat) :
    (settle w fuel m).Reachable :=
  settle_induction (fun _ hm => hm.step w) h fuel

theorem Reachable.publish {m : Machine σ ω} (h : m.Reachable) (hs : m.stack = []) (w : World σ ω)
    (paths : List String) : (m.publish w paths).1.Reachable :=
  h.perform w (.rescan paths) hs

theorem Reachable.rescan {m : Machine σ ω} (h : m.Reachable) (hs : m.stack = []) (w : World σ ω)
    (fuel : Nat) (paths : List String) : (m.rescan w fuel paths).1.Reachable := by
  have hpublish := h.publish hs w paths
  cases hresult : (m.publish w paths).2 with
  | error f =>
    rw [rescan_of_error hresult]
    exact hpublish
  | ok scan =>
    rw [rescan_of_ok hresult]
    exact hpublish.settle w fuel

end RouteAtlas.Machine
