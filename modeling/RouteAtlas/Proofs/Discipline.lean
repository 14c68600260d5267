import RouteAtlas.Proofs.Settling

/-!
# The discipline of notification

What an index promises its observers and those who ask for rescans, in every state that it can be in
(`Machine.Discipline`).
-/

namespace RouteAtlas.Machine

open Trace (Orderly rounds publications calls)

variable {σ ω : Type} [DecidableEq ω]

/-- The discipline of notification in a state of an index. -/
structure Discipline (m : Machine σ ω) : Prop where
  /-- Rounds follow one another, and each calls its observers in turn. -/
  orderly : ∃ waiting?, Orderly m.trace waiting?
  /-- Every published snapshot has had its round, or the round is pending. -/
  balance : (rounds m.trace : Int) + m.index.pending = m.index.snapshot.generation
  /-- Rounds neither nest nor interleave: before another one starts, a round has ended, or a request
  to stop has cut it short. -/
  apart : ∀ later during before observers observers',
    m.trace = later ++ .roundStarted observers' :: (during ++ .roundStarted observers :: before) →
    .roundEnded ∈ during ∨ .roundBroken ∈ during
  /-- When a round starts, fewer rounds have been started than snapshots were published. -/
  covered : ∀ later before observers, m.trace = later ++ .roundStarted observers :: before →
    rounds before + 1 ≤ publications before
  /-- A round is for the observers that are subscribed when it starts. -/
  present : ∀ w observers, (m.step w).trace = .roundStarted observers :: m.trace →
    observers = m.index.observers
  /-- A round that has ended has called each of its observers once, in the order of their
  subscription. -/
  complete : ∀ later during before observers,
    m.trace = later ++ .roundEnded :: (during ++ .roundStarted observers :: before) →
    (∀ observers', .roundStarted observers' ∉ during) → (calls during).reverse = observers
  /-- A scan that an observer asks for is published at once, in the middle of the round. -/
  prompt : ∀ w token waiting observer paths deeds below scan,
    m.stack = ⟨token, .call waiting observer (.rescan paths :: deeds)⟩ :: below →
    (m.publish w paths).2 = .ok scan →
    (m.step w).index.snapshot = scan.snapshot ∧
      (m.step w).trace = .published scan.snapshot.generation :: m.trace
  /-- Nothing is being notified while no rescan is in progress. -/
  idle : m.stack = [] → m.index.notifying = false
  /-- No round is pending then, unless a request to stop has cut one short. -/
  settled : m.stack = [] → .roundBroken ∉ m.trace → m.index.pending = 0
  /-- A rescan returns, if only finitely many scans are published meanwhile. No round is pending when
  it gives its scan, which it always does in a world that asks for no stop. -/
  returns : ∀ w paths, m.stack = [] →
    (∃ n, ∀ fuel, publications (m.rescan w fuel paths).1.trace ≤ n) →
    ∃ enough, ∀ fuel ≥ enough, (m.rescan w fuel paths).1.stack = [] ∧
      (∀ scan, (m.rescan w fuel paths).2 = .ok scan →
        (m.rescan w fuel paths).1.index.pending = 0) ∧
      (w.Gentle → ∃ scan, (m.rescan w fuel paths).2 = .ok scan)

/-- A scan that an observer asks for is published by the next step. -/
theorem published_of_call {w : World σ ω} {m : Machine σ ω} {token : Request.Token}
    {waiting : List ω} {observer : ω} {paths : List String} {deeds : List (Deed σ ω)}
    {below : List (Frame σ ω)} {scan : Scan}
    (hs : m.stack = ⟨token, .call waiting observer (.rescan paths :: deeds)⟩ :: below)
    (h : (m.publish w paths).2 = .ok scan) :
    (m.step w).index.snapshot = scan.snapshot ∧
      (m.step w).trace = .published scan.snapshot.generation :: m.trace := by
  let frame : Frame σ ω := ⟨token, .call waiting observer (.rescan paths :: deeds)⟩
  let before := m.goOn frame below (.call waiting observer deeds)
  have hok : (before.publish w paths).2 = .ok scan := (publish_goOn w m frame below _ paths).trans h
  have hpublished := published_of_ok hok
  have hdone : (before.perform w (.rescan paths)).2 = .ok () := by
    rw [perform_rescan, hok]
    rfl
  have hstep : m.step w = (before.publish w paths).1 := by
    rw [step_of_stack hs]
    exact nextDeed_of_ok hdone
  rw [hstep]
  exact ⟨hpublished.snapshot, hpublished.trace⟩

/-- A rescan returns when only finitely many scans are published, with no round pending unless a
request to stop comes out of it. -/
theorem Notified.returns {m : Machine σ ω} {waiting? : Option (List ω)} (h : Notified m waiting?)
    (hs : m.stack = []) {w : World σ ω} {paths : List String}
    (hfinite : ∃ n, ∀ fuel, publications (m.rescan w fuel paths).1.trace ≤ n) :
    ∃ enough, ∀ fuel ≥ enough, (m.rescan w fuel paths).1.stack = [] ∧
      ∀ scan, (m.rescan w fuel paths).2 = .ok scan →
        (m.rescan w fuel paths).1.index.pending = 0 := by
  obtain ⟨n, hn⟩ := hfinite
  have hbegun : Notified (m.publish w paths).1 waiting? := h.perform hs w (.rescan paths)
  cases hresult : (m.publish w paths).2 with
  | error f =>
    refine ⟨0, fun fuel _ => ?_⟩
    rw [rescan_of_error hresult]
    exact ⟨(quiet_of_error hresult).stack.trans hs, fun scan hscan => absurd hscan (by simp)⟩
  | ok scan =>
    have hrescan := rescan_of_ok hresult
    simp only [hrescan] at hn ⊢
    obtain ⟨enough, henough⟩ := hbegun.exists_settle_stack_nil hn
    refine ⟨enough, fun fuel hle => ?_⟩
    have hrest := settle_stack_nil_of_le henough hle
    obtain ⟨_, hsettled⟩ := settle_induction (P := fun m => ∃ waiting?, Notified m waiting?)
      (fun _ ⟨_, h⟩ => h.step w) ⟨_, hbegun⟩ fuel
    refine ⟨hrest, fun scan hscan => (hsettled.standing.of_nil hrest).2.2 ?_⟩
    cases hescaped : (settle w fuel (m.publish w paths).1).escaped with
    | none => rfl
    | some f =>
      rw [hescaped] at hscan
      exact absurd hscan (by simp)

theorem Notified.disciplined {m : Machine σ ω} {waiting? : Option (List ω)}
    (h : Notified m waiting?) : Discipline m where
  orderly := ⟨waiting?, h.orderly⟩
  balance := by
    rw [h.numbered, ← h.balance]
    simp
  apart := by
    intro later during before observers observers' htrace
    have horderly := h.orderly
    rw [htrace] at horderly
    exact horderly.over_of_start
  covered := by
    intro later before observers htrace
    have horderly := h.orderly
    rw [htrace] at horderly
    exact horderly.rounds_lt_of_start
  present := fun w observers htrace => observers_of_start htrace
  complete := by
    intro later during before observers htrace hstart
    have horderly := h.orderly
    rw [htrace] at horderly
    exact horderly.calls_of_ended hstart
  prompt := fun w token waiting observer paths deeds below scan hs hscan =>
    published_of_call hs hscan
  idle := fun hs => (h.standing.of_nil hs).2.1
  settled := by
    intro hs hbroken
    refine (h.standing.of_nil hs).2.2 ?_
    by_contra hescaped
    exact hbroken (h.broken hescaped)
  returns := by
    intro w paths hs hfinite
    obtain ⟨enough, henough⟩ := h.returns hs hfinite
    refine ⟨enough, fun fuel hle => ⟨(henough fuel hle).1, (henough fuel hle).2, fun hw => ?_⟩⟩
    exact ⟨_, rescan_gentle hw hs paths fuel⟩

/-- Every state of an index keeps the discipline, whatever its observers do. -/
theorem Reachable.discipline {m : Machine σ ω} (h : m.Reachable) : m.Discipline := by
  obtain ⟨_, hm⟩ := h.notified
  exact hm.disciplined

/-- Both observers are called in both rounds: the scan that the first one asks for is published in the
middle of the first round, and has its round after it. -/
theorem discipline_small :
    (small.rescan smallWorld 30 []).1.trace.reverse =
      [.published 1, .roundStarted [true, false], .called true 1, .published 2, .called false 2,
        .roundEnded, .roundStarted [true, false], .called true 2, .called false 2, .roundEnded] ∧
      (small.rescan smallWorld 30 []).1.Discipline :=
  ⟨by decide, (reachable_small.rescan rfl smallWorld 30 []).discipline⟩

end RouteAtlas.Machine
