import RouteAtlas.Proofs.Machine
import RouteAtlas.Proofs.Round

/-!
# Rounds are run by one rescan at a time

Where an index can stand between two steps (`Machine.Standing`): at most one rescan runs rounds, and
only the call of one of its observers can have another rescan above it, which has published and will
return without running any round. Together with the order of the trace and the count of the pending
rounds this is kept by every step (`Machine.Notified.step`), and so holds of every state.
-/

namespace RouteAtlas.Machine

open Trace (Orderly rounds publications)

variable {σ ω : Type} {m m' : Machine σ ω} {waiting? : Option (List ω)}

/-- Where an index stands, and which observers the round in progress has still to call. -/
inductive Standing (m : Machine σ ω) : Option (List ω) → Prop
  /-- No rescan is in progress. Rounds are pending only if a request to stop ended the last one. -/
  | idle (hs : m.stack = []) (hn : m.index.notifying = false)
      (hp : m.escaped = none → m.index.pending = 0) : Standing m none
  | published {token : Request.Token} (hs : m.stack = [⟨token, .published⟩])
      (hn : m.index.notifying = false) (he : m.escaped = none) : Standing m none
  | between {token : Request.Token} (hs : m.stack = [⟨token, .between⟩])
      (hn : m.index.notifying = true) (he : m.escaped = none) : Standing m none
  | round {token : Request.Token} {waiting : List ω} (hs : m.stack = [⟨token, .round waiting⟩])
      (hn : m.index.notifying = true) (he : m.escaped = none) : Standing m (some waiting)
  | call {token : Request.Token} {waiting : List ω} {observer : ω} {deeds : List (Deed σ ω)}
      (hs : m.stack = [⟨token, .call waiting observer deeds⟩])
      (hn : m.index.notifying = true) (he : m.escaped = none) : Standing m (some waiting)
  | returning {token : Request.Token} (hs : m.stack = [⟨token, .returning⟩])
      (hn : m.index.notifying = false) (he : m.escaped = none) (hp : m.index.pending = 0) :
      Standing m none
  /-- An observer has asked for a scan, whose round is left to the rescan below. -/
  | innerPublished {inner token : Request.Token} {waiting : List ω} {observer : ω}
      {deeds : List (Deed σ ω)}
      (hs : m.stack = [⟨inner, .published⟩, ⟨token, .call waiting observer deeds⟩])
      (hn : m.index.notifying = true) (he : m.escaped = none) : Standing m (some waiting)
  | innerReturning {inner token : Request.Token} {waiting : List ω} {observer : ω}
      {deeds : List (Deed σ ω)}
      (hs : m.stack = [⟨inner, .returning⟩, ⟨token, .call waiting observer deeds⟩])
      (hn : m.index.notifying = true) (he : m.escaped = none) : Standing m (some waiting)

/-- What holds of an index between two steps. -/
structure Notified (m : Machine σ ω) (waiting? : Option (List ω)) : Prop where
  standing : Standing m waiting?
  orderly : Orderly m.trace waiting?
  /-- Every published snapshot has had its round, or the round is pending. -/
  balance : rounds m.trace + m.index.pending = publications m.trace
  numbered : m.index.snapshot.generation = publications m.trace
  broken : m.escaped ≠ none → .roundBroken ∈ m.trace

theorem Standing.of_quiet (h : Standing m waiting?) (hq : Quiet m m') : Standing m' waiting? := by
  obtain ⟨hstack, -, hescaped, -, hpending, hnotifying⟩ := hq
  cases h with
  | idle hs hn hp =>
    exact .idle (hstack.trans hs) (hnotifying.trans hn) fun he =>
      hpending.trans (hp (hescaped.symm.trans he))
  | published hs hn he => exact .published (hstack.trans hs) (hnotifying.trans hn) (hescaped.trans he)
  | between hs hn he => exact .between (hstack.trans hs) (hnotifying.trans hn) (hescaped.trans he)
  | round hs hn he => exact .round (hstack.trans hs) (hnotifying.trans hn) (hescaped.trans he)
  | call hs hn he => exact .call (hstack.trans hs) (hnotifying.trans hn) (hescaped.trans he)
  | returning hs hn he hp =>
    exact .returning (hstack.trans hs) (hnotifying.trans hn) (hescaped.trans he) (hpending.trans hp)
  | innerPublished hs hn he =>
    exact .innerPublished (hstack.trans hs) (hnotifying.trans hn) (hescaped.trans he)
  | innerReturning hs hn he =>
    exact .innerReturning (hstack.trans hs) (hnotifying.trans hn) (hescaped.trans he)

/-- An index that no rescan is using stands idle. -/
theorem Standing.of_nil (h : Standing m waiting?) (hs : m.stack = []) :
    waiting? = none ∧ m.index.notifying = false ∧ (m.escaped = none → m.index.pending = 0) := by
  cases h with
  | idle _ hn hp => exact ⟨rfl, hn, hp⟩
  | published hs' | between hs' | round hs' | call hs' | returning hs' | innerPublished hs'
  | innerReturning hs' => exact absurd (hs.symm.trans hs') (by simp)

namespace Notified

theorem of_quiet (h : Notified m waiting?) (hq : Quiet m m') : Notified m' waiting? where
  standing := h.standing.of_quiet hq
  orderly := by
    rw [hq.trace]
    exact h.orderly
  balance := by
    rw [hq.trace, hq.pending]
    exact h.balance
  numbered := by
    rw [hq.trace, hq.snapshot]
    exact h.numbered
  broken := by
    rw [hq.trace, hq.escaped]
    exact h.broken

/-- Publishing keeps the round in progress open, wherever the rescan then stands. -/
theorem of_published {scan : Scan} (h : Notified m waiting?) (hp : Published m m' scan)
    (hstanding : Standing m' waiting?) : Notified m' waiting? where
  standing := hstanding
  orderly := by
    rw [hp.trace, hp.generation, h.numbered]
    exact .published h.orderly
  balance := by
    have hbalance := h.balance
    rw [hp.trace, hp.pending]
    simp [Trace.isStart, Trace.generation?]
    omega
  numbered := by
    rw [hp.trace, hp.snapshot, hp.generation, h.numbered]
    simp [Trace.generation?]
  broken := fun he => absurd hp.escaped he

/-- A new index has nothing to tell anyone. -/
theorem new (world : σ) (current : Request.Current) :
    Notified ({ index := {}, world, current } : Machine σ ω) none :=
  ⟨.idle rfl rfl fun _ => rfl, .nil, rfl, rfl, fun he => absurd rfl he⟩

/-- The next round starts, or the rescan that has run the rounds is done. -/
theorem nextRound {token : Request.Token} (h : Notified m none) (hn : m.index.notifying = true)
    (he : m.escaped = none) :
    ∃ waiting?, Notified (m.nextRound ⟨token, .between⟩ []) waiting? := by
  have hbalance := h.balance
  unfold Machine.nextRound
  cases hp : m.index.pending with
  | zero =>
    rw [hp] at hbalance
    exact ⟨none, .returning rfl rfl he hp, h.orderly, h.balance, h.numbered, h.broken⟩
  | succ pending =>
    rw [hp] at hbalance
    have hlt : rounds m.trace < publications m.trace := by omega
    refine ⟨some m.index.observers, .round rfl hn he, .roundStarted h.orderly hlt _, ?_, ?_, ?_⟩
    · show rounds (.roundStarted m.index.observers :: m.trace) + pending =
        publications (.roundStarted m.index.observers :: m.trace)
      simp [Trace.isStart, Trace.generation?]
      omega
    · exact h.numbered
    · exact fun he' => absurd he he'

/-- The next observer of the round is called, or the round ends. -/
theorem nextCall {token : Request.Token} {waiting : List ω} (h : Notified m (some waiting))
    (hn : m.index.notifying = true) (he : m.escaped = none) (w : World σ ω) :
    ∃ waiting?, Notified (m.nextCall w ⟨token, .round waiting⟩ [] waiting) waiting? := by
  cases waiting with
  | nil =>
    refine ⟨none, .between rfl hn he, .roundEnded h.orderly, ?_, ?_, fun he' => absurd he he'⟩
    · exact h.balance
    · exact h.numbered
  | cons observer waiting =>
    refine ⟨some waiting, .call rfl hn he, ?_, ?_, ?_, fun he' => absurd he he'⟩
    · show Orderly (.called observer m.index.snapshot.generation :: m.trace) (some waiting)
      rw [h.numbered]
      exact .called h.orderly
    · exact h.balance
    · exact h.numbered

variable [DecidableEq ω]

/-- What is done while no rescan is in progress publishes at most a snapshot. -/
theorem perform (h : Notified m waiting?) (hs : m.stack = []) (w : World σ ω) (deed : Deed σ ω) :
    Notified (m.perform w deed).1 waiting? := by
  rcases perform_cases w m deed with hq | ⟨scan, hp, -⟩
  · exact h.of_quiet hq
  · obtain ⟨token, hstack⟩ := hp.stack
    obtain ⟨rfl, hn, -⟩ := h.standing.of_nil hs
    rw [hs] at hstack
    exact h.of_published hp (.published hstack (hp.notifying.trans hn) hp.escaped)

/-- What an observer does may publish a snapshot, whose round has to wait, or end the call, or end
the round. -/
theorem nextDeed {token : Request.Token} {waiting : List ω} {observer : ω}
    (h : Notified m (some waiting)) (hn : m.index.notifying = true) (he : m.escaped = none)
    (w : World σ ω) (deed : Deed σ ω) (deeds : List (Deed σ ω)) :
    ∃ waiting?, Notified (m.nextDeed w ⟨token, .call waiting observer (deed :: deeds)⟩ []
      waiting observer (deed :: deeds)) waiting? := by
  have hcases := nextDeed_cases w m ⟨token, .call waiting observer (deed :: deeds)⟩ [] waiting observer
    deed deeds
  have hcall : Notified (m.goOn ⟨token, .call waiting observer (deed :: deeds)⟩ []
      (.call waiting observer deeds)) (some waiting) :=
    ⟨.call rfl hn he, h.orderly, h.balance, h.numbered, h.broken⟩
  rcases hcases with hq | ⟨scan, hp⟩ | hq | ⟨f, -, -, hq⟩
  · exact ⟨some waiting, hcall.of_quiet hq⟩
  · obtain ⟨inner, hstack⟩ := hp.stack
    refine ⟨some waiting, hcall.of_published hp ?_⟩
    exact .innerPublished hstack (hp.notifying.trans hn) hp.escaped
  · refine ⟨some waiting, of_quiet ?_ hq⟩
    exact ⟨.round rfl hn he, h.orderly, h.balance, h.numbered, h.broken⟩
  · refine ⟨none, of_quiet ?_ hq⟩
    refine ⟨.idle rfl rfl fun he' => absurd he' (by simp [unwind]), .roundBroken h.orderly, ?_, ?_,
      fun _ => List.mem_cons_self⟩
    · exact h.balance
    · exact h.numbered

/-- Every step keeps what holds of an index. -/
theorem step (h : Notified m waiting?) (w : World σ ω) :
    ∃ waiting?, Notified (m.step w) waiting? := by
  cases h.standing with
  | idle hs hn hp =>
    rw [step_of_nil hs]
    exact ⟨none, h⟩
  | published hs hn he =>
    rw [step_of_stack hs]
    simp only [dispatch, hn, Bool.false_eq_true, if_false]
    exact ⟨none, .between rfl rfl he, h.orderly, h.balance, h.numbered, h.broken⟩
  | between hs hn he =>
    rw [step_of_stack hs]
    exact h.nextRound hn he
  | round hs hn he =>
    rw [step_of_stack hs]
    exact h.nextCall hn he w
  | @call token waiting observer deeds hs hn he =>
    rw [step_of_stack hs]
    cases deeds with
    | nil => exact ⟨_, .round rfl hn he, h.orderly, h.balance, h.numbered, h.broken⟩
    | cons deed deeds => exact h.nextDeed hn he w deed deeds
  | returning hs hn he hp =>
    rw [step_of_stack hs]
    exact ⟨none, .idle rfl hn fun _ => hp, h.orderly, h.balance, h.numbered, h.broken⟩
  | innerPublished hs hn he =>
    -- the rescan finds rounds being run and leaves its own to them
    rw [step_of_stack hs]
    simp only [dispatch, hn, if_true]
    exact ⟨_, .innerReturning rfl hn he, h.orderly, h.balance, h.numbered, h.broken⟩
  | innerReturning hs hn he =>
    rw [step_of_stack hs]
    exact ⟨_, .call rfl hn he, h.orderly, h.balance, h.numbered, h.broken⟩

end Notified

/-- It holds of every state of an index. -/
theorem Reachable.notified [DecidableEq ω] (h : m.Reachable) : ∃ waiting?, Notified m waiting? := by
  induction h with
  | new world current => exact ⟨none, .new world current⟩
  | perform w deed h hs ih =>
    obtain ⟨waiting?, hm⟩ := ih
    exact ⟨waiting?, hm.perform hs w deed⟩
  | step w h ih =>
    obtain ⟨waiting?, hm⟩ := ih
    exact hm.step w

/-! ## What a step adds to the trace -/

/-- A deed adds at most the publication of a snapshot. -/
theorem trace_nextDeed [DecidableEq ω] (w : World σ ω) (m : Machine σ ω) (frame : Frame σ ω)
    (below : List (Frame σ ω)) (waiting : List ω) (observer : ω) (deed : Deed σ ω)
    (deeds : List (Deed σ ω)) :
    let after := m.nextDeed w frame below waiting observer (deed :: deeds)
    after.trace = m.trace ∨ (∃ g, after.trace = .published g :: m.trace) ∨
      after.trace = .roundBroken :: m.trace := by
  intro after
  rcases nextDeed_cases w m frame below waiting observer deed deeds with
    hq | ⟨scan, hp⟩ | hq | ⟨f, -, -, hq⟩
  · exact Or.inl hq.trace
  · exact Or.inr (Or.inl ⟨_, hp.trace⟩)
  · exact Or.inl hq.trace
  · exact Or.inr (Or.inr hq.trace)

/-- A round that starts is for the observers that are then subscribed. -/
theorem observers_of_start [DecidableEq ω] {w : World σ ω} {observers : List ω}
    (h : (m.step w).trace = .roundStarted observers :: m.trace) : observers = m.index.observers := by
  have hself : m.trace ≠ .roundStarted observers :: m.trace := fun hself =>
    absurd (congrArg List.length hself) (by simp)
  cases hs : m.stack with
  | nil =>
    rw [step_of_nil hs] at h
    exact absurd h hself
  | cons frame below =>
    obtain ⟨token, phase⟩ := frame
    rw [step_of_stack hs] at h
    cases phase with
    | published =>
      dsimp only [dispatch] at h
      split at h <;> exact absurd h hself
    | between =>
      dsimp only [nextRound] at h
      split at h
      · exact absurd h hself
      · have hhead := (List.cons.inj h).1
        exact (Event.roundStarted.inj hhead).symm
    | round waiting =>
      cases waiting with
      | nil => exact absurd (List.cons.inj h).1 (by simp)
      | cons observer waiting => exact absurd (List.cons.inj h).1 (by simp)
    | call waiting observer deeds =>
      cases deeds with
      | nil => exact absurd h hself
      | cons deed deeds =>
        rcases trace_nextDeed w m ⟨token, .call waiting observer (deed :: deeds)⟩ below waiting observer
          deed deeds with htrace | ⟨g, htrace⟩ | htrace
        · exact absurd (htrace.symm.trans h) hself
        · exact absurd (List.cons.inj (htrace.symm.trans h)).1 (by simp)
        · exact absurd (List.cons.inj (htrace.symm.trans h)).1 (by simp)
    | returning => exact absurd h hself

end RouteAtlas.Machine
