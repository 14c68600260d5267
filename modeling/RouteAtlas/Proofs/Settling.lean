import RouteAtlas.Proofs.Rescan

/-!
# Rescans return

An index comes to rest when only finitely many scans are published on the way. Each round needs a
snapshot of its own, so that at most as many rounds start; within a round each step leaves fewer
observers to call, or fewer deeds of the observer being called, or a rescan nearer to its return
(`Machine.Notified.step_cheaper`).
-/

namespace RouteAtlas

open Trace (rounds publications)

variable {σ ω : Type}

/-! ## What is left to do -/

/-- How far a rescan is from its return, as long as no round starts. -/
def Phase.distance : Phase σ ω → Nat
  | .returning => 1
  | .between => 2
  | .published => 3
  | .round waiting => 2 * waiting.length + 3
  | .call waiting _ _ => 2 * waiting.length + 4

/-- The number of deeds left in the call of an observer. -/
def Phase.deedsLeft : Phase σ ω → Nat
  | .call _ _ deeds => deeds.length
  | .published => 0
  | .between => 0
  | .round _ => 0
  | .returning => 0

namespace Machine

variable {w : World σ ω} {m m' : Machine σ ω} {waiting? : Option (List ω)} {n : Nat}

/-- What is left for the rescan that runs the rounds, and then for the one above it. -/
def left : List (Frame σ ω) → Nat × Nat × Nat
  | [] => (0, 0, 0)
  | [frame] => (frame.phase.distance, frame.phase.deedsLeft, 0)
  | inner :: frame :: _ => (frame.phase.distance, frame.phase.deedsLeft, inner.phase.distance)

/-- What is left when at most `n` rounds are to start. -/
def cost (n : Nat) (m : Machine σ ω) : Nat × Nat × Nat × Nat := (n - rounds m.trace, left m.stack)

/-- Less is left: of the rounds first, then of the calls, then of the deeds, then of the steps of a
rescan that an observer has asked for. -/
def Cheaper : Nat × Nat × Nat × Nat → Nat × Nat × Nat × Nat → Prop :=
  Prod.Lex (· < ·) (Prod.Lex (· < ·) (Prod.Lex (· < ·) (· < ·)))

theorem cheaper_wf : WellFounded Cheaper :=
  (Prod.lex Nat.lt_wfRel (Prod.lex Nat.lt_wfRel (Prod.lex Nat.lt_wfRel Nat.lt_wfRel))).wf

theorem cheaper_of_rounds_lt (hlt : rounds m.trace < rounds m'.trace) (hn : rounds m'.trace ≤ n) :
    Cheaper (cost n m') (cost n m) :=
  Prod.Lex.left _ _ (show n - rounds m'.trace < n - rounds m.trace by omega)

theorem cheaper_of_left {a b c a' b' c' : Nat} (hrounds : rounds m'.trace = rounds m.trace)
    (hleft : left m.stack = (a, b, c)) (hleft' : left m'.stack = (a', b', c'))
    (hlt : a' < a ∨ a' = a ∧ (b' < b ∨ b' = b ∧ c' < c)) : Cheaper (cost n m') (cost n m) := by
  unfold cost
  rw [hrounds, hleft, hleft']
  refine Prod.Lex.right _ ?_
  rcases hlt with ha | ⟨rfl, hb | ⟨rfl, hc⟩⟩
  · exact Prod.Lex.left _ _ ha
  · exact Prod.Lex.right _ (Prod.Lex.left _ _ hb)
  · exact Prod.Lex.right _ (Prod.Lex.right _ hc)

/-- The start of a round leaves one round fewer, and the end of the notification only the return. -/
theorem nextRound_cheaper {token : Request.Token} (hs : m.stack = [⟨token, .between⟩])
    (hn : rounds (m.nextRound ⟨token, .between⟩ []).trace ≤ n) :
    Cheaper (cost n (m.nextRound ⟨token, .between⟩ [])) (cost n m) := by
  have hleft : left m.stack = (2, 0, 0) := by
    rw [hs]
    rfl
  unfold nextRound at hn ⊢
  cases hp : m.index.pending with
  | zero => exact cheaper_of_left rfl hleft rfl (Or.inl (show 1 < 2 by decide))
  | succ pending =>
    rw [hp] at hn
    have hlt : rounds m.trace < rounds (.roundStarted m.index.observers :: m.trace) := by
      simp [Trace.isStart]
    exact cheaper_of_rounds_lt hlt hn

/-- The call of an observer leaves one observer fewer, and the end of a round none. -/
theorem nextCall_cheaper {token : Request.Token} {waiting : List ω}
    (hs : m.stack = [⟨token, .round waiting⟩]) (w : World σ ω) :
    Cheaper (cost n (m.nextCall w ⟨token, .round waiting⟩ [] waiting)) (cost n m) := by
  have hleft : left m.stack = (2 * waiting.length + 3, 0, 0) := by
    rw [hs]
    rfl
  cases waiting with
  | nil => exact cheaper_of_left rfl hleft rfl (Or.inl (show 2 < 3 by decide))
  | cons observer waiting =>
    refine cheaper_of_left rfl hleft rfl (Or.inl ?_)
    show 2 * waiting.length + 4 < 2 * (waiting.length + 1) + 3
    omega

variable [DecidableEq ω]

/-- A deed of an observer leaves less to do. -/
theorem nextDeed_cheaper {token : Request.Token} {waiting : List ω} {observer : ω}
    {deed : Deed σ ω} {deeds : List (Deed σ ω)}
    (hs : m.stack = [⟨token, .call waiting observer (deed :: deeds)⟩]) (w : World σ ω) :
    Cheaper (cost n (m.nextDeed w ⟨token, .call waiting observer (deed :: deeds)⟩ []
      waiting observer (deed :: deeds))) (cost n m) := by
  have hleft : left m.stack = (2 * waiting.length + 4, deeds.length + 1, 0) := by
    rw [hs]
    rfl
  rcases nextDeed_cases w m ⟨token, .call waiting observer (deed :: deeds)⟩ [] waiting observer deed
    deeds with hq | ⟨scan, hp⟩ | hq | ⟨f, -, -, hq⟩
  · refine cheaper_of_left (by rw [hq.trace]; rfl) hleft (by rw [hq.stack]) ?_
    exact Or.inr ⟨rfl, Or.inl (Nat.lt_succ_self _)⟩
  · obtain ⟨inner, hstack⟩ := hp.stack
    refine cheaper_of_left (by rw [hp.trace]; rfl) hleft (by rw [hstack]) ?_
    exact Or.inr ⟨rfl, Or.inl (Nat.lt_succ_self _)⟩
  · refine cheaper_of_left (by rw [hq.trace]; rfl) hleft (by rw [hq.stack]) ?_
    exact Or.inl (Nat.lt_succ_self _)
  · refine cheaper_of_left (by rw [hq.trace]; rfl) hleft (by rw [hq.stack]) ?_
    exact Or.inl (Nat.succ_pos _)

namespace Notified

/-- As long as a rescan is in progress, a step leaves less to do. -/
theorem step_cheaper (h : Notified m waiting?) (hs : m.stack ≠ [])
    (hn : publications (m.step w).trace ≤ n) : Cheaper (cost n (m.step w)) (cost n m) := by
  obtain ⟨_, hstep⟩ := h.step w
  have hrounds := hstep.orderly.rounds_le_publications.trans hn
  cases h.standing with
  | idle hs' => exact absurd hs' hs
  | published hs' hn' =>
    have hleft : left m.stack = (3, 0, 0) := by
      rw [hs']
      rfl
    rw [step_of_stack hs']
    simp only [dispatch, hn', Bool.false_eq_true, if_false]
    exact cheaper_of_left rfl hleft rfl (Or.inl (show 2 < 3 by decide))
  | between hs' =>
    rw [step_of_stack hs'] at hrounds ⊢
    exact nextRound_cheaper hs' hrounds
  | round hs' =>
    rw [step_of_stack hs']
    exact nextCall_cheaper hs' w
  | @call token waiting observer deeds hs' =>
    rw [step_of_stack hs']
    cases deeds with
    | nil =>
      have hleft : left m.stack = (2 * waiting.length + 4, 0, 0) := by
        rw [hs']
        rfl
      exact cheaper_of_left rfl hleft rfl (Or.inl (Nat.lt_succ_self _))
    | cons deed deeds => exact nextDeed_cheaper hs' w
  | returning hs' =>
    have hleft : left m.stack = (1, 0, 0) := by
      rw [hs']
      rfl
    rw [step_of_stack hs']
    exact cheaper_of_left rfl hleft rfl (Or.inl (show 0 < 1 by decide))
  | @innerPublished inner token waiting observer deeds hs' hn' =>
    have hleft : left m.stack = (2 * waiting.length + 4, deeds.length, 3) := by
      rw [hs']
      rfl
    rw [step_of_stack hs']
    simp only [dispatch, hn', if_true]
    exact cheaper_of_left rfl hleft rfl (Or.inr ⟨rfl, Or.inr ⟨rfl, show 1 < 3 by decide⟩⟩)
  | @innerReturning inner token waiting observer deeds hs' =>
    have hleft : left m.stack = (2 * waiting.length + 4, deeds.length, 1) := by
      rw [hs']
      rfl
    rw [step_of_stack hs']
    exact cheaper_of_left rfl hleft rfl (Or.inr ⟨rfl, Or.inr ⟨rfl, show 0 < 1 by decide⟩⟩)

/-- An index comes to rest when at most `n` scans are published on the way. -/
theorem exists_settle_stack_nil (h : Notified m waiting?)
    (hn : ∀ fuel, publications (settle w fuel m).trace ≤ n) :
    ∃ fuel, (settle w fuel m).stack = [] := by
  induction hcost : cost n m using cheaper_wf.induction generalizing m waiting? with
  | _ c ih =>
    by_cases hs : m.stack = []
    · exact ⟨0, hs⟩
    · have hlater : ∀ fuel, publications (settle w fuel (m.step w)).trace ≤ n := fun fuel => by
        rw [← settle_succ]
        exact hn (fuel + 1)
      have hcheaper := h.step_cheaper hs (hlater 0)
      rw [hcost] at hcheaper
      obtain ⟨_, hstep⟩ := h.step w
      obtain ⟨fuel, hfuel⟩ := ih _ hcheaper hstep hlater rfl
      exact ⟨fuel + 1, by rw [settle_succ]; exact hfuel⟩

end Notified

/-- An index at rest stays so. -/
theorem settle_stack_nil_of_le {fuel more : Nat} (h : (settle w fuel m).stack = [])
    (hle : fuel ≤ more) : (settle w more m).stack = [] := by
  obtain ⟨rest, rfl⟩ := Nat.exists_eq_add_of_le hle
  rw [settle_add, settle_of_nil h]
  exact h

end Machine

end RouteAtlas
