import RouteAtlas.Proofs.Rescan
import RouteAtlas.Proofs.Scoping

/-!
# Rescans are scoped by their requests

A rescan is a block as well, and an observer that asks for one opens it inside the block of the rescan
that calls the observer. When it returns, that one has its request back, and when a request to stop
ends them all, what was current before is current again (`requests_scoped`).
-/

namespace RouteAtlas

open Request (Current Token Block innermost Nested)

namespace Machine

variable {σ ω : Type} {w : World σ ω} {c : Current} {first : Nat} {m m' : Machine σ ω} {ns : List Nat}

/-- The blocks of rescans, innermost first, by the numbers of their requests. -/
def rescans (w : World σ ω) (c : Current) : List Nat → List Block
  | [] => []
  | n :: ns => ⟨⟨w.requestId n, some "rescan"⟩, ⟨innermost c (rescans w c ns)⟩⟩ :: rescans w c ns

theorem nested_rescans (w : World σ ω) (c : Current) (ns : List Nat) :
    Nested c (rescans w c ns) := by
  induction ns with
  | nil => exact .nil
  | cons n ns ih => exact .cons ⟨w.requestId n, some "rescan"⟩ ih

/-- A scan that is stopped has left its block, and one that has published stands in it. -/
theorem publish_block (w : World σ ω) (m : Machine σ ω) (paths : List String) :
    (m.publish w paths).1.requests = m.requests + 1 ∧
    ((∃ f, (m.publish w paths).2 = .error f ∧ (m.publish w paths).1.stack = m.stack ∧
      (m.publish w paths).1.current = m.current) ∨
    ∃ scan, (m.publish w paths).2 = .ok scan ∧
      (m.publish w paths).1.stack = ⟨⟨m.current⟩, .published⟩ :: m.stack ∧
      (m.publish w paths).1.current = some ⟨w.requestId m.requests, some "rescan"⟩) := by
  unfold publish
  rcases Scan.run w.extract m.index.snapshot paths (w.read m.world) with ⟨outcome, messages⟩
  dsimp only
  rw [foldl_say]
  cases outcome with
  | error f => exact ⟨rfl, Or.inl ⟨f, rfl, rfl, rfl⟩⟩
  | ok scan => exact ⟨rfl, Or.inr ⟨scan, rfl, rfl, rfl⟩⟩

/-- The rescans in progress are the blocks of these requests, each asked for after the one around it.
The outermost one is the first. -/
structure Enclosed (w : World σ ω) (c : Current) (first : Nat) (m : Machine σ ω) (ns : List Nat) :
    Prop where
  tokens : m.stack.map Frame.token = (rescans w c ns).map Block.token
  current : m.current = innermost c (rescans w c ns)
  ordered : (m.requests :: ns).Pairwise (· > ·)
  outermost : ∀ n ∈ ns.getLast?, n = first

namespace Enclosed

variable {frame : Frame σ ω} {below : List (Frame σ ω)}

theorem of_eq (h : Enclosed w c first m ns)
    (htokens : m'.stack.map Frame.token = m.stack.map Frame.token) (hcurrent : m'.current = m.current)
    (hrequests : m'.requests = m.requests) : Enclosed w c first m' ns where
  tokens := htokens.trans h.tokens
  current := hcurrent.trans h.current
  ordered := by
    rw [hrequests]
    exact h.ordered
  outermost := h.outermost

/-- A rescan that only goes on to another phase stays in its block. -/
theorem goOn (h : Enclosed w c first m ns) (hs : m.stack = frame :: below) (phase : Phase σ ω) :
    Enclosed w c first (m.goOn frame below phase) ns := by
  refine h.of_eq ?_ rfl rfl
  rw [hs]
  rfl

/-- A scan that is stopped changes nothing around it. -/
theorem of_stopped (h : Enclosed w c first m ns) (hstack : m'.stack = m.stack)
    (hcurrent : m'.current = m.current) (hrequests : m'.requests = m.requests + 1) :
    Enclosed w c first m' ns where
  tokens := by
    rw [hstack]
    exact h.tokens
  current := hcurrent.trans h.current
  ordered := by
    obtain ⟨hlt, hpairwise⟩ := List.pairwise_cons.mp h.ordered
    rw [hrequests]
    refine List.pairwise_cons.mpr ⟨fun n hn => ?_, hpairwise⟩
    have hn := hlt n hn
    omega
  outermost := h.outermost

/-- A scan that has published stands inside the rescans that were in progress. -/
theorem of_published (h : Enclosed w c first m ns)
    (hstack : m'.stack = ⟨⟨m.current⟩, .published⟩ :: m.stack)
    (hcurrent : m'.current = some ⟨w.requestId m.requests, some "rescan"⟩)
    (hrequests : m'.requests = m.requests + 1) (hfirst : ns = [] → m.requests = first) :
    Enclosed w c first m' (m.requests :: ns) where
  tokens := by
    have htokens := h.tokens
    have hsaved := h.current
    rw [hstack, List.map_cons, htokens, hsaved]
    rfl
  current := hcurrent
  ordered := by
    obtain ⟨hlt, -⟩ := List.pairwise_cons.mp h.ordered
    rw [hrequests]
    refine List.pairwise_cons.mpr ⟨fun n hn => ?_, h.ordered⟩
    rcases List.mem_cons.mp hn with rfl | hn
    · omega
    · have hn := hlt n hn
      omega
  outermost := by
    intro n hn
    cases ns with
    | nil =>
      obtain rfl : m.requests = n := Option.some.inj hn
      exact hfirst rfl
    | cons n' ns =>
      rw [List.getLast?_cons_cons] at hn
      exact h.outermost n hn

/-- When a rescan returns, what was current when it was asked for is current again. -/
theorem leave (h : Enclosed w c first m ns) (hs : m.stack = frame :: below) :
    ∃ ns, Enclosed w c first (m.leave frame below) ns := by
  have htokens := h.tokens
  rw [hs] at htokens
  cases ns with
  | nil => exact absurd htokens (by simp [rescans])
  | cons n ns =>
    obtain ⟨htoken, hrest⟩ := List.cons.inj htokens
    refine ⟨ns, hrest, ?_, ?_, ?_⟩
    · show Request.leave frame.token = innermost c (rescans w c ns)
      rw [htoken]
      exact (nested_rescans w c (n :: ns)).leave_token
    · obtain ⟨hlt, hpairwise⟩ := List.pairwise_cons.mp h.ordered
      obtain ⟨-, hpairwise⟩ := List.pairwise_cons.mp hpairwise
      exact List.pairwise_cons.mpr ⟨fun n hn => hlt n (List.mem_cons_of_mem _ hn), hpairwise⟩
    · have houtermost := h.outermost
      cases ns with
      | nil => exact fun n hn => absurd hn (by simp)
      | cons n' ns =>
        rw [List.getLast?_cons_cons] at houtermost
        exact houtermost

/-- A request to stop gets out of all the blocks, and what was current around them is current again. -/
theorem unwind (h : Enclosed w c first m ns) (f : Fault) : Enclosed w c first (m.unwind f) [] := by
  have hall := (nested_rescans w c ns).foldl_leave
  rw [← h.tokens, List.foldl_map, ← h.current] at hall
  exact ⟨rfl, hall, List.pairwise_singleton _ _, fun n hn => absurd hn (by simp)⟩

variable [DecidableEq ω]

/-- What an observer does begins a rescan inside the others at most. -/
theorem perform (h : Enclosed w c first m ns) (hs : m.stack ≠ []) (deed : Deed σ ω) :
    ∃ ns, Enclosed w c first (m.perform w deed).1 ns := by
  cases deed with
  | rescan paths =>
    obtain ⟨hrequests, hblock⟩ := publish_block w m paths
    rcases hblock with ⟨f, -, hstack, hcurrent⟩ | ⟨scan, -, hstack, hcurrent⟩
    · exact ⟨ns, h.of_stopped hstack hcurrent hrequests⟩
    · refine ⟨m.requests :: ns, h.of_published hstack hcurrent hrequests fun hns => ?_⟩
      have htokens := h.tokens
      rw [hns] at htokens
      exact absurd (List.map_eq_nil_iff.mp htokens) hs
  | subscribe observer handle => exact ⟨ns, h.of_eq rfl rfl rfl⟩
  | cancel handle =>
    unfold Machine.perform
    dsimp only
    cases m.index.cancel handle with
    | ok index => exact ⟨ns, h.of_eq rfl rfl rfl⟩
    | error f => exact ⟨ns, h⟩
  | raise f => exact ⟨ns, h⟩
  | change g =>
    unfold Machine.perform
    dsimp only
    cases g m.index.snapshot m.world with
    | ok world => exact ⟨ns, h.of_eq rfl rfl rfl⟩
    | error f => exact ⟨ns, h⟩

/-- Nothing that an observer does, and no failure of it, gets out of step with the blocks. -/
theorem nextDeed (h : Enclosed w c first m ns) (hs : m.stack = frame :: below) (waiting : List ω)
    (observer : ω) (deeds : List (Deed σ ω)) :
    ∃ ns, Enclosed w c first (m.nextDeed w frame below waiting observer deeds) ns := by
  cases deeds with
  | nil => exact ⟨ns, h.goOn hs _⟩
  | cons deed deeds =>
    let before := m.goOn frame below (.call waiting observer deeds)
    have hbefore : Enclosed w c first before ns := h.goOn hs _
    obtain ⟨ns', hafter⟩ := hbefore.perform (List.cons_ne_nil _ _) deed
    cases hresult : (before.perform w deed).2 with
    | ok u =>
      rw [nextDeed_of_ok hresult]
      exact ⟨ns', hafter⟩
    | error f =>
      rw [nextDeed_of_error hresult]
      by_cases hf : f.isFatal = true
      · rw [if_pos hf]
        exact ⟨[], hafter.unwind f⟩
      · rw [if_neg hf]
        rcases perform_cases w before deed with hquiet | ⟨scan, -, hok⟩
        · exact ⟨ns', (hafter.goOn hquiet.stack (.round waiting)).of_eq rfl rfl rfl⟩
        · rw [hresult] at hok
          exact absurd hok (by simp)

/-- Every step keeps the rescans in blocks. -/
theorem step (h : Enclosed w c first m ns) : ∃ ns, Enclosed w c first (m.step w) ns := by
  cases hs : m.stack with
  | nil =>
    rw [step_of_nil hs]
    exact ⟨ns, h⟩
  | cons frame below =>
    obtain ⟨token, phase⟩ := frame
    rw [step_of_stack hs]
    cases phase with
    | published =>
      dsimp only [dispatch]
      split
      · exact ⟨ns, h.goOn hs _⟩
      · exact ⟨ns, (h.goOn hs .between).of_eq rfl rfl rfl⟩
    | between =>
      dsimp only [nextRound]
      split
      · exact ⟨ns, (h.goOn hs .returning).of_eq rfl rfl rfl⟩
      · exact ⟨ns, (h.goOn hs (.round m.index.observers)).of_eq rfl rfl rfl⟩
    | round waiting =>
      cases waiting with
      | nil => exact ⟨ns, (h.goOn hs .between).of_eq rfl rfl rfl⟩
      | cons observer waiting =>
        have hcall := h.goOn hs (.call waiting observer (w.respond m.world observer m.index.snapshot))
        exact ⟨ns, hcall.of_eq rfl rfl rfl⟩
    | call waiting observer deeds => exact h.nextDeed hs waiting observer deeds
    | returning => exact h.leave hs

end Enclosed

/-- The rescans in progress are scoped, of which the outermost is the one with the first of the
requests, asked for while `c` was current. -/
structure Scoped (w : World σ ω) (c : Current) (first : Nat) (m : Machine σ ω) : Prop where
  /-- The innermost rescan is current, each has a later request than the one around it, and what it
  restores is what is current in that one. -/
  blocks : ∃ ns : List Nat, ns.Pairwise (· > ·) ∧
    m.stack.map Frame.token = (rescans w c ns).map Block.token ∧
    m.current = innermost c (rescans w c ns)
  /-- While the outermost rescan is the only one, its request is current. -/
  alone : ∀ frame, m.stack = [frame] → m.current = some ⟨w.requestId first, some "rescan"⟩
  /-- What was current before is current again when the rescans have returned or failed. -/
  idle : m.stack = [] → m.current = c

theorem Enclosed.scoped (h : Enclosed w c first m ns) : Scoped w c first m where
  blocks := ⟨ns, h.ordered.of_cons, h.tokens, h.current⟩
  alone := by
    intro frame hs
    have htokens := h.tokens
    have hcurrent := h.current
    have houtermost := h.outermost
    rw [hs] at htokens
    cases ns with
    | nil => exact absurd htokens (by simp [rescans])
    | cons n rest =>
      cases rest with
      | nil =>
        obtain rfl := houtermost n rfl
        exact hcurrent
      | cons n' rest => exact absurd htokens (by simp [rescans])
  idle := by
    intro hs
    have htokens := h.tokens
    have hcurrent := h.current
    rw [hs] at htokens
    cases ns with
    | nil => exact hcurrent
    | cons n ns => exact absurd htokens (by simp [rescans])

/-- A rescan from outside and those that observers ask for are scoped, after any number of steps. -/
theorem scoped_rescan [DecidableEq ω] (w : World σ ω) (hs : m.stack = []) (paths : List String)
    (fuel : Nat) : (m.rescan w fuel paths).1.Scoped w m.current m.requests := by
  have hbefore : Enclosed w m.current m.requests m [] := by
    refine ⟨?_, rfl, List.pairwise_singleton _ _, fun n hn => absurd hn (by simp)⟩
    rw [hs]
    rfl
  obtain ⟨hrequests, hblock⟩ := publish_block w m paths
  rcases hblock with ⟨f, hresult, hstack, hcurrent⟩ | ⟨scan, hresult, hstack, hcurrent⟩
  · rw [rescan_of_error hresult]
    exact (hbefore.of_stopped hstack hcurrent hrequests).scoped
  · rw [rescan_of_ok hresult]
    have hpublished := hbefore.of_published hstack hcurrent hrequests fun _ => rfl
    obtain ⟨ns, h⟩ := settle_induction (P := fun m' => ∃ ns, Enclosed w m.current m.requests m' ns)
      (fun m' ⟨_, h⟩ => h.step) ⟨_, hpublished⟩ fuel
    exact h.scoped

end Machine

/-! ## The whole -/

/-- Requests are scoped by blocks, whatever stands in and after one another, fails and is caught:
work that starts while `c` is current is scoped at every moment, and ends as its account says with
`c` current again. So are the rescans that an index runs and that observers ask for meanwhile. -/
theorem requests_scoped :
    (∀ (c : Current) (work : Work),
      (∀ fuel, (Worker.run fuel (Worker.start c work)).Scoped c) ∧
      ∃ enough, ∀ fuel ≥ enough,
        Worker.run fuel (Worker.start c work) = Worker.ended c [] [] (work.account c)) ∧
    ∀ {σ ω : Type} [DecidableEq ω] (w : World σ ω) (m : Machine σ ω) (paths : List String),
      m.stack = [] → ∀ fuel,
        (m.rescan w fuel paths).1.Scoped w m.current m.requests := by
  refine ⟨fun c work => ⟨fun fuel => ?_, Worker.exists_run_eq work c⟩, ?_⟩
  · exact ((Worker.Held.start c work).run fuel).scoped
  · intro σ ω _ w m paths hs fuel
    exact Machine.scoped_rescan w hs paths fuel

/-- A block in which another one fails, after which the identifier is asked for. -/
def Work.interrupted : Work :=
  .under ⟨"outer", none⟩ (.andThen
    (.rescue (.under ⟨"inner", none⟩ (.andThen (.ask fun _ => .fail (.missingKey [])) .done))
      (fun _ => true) fun _ => .done)
    (.ask fun _ => .fail (.missingKey [])))

/-- The failure gets out of the inner block and is caught in the outer one; another one gets out of
both. In the small world an observer asks for a rescan of its own, which has returned after the seventh
step. -/
theorem requests_scoped_interrupted :
    (∃ enough, ∀ fuel ≥ enough,
      (Worker.run fuel (Worker.start none Work.interrupted)).trace =
        [.left none, .read (some "outer"), .left (some ⟨"outer", none⟩), .read (some "inner"),
          .entered ⟨"inner", none⟩ (some ⟨"outer", none⟩), .entered ⟨"outer", none⟩ none] ∧
      (Worker.run fuel (Worker.start none Work.interrupted)).current = none) ∧
    (Machine.small.rescan smallWorld 6 []).1.current = some ⟨"1", some "rescan"⟩ ∧
    (Machine.small.rescan smallWorld 7 []).1.current = some ⟨"0", some "rescan"⟩ ∧
    (Machine.small.rescan smallWorld 30 []).1.current = none := by
  obtain ⟨hwork, hrescan⟩ := requests_scoped
  obtain ⟨-, enough, henough⟩ := hwork none Work.interrupted
  refine ⟨⟨enough, fun fuel hle => ?_⟩, by decide, ?_, ?_⟩
  · rw [henough fuel hle]
    decide
  · obtain ⟨frame, hframe⟩ : ∃ frame, (Machine.small.rescan smallWorld 7 []).1.stack = [frame] :=
      ⟨_, rfl⟩
    exact (hrescan smallWorld Machine.small [] rfl 7).alone frame hframe
  · exact (hrescan smallWorld Machine.small [] rfl 30).idle rfl

end RouteAtlas
