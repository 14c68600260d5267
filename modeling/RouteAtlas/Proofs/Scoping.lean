import Mathlib.Data.List.Basic
import RouteAtlas.Request.Work

/-!
# Work is scoped by its blocks

What is current is kept in one place that blocks overwrite and restore. Still every question for an
identifier is answered as the blocks around it say (`Worker.Held.scoped`), and whatever happens in a
block, what was current at its entry is current again behind it (`Worker.comes_account`).
-/

namespace RouteAtlas

namespace Request

/-! ## Open blocks -/

/-- An open block, with the token to leave it. -/
structure Block where
  request : Request
  token : Token
deriving DecidableEq, Repr

/-- What is current in some open blocks, innermost first, that stand where `c` is current. -/
def innermost (c : Current) : List Block → Current
  | [] => c
  | b :: _ => some b.request

/-- Each block was entered in the ones after it: its token holds what is current in them. -/
inductive Nested (c : Current) : List Block → Prop
  | nil : Nested c []
  | cons {blocks : List Block} (r : Request) (h : Nested c blocks) :
      Nested c (⟨r, (enter (innermost c blocks) r).2⟩ :: blocks)

namespace Nested

variable {c : Current} {b : Block} {blocks : List Block}

theorem leave_token (h : Nested c (b :: blocks)) : leave b.token = innermost c blocks := by
  cases h
  rfl

theorem of_cons (h : Nested c (b :: blocks)) : Nested c blocks := by
  cases h with
  | cons r h => exact h

/-- When all blocks are left at once, what was current around them is current again. -/
theorem foldl_leave (h : Nested c blocks) :
    (blocks.map Block.token).foldl (fun _ token => leave token) (innermost c blocks) = c := by
  induction h with
  | nil => rfl
  | cons r h ih => exact ih

end Nested

end Request

open Request (Current Token Block innermost Nested currentId)

/-! ## What shows of work -/

namespace Work

/-- The blocks that are open after what has shown, newest first. -/
def opened : List Sight → List Block
  | [] => []
  | .entered r before :: t => ⟨r, ⟨before⟩⟩ :: opened t
  | .read _ :: t => opened t
  | .left _ :: t => (opened t).tail

/-- Blocks are entered, identifiers are read and blocks are left as the open blocks say. -/
inductive Orderly (c : Current) : List Sight → Prop
  | nil : Orderly c []
  | entered {t : List Sight} (r : Request) (h : Orderly c t) :
      Orderly c (.entered r (innermost c (opened t)) :: t)
  | read {t : List Sight} (h : Orderly c t) :
      Orderly c (.read (currentId (innermost c (opened t))) :: t)
  | left {t : List Sight} {b : Block} {blocks : List Block} (h : Orderly c t)
      (ho : opened t = b :: blocks) : Orderly c (.left b.token.saved :: t)

namespace Orderly

variable {c : Current} {t later before : List Sight}

theorem nested (h : Orderly c t) : Nested c (opened t) := by
  induction h with
  | nil => exact .nil
  | entered r h ih => exact .cons r ih
  | read h ih => exact ih
  | left h ho ih =>
    rw [ho] at ih
    rw [opened, ho]
    exact ih.of_cons

theorem of_append (h : Orderly c (later ++ t)) : Orderly c t := by
  induction later with
  | nil => exact h
  | cons s later ih =>
    rw [List.cons_append] at h
    cases h with
    | entered r h => exact ih h
    | read h => exact ih h
    | left h ho => exact ih h

theorem of_entered {r : Request} {current : Current}
    (h : Orderly c (later ++ .entered r current :: before)) :
    current = innermost c (opened before) := by
  have hentered := h.of_append
  cases hentered with
  | entered r h => rfl

theorem of_read {id : Option String} (h : Orderly c (later ++ .read id :: before)) :
    id = currentId (innermost c (opened before)) := by
  have hread := h.of_append
  cases hread with
  | read h => rfl

theorem of_left {after : Current} (h : Orderly c (later ++ .left after :: before)) :
    ∃ r blocks, opened before = ⟨r, ⟨after⟩⟩ :: blocks := by
  have hleft := h.of_append
  cases hleft with
  | left h ho => exact ⟨_, _, ho⟩

end Orderly

/-- What shows of work and how it ends, when each part of it is told what is current around it and
nothing is kept, overwritten or restored. -/
def account : Work → Current → List Sight × Except Fault Unit
  | done, _ => ([], .ok ())
  | ask next, around =>
    let (seen, ending) := account (next (currentId around)) around
    (.read (currentId around) :: seen, ending)
  | fail f, _ => ([], .error f)
  | andThen first second, around =>
    match account first around with
    | (seen, .error f) => (seen, .error f)
    | (seen, .ok ()) =>
      let (more, ending) := account second around
      (seen ++ more, ending)
  | under r body, around =>
    let (seen, ending) := account body (some r)
    (.entered r around :: seen ++ [.left around], ending)
  | rescue body catches handler, around =>
    match account body around with
    | (seen, .ok ()) => (seen, .ok ())
    | (seen, .error f) =>
      if catches f then
        let (more, ending) := account (handler f) around
        (seen ++ more, ending)
      else (seen, .error f)

end Work

/-! ## One step of a worker -/

namespace Worker

open Work (Layer Sight Orderly opened account)

variable {c : Current} {w : Worker}

/-- What holds of a worker between two steps. -/
structure Held (c : Current) (w : Worker) : Prop where
  orderly : Orderly c w.trace
  tokens : w.stack.filterMap Layer.token? = (opened w.trace).map Block.token
  current : w.current = innermost c (opened w.trace)

namespace Held

theorem start (c : Current) (work : Work) : Held c (Worker.start c work) := ⟨.nil, rfl, rfl⟩

theorem goOn (h : Held c w) (hand : Except Fault Work) {stack : List Layer}
    (htokens : stack.filterMap Layer.token? = w.stack.filterMap Layer.token?) :
    Held c (w.goOn hand stack) :=
  ⟨h.orderly, htokens.trans h.tokens, h.current⟩

theorem ask (h : Held c w) (next : Option String → Work) : Held c (w.ask next) := by
  refine ⟨?_, h.tokens, h.current⟩
  unfold Worker.ask
  rw [h.current]
  exact .read h.orderly

theorem enter (h : Held c w) (r : Request) (body : Work) : Held c (w.enter r body) := by
  refine ⟨?_, ?_, rfl⟩
  · unfold Worker.enter
    rw [h.current]
    exact .entered r h.orderly
  · have htokens := h.tokens
    show (⟨w.current⟩ : Token) :: w.stack.filterMap Layer.token? =
      ⟨w.current⟩ :: (opened w.trace).map Block.token
    rw [htokens]

/-- The block that is left is the innermost one, since the tokens wait in the order of the blocks. -/
theorem leave (h : Held c w) {token : Token} {rest : List Layer}
    (hs : w.stack = .block token :: rest) : Held c (w.leave token rest) := by
  have htokens := h.tokens
  rw [hs] at htokens
  cases ho : opened w.trace with
  | nil =>
    rw [ho] at htokens
    exact absurd htokens (by simp [Layer.token?])
  | cons b blocks =>
    rw [ho] at htokens
    obtain ⟨rfl, hrest⟩ := List.cons.inj htokens
    have hnested := h.orderly.nested
    rw [ho] at hnested
    refine ⟨.left h.orderly ho, ?_, ?_⟩
    · show rest.filterMap Layer.token? = (opened w.trace).tail.map Block.token
      rw [ho]
      exact hrest
    · show Request.leave b.token = innermost c (opened w.trace).tail
      rw [ho]
      exact hnested.leave_token

theorem finish (h : Held c w) : Held c w.finish := by
  unfold Worker.finish
  cases hs : w.stack with
  | nil => exact h
  | cons layer rest =>
    cases layer with
    | next work => exact h.goOn _ (by rw [hs]; rfl)
    | block token => exact h.leave hs
    | rescue catches handler => exact h.goOn _ (by rw [hs]; rfl)

theorem escape (h : Held c w) (f : Fault) : Held c (w.escape f) := by
  unfold Worker.escape
  cases hs : w.stack with
  | nil => exact h
  | cons layer rest =>
    cases layer with
    | next work => exact h.goOn _ (by rw [hs]; rfl)
    | block token => exact h.leave hs
    | rescue catches handler => exact h.goOn _ (by rw [hs]; rfl)

/-- Every step keeps what holds of a worker. -/
theorem step (h : Held c w) : Held c w.step := by
  unfold Worker.step
  cases w.hand with
  | error f => exact h.escape f
  | ok work =>
    cases work with
    | done => exact h.finish
    | ask next => exact h.ask next
    | fail f => exact h.goOn _ rfl
    | andThen first second => exact h.goOn _ rfl
    | under r body => exact h.enter r body
    | rescue body catches handler => exact h.goOn _ rfl

theorem run (h : Held c w) (fuel : Nat) : Held c (Worker.run fuel w) := by
  induction fuel generalizing w with
  | zero => exact h
  | succ fuel ih => exact ih h.step

end Held

/-- At any moment, what is current, what has been read, and what was current when blocks were entered
and left is what the blocks say that were open then. -/
structure Scoped (c : Current) (w : Worker) : Prop where
  current : w.current = innermost c (opened w.trace)
  /-- The open blocks have still to be left. -/
  tokens : w.stack.filterMap Layer.token? = (opened w.trace).map Block.token
  /-- An identifier that was read is that of the innermost block that was open. -/
  read : ∀ later before id, w.trace = later ++ .read id :: before →
    id = currentId (innermost c (opened before))
  /-- What a block has found is what was current. -/
  entered : ∀ later before r current, w.trace = later ++ .entered r current :: before →
    current = innermost c (opened before)
  /-- A block leaves behind what it has found. -/
  left : ∀ later before after, w.trace = later ++ .left after :: before →
    ∃ r blocks, opened before = ⟨r, ⟨after⟩⟩ :: blocks

theorem Held.scoped (h : Held c w) : Scoped c w where
  current := h.current
  tokens := h.tokens
  read := by
    intro later before id htrace
    have horderly := h.orderly
    rw [htrace] at horderly
    exact horderly.of_read
  entered := by
    intro later before r current htrace
    have horderly := h.orderly
    rw [htrace] at horderly
    exact horderly.of_entered
  left := by
    intro later before after htrace
    have horderly := h.orderly
    rw [htrace] at horderly
    exact horderly.of_left

/-! ## Whole runs -/

/-- A worker comes to another state. -/
def Comes (w w' : Worker) : Prop := ∃ fuel, run fuel w = w'

theorem run_add (fuel more : Nat) (w : Worker) : run (fuel + more) w = run more (run fuel w) := by
  induction fuel generalizing w with
  | zero => rw [Nat.zero_add, run]
  | succ fuel ih => rw [Nat.succ_add, run, run, ih]

theorem Comes.refl (w : Worker) : Comes w w := ⟨0, rfl⟩

theorem Comes.step {w w' : Worker} (h : Comes w.step w') : Comes w w' := by
  obtain ⟨fuel, hrun⟩ := h
  exact ⟨fuel + 1, hrun⟩

theorem Comes.trans {w w' w'' : Worker} (h : Comes w w') (h' : Comes w' w'') : Comes w w'' := by
  obtain ⟨fuel, rfl⟩ := h
  obtain ⟨more, rfl⟩ := h'
  exact ⟨fuel + more, run_add fuel more w⟩

/-- A worker whose work at hand has ended, with what has shown of it on top of what was there. -/
def ended (around : Current) (stack : List Layer) (t : List Sight) :
    List Sight × Except Fault Unit → Worker
  | (seen, ending) => ⟨around, ending.map fun _ => .done, stack, seen.reverse ++ t⟩

/-- What shows first of some work may as well have shown before. -/
theorem ended_append (around : Current) (stack : List Layer) (t seen more : List Sight)
    (ending : Except Fault Unit) :
    ended around stack t (seen ++ more, ending) =
      ended around stack (seen.reverse ++ t) (more, ending) := by
  simp only [ended, List.reverse_append, List.append_assoc]

/-- Behind a block, what was current before it is current again, however the work in it has ended. -/
theorem comes_leave (around during : Current) (stack : List Layer) (t seen : List Sight)
    (ending : Except Fault Unit) :
    Comes (ended during (.block ⟨around⟩ :: stack) t (seen, ending))
      (ended around stack t (seen ++ [Sight.left around], ending)) := by
  rw [ended_append]
  refine Comes.step ?_
  cases ending with
  | error f => exact .refl _
  | ok u => exact .refl _

/-- Work is done as the account of it says, and what was current before is current behind it,
whatever waits around it. -/
theorem comes_account (work : Work) (around : Current) (stack : List Layer) (t : List Sight) :
    Comes ⟨around, .ok work, stack, t⟩ (ended around stack t (account work around)) := by
  induction work generalizing around stack t with
  | done => exact .refl _
  | ask next ih =>
    have hnext := ih (currentId around) around stack (.read (currentId around) :: t)
    rw [account]
    rcases hread : account (next (currentId around)) around with ⟨seen, ending⟩
    rw [hread] at hnext
    dsimp only
    rw [← List.singleton_append, ended_append]
    exact .step hnext
  | fail f => exact .step (.refl _)
  | andThen first second ihFirst ihSecond =>
    have hfirst := ihFirst around (.next second :: stack) t
    rw [account]
    refine Comes.step (Comes.trans hfirst (Comes.step ?_))
    rcases account first around with ⟨seen, f | _⟩
    · exact .refl _
    · have hsecond := ihSecond around stack (seen.reverse ++ t)
      dsimp only
      rw [ended_append]
      exact hsecond
  | under r body ih =>
    have hbody := ih (some r) (.block ⟨around⟩ :: stack) (.entered r around :: t)
    rw [account]
    rcases hinner : account body (some r) with ⟨seen, ending⟩
    rw [hinner] at hbody
    have hleave := comes_leave around (some r) stack (.entered r around :: t) seen ending
    dsimp only
    rw [List.cons_append, ← List.singleton_append, ended_append]
    exact .step (hbody.trans hleave)
  | rescue body catches handler ihBody ihHandler =>
    have hbody := ihBody around (.rescue catches handler :: stack) t
    rw [account]
    refine Comes.step (Comes.trans hbody (Comes.step ?_))
    rcases account body around with ⟨seen, f | _⟩
    · have hescape : (ended around (.rescue catches handler :: stack) t (seen, .error f)).step =
          ⟨around, if catches f then .ok (handler f) else .error f, stack, seen.reverse ++ t⟩ := rfl
      rw [hescape]
      by_cases hf : catches f = true
      · have hhandler := ihHandler f around stack (seen.reverse ++ t)
        simp only [if_pos hf]
        rw [ended_append]
        exact hhandler
      · simp only [if_neg hf]
        exact .refl _
    · exact .refl _

/-- Nothing is left to do for a worker whose work has ended and around whom nothing waits. -/
theorem run_ended (around : Current) (t : List Sight) (told : List Sight × Except Fault Unit)
    (fuel : Nat) : run fuel (ended around [] t told) = ended around [] t told := by
  have hstep : (ended around [] t told).step = ended around [] t told := by
    rcases told with ⟨seen, _ | _⟩
    · rfl
    · rfl
  induction fuel with
  | zero => rfl
  | succ fuel ih => rw [run, hstep, ih]

theorem exists_run_eq (work : Work) (c : Current) :
    ∃ enough, ∀ fuel ≥ enough, run fuel (start c work) = ended c [] [] (account work c) := by
  obtain ⟨enough, henough⟩ := comes_account work c [] []
  refine ⟨enough, fun fuel hle => ?_⟩
  obtain ⟨more, rfl⟩ := Nat.exists_eq_add_of_le hle
  rw [run_add, start, henough, run_ended]

end Worker

end RouteAtlas
